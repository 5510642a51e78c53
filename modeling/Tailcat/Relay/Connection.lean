import Tailcat.Base.Machine
import Tailcat.Protocol.Types

/-!
# Relayed connections

`ServedTcpPorts`, `LocalTcpForwarder` and `SocksProxy` each relay connections between a stream of
the IP stack, the tunnel, and a host socket. A thread of its own reads the host socket and queues
what it reads; `service` moves octets in both directions and is called again and again. It locks the
queue twice, so that a call has three parts between which the reader may run: the part before the
first lock, the part from there to the second lock, and the rest.

The relays of different connections share nothing; a machine runs one of them.

## Main definitions

* `Relay`: the three classes
* `Connection`: what they keep of a connection
* `beginService`, `takeHostChunk`, `writePending`, `shutdownHost`, `endService`: the parts of
  `service`
* `relayMachine`: a connection, with the reader thread and the events of the tunnel
* `RelayStep`: what a step of it can do

## Main results

* `relayMachine_step`: a step of the machine is one of these
-/

namespace Tailcat

/-- The classes of the program that relay between the tunnel and host sockets. -/
inductive Relay
  | servedTcpPorts
  | localTcpForwarder
  | socksProxy
  deriving DecidableEq

/-- What the reader thread of a host socket has read. -/
structure HostReadState where
  chunks : List (List UInt8) := []
  eof : Bool := false
  error : String := ""
  deriving DecidableEq

/-- A stream of the IP stack, as far as `service` sees it. -/
structure Tunnel where
  connected : Bool
  eof : Bool := false
  failed : Bool := false
  received : List UInt8 := []
  deriving DecidableEq

/-- The fields of a `Connection`, with the ends of it that they point to. -/
structure Connection where
  tunnel : Tunnel
  /-- Absent until the reader thread is started. -/
  hostRead : Option HostReadState
  pendingToTunnel : List UInt8 := []
  pendingOffset : ℕ := 0
  /-- Always false but for `SocksProxy`. -/
  replied : Bool := false
  tunnelWriteShutdown : Bool := false
  hostWriteShutdown : Bool := false
  finished : Bool := false
  deriving DecidableEq

/-- What happens at a connection: what the host and the tunnel sent, and what `service` did. Closing
is closing of both streams. -/
inductive RelayOutput
  | hostRead (chunk : List UInt8)
  | hostEof
  | tunnelReceived (octets : List UInt8)
  | tunnelFin
  | toTunnel (octets : List UInt8)
  | tunnelShutdown
  | toHost (octets : List UInt8)
  | hostShutdown
  | reply (code : UInt8)
  | closed
  deriving DecidableEq

/-- Where `service` stands: not running, before the first lock, or before the second one. -/
inductive ServicePoint
  | idle
  | taking
  | checking
  deriving DecidableEq

namespace Connection

/-- A new connection; the streams of a server are connected from the start. -/
def new : Relay → Connection
  | .servedTcpPorts => { tunnel := { connected := true }, hostRead := some {} }
  | .localTcpForwarder => { tunnel := { connected := false }, hostRead := some {} }
  | .socksProxy => { tunnel := { connected := false }, hostRead := none }

/-- What a part of `service` does: the connection after it, what happened, and whether `service`
ended in it because the connection was closed. -/
abbrev Part := Connection × List RelayOutput × Bool

/-- A part of `service`, and the next one unless the first one ended it. -/
def Part.andThen (p : Part) (f : Connection → Part) : Part :=
  if p.2.2 then p else ((f p.1).1, p.2.1 ++ (f p.1).2.1, (f p.1).2.2)

/-- An exception in `service`, or the end of a connection. -/
def stop (c : Connection) (os : List RelayOutput) : Part :=
  ({ c with finished := true }, os ++ [.closed], true)

/-- `SocksProxy` answers the host when the tunnel is connected, and then starts to read it. -/
def replyOnce (relay : Relay) (throws : Bool) (c : Connection) : Part :=
  if relay = .socksProxy ∧ ¬ c.replied then
    if throws then
      c.stop [.reply 0x00]
    else
      ({ c with replied := true, hostRead := some {} }, [.reply 0x00], false)
  else
    (c, [], false)

/-- What the tunnel received is written to the host. `written` is how much of it was written before
writing threw, if it did. -/
def writeReceived (written : Option ℕ) (c : Connection) : Part :=
  let received := c.tunnel.received
  let c := { c with tunnel := { c.tunnel with received := [] } }
  if received = [] then
    (c, [], false)
  else
    match written with
    | none => (c, [.toHost received], false)
    | some k => c.stop [.toHost (received.take k)]

/-- `service` up to the first lock. -/
def beginService (relay : Relay) (replyThrows : Bool) (written : Option ℕ) (c : Connection) :
    Connection × List RelayOutput × ServicePoint :=
  if c.finished then
    (c, [], .idle)
  else if c.tunnel.failed then
    let (c, os, _) := c.stop (if relay = .socksProxy ∧ ¬ c.replied then [.reply 0x05] else [])
    (c, os, .idle)
  else if relay ≠ .servedTcpPorts ∧ ¬ c.tunnel.connected then
    -- A forwarder looks at the queue all the same, the proxy only when it has started to read.
    if relay = .socksProxy ∧ ¬ (c.replied ∧ c.hostRead.isSome) then (c, [], .idle)
    else (c, [], .checking)
  else
    let (c, os, stopped) := (c.replyOnce relay replyThrows).andThen (writeReceived written)
    (c, os, if stopped then .idle else .taking)

/-- `take_host_chunk`, with the first lock. -/
def takeHostChunk (relay : Relay) (shutdownThrows : Bool) (c : Connection) : Part :=
  match c.hostRead with
  | none => (c, [], false)
  | some hostRead =>
    if c.pendingOffset ≠ c.pendingToTunnel.length then
      (c, [], false)
    else
      let c := { c with
        pendingToTunnel := hostRead.chunks.headD []
        pendingOffset := 0
        hostRead := some { hostRead with chunks := hostRead.chunks.tail } }
      if hostRead.error ≠ "" then
        -- The proxy finishes the connection, but closes it at the end of `service` only.
        if relay = .socksProxy then ({ c with finished := true }, [], false) else c.stop []
      else if c.pendingToTunnel = [] ∧ hostRead.eof ∧
          (relay = .localTcpForwarder → c.tunnel.connected) ∧ ¬ c.tunnelWriteShutdown then
        if shutdownThrows then c.stop []
        else ({ c with tunnelWriteShutdown := true }, [.tunnelShutdown], false)
      else
        (c, [], false)

/-- What is pending is written to the tunnel, which accepts some octets of it or throws. -/
def writePending (accepts : Option ℕ) (c : Connection) : Part :=
  if ¬ c.finished ∧ c.pendingOffset < c.pendingToTunnel.length then
    match accepts with
    | none => c.stop []
    | some n =>
      let accepted := (c.pendingToTunnel.drop c.pendingOffset).take n
      ({ c with pendingOffset := c.pendingOffset + accepted.length }, [.toTunnel accepted], false)
  else
    (c, [], false)

/-- The host socket is shut down for writing when the tunnel has ended. -/
def shutdownHost (throws : Bool) (c : Connection) : Part :=
  if c.tunnel.eof ∧ ¬ c.hostWriteShutdown then
    if throws then c.stop [] else ({ c with hostWriteShutdown := true }, [.hostShutdown], false)
  else
    (c, [], false)

/-- `service` from the first lock to the second one. -/
def middleService (relay : Relay) (shutdownThrows : Bool) (accepts : Option ℕ)
    (hostShutdownThrows : Bool) (c : Connection) : Part :=
  ((c.takeHostChunk relay shutdownThrows).andThen (writePending accepts)).andThen
    (shutdownHost hostShutdownThrows)

/-- `service` from the second lock on. -/
def endService (c : Connection) : Connection × List RelayOutput :=
  match c.hostRead with
  | none => (c, [])
  | some hostRead =>
    if (c.tunnel.eof ∧ hostRead.eof ∧ hostRead.chunks = [] ∧
        c.pendingOffset = c.pendingToTunnel.length) ∨ c.finished then
      ({ c with finished := true }, [.closed])
    else
      (c, [])

end Connection

/-! ## What the parts rely on -/

/-- What a read takes from the queue and what it leaves there. -/
theorem flatten_eq_headD_append (chunks : List (List UInt8)) :
    chunks.flatten = chunks.headD [] ++ chunks.tail.flatten := by
  cases chunks <;> rfl

/-- What is still pending when the tunnel has accepted some of it. -/
theorem drop_accepted (l : List UInt8) (k n : ℕ) :
    l.drop (k + ((l.drop k).take n).length) = (l.drop k).drop n := by
  rw [← List.drop_drop, List.length_take]
  rcases Nat.le_total n (l.drop k).length with hn | hn
  · rw [Nat.min_eq_left hn]
  · rw [Nat.min_eq_right hn, List.drop_length, List.drop_eq_nil_of_le hn]

/-- The tunnel accepts no more than is pending. -/
theorem add_length_accepted_le {l : List UInt8} {k : ℕ} (h : k ≤ l.length) (n : ℕ) :
    k + ((l.drop k).take n).length ≤ l.length := by
  have hle := List.length_take_le' n (l.drop k)
  rw [List.length_drop] at hle
  omega

/-- Taking a chunk leaves the tunnel and the host socket as they are. -/
theorem takeHostChunk_frame (relay : Relay) (shutdownThrows : Bool) (c : Connection) :
    (c.takeHostChunk relay shutdownThrows).1.tunnel = c.tunnel ∧
      (c.takeHostChunk relay shutdownThrows).1.hostWriteShutdown = c.hostWriteShutdown := by
  unfold Connection.takeHostChunk
  split
  · exact ⟨rfl, rfl⟩
  dsimp only
  split
  · exact ⟨rfl, rfl⟩
  split
  · split <;> exact ⟨rfl, rfl⟩
  split
  · split <;> exact ⟨rfl, rfl⟩
  · exact ⟨rfl, rfl⟩

/-- So does writing it. -/
theorem writePending_frame (accepts : Option ℕ) (c : Connection) :
    (c.writePending accepts).1.tunnel = c.tunnel ∧
      (c.writePending accepts).1.hostWriteShutdown = c.hostWriteShutdown := by
  unfold Connection.writePending
  split
  · split <;> exact ⟨rfl, rfl⟩
  · exact ⟨rfl, rfl⟩

/-! ## The threads -/

/-- A step of the reader thread, an event of the tunnel, or a part of `service`, with what the calls
on the two streams do. -/
inductive RelayEvent
  | hostRead (chunk : List UInt8)
  | hostEof
  | hostError (what : String)
  | tunnelConnected
  | tunnelReceive (octets : List UInt8)
  | tunnelFin
  | tunnelFail
  | beginService (replyThrows : Bool) (written : Option ℕ)
  | middleService (shutdownThrows : Bool) (accepts : Option ℕ) (hostShutdownThrows : Bool)
  | endService

/-- Nothing fails: no read, no write, no shutdown and not the tunnel. -/
def RelayEvent.Faultless : RelayEvent → Prop
  | .hostError _ | .tunnelFail => False
  | .beginService replyThrows written => replyThrows = false ∧ written = none
  | .middleService shutdownThrows accepts hostShutdownThrows =>
    shutdownThrows = false ∧ accepts.isSome ∧ hostShutdownThrows = false
  | _ => True

/-- A connection, and where in `service` the thread of its loop stands. -/
structure RelayState where
  connection : Connection
  point : ServicePoint := .idle
  deriving DecidableEq

namespace RelayState

/-- The reader thread works until it has seen the end of the host's stream. -/
def readHost (s : RelayState) (f : HostReadState → HostReadState) (os : List RelayOutput) :
    Option (RelayState × List RelayOutput) :=
  match s.connection.hostRead with
  | none => none
  | some hostRead =>
    if hostRead.eof then none
    else some ({ s with connection := { s.connection with hostRead := some (f hostRead) } }, os)

/-- The tunnel moves between calls of `service`, since both are the pump loop's. -/
def moveTunnel (s : RelayState) (allowed : Tunnel → Prop) [DecidablePred allowed]
    (f : Tunnel → Tunnel) (os : List RelayOutput) : Option (RelayState × List RelayOutput) :=
  if s.point = .idle ∧ allowed s.connection.tunnel then
    some ({ s with connection := { s.connection with tunnel := f s.connection.tunnel } }, os)
  else
    none

end RelayState

/-- The connection of a relay. -/
def relayMachine (relay : Relay) : Machine RelayState RelayEvent RelayOutput where
  init := { connection := .new relay }
  step s
    | .hostRead chunk =>
      if chunk = [] then none
      else s.readHost (fun r => { r with chunks := r.chunks ++ [chunk] }) [.hostRead chunk]
    | .hostEof => s.readHost (fun r => { r with eof := true }) [.hostEof]
    | .hostError what => s.readHost (fun r => { r with error := what, eof := true }) []
    | .tunnelConnected =>
      s.moveTunnel (fun t => ¬ t.connected ∧ ¬ t.failed) (fun t => { t with connected := true }) []
    | .tunnelReceive octets =>
      s.moveTunnel (fun t => t.connected ∧ ¬ t.eof ∧ ¬ t.failed)
        (fun t => { t with received := t.received ++ octets }) [.tunnelReceived octets]
    | .tunnelFin =>
      s.moveTunnel (fun t => t.connected ∧ ¬ t.eof ∧ ¬ t.failed) (fun t => { t with eof := true })
        [.tunnelFin]
    | .tunnelFail => s.moveTunnel (fun t => ¬ t.failed) (fun t => { t with failed := true }) []
    | .beginService replyThrows written =>
      if s.point = .idle then
        let (connection, os, point) := s.connection.beginService relay replyThrows written
        some ({ connection, point }, os)
      else
        none
    | .middleService shutdownThrows accepts hostShutdownThrows =>
      if s.point = .taking then
        let (connection, os, stopped) :=
          s.connection.middleService relay shutdownThrows accepts hostShutdownThrows
        some ({ connection, point := if stopped then .idle else .checking }, os)
      else
        none
    | .endService =>
      if s.point = .checking then
        let (connection, os) := s.connection.endService
        some ({ connection }, os)
      else
        none

/-! ## What a step can do -/

variable {relay : Relay} {s s' : RelayState} {e : RelayEvent} {os os' : List RelayOutput}

theorem readHost_eq_some {f : HostReadState → HostReadState}
    (hs : s.readHost f os = some (s', os')) :
    os' = os ∧ ∃ r, s.connection.hostRead = some r ∧ r.eof = false ∧
      s' = { s with connection := { s.connection with hostRead := some (f r) } } := by
  unfold RelayState.readHost at hs
  split at hs
  · cases hs
  · rename_i r hr
    split at hs
    · cases hs
    · rename_i heof
      obtain ⟨rfl, rfl⟩ := Prod.mk.inj (Option.some.inj hs)
      exact ⟨rfl, r, hr, Bool.not_eq_true _ ▸ heof, rfl⟩

theorem moveTunnel_eq_some {allowed : Tunnel → Prop} [DecidablePred allowed]
    {f : Tunnel → Tunnel} (hs : s.moveTunnel allowed f os = some (s', os')) :
    os' = os ∧ s.point = .idle ∧ allowed s.connection.tunnel ∧
      s' = { s with connection := { s.connection with tunnel := f s.connection.tunnel } } := by
  unfold RelayState.moveTunnel at hs
  split at hs
  · rename_i h
    obtain ⟨rfl, rfl⟩ := Prod.mk.inj (Option.some.inj hs)
    exact ⟨rfl, h.1, h.2, rfl⟩
  · cases hs

/-- What a step of a connection can do, and when. -/
inductive RelayStep (relay : Relay) (s : RelayState) :
    RelayEvent → RelayState → List RelayOutput → Prop
  | hostRead {chunk : List UInt8} {r : HostReadState} (hne : chunk ≠ [])
      (hread : s.connection.hostRead = some r) (heof : r.eof = false) :
    RelayStep relay s (.hostRead chunk)
      { s with connection := { s.connection with
        hostRead := some { r with chunks := r.chunks ++ [chunk] } } } [.hostRead chunk]
  | hostEof {r : HostReadState} (hread : s.connection.hostRead = some r) (heof : r.eof = false) :
    RelayStep relay s .hostEof
      { s with connection := { s.connection with hostRead := some { r with eof := true } } }
      [.hostEof]
  | hostError {what : String} {r : HostReadState} (hread : s.connection.hostRead = some r)
      (heof : r.eof = false) :
    RelayStep relay s (.hostError what)
      { s with connection := { s.connection with
        hostRead := some { r with error := what, eof := true } } } []
  | tunnelConnected (hidle : s.point = .idle) :
    RelayStep relay s .tunnelConnected
      { s with connection.tunnel := { s.connection.tunnel with connected := true } } []
  | tunnelReceive {octets : List UInt8} (hidle : s.point = .idle)
      (hconnected : s.connection.tunnel.connected = true)
      (heof : s.connection.tunnel.eof = false) :
    RelayStep relay s (.tunnelReceive octets)
      { s with connection.tunnel := { s.connection.tunnel with
        received := s.connection.tunnel.received ++ octets } } [.tunnelReceived octets]
  | tunnelFin (hidle : s.point = .idle) (hconnected : s.connection.tunnel.connected = true)
      (heof : s.connection.tunnel.eof = false) :
    RelayStep relay s .tunnelFin
      { s with connection.tunnel := { s.connection.tunnel with eof := true } } [.tunnelFin]
  | tunnelFail (hidle : s.point = .idle) :
    RelayStep relay s .tunnelFail
      { s with connection.tunnel := { s.connection.tunnel with failed := true } } []
  | beginService {replyThrows : Bool} {written : Option ℕ} (hidle : s.point = .idle) :
    RelayStep relay s (.beginService replyThrows written)
      { connection := (s.connection.beginService relay replyThrows written).1
        point := (s.connection.beginService relay replyThrows written).2.2 }
      (s.connection.beginService relay replyThrows written).2.1
  | middleService {shutdownThrows : Bool} {accepts : Option ℕ} {hostShutdownThrows : Bool}
      (htaking : s.point = .taking) :
    RelayStep relay s (.middleService shutdownThrows accepts hostShutdownThrows)
      { connection :=
          (s.connection.middleService relay shutdownThrows accepts hostShutdownThrows).1
        point :=
          if (s.connection.middleService relay shutdownThrows accepts hostShutdownThrows).2.2
          then .idle else .checking }
      (s.connection.middleService relay shutdownThrows accepts hostShutdownThrows).2.1
  | endService (hchecking : s.point = .checking) :
    RelayStep relay s .endService { connection := s.connection.endService.1 }
      s.connection.endService.2

theorem relayMachine_step (hs : (relayMachine relay).step s e = some (s', os)) :
    RelayStep relay s e s' os := by
  -- The host's events need a reader, the tunnel's an idle loop, and the calls their point.
  cases e with
  | hostRead chunk =>
    dsimp only [relayMachine] at hs
    split at hs
    · cases hs
    · rename_i hne
      obtain ⟨rfl, r, hread, heof, rfl⟩ := readHost_eq_some hs
      exact .hostRead hne hread heof
  | hostEof =>
    obtain ⟨rfl, r, hread, heof, rfl⟩ := readHost_eq_some hs
    exact .hostEof hread heof
  | hostError what =>
    obtain ⟨rfl, r, hread, heof, rfl⟩ := readHost_eq_some hs
    exact .hostError hread heof
  | tunnelConnected =>
    dsimp only [relayMachine] at hs
    obtain ⟨rfl, hidle, -, rfl⟩ := moveTunnel_eq_some hs
    exact .tunnelConnected hidle
  | tunnelReceive octets =>
    dsimp only [relayMachine] at hs
    obtain ⟨rfl, hidle, ⟨hconnected, heof, -⟩, rfl⟩ := moveTunnel_eq_some hs
    exact .tunnelReceive hidle hconnected (Bool.not_eq_true _ ▸ heof)
  | tunnelFin =>
    dsimp only [relayMachine] at hs
    obtain ⟨rfl, hidle, ⟨hconnected, heof, -⟩, rfl⟩ := moveTunnel_eq_some hs
    exact .tunnelFin hidle hconnected (Bool.not_eq_true _ ▸ heof)
  | tunnelFail =>
    dsimp only [relayMachine] at hs
    obtain ⟨rfl, hidle, -, rfl⟩ := moveTunnel_eq_some hs
    exact .tunnelFail hidle
  | beginService replyThrows written =>
    dsimp only [relayMachine] at hs
    split at hs
    · rename_i hidle
      obtain ⟨rfl, rfl⟩ := Prod.mk.inj (Option.some.inj hs)
      exact .beginService hidle
    · cases hs
  | middleService shutdownThrows accepts hostShutdownThrows =>
    dsimp only [relayMachine] at hs
    split at hs
    · rename_i htaking
      obtain ⟨rfl, rfl⟩ := Prod.mk.inj (Option.some.inj hs)
      exact .middleService htaking
    · cases hs
  | endService =>
    dsimp only [relayMachine] at hs
    split at hs
    · rename_i hchecking
      obtain ⟨rfl, rfl⟩ := Prod.mk.inj (Option.some.inj hs)
      exact .endService hchecking
    · cases hs

end Tailcat
