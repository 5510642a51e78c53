import Tailcat.Relay.Connection

/-!
# The embedded SSH server

`EmbeddedSshServer` gives every stream to port 22 a socket pair and a thread. The thread runs the
SSH session on its end of the pair, and sets `done` at its very end; `service` moves octets between
the tunnel and the other end, the bridge. `poll` accepts the new streams, services the connections
one after the other, and erases the finished ones.

The workers run at any time, also between two calls of `service` on the bridge; the tunnels move
between two calls of `poll`. Memory does not run out.

## Main definitions

* `Connection`: what the server keeps of a connection
* `beginService`, `relayOctets`, `endService`, `handleException`: the parts of `service`
* `ServiceState.step`: a connection, with its worker and its tunnel
* `removeIf`: which connections `poll` keeps, and what becomes of the slots of the vector
* `pollMachine`: the server
-/

namespace Tailcat.Ssh

/-- What a worker shares with `service`. -/
structure WorkerState where
  done : Bool := false
  error : String := ""
  deriving DecidableEq

/-- The socket pair: what the worker wrote into its end and `service` has not read, and whether the
worker has closed its end. -/
structure Bridge where
  unread : List UInt8 := []
  workerClosed : Bool := false
  deriving DecidableEq

/-- The fields of a `Connection` of the SSH server, with what they point to. -/
structure Connection where
  tunnel : Tunnel
  bridge : Bridge := {}
  worker : WorkerState := {}
  threadJoinable : Bool := true
  pendingToSsh : List UInt8 := []
  pendingToSshOffset : ℕ := 0
  pendingToTunnel : List UInt8 := []
  pendingToTunnelOffset : ℕ := 0
  bridgeWriteShutdown : Bool := false
  bridgeEof : Bool := false
  tunnelWriteShutdown : Bool := false
  finished : Bool := false
  errorReported : Bool := false
  deriving DecidableEq

/-- What happens at a connection. -/
inductive BridgeOutput
  | tunnelReceived (octets : List UInt8)
  | tunnelFin
  | workerWrote (octets : List UInt8)
  | workerClosed
  | toSsh (octets : List UInt8)
  | bridgeShutdown
  | toTunnel (octets : List UInt8)
  | tunnelShutdown
  | bridgeClosed
  | tunnelClosed
  | joined
  | log (text : String)
  deriving DecidableEq

/-! ## The bridge socket -/

/-- `socket_send_some`: `send` takes some of the octets, or none because it would block, or
fails. -/
def socketSendSome (send : Option ℕ) (data : List UInt8) : Except String (List UInt8) :=
  if data = [] then
    .ok []
  else
    match send with
    | none => .error "embedded SSH bridge send failed"
    | some n => .ok ((data.take (1 <<< 20)).take n)

/-- What a read of the bridge has found. -/
inductive SocketReadKind
  | data
  | wouldBlock
  | eof
  deriving DecidableEq

/-- The result of a read of the bridge. -/
structure SocketRead where
  kind : SocketReadKind := .wouldBlock
  data : List UInt8 := []

/-- `socket_read_some`: `recv` reads up to `n` octets, where zero says that it would block, or
fails. -/
def socketReadSome (recv : Option ℕ) (bridge : Bridge) : Except String (SocketRead × Bridge) :=
  match recv with
  | none => .error "embedded SSH bridge receive failed"
  | some n =>
    let read := bridge.unread.take (min n (16 * 1024))
    if read ≠ [] then
      .ok ({ kind := .data, data := read },
        { bridge with unread := bridge.unread.drop read.length })
    else if n ≠ 0 ∧ bridge.workerClosed then
      .ok ({ kind := .eof }, bridge)
    else
      .ok ({}, bridge)

/-! ## The parts of `service` -/

namespace Connection

/-- What a part of `service` does: the connection after it, what happened, and the exception that it
ended with, if any. -/
abbrev Part := Connection × List BridgeOutput × Except String Unit

/-- A part of `service`, and the next one unless the first one threw. -/
def Part.andThen (p : Part) (f : Connection → Part) : Part :=
  match p.2.2 with
  | .error _ => p
  | .ok () => ((f p.1).1, p.2.1 ++ (f p.1).2.1, (f p.1).2.2)

/-- `read_available` gives everything that the tunnel has received. -/
def readTunnel (c : Connection) : Connection :=
  if c.pendingToSshOffset = c.pendingToSsh.length then
    { c with
      pendingToSsh := c.tunnel.received
      pendingToSshOffset := 0
      tunnel := { c.tunnel with received := [] } }
  else
    c

/-- What is pending for libssh is written to the bridge, as far as that takes it. -/
def sendToBridge (send : Option ℕ) (c : Connection) : Part :=
  if c.pendingToSshOffset < c.pendingToSsh.length then
    match socketSendSome send (c.pendingToSsh.drop c.pendingToSshOffset) with
    | .error what => (c, [], .error what)
    | .ok sent =>
      ({ c with pendingToSshOffset := c.pendingToSshOffset + sent.length }, [.toSsh sent], .ok ())
  else
    (c, [], .ok ())

/-- The end of the stream is passed on to libssh, once. -/
def shutdownBridge (c : Connection) : Part :=
  if c.tunnel.eof ∧ ¬ c.bridgeWriteShutdown then
    ({ c with bridgeWriteShutdown := true }, [.bridgeShutdown], .ok ())
  else
    (c, [], .ok ())

/-- What libssh has written is read from the bridge, when nothing else is pending. -/
def readBridge (recv : Option ℕ) (shutdown : Except String Unit) (c : Connection) : Part :=
  if c.pendingToTunnelOffset = c.pendingToTunnel.length ∧ ¬ c.bridgeEof then
    match socketReadSome recv c.bridge with
    | .error what => (c, [], .error what)
    | .ok (read, bridge) =>
      let c := { c with bridge }
      match read.kind with
      | .data =>
        ({ c with pendingToTunnel := read.data, pendingToTunnelOffset := 0 }, [], .ok ())
      | .wouldBlock => (c, [], .ok ())
      | .eof =>
        let c := { c with bridgeEof := true }
        if c.tunnelWriteShutdown then
          (c, [], .ok ())
        else
          match shutdown with
          | .error what => (c, [], .error what)
          | .ok () => ({ c with tunnelWriteShutdown := true }, [.tunnelShutdown], .ok ())
  else
    (c, [], .ok ())

/-- `LwipTcpStream::write` accepts some of what is pending, or throws. -/
def writeTunnel (write : Except String ℕ) (c : Connection) : Part :=
  if c.pendingToTunnelOffset < c.pendingToTunnel.length then
    match write with
    | .error what => (c, [], .error what)
    | .ok n =>
      let accepted := (c.pendingToTunnel.drop c.pendingToTunnelOffset).take n
      ({ c with pendingToTunnelOffset := c.pendingToTunnelOffset + accepted.length },
        [.toTunnel accepted], .ok ())
  else
    (c, [], .ok ())

/-- The thread of a connection is joined, unless it has been already. -/
def join (c : Connection) : Connection × List BridgeOutput :=
  if c.threadJoinable then ({ c with threadJoinable := false }, [.joined]) else (c, [])

end Connection

/-- Where `service` stands: not running, before it reads the bridge, before it looks at the worker,
or in its exception handler. -/
inductive ServicePoint
  | idle
  | relaying
  | finishing
  | handling (what : String)
  deriving DecidableEq

/-- Where `service` goes on after a part of its `try` block. -/
def ServicePoint.after (next : ServicePoint) : Except String Unit → ServicePoint
  | .error what => .handling what
  | .ok () => next

namespace Connection

/-- `service` until it reads the bridge. -/
def beginService (send : Option ℕ) (c : Connection) :
    Connection × List BridgeOutput × ServicePoint :=
  if c.finished then
    (c, [], .idle)
  else if c.tunnel.failed then
    -- Neither is the thread joined here nor is the tunnel closed.
    ({ c with finished := true }, [.bridgeClosed], .idle)
  else
    let (c, os, result) := (c.readTunnel.sendToBridge send).andThen shutdownBridge
    (c, os, ServicePoint.relaying.after result)

/-- `service` from there until it looks at the worker. -/
def relayOctets (recv : Option ℕ) (shutdown : Except String Unit) (write : Except String ℕ)
    (c : Connection) : Connection × List BridgeOutput × ServicePoint :=
  let (c, os, result) := (c.readBridge recv shutdown).andThen (writeTunnel write)
  (c, os, ServicePoint.finishing.after result)

/-- An error of the worker is reported once. -/
def reportError (verbose : Bool) (c : Connection) : Connection × List BridgeOutput :=
  if verbose ∧ c.worker.error ≠ "" ∧ ¬ c.errorReported then
    ({ c with errorReported := true },
      [.log ("# embedded SSH session: " ++ c.worker.error ++ "\n")])
  else
    (c, [])

/-- The rest of the `try` block of `service`. -/
def endService (verbose : Bool) (c : Connection) : Connection × List BridgeOutput :=
  if c.worker.done then
    let (c, os) := c.reportError verbose
    if c.pendingToTunnelOffset = c.pendingToTunnel.length then
      ({ c.join.1 with finished := true }, os ++ [.bridgeClosed, .tunnelClosed] ++ c.join.2)
    else
      (c, os)
  else
    (c, [])

/-- The exception handler of `service`. -/
def handleException (verbose : Bool) (what : String) (c : Connection) :
    Connection × List BridgeOutput :=
  let os := if verbose then [.log ("# embedded SSH bridge: " ++ what ++ "\n")] else []
  let joined := if c.worker.done then c.join else (c, [])
  ({ joined.1 with finished := true }, os ++ [.bridgeClosed, .tunnelClosed] ++ joined.2)

end Connection

/-! ## A connection -/

/-- What moves a connection: its tunnel, its worker, or a part of `service` with what its calls
do. -/
inductive BridgeEvent
  | tunnelReceive (octets : List UInt8)
  | tunnelFin
  | tunnelFail
  | workerWrite (octets : List UInt8)
  | workerError (what : String)
  | workerClose
  | workerDone
  | beginService (send : Option ℕ)
  | relayOctets (recv : Option ℕ) (shutdown : Except String Unit) (write : Except String ℕ)
  | endService
  | handleException

/-- Who takes a step at a connection. -/
inductive Party
  | tunnel
  | worker
  | service
  deriving DecidableEq

/-- Who takes the step. -/
def BridgeEvent.party : BridgeEvent → Party
  | .tunnelReceive _ | .tunnelFin | .tunnelFail => .tunnel
  | .workerWrite _ | .workerError _ | .workerClose | .workerDone => .worker
  | .beginService _ | .relayOctets .. | .endService | .handleException => .service

/-- A connection, and where in `service` the thread of the loop stands. -/
structure ServiceState where
  connection : Connection
  point : ServicePoint := .idle
  deriving DecidableEq

namespace ServiceState

/-- An accepted stream gets a bridge and a worker. -/
def new (tunnel : Tunnel) : ServiceState := { connection := { tunnel } }

/-- A step of the tunnel, when it may take it. -/
def moveTunnel (s : ServiceState) (allowed : Tunnel → Prop) [DecidablePred allowed]
    (f : Tunnel → Tunnel) (os : List BridgeOutput) : Option (ServiceState × List BridgeOutput) :=
  if allowed s.connection.tunnel then
    some ({ s with connection := { s.connection with tunnel := f s.connection.tunnel } }, os)
  else
    none

/-- The worker closes its end before it sets `done`. -/
def moveWorker (s : ServiceState) (allowed : Bridge → WorkerState → Prop)
    [DecidableRel allowed] (bridge : Bridge → Bridge) (worker : WorkerState → WorkerState)
    (os : List BridgeOutput) : Option (ServiceState × List BridgeOutput) :=
  if allowed s.connection.bridge s.connection.worker then
    some ({ s with connection := { s.connection with
      bridge := bridge s.connection.bridge
      worker := worker s.connection.worker } }, os)
  else
    none

/-- A step of one of the parties at a connection. -/
def step (verbose : Bool) (s : ServiceState) :
    BridgeEvent → Option (ServiceState × List BridgeOutput)
  | .tunnelReceive octets =>
    s.moveTunnel (fun t => ¬ t.eof ∧ ¬ t.failed)
      (fun t => { t with received := t.received ++ octets }) [.tunnelReceived octets]
  | .tunnelFin =>
    s.moveTunnel (fun t => ¬ t.eof ∧ ¬ t.failed) (fun t => { t with eof := true }) [.tunnelFin]
  | .tunnelFail => s.moveTunnel (fun t => ¬ t.failed) (fun t => { t with failed := true }) []
  | .workerWrite octets =>
    s.moveWorker (fun b _ => ¬ b.workerClosed) (fun b => { b with unread := b.unread ++ octets })
      id [.workerWrote octets]
  | .workerError what =>
    s.moveWorker (fun _ w => ¬ w.done) id (fun w => { w with error := what }) []
  | .workerClose =>
    s.moveWorker (fun b _ => ¬ b.workerClosed) (fun b => { b with workerClosed := true }) id
      [.workerClosed]
  | .workerDone =>
    s.moveWorker (fun b w => b.workerClosed ∧ ¬ w.done) id (fun w => { w with done := true }) []
  | .beginService send =>
    if s.point = .idle then
      let (connection, os, point) := s.connection.beginService send
      some ({ connection, point }, os)
    else
      none
  | .relayOctets recv shutdown write =>
    if s.point = .relaying then
      let (connection, os, point) := s.connection.relayOctets recv shutdown write
      some ({ connection, point }, os)
    else
      none
  | .endService =>
    if s.point = .finishing then
      let (connection, os) := s.connection.endService verbose
      some ({ connection }, os)
    else
      none
  | .handleException =>
    match s.point with
    | .handling what =>
      let (connection, os) := s.connection.handleException verbose what
      some ({ connection }, os)
    | _ => none

variable {s s' : ServiceState} {os : List BridgeOutput}

theorem moveTunnel_eq_some {allowed : Tunnel → Prop} [DecidablePred allowed]
    {f : Tunnel → Tunnel} {ps : List BridgeOutput}
    (h : s.moveTunnel allowed f ps = some (s', os)) :
    allowed s.connection.tunnel ∧ os = ps ∧
      s' = { s with connection := { s.connection with tunnel := f s.connection.tunnel } } := by
  unfold moveTunnel at h
  split_ifs at h with hallowed
  obtain ⟨rfl, rfl⟩ := Prod.mk.inj (Option.some.inj h)
  exact ⟨hallowed, rfl, rfl⟩

theorem moveWorker_eq_some {allowed : Bridge → WorkerState → Prop} [DecidableRel allowed]
    {f : Bridge → Bridge} {g : WorkerState → WorkerState} {ps : List BridgeOutput}
    (h : s.moveWorker allowed f g ps = some (s', os)) :
    allowed s.connection.bridge s.connection.worker ∧ os = ps ∧
      s' = { s with connection := { s.connection with
        bridge := f s.connection.bridge
        worker := g s.connection.worker } } := by
  unfold moveWorker at h
  split_ifs at h with hallowed
  obtain ⟨rfl, rfl⟩ := Prod.mk.inj (Option.some.inj h)
  exact ⟨hallowed, rfl, rfl⟩

/-- **One step of a connection.** -/
theorem step_eq_some {verbose : Bool} {e : BridgeEvent}
    (h : s.step verbose e = some (s', os)) :
    match e with
    | .tunnelReceive octets =>
      s.connection.tunnel.eof = false ∧ os = [.tunnelReceived octets] ∧
        s' = { s with connection := { s.connection with tunnel := { s.connection.tunnel with
          received := s.connection.tunnel.received ++ octets } } }
    | .tunnelFin =>
      s.connection.tunnel.eof = false ∧ os = [.tunnelFin] ∧
        s' = { s with connection := { s.connection with tunnel := { s.connection.tunnel with
          eof := true } } }
    | .tunnelFail =>
      os = [] ∧ s' = { s with connection := { s.connection with tunnel := { s.connection.tunnel with
        failed := true } } }
    | .workerWrite octets =>
      s.connection.bridge.workerClosed = false ∧ os = [.workerWrote octets] ∧
        s' = { s with connection := { s.connection with bridge := { s.connection.bridge with
          unread := s.connection.bridge.unread ++ octets } } }
    | .workerError what =>
      os = [] ∧ s' = { s with connection := { s.connection with worker := { s.connection.worker with
        error := what } } }
    | .workerClose =>
      s.connection.bridge.workerClosed = false ∧ os = [.workerClosed] ∧
        s' = { s with connection := { s.connection with bridge := { s.connection.bridge with
          workerClosed := true } } }
    | .workerDone =>
      s.connection.bridge.workerClosed = true ∧ os = [] ∧
        s' = { s with connection := { s.connection with worker := { s.connection.worker with
          done := true } } }
    | .beginService send =>
      s.point = .idle ∧ os = (s.connection.beginService send).2.1 ∧
        s' = { connection := (s.connection.beginService send).1
               point := (s.connection.beginService send).2.2 }
    | .relayOctets recv shutdown write =>
      s.point = .relaying ∧ os = (s.connection.relayOctets recv shutdown write).2.1 ∧
        s' = { connection := (s.connection.relayOctets recv shutdown write).1
               point := (s.connection.relayOctets recv shutdown write).2.2 }
    | .endService =>
      s.point = .finishing ∧ os = (s.connection.endService verbose).2 ∧
        s' = { connection := (s.connection.endService verbose).1 }
    | .handleException => ∃ what, s.point = .handling what ∧
        os = (s.connection.handleException verbose what).2 ∧
        s' = { connection := (s.connection.handleException verbose what).1 } := by
  -- Each side's events are allowed by what that side has not done yet, each call by its point.
  cases e with
  | tunnelReceive octets =>
    dsimp only [step] at h
    obtain ⟨hallowed, hos, hs⟩ := moveTunnel_eq_some h
    exact ⟨by simpa using hallowed.1, hos, hs⟩
  | tunnelFin =>
    dsimp only [step] at h
    obtain ⟨hallowed, hos, hs⟩ := moveTunnel_eq_some h
    exact ⟨by simpa using hallowed.1, hos, hs⟩
  | tunnelFail =>
    dsimp only [step] at h
    exact (moveTunnel_eq_some h).2
  | workerWrite octets =>
    dsimp only [step] at h
    obtain ⟨hallowed, hos, hs⟩ := moveWorker_eq_some h
    exact ⟨by simpa using hallowed, hos, hs⟩
  | workerError what =>
    dsimp only [step] at h
    exact (moveWorker_eq_some h).2
  | workerClose =>
    dsimp only [step] at h
    obtain ⟨hallowed, hos, hs⟩ := moveWorker_eq_some h
    exact ⟨by simpa using hallowed, hos, hs⟩
  | workerDone =>
    dsimp only [step] at h
    obtain ⟨hallowed, hos, hs⟩ := moveWorker_eq_some h
    exact ⟨hallowed.1, hos, hs⟩
  | beginService send =>
    dsimp only [step] at h
    split_ifs at h with hpoint
    obtain ⟨rfl, rfl⟩ := Prod.mk.inj (Option.some.inj h)
    exact ⟨hpoint, rfl, rfl⟩
  | relayOctets recv shutdown write =>
    dsimp only [step] at h
    split_ifs at h with hpoint
    obtain ⟨rfl, rfl⟩ := Prod.mk.inj (Option.some.inj h)
    exact ⟨hpoint, rfl, rfl⟩
  | endService =>
    dsimp only [step] at h
    split_ifs at h with hpoint
    obtain ⟨rfl, rfl⟩ := Prod.mk.inj (Option.some.inj h)
    exact ⟨hpoint, rfl, rfl⟩
  | handleException =>
    dsimp only [step] at h
    split at h
    · rename_i what hpoint
      obtain ⟨rfl, rfl⟩ := Prod.mk.inj (Option.some.inj h)
      exact ⟨what, hpoint, rfl, rfl⟩
    · cases h

end ServiceState

/-! ## The vector of connections -/

/-- `std::remove_if` and `erase`, slot by slot. `holes` are the slots between the last connection
kept and the next one to look at, finished or moved from, each with whether its thread is joinable.
The result is what is kept, and the threads of the slots that are move-assigned over or destroyed,
in this order. -/
def removeIf : List ServiceState → List Bool → List ServiceState × List Bool
  | [], holes => ([], holes)
  | s :: ss, holes =>
    if s.connection.finished then
      removeIf ss (holes ++ [s.connection.threadJoinable])
    else
      match holes with
      | [] => (s :: (removeIf ss []).1, (removeIf ss []).2)
      -- The first hole takes the connection, and leaves a thread that is not joinable behind.
      | hole :: holes =>
        (s :: (removeIf ss (holes ++ [false])).1, hole :: (removeIf ss (holes ++ [false])).2)

/-! ## The server -/

/-- The connections of the server, the one that is serviced, and whether the program was ended. -/
structure Impl where
  connections : List ServiceState := []
  /-- The connection that `poll` services, while it runs. -/
  servicing : Option ℕ := none
  terminated : Bool := false
  deriving DecidableEq

/-- `accept` is the start of `poll`, where `fails` says that no bridge or thread could be made for
one more stream; `erase` is its end. -/
inductive PollEvent
  | accept (tunnels : List Tunnel) (fails : Bool)
  | connection (index : ℕ) (event : BridgeEvent)
  | erase

/-- What happens at the server. `dropped` is a slot whose thread is move-assigned over or
destroyed. -/
inductive PollOutput
  | connection (index : ℕ) (output : BridgeOutput)
  | thrown
  | dropped (threadJoinable : Bool)
  | terminate
  deriving DecidableEq

namespace Impl

/-- Who may move: the tunnels while `poll` does not run, `service` at the connection that it is
called for, and the workers at any time. -/
def Lets (s : Impl) (index : ℕ) : Party → Prop
  | .tunnel => s.servicing = none
  | .worker => True
  | .service => s.servicing = some index

instance (s : Impl) (index : ℕ) : DecidablePred (s.Lets index) := fun party => by
  cases party <;> unfold Lets <;> infer_instance

/-- `poll` goes on to the next connection when `service` has returned. -/
def next (s : Impl) (index : ℕ) (party : Party) (point : ServicePoint) : Option ℕ :=
  if party = .service ∧ point = .idle then some (index + 1) else s.servicing

/-- `std::thread` terminates the process when it is joinable and is move-assigned over or
destroyed. -/
def eraseFinished (s : Impl) : Impl × List PollOutput :=
  let (kept, threads) := removeIf s.connections []
  if true ∈ threads then
    ({ s with servicing := none, terminated := true },
      (threads.takeWhile (! ·)).map .dropped ++ [.dropped true, .terminate])
  else
    ({ s with connections := kept, servicing := none }, threads.map .dropped)

end Impl

/-- A server without connections, and what happens to it and to them. -/
def pollMachine (verbose : Bool) : Machine Impl PollEvent PollOutput where
  init := {}
  step s e :=
    if s.terminated then
      none
    else
      match e with
      | .accept tunnels fails =>
        if s.servicing = none ∧ ∀ t ∈ tunnels, t.connected = true then
          some ({ s with
            connections := s.connections ++ tunnels.map .new
            servicing := if fails then none else some 0 }, if fails then [.thrown] else [])
        else
          none
      | .connection index event =>
        if s.Lets index event.party then
          match s.connections[index]? with
          | none => none
          | some c =>
            (c.step verbose event).map fun (c', os) =>
              ({ s with
                connections := s.connections.set index c'
                servicing := s.next index event.party c'.point }, os.map (.connection index))
        else
          none
      | .erase => if s.servicing = some s.connections.length then some s.eraseFinished else none

end Tailcat.Ssh
