import Tailcat.Base.Machine
import Tailcat.Derp.Transport
import Tailcat.Protocol.Address
import Tailcat.Protocol.Meow
import Tailcat.Wireguard.Engine

/-!
# The rendezvous of a client

`rendezvous_client` sends its MEOW ping to the server, once a second, until the server's answer
arrives or the time is over. It reads a steady clock, sends, and waits for frames; a machine has one
step for each of these calls, and its event says what the call does.

## Main definitions

* `ReceivePoint`: where `receive_packet_for` stands, and its steps
* `ClientPoint`, `RendezvousClient`: where `rendezvous_client` stands, and its variables
* `clientMachine`: the client

## Main results

* `accepted_step`: only the server's answer lets the client return successfully
* `client_sends`: what the client sends
-/

namespace Tailcat

/-- What a call does: a reading of the clock, a packet or pong sent, or a wait for a frame. -/
inductive RendezvousEvent
  | now (time : ℤ)
  | sent (result : Except Exn Unit)
  | received (result : Except Exn (Option DerpFrame))

/-- What is called, apart from the clock, and what `rendezvous_client` returns. -/
inductive RendezvousOutput
  | send (sent : DerpSend)
  | receiveFor (timeout : ℤ)
  | returned (result : Except Exn ℤ)
  deriving DecidableEq

/-! ## `receive_packet_for` -/

/-- Where `receive_packet_for` stands: before it reads the clock for its deadline, before it reads
the clock for the time that remains, in `receive_for`, or in `send_pong`. -/
inductive ReceivePoint
  | starting (timeout : ℤ)
  | measuring (deadline : ℤ)
  | receiving (deadline : ℤ)
  | ponging (deadline : ℤ)
  deriving DecidableEq

/-- Where a step of `receive_packet_for` leads, or what it returns. -/
inductive ReceiveStep
  | goes (point : ReceivePoint) (calls : List RendezvousOutput)
  | returns (result : Except Exn (Option (Key32 × List UInt8)))

/-- A frame that arrived. -/
def ReceivePoint.handle (deadline : ℤ) (frame : DerpFrame) : ReceiveStep :=
  if frame.type = .ping then
    if h : frame.payload.length = 8 then
      .goes (.ponging deadline) [.send (.pong (Octets.ofList frame.payload h))]
    else
      .goes (.measuring deadline) []
  else if frame.type = .recvPacket then
    match parseDerpRecvPacket frame.payload with
    | none => .returns (.error (.runtimeError "malformed DERP RecvPacket frame"))
    | some packet => .returns (.ok (some packet))
  else
    -- The named control frames and all other frames are ignored alike.
    .goes (.measuring deadline) []

/-- A step of the receiving call: a reading of the clock, or what the transport returns. -/
def ReceivePoint.step : ReceivePoint → RendezvousEvent → Option ReceiveStep
  | .starting timeout, .now time => some (.goes (.measuring (time + nanoseconds timeout)) [])
  | .measuring deadline, .now time =>
    if remainingMs deadline time = 0 then
      some (.returns (.ok none))
    else
      some (.goes (.receiving deadline) [.receiveFor (remainingMs deadline time)])
  | .receiving deadline, .received result =>
    match result with
    | .error x => some (.returns (.error x))
    | .ok none => some (.returns (.ok none))
    | .ok (some frame) => some (handle deadline frame)
  | .ponging deadline, .sent result =>
    match result with
    | .error x => some (.returns (.error x))
    | .ok () => some (.goes (.measuring deadline) [])
  | _, _ => none

/-! ## `rendezvous_client` -/

/-- Where `rendezvous_client` stands: before the first reading of the clock, at the top of its loop,
in `send_packet`, before the reading for the wait, in `receive_packet_for`, before the reading for
its result, or returned. -/
inductive ClientPoint
  | starting
  | looping
  | sending (now : ℤ)
  | waiting
  | receiving (point : ReceivePoint)
  | accepted
  | returned (result : Except Exn ℤ)

/-- The variables of `rendezvous_client`, and where in its body it stands. -/
structure RendezvousClient where
  point : ClientPoint
  started : ℤ := 0
  deadline : ℤ := 0
  nextSend : ℤ := 0
  lastSendError : String := ""

/-- What `rendezvous_client` is called with. -/
structure RendezvousArguments where
  nodeIdentity : NodeKeyPair
  discoPublic : Key32
  serverPublic : Key32
  timeout : ℤ

/-- The call that sends the ping. -/
def RendezvousArguments.ping (a : RendezvousArguments) : DerpSend :=
  .packet a.serverPublic (encodeMeowPing a.nodeIdentity.publicKey a.discoPublic)

namespace RendezvousClient

/-- The call, which refuses a timeout that is not positive. -/
def init (a : RendezvousArguments) : RendezvousClient :=
  if a.timeout ≤ 0 then
    { point := .returned (.error (.invalidArgument "rendezvous timeout must be positive")) }
  else
    { point := .starting }

/-- The exception at the deadline, with the text of the last send that failed. -/
def timedOut (c : RendezvousClient) : Exn :=
  .runtimeError ("timed out waiting for Tailcat MEOWED acknowledgment" ++
    if c.lastSendError ≠ "" then " (last send error: " ++ c.lastSendError ++ ")" else "")

/-- The call ends, with the result. -/
def returns (c : RendezvousClient) (result : Except Exn ℤ) :
    RendezvousClient × List RendezvousOutput :=
  ({ c with point := .returned result }, [.returned result])

/-- What `receive_packet_for` returned. -/
def incoming (a : RendezvousArguments) (c : RendezvousClient) :
    Except Exn (Option (Key32 × List UInt8)) → RendezvousClient × List RendezvousOutput
  | .error x => c.returns (.error x)
  | .ok none => ({ c with point := .looping }, [])
  | .ok (some (source, packet)) =>
    if source ≠ a.serverPublic then ({ c with point := .looping }, [])
    else if ¬ isMeowedPacket packet then ({ c with point := .looping }, [])
    else ({ c with point := .accepted }, [])

/-- A step of the call: a reading of the clock, or what the transport returns. -/
def step (a : RendezvousArguments) (c : RendezvousClient) (e : RendezvousEvent) :
    Option (RendezvousClient × List RendezvousOutput) :=
  match c.point, e with
  | .starting, .now time =>
    some ({ c with
      point := .looping
      started := time
      deadline := time + nanoseconds a.timeout
      nextSend := time }, [])
  | .looping, .now time =>
    if time ≥ c.deadline then some (c.returns (.error c.timedOut))
    else if time ≥ c.nextSend then some ({ c with point := .sending time }, [.send a.ping])
    else some ({ c with point := .waiting }, [])
  | .sending time, .sent result =>
    let lastSendError :=
      match result with
      | .ok () => ""
      | .error x => x.what
    some ({ c with point := .waiting, lastSendError, nextSend := time + nanoseconds 1000 }, [])
  | .waiting, .now time =>
    let wait := milliseconds (min c.nextSend c.deadline - time)
    some ({ c with point := .receiving (.starting (if wait ≤ 0 then 1 else wait)) }, [])
  | .receiving point, e =>
    (point.step e).map fun
      | .goes point calls => ({ c with point := .receiving point }, calls)
      | .returns result => c.incoming a result
  | .accepted, .now time => some (c.returns (.ok (milliseconds (time - c.started))))
  | _, _ => none

/-- The client has got the answer of the server. -/
def Succeeds (c : RendezvousClient) : Prop :=
  c.point = .accepted ∨ ∃ elapsed, c.point = .returned (.ok elapsed)

end RendezvousClient

/-- One call, from its start. -/
def clientMachine (a : RendezvousArguments) :
    Machine RendezvousClient RendezvousEvent RendezvousOutput where
  init := .init a
  step := RendezvousClient.step a

/-! ## What a step does -/

section Steps

variable {a : RendezvousArguments} {c c' : RendezvousClient} {e : RendezvousEvent}
  {os : List RendezvousOutput}

/-- What `receive_packet_for` returns as a packet came in a frame. -/
theorem receive_returns {point : ReceivePoint} {source : Key32} {packet : List UInt8}
    (h : point.step e = some (.returns (.ok (some (source, packet))))) :
    ∃ frame, e = .received (.ok (some frame)) ∧ frame.type = .recvPacket ∧
      parseDerpRecvPacket frame.payload = some (source, packet) := by
  unfold ReceivePoint.step at h
  split at h
  · cases h
  · split_ifs at h <;> cases h
  · split at h
    · cases h
    · cases h
    · -- Of the frames only those with packets are returned, and as they are parsed.
      rename_i frame
      refine ⟨frame, rfl, ?_⟩
      have h := Option.some.inj h
      unfold ReceivePoint.handle at h
      split_ifs at h with hping hlength hrecv
      refine ⟨hrecv, ?_⟩
      split at h
      · cases h
      · rename_i hparse
        rw [hparse]
        cases h
        rfl
  · split at h <;> cases h
  · cases h

/-- The calls of `receive_packet_for` are pongs and waits. -/
theorem receive_calls {point point' : ReceivePoint} {sent : DerpSend}
    (h : point.step e = some (.goes point' os)) (hsent : .send sent ∈ os) :
    ∃ value, sent = .pong value := by
  unfold ReceivePoint.step at h
  split at h
  · cases h
    cases hsent
  · split_ifs at h
    · cases h
    · cases h
      cases List.mem_singleton.mp hsent
  · split at h
    · cases h
    · cases h
    · -- Of the frames only a ping is answered.
      have h := Option.some.inj h
      unfold ReceivePoint.handle at h
      split_ifs at h with hping hlength hrecv
      · cases h
        exact ⟨_, RendezvousOutput.send.inj (List.mem_singleton.mp hsent)⟩
      · cases h
        cases hsent
      · split at h <;> cases h
      · cases h
        cases hsent
  · split at h
    · cases h
    · cases h
      cases hsent
  · cases h

/-- What becomes of a result of `receive_packet_for`. -/
theorem incoming_cases (a : RendezvousArguments) (c : RendezvousClient)
    (result : Except Exn (Option (Key32 × List UInt8))) :
    ((∃ packet, result = .ok (some (a.serverPublic, packet)) ∧ isMeowedPacket packet = true ∧
        (c.incoming a result).1.point = .accepted) ∨
      (c.incoming a result).1.point = .looping ∨
      ∃ x, (c.incoming a result).1.point = .returned (.error x)) ∧
    ∀ sent, .send sent ∉ (c.incoming a result).2 := by
  unfold RendezvousClient.incoming
  split
  · rename_i x
    exact ⟨.inr (.inr ⟨x, rfl⟩), fun sent h => by cases List.mem_singleton.mp h⟩
  · exact ⟨.inr (.inl rfl), fun _ => List.not_mem_nil⟩
  · rename_i source packet
    split_ifs with hsource hmeowed
    · exact ⟨.inr (.inl rfl), fun _ => List.not_mem_nil⟩
    · refine ⟨.inl ⟨packet, ?_, hmeowed, rfl⟩, fun _ => List.not_mem_nil⟩
      rw [not_not.mp hsource]
    · exact ⟨.inr (.inl rfl), fun _ => List.not_mem_nil⟩

/-- **Success has one cause**: a client that has not succeeded does so only at a frame that the
relay says is from the server, with its answer. -/
theorem accepted_step (h : c.step a e = some (c', os)) (hsucc : c'.Succeeds) :
    c.Succeeds ∨ ∃ frame packet, e = .received (.ok (some frame)) ∧ frame.type = .recvPacket ∧
      parseDerpRecvPacket frame.payload = some (a.serverPublic, packet) ∧
      isMeowedPacket packet = true := by
  unfold RendezvousClient.Succeeds at hsucc
  unfold RendezvousClient.step at h
  split at h
  · cases h
    simp at hsucc
  · -- At the top of the loop the client gives up, sends or waits.
    split_ifs at h
    · cases h
      simp at hsucc
    · cases h
      simp at hsucc
    · cases h
      simp at hsucc
  · cases h
    simp at hsucc
  · cases h
    simp at hsucc
  · rename_i point e hpoint
    obtain ⟨step, hstep, hnext⟩ := Option.map_eq_some_iff.mp h
    cases step with
    | goes point' calls =>
      cases hnext
      simp at hsucc
    | returns result =>
      have hc : c' = (c.incoming a result).1 := (congrArg Prod.fst hnext).symm
      rw [hc] at hsucc
      rcases (incoming_cases a c result).1 with ⟨packet, rfl, hmeowed, -⟩ | hl | ⟨x, hx⟩
      · obtain ⟨frame, rfl, htype, hparse⟩ := receive_returns hstep
        exact .inr ⟨frame, packet, rfl, htype, hparse, hmeowed⟩
      · rw [hl] at hsucc
        simp at hsucc
      · rw [hx] at hsucc
        simp at hsucc
  · rename_i hpoint
    exact .inl (.inl hpoint)
  · cases h

/-- **What the client sends**: its ping, and pongs. -/
theorem client_sends (h : c.step a e = some (c', os)) {sent : DerpSend}
    (hsent : .send sent ∈ os) : sent = a.ping ∨ ∃ value, sent = .pong value := by
  unfold RendezvousClient.step at h
  split at h
  · cases h
    cases hsent
  · -- At the top of the loop the ping is sent, when it is due.
    split_ifs at h
    · cases h
      cases List.mem_singleton.mp hsent
    · cases h
      exact .inl (RendezvousOutput.send.inj (List.mem_singleton.mp hsent))
    · cases h
      cases hsent
  · cases h
    cases hsent
  · cases h
    cases hsent
  · obtain ⟨step, hstep, hnext⟩ := Option.map_eq_some_iff.mp h
    cases step with
    | goes point' calls =>
      cases hnext
      exact .inr (receive_calls hstep hsent)
    | returns result =>
      have hos : os = (c.incoming a result).2 := (congrArg Prod.snd hnext).symm
      rw [hos] at hsent
      exact absurd hsent ((incoming_cases a c result).2 sent)
  · cases h
    cases List.mem_singleton.mp hsent
  · cases h

end Steps

end Tailcat
