import Tailcat.Server.Serve
import Tailcat.Wireguard.DerpPeer

/-!
# The data plane of a client

One peer behind the relay and one IP stack. The plaintext that `pump_for` of the peer returns enters
the stack, and packets that leave the stack go to the peer. The length field of a buffer of the
stack has 16 bits, so that a longer packet is an error; none can come through a session, neither
here nor at a server.

## Main definitions

* `clientPlaneMachine`: the calls on the data plane, with the turns of their loops
* `pbufLength`, `inputIpChecked`: the length of a buffer, and the read of a version, checked
* `FitsBuffer`: the stack takes a packet as it is

## Main results

* `clientPlane_step`: a step hands the stack packets that fit
* `inner_packets_fit`: every plaintext fits, at servers and clients
-/

namespace Tailcat

/-! ## The client -/

/-- What the data plane does: what its peer does, what it hands to the stack, and what `pump_for`
returns. -/
inductive ClientPlaneOutput
  | peer (output : DerpPeerOutput)
  | inputIp (packet : List UInt8)
  | pumped (result : Except Exn Bool)

/-- The packet that is handed to the stack. -/
def ClientPlaneOutput.injected : ClientPlaneOutput → Option (List UInt8)
  | .inputIp packet => some packet
  | _ => none

theorem ClientPlaneOutput.injected_eq_some {o : ClientPlaneOutput} {packet : List UInt8} :
    o.injected = some packet ↔ o = .inputIp packet := by
  cases o <;> simp [injected]

/-- A call, or a turn of the loop of the call under way; `connect` comes with what the rendezvous
returns. A packet that leaves the stack is sent in a call of its own. -/
inductive ClientPlaneEvent
  | connect (timeout : ℤ) (rendezvous : Except Exn ℤ) (now later : ℤ)
  | connectTurn (now later : ℤ) (initiateEnv env : Env) (transport : DerpTransport)
  | pumpFor (timeout now : ℤ)
  | pumpTurn (now : ℤ) (env : Env) (transport : DerpTransport) (pbuf : Pbuf)
  | output (env : Env) (transport : DerpTransport) (packet : List UInt8)

/-- What becomes of what the peer does: `pump_for` hands its plaintext to the stack. -/
def ClientPlaneOutput.of (pbuf : Pbuf) : DerpPeerOutput → List ClientPlaneOutput
  | .pumped (.ok (some packet)) =>
    [.inputIp packet, .pumped ((Tailcat.inputIp pbuf packet).map fun _ => true)]
  | .pumped (.ok none) => [.pumped (.ok false)]
  | .pumped (.error x) => [.pumped (.error x)]
  | o => [.peer o]

section Machine

variable {H K : Type} (W : WireguardLwip H K)

/-- A step of the peer, as a step of the data plane. -/
def peerStep (p : WireGuardDerpPeer H K) (pbuf : Pbuf) (s : DerpPeerState H K)
    (e : DerpPeerEvent) : Option (DerpPeerState H K × List ClientPlaneOutput) :=
  ((derpPeerMachine W p).step s e).map fun q => (q.1, q.2.flatMap (ClientPlaneOutput.of pbuf))

/-- The calls on the data plane of a client, one at a time. -/
def clientPlaneMachine (p : WireGuardDerpPeer H K) :
    Machine (DerpPeerState H K) ClientPlaneEvent ClientPlaneOutput where
  init := { peer := p }
  step s e :=
    match e with
    | .connect timeout rendezvous now later =>
      match s.activity with
      | .idle =>
        if timeout ≤ 0 then
          some (s, [.peer (.connected
            (.error (.invalidArgument "Tailcat client connect timeout must be positive")))])
        else
          match rendezvous with
          | .error x => some (s, [.peer (.connected (.error x))])
          | .ok _ => peerStep W p .taken s (.connect timeout now later)
      | _ => none
    | .connectTurn now later initiateEnv env transport =>
      peerStep W p .taken s (.connectTurn now later initiateEnv env transport)
    | .pumpFor timeout now =>
      match s.activity with
      | .idle =>
        if timeout < 0 then
          some (s, [.pumped (.error (.invalidArgument "negative Tailcat pump timeout"))])
        else
          peerStep W p .taken s (.pumpFor timeout now)
      | _ => none
    | .pumpTurn now env transport pbuf => peerStep W p pbuf s (.pumpTurn now env transport)
    | .output env transport packet => peerStep W p .taken s (.sendIpPacket env transport packet)

end Machine

/-! ## Packets that fit -/

/-- `static_cast<u16_t>(packet.size())` -/
def pbufLength (packet : List UInt8) : UInt16 := UInt16.ofNat packet.length

/-- `LwipStack::input_ip`, whose read of the version must be in bounds. -/
def inputIpChecked (pbuf : Pbuf) (packet : List UInt8) : Option (Except Exn Unit) :=
  if packet = [] then
    some (.ok ())
  else do
    let first : UInt8 ← packet[0]?
    if first >>> 4 ≠ 6 then
      some (.ok ())
    else if packet.length > 2 ^ 16 - 1 then
      some (.error (.lengthError "IPv6 packet exceeds lwIP pbuf size"))
    else
      some (match pbuf with
        | .notAllocated => .error (.runtimeError "pbuf_alloc failed")
        | .notTaken => .error (.runtimeError "pbuf_take failed")
        | .taken => .ok ())

theorem inputIpChecked_eq (pbuf : Pbuf) (packet : List UInt8) :
    inputIpChecked pbuf packet = some (inputIp pbuf packet) := by
  unfold inputIpChecked inputIp
  by_cases hempty : packet = []
  · rw [if_pos hempty, if_pos (.inl hempty)]
  rw [if_neg hempty, getElem?_eq_some_getD (List.length_pos_iff.mpr hempty)]
  simp only [Option.bind_eq_bind, Option.bind_some]
  by_cases hversion : packet.getD 0 0 >>> 4 = 6
  · have hgo : ¬(packet = [] ∨ packet.getD 0 0 >>> 4 ≠ 6) :=
      not_or.mpr ⟨hempty, not_not.mpr hversion⟩
    rw [if_neg (not_not.mpr hversion), if_neg hgo]
    split_ifs <;> rfl
  · rw [if_pos hversion, if_pos (.inr hversion)]

/-- **The stack takes a packet as it is**: it is no longer than what a session can carry, the length
of its buffer is its own, and the error for longer ones is not reached. -/
structure FitsBuffer (packet : List UInt8) : Prop where
  length_le : packet.length ≤ 65504
  pbufLength_eq : (pbufLength packet).toNat = packet.length
  not_lengthError : ∀ pbuf,
    inputIp pbuf packet ≠ .error (.lengthError "IPv6 packet exceeds lwIP pbuf size")

theorem fitsBuffer_of_length {packet : List UInt8} (h : packet.length ≤ 65504) :
    FitsBuffer packet where
  length_le := h
  pbufLength_eq := by
    unfold pbufLength
    rw [UInt16.toNat_ofNat', Nat.mod_eq_of_lt (by omega)]
  not_lengthError pbuf := by
    unfold inputIp
    rw [if_neg (by omega : ¬ packet.length > 2 ^ 16 - 1)]
    intro he
    split at he
    · cases he
    · cases pbuf <;> cases he

/-! ## What a client hands to its stack -/

section Client

variable {H K : Type} {W : WireguardLwip H K} {p₀ p : WireGuardDerpPeer H K}
  {s s' : DerpPeerState H K} {env : Env} {transport : DerpTransport}

/-- What a call returns is what it was to return, when it did not throw. -/
theorem eq_of_map_eq_ok {α : Type} {result : Except Exn Unit} {a b : α}
    (h : (result.map fun _ => a) = .ok b) : a = b := by
  cases result with
  | error x => cases h
  | ok _ => exact Except.ok.inj h

/-- A plaintext that a peer receives came in one frame. -/
theorem length_receiveOneFor_le {b : Bool} {plaintext : List UInt8}
    (h : (p.receiveOneFor W env transport).2.2 = .ok (b, some plaintext)) :
    plaintext.length ≤ 65504 := by
  unfold WireGuardDerpPeer.receiveOneFor at h
  split at h
  · cases h
  · cases h
  split at h
  · -- A ping carries no plaintext, whatever becomes of its answer.
    split at h
    · cases eq_of_map_eq_ok h
    · cases h
  split at h
  · split at h
    · cases h
    · rename_i source packet hparse
      split at h
      · cases h
      · have hplain : (p.wireguard.handle W env packet).2.plaintextIp = some plaintext := by
          dsimp only at h
          split at h
          · exact congrArg Prod.snd (eq_of_map_eq_ok h)
          · exact congrArg Prod.snd (Except.ok.inj h)
        exact Engine.length_plaintextIp_le_of_parse hparse hplain
  · cases h

/-- Only the ends of calls return something to `pump_for`. -/
theorem pumped_not_mem_receiveOneFor {result : Except Exn (Option (List UInt8))} :
    .pumped result ∉ (p.receiveOneFor W env transport).2.1 := by
  unfold WireGuardDerpPeer.receiveOneFor
  split
  · simp
  · simp
  split
  · split <;> simp
  split
  · split
    · simp
    · split
      · simp
      · dsimp only
        split <;> simp
  · simp

theorem pumped_not_mem_sendInitiation {result : Except Exn (Option (List UInt8))} :
    .pumped result ∉ (p.sendInitiation W env transport).2.1 := by
  unfold WireGuardDerpPeer.sendInitiation
  dsimp only
  split <;> simp

theorem pumped_not_mem_sendIpPacket {result : Except Exn (Option (List UInt8))}
    {packet : List UInt8} : .pumped result ∉ (p.sendIpPacket W env transport packet).2.1 := by
  unfold WireGuardDerpPeer.sendIpPacket
  split
  · simp
  · dsimp only
    split <;> simp

theorem pumped_not_mem_connectTurn {result : Except Exn (Option (List UInt8))}
    {deadline nextSend now later : ℤ} {initiateEnv : Env} :
    .pumped result ∉
      (connectTurn W p deadline nextSend now later initiateEnv env transport).2 := by
  unfold connectTurn
  split
  · simp
  split
  · simp
  have hsent : .pumped result ∉ (if now ≥ nextSend then p.sendInitiation W initiateEnv transport
      else (p, [], .ok ())).2.1 := by
    split
    · exact pumped_not_mem_sendInitiation
    · simp
  dsimp only
  split
  · simp [hsent]
  · split <;> simp [hsent, pumped_not_mem_receiveOneFor]

/-- What a step of a peer returns to `pump_for` of the data plane. -/
theorem length_pumped_le {e : DerpPeerEvent} {os : List DerpPeerOutput} {plaintext : List UInt8}
    (hs : (derpPeerMachine W p₀).step s e = some (s', os))
    (h : .pumped (.ok (some plaintext)) ∈ os) : plaintext.length ≤ 65504 := by
  dsimp only [derpPeerMachine] at hs
  -- Of the turns of a peer, only the one of `pump_for` ends with what was received.
  split at hs
  · obtain rfl : _ = os := congrArg Prod.snd (Option.some.inj hs)
    unfold connectStep at h
    split_ifs at h <;> simp at h
  · obtain rfl : _ = os := congrArg Prod.snd (Option.some.inj hs)
    exact absurd h pumped_not_mem_connectTurn
  · obtain rfl : _ = os := congrArg Prod.snd (Option.some.inj hs)
    unfold pumpStep at h
    split_ifs at h <;> simp at h
  · obtain rfl : _ = os := congrArg Prod.snd (Option.some.inj hs)
    unfold pumpTurn at h
    dsimp only at h
    have hnot := @pumped_not_mem_receiveOneFor H K W s.peer
    split at h
    · simp at h
    split at h
    · simp [hnot] at h
    · simp [hnot] at h
    · rename_i received hreceived
      have he : plaintext = received := by simpa [hnot] using h
      exact he ▸ length_receiveOneFor_le hreceived
    · simp [hnot] at h
  · obtain rfl : _ = os := congrArg Prod.snd (Option.some.inj hs)
    simp [pumped_not_mem_sendIpPacket] at h
  · cases hs

/-- **A step of the data plane** hands the stack packets that fit. -/
theorem clientPlane_step {e : ClientPlaneEvent} {os : List ClientPlaneOutput}
    (hs : (clientPlaneMachine W p₀).step s e = some (s', os)) {packet : List UInt8}
    (h : .inputIp packet ∈ os) : FitsBuffer packet := by
  have hpeer : ∀ {pbuf e}, peerStep W p₀ pbuf s e = some (s', os) → FitsBuffer packet := by
    intro pbuf e hs
    obtain ⟨⟨s₁, os₁⟩, hstep, he⟩ := Option.map_eq_some_iff.mp hs
    obtain ⟨rfl, rfl⟩ := Prod.mk.inj he
    obtain ⟨o, ho, hmem⟩ := List.mem_flatMap.mp h
    unfold ClientPlaneOutput.of at hmem
    split at hmem
    · simp only [List.mem_cons, ClientPlaneOutput.inputIp.injEq, reduceCtorEq, List.not_mem_nil,
        or_false] at hmem
      subst hmem
      exact fitsBuffer_of_length (length_pumped_le hstep ho)
    · cases List.mem_singleton.mp hmem
    · cases List.mem_singleton.mp hmem
    · cases List.mem_singleton.mp hmem
  -- A call that is refused before it reaches the peer hands nothing to the stack.
  have hrefused : ∀ {o : ClientPlaneOutput}, (∀ packet, o ≠ .inputIp packet) →
      some (s, [o]) = some (s', os) → FitsBuffer packet := by
    intro o ho he
    obtain ⟨rfl, rfl⟩ := Prod.mk.inj (Option.some.inj he)
    exact absurd (List.mem_singleton.mp h).symm (ho packet)
  dsimp only [clientPlaneMachine] at hs
  cases e with
  | connect timeout rendezvous now later =>
    dsimp only at hs
    split at hs
    · split at hs
      · exact hrefused (by simp) hs
      · split at hs
        · exact hrefused (by simp) hs
        · exact hpeer hs
    · cases hs
  | connectTurn now later initiateEnv env transport => exact hpeer hs
  | pumpFor timeout now =>
    dsimp only at hs
    split at hs
    · split at hs
      · exact hrefused (by simp) hs
      · exact hpeer hs
    · cases hs
  | pumpTurn now env transport pbuf => exact hpeer hs
  | output env transport packet => exact hpeer hs

end Client

/-- **Inner packets fit**. Whatever the relay delivers and whatever state an engine is in, a
plaintext has at most 65504 octets: the declared length is no more than there is, so that the buffer
only shrinks, and no read of a header is out of bounds. So the packets that a server, in any state,
and a client, in any run, hand to the stack fit the length of its buffers. -/
theorem inner_packets_fit {H K : Type} (W : WireguardLwip H K) :
    (∀ payload source packet env (e : Engine H K) plaintext,
      parseDerpRecvPacket payload = some (source, packet) →
      (e.handle W env packet).2.plaintextIp = some plaintext → plaintext.length ≤ 65504) ∧
    (∀ padded length, innerIpLength padded = some length → length ≤ padded.length) ∧
    (∀ padded, innerIpLengthChecked padded = some (innerIpLength padded)) ∧
    (∀ env (e : Engine H K) packet,
      Engine.handleTransportChecked W env e packet = some (e.handleTransport W env packet)) ∧
    (∀ pbuf packet, inputIpChecked pbuf packet = some (inputIp pbuf packet)) ∧
    (∀ cfg env transport pbuf (s : Server H K) frame source packet, .inputIp source packet ∈
      (s.handleFrameOn W cfg env transport pbuf frame).2.1 → FitsBuffer packet) ∧
    ∀ (p : WireGuardDerpPeer H K) es s os, (clientPlaneMachine W p).Runs es s os →
      ∀ packet, .inputIp packet ∈ os → FitsBuffer packet := by
  refine ⟨fun payload source packet env e plaintext hparse => ?_, fun padded length => ?_,
    innerIpLengthChecked_eq, fun env e packet => Engine.handleTransportChecked_eq,
    inputIpChecked_eq, fun cfg env transport pbuf s frame source packet hmem => ?_,
    fun p es s os hr => ?_⟩
  · exact Engine.length_plaintextIp_le_of_parse hparse
  · exact innerIpLength_le
  · exact fitsBuffer_of_length (length_inputIp_le hmem)
  · refine hr.trace_invariant
      (I := fun _ _ os => ∀ packet, .inputIp packet ∈ os → FitsBuffer packet) (by simp) ?_
    intro es s os e s' os' _ ih hs packet hmem
    rcases List.mem_append.mp hmem with hmem | hmem
    · exact ih packet hmem
    · exact clientPlane_step hs hmem

/-- A packet that a client decrypts and hands to the stack. -/
theorem inner_packets_fit_example :
    let p : WireGuardDerpPeer PlainDevice PlainKeys := ⟨Octets.zero 32, plainEngine 7 9⟩
    let env : Env := ⟨fun _ => 0, fun _ => 7⟩
    let packet := [0x60, 0, 0, 0, 0, 8] ++ List.replicate 42 0
    let frame : DerpFrame := ⟨.recvPacket, (Octets.zero 32).toList ++
      ([4, 0, 0, 0, 7, 0, 0, 0] ++ List.replicate 8 0 ++ packet ++ List.replicate 16 0)⟩
    ∃ s os, (clientPlaneMachine plainLwip p).Runs
        [.pumpFor 100 0, .pumpTurn 1 env (.of frame) .taken] s os ∧
      .inputIp packet ∈ os ∧ FitsBuffer packet := by
  intro p env packet frame
  have hinjected : ((clientPlaneMachine plainLwip p).run
      [.pumpFor 100 0, .pumpTurn 1 env (.of frame) .taken]).map
        (fun r => r.2.filterMap ClientPlaneOutput.injected) = some [packet] := by
    decide +kernel
  obtain ⟨⟨s, os⟩, hr, hos⟩ := Option.map_eq_some_iff.mp hinjected
  have hpacket : .inputIp packet ∈ os := by
    obtain ⟨o, ho, he⟩ := List.mem_filterMap.mp (hos ▸ List.mem_singleton_self packet)
    exact ClientPlaneOutput.injected_eq_some.mp he ▸ ho
  obtain ⟨-, -, -, -, -, -, hclient⟩ := inner_packets_fit plainLwip
  exact ⟨s, os, hr, hpacket, hclient p _ s os hr packet hpacket⟩

end Tailcat
