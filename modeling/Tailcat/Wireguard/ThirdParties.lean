import Tailcat.Wireguard.DerpPeer

/-!
# Third parties at a relay

Any node may send packets to a client over the relay. `receive_one_for` looks at the source of a
packet before anything else, and packets from other nodes than the peer end there: they reach
neither the engine nor the transport.

## Main definitions

* `Arrival`: what one call of `receive_one_for` meets
* `receiveAll`: calls of `receive_one_for`, one after the other
* `thirdParty`: a call receives a well-formed packet from another node than the peer

## Main results

* `receiveOneFor_thirdParty`: such a call does nothing
* `sends_to_peer`: in every run of a peer, every packet goes to the peer
* `third_parties_unnoticed`: calls that receive such packets may be left out
-/

namespace Tailcat

/-- What a call of `receive_one_for` meets: the clock and the random octets while it runs, and what
the transport does. -/
structure Arrival where
  env : Env
  transport : DerpTransport

/-- A well-formed packet from another node than the peer. -/
def thirdParty (peerPublic : Key32) (a : Arrival) : Bool :=
  match a.transport.receiveFor with
  | .ok (some frame) =>
    match parseDerpRecvPacket frame.payload with
    | some (source, _) => decide (frame.type = .recvPacket ∧ source ≠ peerPublic)
    | none => false
  | _ => false

variable {H K : Type} (W : WireguardLwip H K)

/-- Calls of `receive_one_for`, one after the other, whatever each of them returns or throws. -/
def WireGuardDerpPeer.receiveAll (p : WireGuardDerpPeer H K) :
    List Arrival → WireGuardDerpPeer H K × List DerpPeerOutput ×
      List (Except Exn (Bool × Option (List UInt8)))
  | [] => (p, [], [])
  | a :: as =>
    let (p, os, result) := p.receiveOneFor W a.env a.transport
    let (p, os', results) := p.receiveAll as
    (p, os ++ os', result :: results)

/-- The packets that were handed to the transport, with their destinations. -/
def sentPackets (os : List DerpPeerOutput) : List (Key32 × List UInt8) :=
  os.filterMap fun
    | .send (.packet destination packet) => some (destination, packet)
    | _ => none

/-- The pongs that were sent, in order. -/
def sentPongs (os : List DerpPeerOutput) : List (Octets 8) :=
  os.filterMap fun
    | .send (.pong value) => some value
    | _ => none

/-- The plaintexts that calls of `receive_one_for` returned. -/
def plaintexts (results : List (Except Exn (Bool × Option (List UInt8)))) : List (List UInt8) :=
  results.filterMap fun
    | .ok (_, plaintext) => plaintext
    | .error _ => none

/-- The exceptions that calls of `receive_one_for` threw. -/
def thrown (results : List (Except Exn (Bool × Option (List UInt8)))) : List Exn :=
  results.filterMap fun
    | .ok _ => none
    | .error x => some x

variable {W} {p : WireGuardDerpPeer H K} {os : List DerpPeerOutput}

/-! ## One call -/

/-- **A packet from a third party** is dropped, before the engine or the transport is asked. -/
theorem receiveOneFor_thirdParty {a : Arrival} (h : thirdParty p.peerPublic a = true) :
    p.receiveOneFor W a.env a.transport = (p, [], .ok (true, none)) := by
  unfold thirdParty at h
  unfold WireGuardDerpPeer.receiveOneFor
  split at h
  · rename_i frame hf
    split at h
    · rename_i source packet hparse
      obtain ⟨htype, hsource⟩ := of_decide_eq_true h
      have hping : frame.type ≠ .ping := by
        rw [htype]
        decide
      rw [hf]
      dsimp only
      rw [if_neg hping, if_pos htype, hparse]
      exact if_pos hsource
    · cases h
  · cases h

/-- Everything that a call on the peer sends goes to the peer. -/
def ToPeer (peerPublic : Key32) (os : List DerpPeerOutput) : Prop :=
  ∀ destination packet, .send (.packet destination packet) ∈ os → destination = peerPublic

theorem ToPeer.append {peerPublic : Key32} {os' : List DerpPeerOutput} (h : ToPeer peerPublic os)
    (h' : ToPeer peerPublic os') : ToPeer peerPublic (os ++ os') := by
  intro destination packet hm
  rcases List.mem_append.mp hm with hm | hm
  · exact h destination packet hm
  · exact h' destination packet hm

/-- Waiting for a frame sends nothing. -/
theorem ToPeer.receiveFor {peerPublic : Key32} (h : ToPeer peerPublic os) (wait : ℤ) :
    ToPeer peerPublic (.receiveFor wait :: os) := by
  intro destination packet hm
  rcases List.mem_cons.mp hm with he | hm
  · cases he
  · exact h destination packet hm

theorem toPeer_receiveOneFor (env : Env) (transport : DerpTransport) :
    ToPeer p.peerPublic (p.receiveOneFor W env transport).2.1 := by
  unfold WireGuardDerpPeer.receiveOneFor
  split
  · simp [ToPeer]
  · simp [ToPeer]
  split
  · split
    · simp [ToPeer]
    · simp [ToPeer]
  split
  · split
    · simp [ToPeer]
    · split
      · simp [ToPeer]
      · dsimp only
        split
        · simp [ToPeer]
        · simp [ToPeer]
  · simp [ToPeer]

theorem toPeer_sendInitiation (env : Env) (transport : DerpTransport) :
    ToPeer p.peerPublic (p.sendInitiation W env transport).2.1 := by
  unfold WireGuardDerpPeer.sendInitiation
  dsimp only
  split
  · simp [ToPeer]
  · simp [ToPeer]

theorem toPeer_sendIpPacket (env : Env) (transport : DerpTransport) (packet : List UInt8) :
    ToPeer p.peerPublic (p.sendIpPacket W env transport packet).2.1 := by
  unfold WireGuardDerpPeer.sendIpPacket
  split
  · simp [ToPeer]
  dsimp only
  split
  · simp [ToPeer]
  · simp [ToPeer]

/-! ## Runs of a peer -/

/-- Outputs that are no packets. -/
theorem ToPeer.of_none {peerPublic : Key32}
    (h : ∀ destination packet, .send (.packet destination packet) ∉ os) : ToPeer peerPublic os :=
  fun destination packet hm => absurd hm (h destination packet)

/-- A step belongs to the same peer afterwards, and everything that it sends goes to the peer. -/
def StepToPeer (p : WireGuardDerpPeer H K) (q : DerpPeerState H K × List DerpPeerOutput) : Prop :=
  q.1.peer.peerPublic = p.peerPublic ∧ ToPeer p.peerPublic q.2

theorem connectStep_toPeer (timeout now later : ℤ) :
    StepToPeer p (connectStep p timeout now later) := by
  unfold connectStep
  split
  · exact ⟨rfl, .of_none (by simp)⟩
  split
  · exact ⟨rfl, .of_none (by simp)⟩
  · exact ⟨rfl, .of_none (by simp)⟩

theorem connectTurn_toPeer (deadline nextSend now later : ℤ) (initiateEnv env : Env)
    (transport : DerpTransport) :
    StepToPeer p (connectTurn W p deadline nextSend now later initiateEnv env transport) := by
  unfold connectTurn
  split
  · exact ⟨rfl, .of_none (by simp)⟩
  split
  · exact ⟨rfl, .of_none (by simp)⟩
  -- An initiation is sent when it is due, and then one frame is received.
  obtain ⟨⟨p₁, os₁, sent⟩, hi⟩ : ∃ r, (if now ≥ nextSend then
      p.sendInitiation W initiateEnv transport else (p, [], .ok ())) = r := ⟨_, rfl⟩
  have h₁ : p₁.peerPublic = p.peerPublic ∧ ToPeer p.peerPublic os₁ := by
    split at hi
    · have hkey := (sendInitiation_progress W initiateEnv transport p).peerPublic_eq
      have hto := @toPeer_sendInitiation _ _ W p initiateEnv transport
      rw [hi] at hkey hto
      exact ⟨hkey, hto⟩
    · cases hi
      exact ⟨rfl, .of_none (by simp)⟩
  have hkey := (receiveOneFor_progress W env transport p₁).peerPublic_eq
  have hto := @toPeer_receiveOneFor _ _ W p₁ env transport
  rw [h₁.1] at hkey hto
  rw [hi]
  dsimp only
  cases sent with
  | error x => exact ⟨h₁.1, h₁.2.append (.of_none (by simp))⟩
  | ok _ =>
    obtain ⟨⟨p₂, os₂, received⟩, hr⟩ : ∃ r, p₁.receiveOneFor W env transport = r := ⟨_, rfl⟩
    rw [hr] at hkey hto
    dsimp only
    rw [hr]
    have hboth : ∀ wait, ToPeer p.peerPublic (os₁ ++ .receiveFor wait :: os₂) := fun wait =>
      h₁.2.append (hto.receiveFor wait)
    cases received with
    | error x => exact ⟨hkey, (hboth _).append (.of_none (by simp))⟩
    | ok _ => exact ⟨hkey, hboth _⟩

theorem pumpTurn_toPeer (deadline now : ℤ) (env : Env) (transport : DerpTransport) :
    StepToPeer p (pumpTurn W p deadline now env transport) := by
  have hkey := (receiveOneFor_progress W env transport p).peerPublic_eq
  have hto := @toPeer_receiveOneFor _ _ W p env transport
  have hboth : ∀ wait, ToPeer p.peerPublic
      (.receiveFor wait :: (p.receiveOneFor W env transport).2.1) := fun wait =>
    hto.receiveFor wait
  unfold pumpTurn
  dsimp only
  split
  · exact ⟨rfl, .of_none (by simp)⟩
  split
  · exact ⟨hkey, (hboth _).append (.of_none (by simp))⟩
  · exact ⟨hkey, (hboth _).append (.of_none (by simp))⟩
  · exact ⟨hkey, (hboth _).append (.of_none (by simp))⟩
  · exact ⟨hkey, hboth _⟩

theorem derpPeer_step_toPeer {p₀ : WireGuardDerpPeer H K} {s s' : DerpPeerState H K}
    {e : DerpPeerEvent} (hs : (derpPeerMachine W p₀).step s e = some (s', os)) :
    StepToPeer s.peer (s', os) := by
  dsimp only [derpPeerMachine] at hs
  split at hs
  · rw [← Option.some.inj hs]
    exact connectStep_toPeer _ _ _
  · rw [← Option.some.inj hs]
    exact connectTurn_toPeer _ _ _ _ _ _ _
  · rw [← Option.some.inj hs]
    unfold pumpStep
    split
    · exact ⟨rfl, .of_none (by simp)⟩
    · exact ⟨rfl, .of_none (by simp)⟩
  · rw [← Option.some.inj hs]
    exact pumpTurn_toPeer _ _ _ _
  · rw [← Option.some.inj hs]
    exact ⟨(sendIpPacket_progress W _ _ s.peer _).peerPublic_eq,
      (toPeer_sendIpPacket _ _ _).append (.of_none (by simp))⟩
  · cases hs

/-- **Every packet goes to the peer**, whatever is called on it. -/
theorem sends_to_peer {es : List DerpPeerEvent} {s : DerpPeerState H K}
    (hr : (derpPeerMachine W p).Runs es s os) :
    s.peer.peerPublic = p.peerPublic ∧ ToPeer p.peerPublic os := by
  refine hr.trace_invariant
    (I := fun _ s os => s.peer.peerPublic = p.peerPublic ∧ ToPeer p.peerPublic os)
    ⟨rfl, .of_none (by simp)⟩ ?_
  rintro es s os e s' os' - ⟨hkey, hto⟩ hs
  obtain ⟨hkey', hto'⟩ := derpPeer_step_toPeer hs
  exact ⟨hkey'.trans hkey, hto.append (hkey ▸ hto')⟩

/-! ## Calls one after the other -/

theorem receiveAll_cons (a : Arrival) (as : List Arrival) :
    p.receiveAll W (a :: as) =
      let q := p.receiveOneFor W a.env a.transport
      let r := q.1.receiveAll W as
      (r.1, q.2.1 ++ r.2.1, q.2.2 :: r.2.2) := rfl

theorem toPeer_receiveAll (as : List Arrival) : ToPeer p.peerPublic (p.receiveAll W as).2.1 := by
  induction as generalizing p with
  | nil => exact .of_none (by simp [WireGuardDerpPeer.receiveAll])
  | cons a as ih =>
    have hkey := (receiveOneFor_progress W a.env a.transport p).peerPublic_eq
    rw [receiveAll_cons]
    exact (toPeer_receiveOneFor a.env a.transport).append (hkey ▸ ih)

/-- Calls that receive packets of third parties may be left out. -/
theorem receiveAll_filter (as : List Arrival) :
    let all := p.receiveAll W as
    let own := p.receiveAll W (as.filter fun a => ! thirdParty p.peerPublic a)
    own.1 = all.1 ∧ own.2.1 = all.2.1 ∧ plaintexts own.2.2 = plaintexts all.2.2 ∧
      thrown own.2.2 = thrown all.2.2 := by
  induction as generalizing p with
  | nil => exact ⟨rfl, rfl, rfl, rfl⟩
  | cons a as ih =>
    by_cases ha : thirdParty p.peerPublic a = true
    · have hcall := @receiveOneFor_thirdParty _ _ W p a ha
      rw [List.filter_cons_of_neg (by simp [ha]), receiveAll_cons, hcall]
      exact ih
    · have hkey := (receiveOneFor_progress W a.env a.transport p).peerPublic_eq
      rw [List.filter_cons_of_pos (by simp [ha]), receiveAll_cons, receiveAll_cons]
      have ih := @ih (p.receiveOneFor W a.env a.transport).1
      rw [hkey] at ih
      obtain ⟨hpeer, hos, hplain, hthrown⟩ := ih
      refine ⟨hpeer, congrArg (_ ++ ·) hos, ?_, ?_⟩
      · dsimp only [plaintexts] at hplain ⊢
        rw [List.filterMap_cons, List.filterMap_cons, hplain]
      · dsimp only [thrown] at hthrown ⊢
        rw [List.filterMap_cons, List.filterMap_cons, hthrown]

/-- **Third parties are not noticed**. Whatever frames a client receives, and whatever its calls
throw: without the well-formed packets from other nodes than the peer, its engine ends in the same
state, and the same packets and pongs are sent, the same calls are made on the engine, the same
plaintexts are returned and the same exceptions are thrown, all in the same order. Every packet goes
to the peer, in these calls and in every run of a peer. -/
theorem third_parties_unnoticed (W : WireguardLwip H K) (p : WireGuardDerpPeer H K)
    (as : List Arrival) :
    let all := p.receiveAll W as
    let own := p.receiveAll W (as.filter fun a => ! thirdParty p.peerPublic a)
    own.1 = all.1 ∧ own.2.1 = all.2.1 ∧ sentPackets own.2.1 = sentPackets all.2.1 ∧
      sentPongs own.2.1 = sentPongs all.2.1 ∧ plaintexts own.2.2 = plaintexts all.2.2 ∧
      thrown own.2.2 = thrown all.2.2 ∧
      (∀ destination packet, .send (.packet destination packet) ∈ all.2.1 →
        destination = p.peerPublic) ∧
      ∀ es s os, (derpPeerMachine W p).Runs es s os → ToPeer p.peerPublic os := by
  intro all own
  have hsame : own.1 = all.1 ∧ own.2.1 = all.2.1 ∧ plaintexts own.2.2 = plaintexts all.2.2 ∧
      thrown own.2.2 = thrown all.2.2 := receiveAll_filter as
  obtain ⟨hpeer, hos, hplain, hthrown⟩ := hsame
  exact ⟨hpeer, hos, congrArg sentPackets hos, congrArg sentPongs hos, hplain, hthrown,
    toPeer_receiveAll as, fun es s os hr => (sends_to_peer hr).2⟩

end Tailcat
