import Tailcat.Wireguard.Engine
import Tailcat.Wireguard.Plain

/-!
# Sessions of an engine

An engine reports a session as soon as a handshake is answered or completed, or a transport message
is accepted, and never takes the report back. It can encrypt from the moment that a handshake that
it started is completed, or a transport message is accepted, until the current keypair expires or
is used up.

## Main definitions

* `Returned`: some packet was handled with a result of a kind
* `Confirmed`: some packet made a keypair the current one
* `SessionInvariant`: what holds of the keypairs, the report and the results so far

## Main results

* `Handled.sessionInvariant`: what a received packet preserves
* `Engine.create_sessionInvariant`: what holds of a new engine
* `SessionInvariant.notReady_iff`: when an engine cannot encrypt
-/

namespace Tailcat

/-- Some packet was handled with a result with the property `Q`. -/
def Returned (Q : WireGuardPacketResult → Prop) (os : List EngineOutput) : Prop :=
  ∃ packet result, .handled packet result ∈ os ∧ Q result

/-- The result tells of a session. -/
def WireGuardPacketResult.Establishes (result : WireGuardPacketResult) : Prop :=
  result.sessionEstablished = true

/-- The result tells of a session, and is not the answer to an initiation. -/
def WireGuardPacketResult.Confirms (result : WireGuardPacketResult) : Prop :=
  result.sessionEstablished = true ∧ result.outbound = []

/-- Some packet completed a handshake that this side started, or was accepted under a keypair. -/
def Confirmed (os : List EngineOutput) : Prop :=
  Returned WireGuardPacketResult.Confirms os

section Returned

variable {Q : WireGuardPacketResult → Prop} {os : List EngineOutput}

theorem not_returned_nil : ¬ Returned Q [] := by
  rintro ⟨_, _, h, -⟩
  cases h

theorem returned_append {os' : List EngineOutput} :
    Returned Q (os ++ os') ↔ Returned Q os ∨ Returned Q os' := by
  unfold Returned
  constructor
  · rintro ⟨packet, result, hmem, hQ⟩
    rcases List.mem_append.mp hmem with hmem | hmem
    · exact .inl ⟨packet, result, hmem, hQ⟩
    · exact .inr ⟨packet, result, hmem, hQ⟩
  · rintro (⟨packet, result, hmem, hQ⟩ | ⟨packet, result, hmem, hQ⟩)
    · exact ⟨packet, result, List.mem_append_left _ hmem, hQ⟩
    · exact ⟨packet, result, List.mem_append_right _ hmem, hQ⟩

theorem returned_handled {packet : List UInt8} {result : WireGuardPacketResult} :
    Returned Q [.handled packet result] ↔ Q result := by
  constructor
  · rintro ⟨packet', result', hmem, hQ⟩
    obtain ⟨rfl, rfl⟩ := EngineOutput.handled.inj (List.mem_singleton.mp hmem)
    exact hQ
  · exact fun hQ => ⟨packet, result, List.mem_singleton_self _, hQ⟩

theorem Returned.mono {Q' : WireGuardPacketResult → Prop} (hQ : ∀ result, Q result → Q' result)
    (h : Returned Q os) : Returned Q' os := by
  obtain ⟨packet, result, hmem, hr⟩ := h
  exact ⟨packet, result, hmem, hQ result hr⟩

theorem not_returned_initiated {message : Except Exn (List UInt8)} :
    ¬ Returned Q [.initiated message] := by
  rintro ⟨_, _, hmem, -⟩
  cases List.mem_singleton.mp hmem

theorem not_returned_encrypted {packet : List UInt8} {message : Except Exn (List UInt8)} :
    ¬ Returned Q [.encrypted packet message] := by
  rintro ⟨_, _, hmem, -⟩
  cases List.mem_singleton.mp hmem

end Returned

variable {H K : Type} {W : WireguardLwip H K}

/-- The report of a session is the first result that establishes one, and the current keypair is
that of the first result that confirms one. A current keypair that this side did not initiate has
received something, so that the previous one is never sent with. -/
structure SessionInvariant (e : Engine H K) (os : List EngineOutput) : Prop where
  established_iff : e.established = true ↔ Returned WireGuardPacketResult.Establishes os
  valid_iff : e.peer.currKeypair.valid = true ↔ Confirmed os
  received : e.peer.currKeypair.valid = true →
    e.peer.currKeypair.initiator = true ∨ e.peer.currKeypair.lastRx ≠ 0
  prev_valid : e.peer.prevKeypair.valid = true → e.peer.currKeypair.valid = true

/-- What a call preserves that establishes nothing. -/
theorem SessionInvariant.unreturned {e e' : Engine H K} {os os' : List EngineOutput}
    (h : SessionInvariant e os) (hos : ¬ Returned WireGuardPacketResult.Establishes os')
    (hestablished : e'.established = e.established)
    (hvalid : e'.peer.currKeypair.valid = e.peer.currKeypair.valid)
    (hinitiator : e'.peer.currKeypair.initiator = e.peer.currKeypair.initiator)
    (hlastRx : e'.peer.currKeypair.lastRx = e.peer.currKeypair.lastRx)
    (hprev : e'.peer.prevKeypair.valid = e.peer.prevKeypair.valid) :
    SessionInvariant e' (os ++ os') := by
  refine ⟨?_, ?_, ?_, ?_⟩
  · rw [hestablished, returned_append, or_iff_left hos]
    exact h.established_iff
  · -- A result that confirms a session establishes it.
    have hconfirmed : ¬ Returned WireGuardPacketResult.Confirms os' :=
      fun hc => hos (hc.mono fun _ hr => hr.1)
    rw [hvalid, Confirmed, returned_append, or_iff_left hconfirmed]
    exact h.valid_iff
  · rw [hvalid, hinitiator, hlastRx]
    exact h.received
  · rw [hvalid, hprev]
    exact h.prev_valid

/-- What a packet leaves behind that made a keypair the current one. -/
theorem SessionInvariant.confirmed {e : Engine H K} {os : List EngineOutput}
    {packet : List UInt8} {result : WireGuardPacketResult} (hr : result.Confirms)
    (hestablished : e.established = true) (hvalid : e.peer.currKeypair.valid = true)
    (hreceived : e.peer.currKeypair.initiator = true ∨ e.peer.currKeypair.lastRx ≠ 0) :
    SessionInvariant e (os ++ [.handled packet result]) where
  established_iff := iff_of_true hestablished
    (returned_append.mpr (.inr (returned_handled.mpr hr.1)))
  valid_iff := iff_of_true hvalid (returned_append.mpr (.inr (returned_handled.mpr hr)))
  received _ := hreceived
  prev_valid _ := hvalid

theorem not_establishes_empty {packet : List UInt8} :
    ¬ Returned WireGuardPacketResult.Establishes [.handled packet {}] := by
  rw [returned_handled]
  exact Bool.false_ne_true

/-- **What a received packet preserves.** -/
theorem Engine.Handled.sessionInvariant (S : W.SessionLaws) {env : Env} {e e' : Engine H K}
    {packet : List UInt8} {result : WireGuardPacketResult} {os : List EngineOutput}
    (hh : Engine.Handled W env e packet e' result) (h : SessionInvariant e os) :
    SessionInvariant e' (os ++ [.handled packet result]) := by
  cases hh with
  | ignored rest => exact h.unreturned not_establishes_empty rfl rfl rfl rfl rfl
  | answered rest response type =>
    -- The new keypair is the next one, so that nothing changes for sending.
    obtain ⟨-, hcurr, hprev⟩ := S.start_responder env (e.withRest rest).peer
    have hconfirms : ¬ Returned WireGuardPacketResult.Confirms [.handled packet
        { outbound := response.toList, sessionEstablished := true }] := by
      rw [returned_handled]
      rintro ⟨-, hnil⟩
      have hlen := congrArg List.length hnil
      rw [List.Vector.toList_length] at hlen
      cases hlen
    refine ⟨iff_of_true rfl (returned_append.mpr (.inr (returned_handled.mpr rfl))), ?_, ?_, ?_⟩
    · rw [hcurr, Confirmed, returned_append, or_iff_left hconfirms]
      exact h.valid_iff
    · rw [hcurr]
      exact h.received
    · intro hv
      rw [hcurr]
      exact h.prev_valid (hprev hv)
  | completed rest type =>
    obtain ⟨hvalid, hinitiator⟩ := S.start_initiator env (e.withRest rest).peer
    exact .confirmed ⟨rfl, rfl⟩ rfl hvalid (.inl hinitiator)
  | replayed slot keys replay =>
    cases slot with
    | curr => exact h.unreturned not_establishes_empty rfl rfl rfl rfl rfl
    | next => exact h.unreturned not_establishes_empty rfl rfl rfl rfl rfl
    | prev => exact h.unreturned not_establishes_empty rfl rfl rfl rfl rfl
  | received slot keys plaintext type index decrypts replay =>
    have hvalid := (S.valid_of_getPeerKeypairForIdx index).1
    have hnow := env.sysNow_ne_zero 1
    cases slot with
    | curr =>
      have hpeer := S.update_other { e.peer.setKeypair
        { e.peer.currKeypair with keys, lastRx := env.sysNow 1 } .curr with
        lastRx := env.sysNow 1 } .curr (by decide)
      refine .confirmed ⟨rfl, rfl⟩ rfl ?_ (.inr ?_)
      · exact (congrArg (·.currKeypair.valid) hpeer).trans hvalid
      · exact ne_of_eq_of_ne (congrArg (·.currKeypair.lastRx) hpeer) hnow
    | next =>
      have hcurr := (S.update_next { e.peer.setKeypair
        { e.peer.nextKeypair with keys, lastRx := env.sysNow 1 } .next with
        lastRx := env.sysNow 1 }).1
      refine .confirmed ⟨rfl, rfl⟩ rfl ?_ (.inr ?_)
      · exact (congrArg (·.valid) hcurr).trans hvalid
      · exact ne_of_eq_of_ne (congrArg (·.lastRx) hcurr) hnow
    | prev =>
      -- The current keypair is older than this message, and stays what it was.
      have hpeer := S.update_other { e.peer.setKeypair
        { e.peer.prevKeypair with keys, lastRx := env.sysNow 1 } .prev with
        lastRx := env.sysNow 1 } .prev (by decide)
      have hcurr := congrArg (·.currKeypair) hpeer
      refine .confirmed ⟨rfl, rfl⟩ rfl ?_ ?_
      · exact (congrArg (·.valid) hcurr).trans (h.prev_valid hvalid)
      · rcases h.received (h.prev_valid hvalid) with hi | hr
        · exact .inl ((congrArg (·.initiator) hcurr).trans hi)
        · exact .inr (ne_of_eq_of_ne (congrArg (·.lastRx) hcurr) hr)

namespace Engine

variable {env : Env} {e : Engine H K} {os : List EngineOutput}

/-- What encrypting preserves. -/
theorem sessionInvariant_encrypt (h : SessionInvariant e os) (packet : List UInt8) :
    SessionInvariant (e.encrypt W env packet).1
      (os ++ [.encrypted packet (e.encrypt W env packet).2]) := by
  obtain ⟨⟨e', r⟩, he⟩ : ∃ p, e.encrypt W env packet = p := ⟨_, rfl⟩
  rw [he]
  cases r with
  | error x =>
    rw [eq_of_encrypt_eq_error he]
    exact h.unreturned not_returned_encrypted rfl rfl rfl rfl rfl
  | ok message =>
    obtain ⟨-, -, rfl, -⟩ := encrypt_eq_ok.mp he
    cases hslot : e.sendingSlot with
    | curr => exact h.unreturned not_returned_encrypted rfl rfl rfl rfl rfl
    | next => exact h.unreturned not_returned_encrypted rfl rfl rfl rfl rfl
    | prev => exact h.unreturned not_returned_encrypted rfl rfl rfl rfl rfl

/-- What starting a handshake preserves. -/
theorem sessionInvariant_initiate (h : SessionInvariant e os) :
    SessionInvariant (e.initiate W env).1 (os ++ [.initiated (e.initiate W env).2]) := by
  unfold initiate
  dsimp only
  split
  · exact h.unreturned not_returned_initiated rfl rfl rfl rfl rfl
  · exact h.unreturned not_returned_initiated rfl rfl rfl rfl rfl

/-- A new engine has no keypairs. -/
theorem create_sessionInvariant (S : W.SessionLaws) {identity : NodeKeyPair} {remote : Key32}
    {psk : Option Key32} (hc : create W env identity remote psk = .ok e) :
    SessionInvariant e [] := by
  unfold create at hc
  split at hc
  · cases hc
  split at hc
  · cases hc
  split at hc
  · cases hc
  split at hc
  · cases hc
  · rename_i hinit
    obtain rfl := Except.ok.inj hc
    -- A new peer has no keypairs.
    have hvalid := S.peerInit_valid _ _ _ _ _ hinit
    refine ⟨iff_of_false Bool.false_ne_true not_returned_nil, iff_of_false ?_ not_returned_nil,
      fun h => absurd ((hvalid .curr).symm.trans h) Bool.false_ne_true,
      fun h => absurd ((hvalid .prev).symm.trans h) Bool.false_ne_true⟩
    exact fun h => absurd ((hvalid .curr).symm.trans h) Bool.false_ne_true

/-- **Every run** keeps report, keypairs and results in step. -/
theorem sessionInvariant_runs (S : W.SessionLaws) {identity : NodeKeyPair} {remote : Key32}
    {psk : Option Key32} (hc : create W env identity remote psk = .ok e)
    {es : List EngineEvent} {s : Engine H K} (hr : (engineMachine W e).Runs es s os) :
    SessionInvariant s os := by
  refine hr.trace_invariant (I := fun _ s os => SessionInvariant s os)
    (create_sessionInvariant S hc) ?_
  rintro es s os (env | ⟨env, packet⟩ | ⟨env, packet⟩) s' os' - hI hs
  · obtain ⟨rfl, rfl⟩ := Prod.mk.inj (Option.some.inj hs)
    exact sessionInvariant_initiate hI
  · obtain ⟨rfl, rfl⟩ := Prod.mk.inj (Option.some.inj hs)
    exact (handle_handled W env s packet).sessionInvariant S hI
  · obtain ⟨rfl, rfl⟩ := Prod.mk.inj (Option.some.inj hs)
    exact sessionInvariant_encrypt hI packet

/-- The current keypair is in its time, and not used up. -/
def Fresh (W : WireguardLwip H K) (now : UInt32) (e : Engine H K) : Prop :=
  W.expired now e.peer.currKeypair.keypairMillis W.rejectAfterTime = false ∧
    e.peer.currKeypair.sendingCounter < W.rejectAfterMessages

end Engine

/-- The keypair to send with is the current one. -/
theorem SessionInvariant.sendingSlot_eq {e : Engine H K} {os : List EngineOutput}
    (h : SessionInvariant e os) : e.sendingSlot = .curr := by
  refine if_neg ?_
  rintro ⟨hvalid, hinitiator, hzero⟩
  rcases h.received hvalid with hi | hr
  · exact hinitiator hi
  · exact hr hzero

/-- An engine cannot encrypt until something confirmed a session, nor when the current keypair is
expired or used up. -/
theorem SessionInvariant.notReady_iff {e : Engine H K} {os : List EngineOutput}
    (h : SessionInvariant e os) (env : Env) (packet : List UInt8) :
    (e.encrypt W env packet).2 = .error notReady ↔
      ¬ (Confirmed os ∧ e.Fresh W (env.sysNow 0)) := by
  rw [Engine.encrypt_eq_notReady, Engine.Ready, h.sendingSlot_eq, ← h.valid_iff]
  exact Iff.rfl

end Tailcat
