import Tailcat.Ssh.Bridge

/-!
# When the workers are joined

A connection is finished with its thread joined, except on two ways out of `service`: when the
tunnel has failed, and when an exception is handled before the worker is done. A thread that was not
joined ends the process when the connection is erased.

## Main definitions

* `ServiceState.Joined`: a finished connection's thread is joined
* `ServiceState.Joins`, `Impl.Joins`: a step does not take one of the two ways
* `ServiceState.Consistent`: what holds of a connection between two steps

## Main results

* `removeIf_fst`, `mem_removeIf_snd`: `poll` keeps the connections that are not finished, in order,
  and drops the threads of the others
* `joined_beginService`, `joined_endService`, `joined_handleException`, `joined_step`: one step of
  a connection
* `pollMachine_step`, `pollMachine_consistent`: one step of the server, and a run
* `poll_joins_iff`: the runs that join all the threads they drop
-/

namespace Tailcat.Ssh

/-! ## The vector -/

/-- The connections that are not finished are kept in their order. -/
theorem removeIf_fst (ss : List ServiceState) (holes : List Bool) :
    (removeIf ss holes).1 = ss.filter (! ·.connection.finished) := by
  induction ss generalizing holes with
  | nil => rfl
  | cons s ss ih =>
    unfold removeIf
    split
    · rename_i hf
      rw [ih, List.filter_cons_of_neg (by simp [hf])]
    · rename_i hf
      rw [List.filter_cons_of_pos (by simpa using hf)]
      cases holes with
      | nil => exact congrArg _ (ih _)
      | cons hole holes => exact congrArg _ (ih _)

/-- A joinable thread is dropped when it is in a hole or its connection is finished. -/
theorem mem_removeIf_snd {ss : List ServiceState} {holes : List Bool} :
    true ∈ (removeIf ss holes).2 ↔ true ∈ holes ∨
      ∃ s ∈ ss, s.connection.finished = true ∧ s.connection.threadJoinable = true := by
  induction ss generalizing holes with
  | nil => simp [removeIf]
  | cons s ss ih =>
    unfold removeIf
    split
    · rename_i hf
      simp only [ih, List.mem_append, List.mem_singleton, List.exists_mem_cons_iff, or_assoc, hf,
        true_and, @eq_comm _ true]
    · rename_i hf
      simp only [List.exists_mem_cons_iff, hf, false_and, false_or, Bool.false_eq_true]
      cases holes with
      | nil => simpa using @ih []
      | cons hole holes =>
        -- The slot that the connection leaves has a thread that is not joinable.
        simp [ih, or_assoc]

/-! ## A connection -/

/-- The part of `service` between `c` and `c'` does not end it. -/
structure Connection.Continues (c c' : Connection) : Prop where
  finished : c'.finished = c.finished
  threadJoinable : c'.threadJoinable = c.threadJoinable

namespace Connection

variable {c c' c'' : Connection}

theorem Continues.refl : c.Continues c := ⟨rfl, rfl⟩

theorem Continues.trans (h : c.Continues c') (h' : c'.Continues c'') : c.Continues c'' :=
  ⟨h'.finished.trans h.finished, h'.threadJoinable.trans h.threadJoinable⟩

theorem continues_andThen {p : Part} {f : Connection → Part} (h : c.Continues p.1)
    (h' : p.1.Continues (f p.1).1) : c.Continues (p.andThen f).1 := by
  unfold Part.andThen
  split
  · exact h
  · exact h.trans h'

theorem continues_readTunnel : c.Continues c.readTunnel := by
  unfold readTunnel
  split <;> exact ⟨rfl, rfl⟩

theorem continues_sendToBridge (send : Option ℕ) : c.Continues (c.sendToBridge send).1 := by
  unfold sendToBridge
  split
  · split <;> exact ⟨rfl, rfl⟩
  · exact .refl

theorem continues_shutdownBridge : c.Continues c.shutdownBridge.1 := by
  unfold shutdownBridge
  split <;> exact ⟨rfl, rfl⟩

theorem continues_readBridge (recv : Option ℕ) (shutdown : Except String Unit) :
    c.Continues (c.readBridge recv shutdown).1 := by
  unfold readBridge
  split
  · split
    · exact .refl
    · dsimp only
      split
      · exact ⟨rfl, rfl⟩
      · exact ⟨rfl, rfl⟩
      · split
        · exact ⟨rfl, rfl⟩
        · split <;> exact ⟨rfl, rfl⟩
  · exact .refl

theorem continues_writeTunnel (write : Except String ℕ) :
    c.Continues (c.writeTunnel write).1 := by
  unfold writeTunnel
  split
  · split <;> exact ⟨rfl, rfl⟩
  · exact .refl

theorem continues_relayOctets (recv : Option ℕ) (shutdown : Except String Unit)
    (write : Except String ℕ) : c.Continues (c.relayOctets recv shutdown write).1 :=
  continues_andThen (continues_readBridge recv shutdown) (continues_writeTunnel write)

/-- A connection whose tunnel has not failed goes on. -/
theorem continues_beginService (send : Option ℕ) (h : c.finished = false → c.tunnel.failed = false) :
    c.Continues (c.beginService send).1 := by
  unfold beginService
  split
  · exact .refl
  · rename_i hf
    rw [if_neg (by simp [h (Bool.not_eq_true _ ▸ hf)])]
    exact continues_andThen (continues_readTunnel.trans (continues_sendToBridge send))
      continues_shutdownBridge

theorem continues_reportError (verbose : Bool) : c.Continues (c.reportError verbose).1 := by
  unfold reportError
  split <;> exact ⟨rfl, rfl⟩

@[simp] theorem threadJoinable_join : c.join.1.threadJoinable = false := by
  unfold join
  split
  · rfl
  · rename_i hj
    exact Bool.not_eq_true _ ▸ hj

/-- `service` joins the worker where it finishes the connection. -/
theorem endService_cases (verbose : Bool) (c : Connection) :
    c.Continues (c.endService verbose).1 ∨
      (c.endService verbose).1.finished = true ∧
        (c.endService verbose).1.threadJoinable = false := by
  unfold endService
  split
  · dsimp only
    split
    · exact .inr ⟨rfl, threadJoinable_join⟩
    · exact .inl (continues_reportError verbose)
  · exact .inl .refl

/-- The exception handler joins the worker when it is done. -/
theorem threadJoinable_handleException (verbose : Bool) (what : String) (c : Connection) :
    (c.handleException verbose what).1.threadJoinable =
      (c.threadJoinable && ! c.worker.done) := by
  unfold handleException
  dsimp only
  split
  · rename_i hd
    rw [threadJoinable_join, hd, Bool.not_true, Bool.and_false]
  · rename_i hd
    rw [Bool.not_eq_true] at hd
    rw [hd, Bool.not_false, Bool.and_true]

end Connection

namespace ServiceState

/-- The thread of a finished connection is joined. -/
def Joined (s : ServiceState) : Prop :=
  s.connection.finished = true → s.connection.threadJoinable = false

/-- The event does not find a failed tunnel, and it handles no exception before the worker is
done. -/
def Joins (s : ServiceState) : BridgeEvent → Prop
  | .beginService _ => s.connection.finished = false → s.connection.tunnel.failed = false
  | .handleException => s.connection.worker.done = true
  | _ => True

/-- A thread is joined only where the connection is finished, and then `service` returns. -/
structure Consistent (s : ServiceState) : Prop where
  joinable : s.connection.finished = false → s.connection.threadJoinable = true
  idle : s.connection.finished = true → s.point = .idle

variable {verbose : Bool} {s s' : ServiceState} {e : BridgeEvent} {os : List BridgeOutput}

theorem consistent_new (tunnel : Tunnel) : (new tunnel).Consistent := by
  constructor <;> rintro ⟨⟩
  rfl

/-- The steps that do not end a connection. -/
theorem Consistent.continues (hs : s.Consistent)
    (h : s.connection.Continues s'.connection)
    (hp : s'.connection.finished = true → s'.point = .idle) :
    s'.Consistent ∧ (s'.Joined ↔ s.Joined) := by
  refine ⟨⟨fun hf => ?_, hp⟩, ?_⟩
  · exact h.threadJoinable.trans (hs.joinable (h.finished.symm.trans hf))
  · unfold Joined
    rw [h.finished, h.threadJoinable]

/-- A connection that `service` is at is not finished. -/
theorem Consistent.unfinished (hs : s.Consistent) (hp : s.point ≠ .idle) :
    s.connection.finished = false := by
  by_contra hf
  exact hp (hs.idle (Bool.not_eq_false _ ▸ hf))

/-- The tunnel and the worker have no part in the end of a connection. -/
theorem continues_of_party (h : s.step verbose e = some (s', os)) (he : e.party ≠ .service) :
    (s.connection.Continues s'.connection ∧ s'.point = s.point) ∧ s.Joins e := by
  have hs := step_eq_some h
  -- These events change only the tunnel, the bridge or the worker.
  cases e with
  | tunnelReceive =>
    obtain ⟨-, -, rfl⟩ := hs
    exact ⟨⟨⟨rfl, rfl⟩, rfl⟩, trivial⟩
  | tunnelFin =>
    obtain ⟨-, -, rfl⟩ := hs
    exact ⟨⟨⟨rfl, rfl⟩, rfl⟩, trivial⟩
  | tunnelFail =>
    obtain ⟨-, rfl⟩ := hs
    exact ⟨⟨⟨rfl, rfl⟩, rfl⟩, trivial⟩
  | workerWrite =>
    obtain ⟨-, -, rfl⟩ := hs
    exact ⟨⟨⟨rfl, rfl⟩, rfl⟩, trivial⟩
  | workerError =>
    obtain ⟨-, rfl⟩ := hs
    exact ⟨⟨⟨rfl, rfl⟩, rfl⟩, trivial⟩
  | workerClose =>
    obtain ⟨-, -, rfl⟩ := hs
    exact ⟨⟨⟨rfl, rfl⟩, rfl⟩, trivial⟩
  | workerDone =>
    obtain ⟨-, -, rfl⟩ := hs
    exact ⟨⟨⟨rfl, rfl⟩, rfl⟩, trivial⟩
  | beginService => exact absurd rfl he
  | relayOctets => exact absurd rfl he
  | endService => exact absurd rfl he
  | handleException => exact absurd rfl he

/-- The start of `service`: a connection whose tunnel has failed is finished as it is. -/
theorem joined_beginService (hs : s.Consistent) {send : Option ℕ}
    (h : s' = { connection := (s.connection.beginService send).1
                point := (s.connection.beginService send).2.2 }) :
    s'.Consistent ∧ (s'.Joined ↔ s.Joined ∧ s.Joins (.beginService send)) := by
  by_cases hj : s.connection.finished = false → s.connection.tunnel.failed = false
  · have hc := Connection.continues_beginService send hj
    rw [and_iff_left (show s.Joins (.beginService send) from hj), h]
    refine hs.continues hc fun hf => ?_
    -- A finished connection is left alone.
    rw [hc.finished] at hf
    unfold Connection.beginService
    rw [if_pos hf]
  · -- The tunnel has failed: the thread is joinable, and stays so.
    rw [Classical.not_imp, Bool.not_eq_false] at hj
    have he : s.connection.beginService send =
        ({ s.connection with finished := true }, [.bridgeClosed], .idle) := by
      unfold Connection.beginService
      rw [if_neg (by simp [hj.1]), if_pos hj.2]
    rw [he] at h
    rw [h]
    refine ⟨⟨fun hf => absurd hf (by simp), fun _ => rfl⟩, ?_⟩
    refine iff_of_false (fun h => ?_) fun h => ?_
    · exact Bool.false_ne_true ((h rfl).symm.trans (hs.joinable hj.1))
    · exact Bool.false_ne_true ((h.2 hj.1).symm.trans hj.2)

/-- The end of `service`: a connection is finished and joined, or goes on. -/
theorem joined_endService (hs : s.Consistent) (hf : s.connection.finished = false)
    (h : s' = { connection := (s.connection.endService verbose).1 }) :
    s'.Consistent ∧ (s'.Joined ↔ s.Joined ∧ s.Joins .endService) := by
  rw [and_iff_left (show s.Joins .endService from trivial), h]
  rcases Connection.endService_cases verbose s.connection with hc | ⟨hfin, hj⟩
  · exact hs.continues hc fun _ => rfl
  · refine ⟨⟨fun h => absurd (h.symm.trans hfin) Bool.false_ne_true, fun _ => rfl⟩, ?_⟩
    exact iff_of_true (fun _ => hj) fun h => absurd (hf.symm.trans h) Bool.false_ne_true

/-- The exception handler: the connection is finished, and joined when the worker is done. -/
theorem joined_handleException (hs : s.Consistent) (hf : s.connection.finished = false)
    {what : String} (h : s' = { connection := (s.connection.handleException verbose what).1 }) :
    s'.Consistent ∧ (s'.Joined ↔ s.Joined ∧ s.Joins .handleException) := by
  have hj := Connection.threadJoinable_handleException verbose what s.connection
  rw [hs.joinable hf, Bool.true_and] at hj
  have hjoined : s.Joined := fun h => absurd (hf.symm.trans h) Bool.false_ne_true
  rw [and_iff_right hjoined, h]
  refine ⟨⟨fun h => absurd h (by simp [Connection.handleException]), fun _ => rfl⟩, ?_⟩
  unfold Joined
  dsimp only
  rw [hj, Bool.not_eq_false']
  exact ⟨fun h => h rfl, fun h _ => h⟩

/-- **One step of a connection**: afterwards a finished one is joined just if this was so before
and the step takes neither of the two ways. -/
theorem joined_step (hs : s.Consistent) (h : s.step verbose e = some (s', os)) :
    s'.Consistent ∧ (s'.Joined ↔ s.Joined ∧ s.Joins e) := by
  -- The others do not touch what the invariant is about.
  by_cases he : e.party = .service
  swap
  · obtain ⟨⟨hc, hp⟩, hj⟩ := continues_of_party h he
    rw [and_iff_left hj]
    exact hs.continues hc fun hf => hp.trans (hs.idle (hc.finished.symm.trans hf))
  cases e with
  | tunnelReceive => cases he
  | tunnelFin => cases he
  | tunnelFail => cases he
  | workerWrite => cases he
  | workerError => cases he
  | workerClose => cases he
  | workerDone => cases he
  | beginService send =>
    obtain ⟨-, -, hs'⟩ := step_eq_some h
    exact joined_beginService hs hs'
  | relayOctets recv shutdown write =>
    obtain ⟨hp, -, rfl⟩ := step_eq_some h
    have hc := Connection.continues_relayOctets (c := s.connection) recv shutdown write
    have hf := hc.finished.trans (hs.unfinished (by simp [hp]))
    rw [and_iff_left (show s.Joins (.relayOctets recv shutdown write) from trivial)]
    exact hs.continues hc fun hf' => absurd (hf.symm.trans hf') Bool.false_ne_true
  | endService =>
    obtain ⟨hp, -, hs'⟩ := step_eq_some h
    exact joined_endService hs (hs.unfinished (by simp [hp])) hs'
  | handleException =>
    obtain ⟨what, hp, -, hs'⟩ := step_eq_some h
    exact joined_handleException hs (hs.unfinished (by simp [hp])) hs'

end ServiceState

/-! ## The server -/

namespace Impl

/-- The step takes neither of the two ways out of `service` that leave the thread behind. -/
def Joins (s : Impl) : PollEvent → Prop
  | .connection index event => ∀ c, s.connections[index]? = some c → c.Joins event
  | _ => True

/-- The threads of all finished connections are joined. -/
def AllJoined (s : Impl) : Prop := ∀ c ∈ s.connections, c.Joined

/-- What holds of the server between two steps. While `poll` does not run, no connection is
finished. -/
structure Consistent (s : Impl) : Prop where
  connection : ∀ c ∈ s.connections, c.Consistent
  unfinished : s.servicing = none → s.terminated = false →
    ∀ c ∈ s.connections, c.connection.finished = false

end Impl

/-- No joinable thread is dropped, and the process goes on. -/
def Orderly (os : List PollOutput) : Prop := ∀ o ∈ os, o ≠ .dropped true ∧ o ≠ .terminate

theorem orderly_append {os os' : List PollOutput} :
    Orderly (os ++ os') ↔ Orderly os ∧ Orderly os' := List.forall_mem_append

variable {verbose : Bool} {s s' : Impl} {e : PollEvent} {os : List PollOutput}

/-- Erasing the finished connections ends the process unless they are all joined. -/
theorem eraseFinished_cases (s : Impl) :
    (¬ s.AllJoined ∧ ¬ Orderly s.eraseFinished.2 ∧
      s.eraseFinished.1 = { s with servicing := none, terminated := true }) ∨
    (s.AllJoined ∧ Orderly s.eraseFinished.2 ∧
      s.eraseFinished.1 = { s with
        connections := s.connections.filter (! ·.connection.finished)
        servicing := none }) := by
  have hjoined : s.AllJoined ↔ true ∉ (removeIf s.connections []).2 := by
    rw [mem_removeIf_snd]
    simp only [List.not_mem_nil, false_or, not_exists, not_and, Bool.not_eq_true]
    exact Iff.rfl
  rw [hjoined]
  unfold Impl.eraseFinished
  dsimp only
  split
  · -- The first joinable thread ends the process.
    rename_i hmem
    refine .inl ⟨not_not.mpr hmem, fun h => ?_, rfl⟩
    exact ((orderly_append.mp h).2 .terminate (by simp)).2 rfl
  · rename_i hmem
    refine .inr ⟨hmem, fun o ho => ?_, by rw [removeIf_fst]⟩
    obtain ⟨thread, hthread, rfl⟩ := List.mem_map.mp ho
    refine ⟨fun he => hmem ?_, by simp⟩
    rwa [← PollOutput.dropped.inj he]

/-- What a step keeps: the invariant, and that the threads of the finished connections are joined,
the latter just if the step takes neither of the two ways out of `service`. -/
structure Keeps (s : Impl) (e : PollEvent) (s' : Impl) (os : List PollOutput) : Prop where
  consistent : s'.Consistent
  terminated : s'.terminated = true → ¬ Orderly os
  joined : s'.AllJoined ∧ Orderly os ↔ s.AllJoined ∧ s.Joins e

/-- New connections are not finished. -/
theorem keeps_accept (hs : s.Consistent) (hgo : s.terminated = false) {tunnels : List Tunnel}
    {fails : Bool} (hidle : s.servicing = none) {servicing : Option ℕ} (ho : Orderly os) :
    Keeps s (.accept tunnels fails)
      { s with connections := s.connections ++ tunnels.map .new, servicing } os := by
  have hnew : ∀ P : ServiceState → Prop, (∀ tunnel, P (.new tunnel)) →
      ((∀ c ∈ s.connections ++ tunnels.map .new, P c) ↔ ∀ c ∈ s.connections, P c) := by
    intro P hP
    rw [List.forall_mem_append]
    refine and_iff_left fun c hc => ?_
    obtain ⟨tunnel, -, rfl⟩ := List.mem_map.mp hc
    exact hP tunnel
  constructor
  · constructor
    · exact (hnew _ ServiceState.consistent_new).mpr hs.connection
    · intro _ _
      exact (hnew _ fun _ => rfl).mpr (hs.unfinished hidle hgo)
  · intro ht
    exact absurd (hgo.symm.trans ht) Bool.false_ne_true
  · rw [and_iff_left ho, and_iff_left (show s.Joins (.accept tunnels fails) from trivial)]
    exact hnew ServiceState.Joined fun _ hf => absurd hf Bool.false_ne_true

/-- A step of one connection leaves the others as they are. -/
theorem keeps_connection (hs : s.Consistent) (hgo : s.terminated = false) {index : ℕ}
    {event : BridgeEvent} (hlets : s.Lets index event.party) {c c' : ServiceState}
    (hc : s.connections[index]? = some c) {os : List BridgeOutput}
    (hstep : c.step verbose event = some (c', os)) :
    Keeps s (.connection index event)
      { s with
        connections := s.connections.set index c'
        servicing := s.next index event.party c'.point } (os.map (.connection index)) := by
  obtain ⟨hc', hjoined⟩ :=
    ServiceState.joined_step (hs.connection c (List.mem_of_getElem? hc)) hstep
  have ho : Orderly (os.map (.connection index)) := by
    intro o ho
    obtain ⟨o', -, rfl⟩ := List.mem_map.mp ho
    simp
  have hjoins : s.Joins (.connection index event) ↔ c.Joins event := by
    refine ⟨fun h => h c hc, fun h d hd => ?_⟩
    rwa [← Option.some.inj (hc.symm.trans hd)]
  obtain ⟨hi, hget⟩ := List.getElem?_eq_some_iff.mp hc
  obtain ⟨before, after, heq, -, hset⟩ := @List.exists_of_set _ _ c' _ hi
  rw [hget] at heq
  have hold : ∀ P : ServiceState → Prop, (∀ d ∈ s.connections, P d) ↔
      (∀ d ∈ before, P d) ∧ P c ∧ ∀ d ∈ after, P d := by
    intro P
    rw [heq, List.forall_mem_append, List.forall_mem_cons]
  have hnew : ∀ P : ServiceState → Prop, (∀ d ∈ s.connections.set index c', P d) ↔
      (∀ d ∈ before, P d) ∧ P c' ∧ ∀ d ∈ after, P d := by
    intro P
    rw [hset, List.forall_mem_append, List.forall_mem_cons]
  constructor
  · constructor
    · obtain ⟨hbefore, -, hafter⟩ := (hold _).mp hs.connection
      exact (hnew _).mpr ⟨hbefore, hc', hafter⟩
    · -- Between two calls of `poll`, `service` does not run and no connection ends.
      intro hidle _
      dsimp only [Impl.next] at hidle
      split at hidle
      · cases hidle
      · have hparty : event.party ≠ .service := by
          intro he
          rw [he] at hlets
          exact Option.some_ne_none _ (hlets.symm.trans hidle)
        have hcont := (ServiceState.continues_of_party hstep hparty).1.1
        obtain ⟨hbefore, hun, hafter⟩ := (hold _).mp (hs.unfinished hidle hgo)
        exact (hnew _).mpr ⟨hbefore, hcont.finished.trans hun, hafter⟩
  · intro ht
    exact absurd (hgo.symm.trans ht) Bool.false_ne_true
  · rw [and_iff_left ho, hjoins]
    unfold Impl.AllJoined
    rw [hold, hnew, hjoined]
    tauto

theorem keeps_erase (hs : s.Consistent) (hgo : s.terminated = false) :
    Keeps s .erase s.eraseFinished.1 s.eraseFinished.2 := by
  obtain ⟨hnot, ho, he⟩ | ⟨hall, ho, he⟩ := eraseFinished_cases s
  · rw [he]
    constructor
    · refine ⟨hs.connection, fun _ ht => ?_⟩
      cases ht
    · exact fun _ => ho
    · exact iff_of_false (fun h => ho h.2) fun h => hnot h.1
  · rw [he]
    have hkept : ∀ c ∈ s.connections.filter (! ·.connection.finished),
        c ∈ s.connections ∧ c.connection.finished = false := by
      intro c hc
      simpa using List.mem_filter.mp hc
    constructor
    · exact ⟨fun c hc => hs.connection c (hkept c hc).1, fun _ _ c hc => (hkept c hc).2⟩
    · intro ht
      exact absurd (hgo.symm.trans ht) Bool.false_ne_true
    · exact iff_of_true ⟨fun c hc => hall c (hkept c hc).1, ho⟩ ⟨hall, trivial⟩

/-- **One step of the server.** -/
theorem pollMachine_step (hs : s.Consistent)
    (h : (pollMachine verbose).step s e = some (s', os)) : Keeps s e s' os := by
  dsimp only [pollMachine] at h
  split at h
  · cases h
  rename_i hgo
  rw [Bool.not_eq_true] at hgo
  cases e with
  | accept tunnels fails =>
    dsimp only at h
    split at h
    · rename_i ha
      obtain ⟨rfl, rfl⟩ := Prod.mk.inj (Option.some.inj h)
      apply keeps_accept hs hgo ha.1
      split <;> simp [Orderly]
    · cases h
  | connection index event =>
    -- The poll lets the connection step, and the connection can.
    dsimp only at h
    split at h
    · rename_i hlets
      split at h
      · cases h
      · rename_i c hc
        obtain ⟨⟨c', os'⟩, hstep, h⟩ := Option.map_eq_some_iff.mp h
        obtain ⟨rfl, rfl⟩ := Prod.mk.inj h
        exact keeps_connection hs hgo hlets hc hstep
    · cases h
  | erase =>
    dsimp only at h
    split at h
    · obtain ⟨rfl, rfl⟩ := Prod.mk.inj (Option.some.inj h)
      exact keeps_erase hs hgo
    · cases h

/-- Every run keeps the invariant; when the process has ended, a joinable thread was dropped. -/
theorem pollMachine_consistent {es : List PollEvent} (hr : (pollMachine verbose).Runs es s os) :
    s.Consistent ∧ (s.terminated = true → ¬ Orderly os) := by
  refine hr.trace_invariant
    (I := fun _ s os => s.Consistent ∧ (s.terminated = true → ¬ Orderly os)) ?_ ?_
  · constructor
    · constructor
      · exact List.forall_mem_nil _
      · intro _ _
        exact List.forall_mem_nil _
    · rintro ⟨⟩
  · rintro es s os e s' os' - ⟨hs, -⟩ hstep
    have hkeeps := pollMachine_step hs hstep
    refine ⟨hkeeps.consistent, fun ht ho => ?_⟩
    exact hkeeps.terminated ht (orderly_append.mp ho).2

/-- **When the workers are joined**: a run up to the end of a `poll` drops no joinable thread, and
never terminates, just if no call of `service` found a failed tunnel, and none handled an exception
before the worker was done. -/
theorem poll_joins_iff {verbose : Bool} {es : List PollEvent} {s : Impl} {os : List PollOutput}
    (hr : (pollMachine verbose).Runs es s os) (hidle : s.servicing = none) :
    (∀ o ∈ os, o ≠ .dropped true ∧ o ≠ .terminate) ↔ (pollMachine verbose).Meets Impl.Joins es := by
  have hiff : s.AllJoined ∧ Orderly os ↔ (pollMachine verbose).Meets Impl.Joins es := by
    refine hr.iff_meets (P := fun s os => s.AllJoined ∧ Orderly os) ?_ ?_
    · exact ⟨List.forall_mem_nil _, List.forall_mem_nil _⟩
    · intro es s os e s' os' hr hstep
      have hjoined := (pollMachine_step (pollMachine_consistent hr).1 hstep).joined
      rw [orderly_append, and_left_comm, hjoined]
      tauto
  obtain ⟨hs, ht⟩ := pollMachine_consistent hr
  change Orderly os ↔ _
  rw [← hiff]
  cases hterm : s.terminated with
  | true => exact iff_of_false (ht hterm) fun h => ht hterm h.2
  | false =>
    -- No connection is finished, so that all finished ones are joined.
    refine (and_iff_right fun c hc hf => ?_).symm
    exact absurd ((hs.unfinished hidle hterm c hc).symm.trans hf) Bool.false_ne_true

/-- One connection, relayed once; then its worker is done, and it is finished and erased. -/
theorem poll_joins_iff_example :
    let tunnel : Tunnel := { connected := true }
    let es : List PollEvent :=
      [.accept [tunnel] false, .connection 0 (.beginService (some 0)),
        .connection 0 .workerClose, .connection 0 .workerDone,
        .connection 0 (.relayOctets (some 1) (.ok ()) (.ok 0)), .connection 0 .endService, .erase]
    ∃ s os, (pollMachine false).Runs es s os ∧ .dropped false ∈ os ∧
      ((∀ o ∈ os, o ≠ .dropped true ∧ o ≠ .terminate) ↔ (pollMachine false).Meets Impl.Joins es) :=
  ⟨_, _, rfl, by decide, poll_joins_iff rfl rfl⟩

/-- A peer resets its connection while the worker runs: the connection is finished and erased, and
the process is terminated. -/
theorem poll_terminates :
    let tunnel : Tunnel := { connected := true }
    let es : List PollEvent :=
      [.accept [tunnel] false, .connection 0 (.beginService (some 0)),
        .connection 0 (.relayOctets (some 0) (.ok ()) (.ok 0)), .connection 0 .endService, .erase,
        .connection 0 .tunnelFail, .accept [] false, .connection 0 (.beginService (some 0)), .erase]
    ∃ s os, (pollMachine false).Runs es s os ∧ .dropped true ∈ os ∧ .terminate ∈ os :=
  ⟨_, _, rfl, by decide, by decide⟩

end Tailcat.Ssh
