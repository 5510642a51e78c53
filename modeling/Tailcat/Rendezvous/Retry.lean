import Tailcat.Rendezvous.Client

/-!
# When a client sends its ping

The ping of a client is triggered by a reading of the clock at the top of its loop. An observer of
the client notes these readings, the latest reading of the loop, and every timeout that the
transport is given, with the time that the loop allowed for it. The clock does not go back.

## Main definitions

* `SendLog`, `observedMachine`: a client and what its observer notes
* `ClientStep`: what a step of a client can do
* `Scheduled`, `Waits`, `Answers`: what holds of a client and the notes between two steps

## Main results

* `clientStep`: every step is one of these
* `scheduled_step`, `waits_step`, `answers_step`: what a step preserves
* `disciplined_runs`: what a run preserves
* `retry_discipline`: when pings are sent, how long the client waits, and when it returns
-/

namespace Tailcat

/-! ## Instants that are apart -/

/-- Instants that are `d` apart do not crowd: of any two of them, the second one is behind the first
one by as many times `d` as there are steps between them. -/
theorem length_mul_le {d s : ℤ} {ts : List ℤ} {t : ℤ}
    (hp : (ts ++ [t]).Pairwise fun t t' => t + d ≤ t') (hs : ∀ t' ∈ ts ++ [t], s ≤ t') :
    s + d * ts.length ≤ t := by
  induction ts using List.reverseRecOn generalizing t with
  | nil => simpa using hs t (by simp)
  | append_singleton ts u ih =>
    have hbefore := List.pairwise_append.mp hp
    have hu := ih hbefore.1 fun t' ht' => hs t' (List.mem_append_left _ ht')
    have hut := hbefore.2.2 u (by simp) t (by simp)
    rw [List.length_append, List.length_singleton]
    push_cast
    linarith

/-- In a window of length `n` there are at most `⌈n / d⌉` instants that are `d` apart. -/
theorem length_le_ceil {d s n : ℤ} (hd : 0 < d) (hn : 0 ≤ n) {ts : List ℤ}
    (hp : ts.Pairwise fun t t' => t + d ≤ t') (hs : ∀ t ∈ ts, s ≤ t ∧ t < s + n) :
    (ts.length : ℤ) ≤ ⌈(n : ℚ) / d⌉ := by
  rcases List.eq_nil_or_concat ts with rfl | ⟨ts, t, rfl⟩
  · have hnonneg : (0 : ℚ) ≤ n / d :=
      div_nonneg (by exact_mod_cast hn) (by exact_mod_cast hd.le)
    simpa using Int.ceil_nonneg hnonneg
  · rw [List.concat_eq_append] at hp hs ⊢
    have hle := length_mul_le hp fun t' ht' => (hs t' ht').1
    have hlt := (hs t (by simp)).2
    rw [List.length_append, List.length_singleton]
    push_cast
    rw [Int.add_one_le_iff, Int.lt_ceil, lt_div_iff₀ (by exact_mod_cast hd)]
    have hlt : ts.length * d < n := by linarith
    exact_mod_cast hlt

/-! ## The observer -/

/-- The readings of the clock, in order. -/
def readings (es : List RendezvousEvent) : List ℤ :=
  es.filterMap fun
    | .now time => some time
    | _ => none

/-- What an observer of the client notes: the readings that triggered a ping, the latest reading of
the loop, and the timeouts that the transport was given, in milliseconds, each with the time that
was left then, since the latest reading of the loop, until the next ping or the deadline. -/
structure SendLog where
  triggers : List ℤ := []
  reading : ℤ := 0
  waits : List (ℤ × ℤ) := []

/-- A call of the client in the state `c`, which led to the calls `os`. -/
def SendLog.note (a : RendezvousArguments) (c : RendezvousClient) (os : List RendezvousOutput) :
    RendezvousEvent → SendLog → SendLog
  | .now time, log =>
    { triggers := if .send a.ping ∈ os then log.triggers ++ [time] else log.triggers
      reading :=
        match c.point with
        | .receiving _ => log.reading
        | _ => time
      waits := log.waits ++ os.filterMap fun
        | .receiveFor timeout => some (timeout, min c.nextSend c.deadline - log.reading)
        | _ => none }
  | _, log => log

/-- A client and its observer. -/
def observedMachine (a : RendezvousArguments) :
    Machine (RendezvousClient × SendLog) RendezvousEvent RendezvousOutput :=
  (clientMachine a).observed {} (SendLog.note a)

/-- Every run of a client can be observed. -/
theorem runs_observedMachine {a : RendezvousArguments} {es : List RendezvousEvent}
    {c : RendezvousClient} {os : List RendezvousOutput} :
    (∃ log, (observedMachine a).Runs es (c, log) os) ↔ (clientMachine a).Runs es c os :=
  Machine.runs_observed

/-! ## What a step of a client can do -/

/-- What a step of a client can do. -/
inductive ClientStep (a : RendezvousArguments) (c : RendezvousClient) :
    RendezvousEvent → RendezvousClient → List RendezvousOutput → Prop
  | start (time : ℤ) (point : c.point = .starting) : ClientStep a c (.now time)
      { c with
        point := .looping
        started := time
        deadline := time + nanoseconds a.timeout
        nextSend := time } []
  | timeOut (time : ℤ) (point : c.point = .looping) (late : c.deadline ≤ time) :
      ClientStep a c (.now time) (c.returns (.error c.timedOut)).1
        (c.returns (.error c.timedOut)).2
  | send (time : ℤ) (point : c.point = .looping) (early : time < c.deadline)
      (due : c.nextSend ≤ time) :
      ClientStep a c (.now time) { c with point := .sending time } [.send a.ping]
  | skip (time : ℤ) (point : c.point = .looping) (early : time < c.deadline)
      (notDue : time < c.nextSend) : ClientStep a c (.now time) { c with point := .waiting } []
  | sent (time : ℤ) (result : Except Exn Unit) (error : String) (point : c.point = .sending time) :
      ClientStep a c (.sent result)
        { c with
          point := .waiting
          lastSendError := error
          nextSend := time + nanoseconds 1000 } []
  | wait (time timeout : ℤ) (point : c.point = .waiting)
      (timeout_eq : timeout = if milliseconds (min c.nextSend c.deadline - time) ≤ 0 then 1
        else milliseconds (min c.nextSend c.deadline - time)) :
      ClientStep a c (.now time) { c with point := .receiving (.starting timeout) } []
  | receive (e : RendezvousEvent) (p p' : ReceivePoint) (calls : List RendezvousOutput)
      (point : c.point = .receiving p) (step : p.step e = some (.goes p' calls)) :
      ClientStep a c e { c with point := .receiving p' } calls
  | received (e : RendezvousEvent) (p : ReceivePoint)
      (result : Except Exn (Option (Key32 × List UInt8)))
      (point : c.point = .receiving p) (step : p.step e = some (.returns result)) :
      ClientStep a c e (c.incoming a result).1 (c.incoming a result).2
  | finish (time : ℤ) (point : c.point = .accepted) : ClientStep a c (.now time)
      (c.returns (.ok (milliseconds (time - c.started)))).1
      (c.returns (.ok (milliseconds (time - c.started)))).2

variable {a : RendezvousArguments} {c c' : RendezvousClient} {e : RendezvousEvent}
  {os : List RendezvousOutput}

/-- **Every step of a client is one of these.** -/
theorem clientStep (h : c.step a e = some (c', os)) : ClientStep a c e c' os := by
  unfold RendezvousClient.step at h
  split at h
  · rename_i time hpoint
    obtain ⟨rfl, rfl⟩ := Prod.mk.inj (Option.some.inj h)
    exact .start time hpoint
  · -- The deadline is looked at before the time of the next ping.
    rename_i time hpoint
    split_ifs at h with hlate hdue
    · obtain ⟨rfl, rfl⟩ := Prod.mk.inj (Option.some.inj h)
      exact .timeOut time hpoint hlate
    · obtain ⟨rfl, rfl⟩ := Prod.mk.inj (Option.some.inj h)
      exact .send time hpoint (not_le.mp hlate) hdue
    · obtain ⟨rfl, rfl⟩ := Prod.mk.inj (Option.some.inj h)
      exact .skip time hpoint (not_le.mp hlate) (not_le.mp hdue)
  · rename_i time result hpoint
    obtain ⟨rfl, rfl⟩ := Prod.mk.inj (Option.some.inj h)
    exact .sent time result _ hpoint
  · rename_i time hpoint
    obtain ⟨rfl, rfl⟩ := Prod.mk.inj (Option.some.inj h)
    exact .wait time _ hpoint rfl
  · rename_i p hpoint
    obtain ⟨step, hstep, hnext⟩ := Option.map_eq_some_iff.mp h
    cases step with
    | goes p' calls =>
      obtain ⟨rfl, rfl⟩ := Prod.mk.inj hnext
      exact .receive _ _ p' _ hpoint hstep
    | returns result =>
      obtain ⟨rfl, rfl⟩ := Prod.mk.inj hnext
      exact .received _ _ result hpoint hstep
  · rename_i time hpoint
    obtain ⟨rfl, rfl⟩ := Prod.mk.inj (Option.some.inj h)
    exact .finish time hpoint
  · cases h

/-! ## Waiting for frames -/

/-- What is left of a wait, in milliseconds. -/
theorem remainingMs_bounds {r time wait : ℤ} (hr : r ≤ time) (hwait : 1 ≤ wait)
    (hlt : remainingMs (r + nanoseconds wait) time ≠ 0) :
    1 ≤ remainingMs (r + nanoseconds wait) time ∧
      remainingMs (r + nanoseconds wait) time ≤ wait := by
  unfold remainingMs milliseconds nanoseconds at *
  dsimp only at *
  split_ifs at * with h₁ h₂
  · exact absurd rfl hlt
  · exact ⟨le_rfl, hwait⟩
  · rw [Int.tdiv_eq_ediv_of_nonneg (by omega)] at *
    omega

/-- A deadline of `receive_packet_for`: an earlier reading of the clock, and a wait of at least a
millisecond that the loop allowed. -/
def Allowed (es : List RendezvousEvent) (left deadline : ℤ) : Prop :=
  ∃ r ∈ readings es, ∃ wait, 1 ≤ wait ∧ nanoseconds wait ≤ max (nanoseconds 1) left ∧
    deadline = r + nanoseconds wait

/-- Where `receive_packet_for` stands when `left` is the time that the loop allowed. -/
def ReceivePoint.Within (es : List RendezvousEvent) (left : ℤ) : ReceivePoint → Prop
  | .starting timeout => 1 ≤ timeout ∧ nanoseconds timeout ≤ max (nanoseconds 1) left
  | .measuring deadline | .receiving deadline | .ponging deadline => Allowed es left deadline

theorem readings_append (es es' : List RendezvousEvent) :
    readings (es ++ es') = readings es ++ readings es' := List.filterMap_append

theorem readings_now (es : List RendezvousEvent) (time : ℤ) :
    readings (es ++ [.now time]) = readings es ++ [time] := readings_append es _

theorem ReceivePoint.Within.append {es : List RendezvousEvent} {left : ℤ} {p : ReceivePoint}
    (h : p.Within es left) (es' : List RendezvousEvent) : p.Within (es ++ es') left := by
  have happ : ∀ {deadline}, Allowed es left deadline → Allowed (es ++ es') left deadline := by
    rintro deadline ⟨r, hr, h⟩
    exact ⟨r, readings_append es es' ▸ List.mem_append_left _ hr, h⟩
  cases p with
  | starting timeout => exact h
  | measuring deadline => exact happ h
  | receiving deadline => exact happ h
  | ponging deadline => exact happ h

/-- **A step of `receive_packet_for`** stays within the time that the loop allowed, and gives the
transport no more of it. -/
theorem receive_within {es : List RendezvousEvent} {left : ℤ} {p p' : ReceivePoint}
    {calls : List RendezvousOutput} (h : p.Within es left)
    (hclock : (readings (es ++ [e])).Pairwise (· ≤ ·)) (hs : p.step e = some (.goes p' calls)) :
    p'.Within (es ++ [e]) left ∧ ∀ timeout, .receiveFor timeout ∈ calls →
      1 ≤ timeout ∧ nanoseconds timeout ≤ max (nanoseconds 1) left := by
  have happ := h.append [e]
  unfold ReceivePoint.step at hs
  split at hs
  · rename_i timeout time
    obtain ⟨rfl, rfl⟩ := ReceiveStep.goes.inj (Option.some.inj hs)
    refine ⟨⟨time, ?_, timeout, h.1, h.2, rfl⟩, by simp⟩
    rw [readings_append]
    exact List.mem_append_right _ (by simp [readings])
  · rename_i deadline time
    split_ifs at hs with hlt
    · cases hs
    · obtain ⟨rfl, rfl⟩ := ReceiveStep.goes.inj (Option.some.inj hs)
      refine ⟨happ, fun timeout ht => ?_⟩
      obtain rfl := RendezvousOutput.receiveFor.inj (List.mem_singleton.mp ht)
      obtain ⟨r, hr, wait, hone, hle, rfl⟩ := h
      have hrt : r ≤ time := by
        rw [readings_append] at hclock
        exact (List.pairwise_append.mp hclock).2.2 r hr time (by simp [readings])
      obtain ⟨hlow, hhigh⟩ := remainingMs_bounds hrt hone hlt
      exact ⟨hlow, le_trans (mul_le_mul_of_nonneg_right hhigh (by norm_num)) hle⟩
  · split at hs
    · cases hs
    · cases hs
    · -- A frame leads to the next turn, or to a pong before it.
      have hs := Option.some.inj hs
      unfold ReceivePoint.handle at hs
      split_ifs at hs with hping hlength hrecv
      · obtain ⟨rfl, rfl⟩ := ReceiveStep.goes.inj hs
        exact ⟨happ, by simp⟩
      · obtain ⟨rfl, rfl⟩ := ReceiveStep.goes.inj hs
        exact ⟨happ, by simp⟩
      · split at hs
        · cases hs
        · cases hs
      · obtain ⟨rfl, rfl⟩ := ReceiveStep.goes.inj hs
        exact ⟨happ, by simp⟩
  · split at hs
    · cases hs
    · obtain ⟨rfl, rfl⟩ := ReceiveStep.goes.inj (Option.some.inj hs)
      exact ⟨happ, by simp⟩
  · cases hs

/-! ## Between two steps -/

/-- When the next ping may be sent. -/
def RendezvousClient.due (c : RendezvousClient) : ℤ :=
  match c.point with
  | .sending time => time + nanoseconds 1000
  | _ => c.nextSend

/-- How far a client has got: before its first reading; before the first one of its loop; past it,
with the first ping sent; or at its end, when the time was over at once. -/
inductive Phase (a : RendezvousArguments) (es : List RendezvousEvent) (c : RendezvousClient)
    (triggers : List ℤ) : Prop
  | starting (point : c.point = .starting) (none : readings es = []) (unsent : triggers = [])
      (noError : c.lastSendError = "")
  | started (point : c.point = .looping) (one : readings es = [c.started])
      (deadline : c.deadline = c.started + nanoseconds a.timeout) (due : c.nextSend = c.started)
      (unsent : triggers = []) (noError : c.lastSendError = "")
  | running (point : c.point ≠ .starting) (first : ℤ) (rest : List ℤ)
      (more : readings es = c.started :: first :: rest)
      (deadline : c.deadline = c.started + nanoseconds a.timeout) (early : first < c.deadline)
      (head : triggers.head? = some first)
  | late (first : ℤ) (point : c.point = .returned (.error
        (.runtimeError "timed out waiting for Tailcat MEOWED acknowledgment")))
      (two : readings es = [c.started, first])
      (deadline : c.deadline = c.started + nanoseconds a.timeout) (late : c.deadline ≤ first)
      (unsent : triggers = [])

/-- **The schedule**: every ping has its trigger; triggers are a second apart, in the time of the
client, and a second before the next ping. -/
structure Scheduled (a : RendezvousArguments) (es : List RendezvousEvent) (c : RendezvousClient)
    (log : SendLog) (os : List RendezvousOutput) : Prop where
  count : log.triggers.length = os.count (.send a.ping)
  spaced : log.triggers.Pairwise fun t t' => t + nanoseconds 1000 ≤ t'
  window : ∀ t ∈ log.triggers, c.started ≤ t ∧ t < c.deadline
  due : ∀ t ∈ log.triggers, t + nanoseconds 1000 ≤ c.due
  phase : Phase a es c log.triggers

/-- Steps that send no ping are noted without a trigger. -/
theorem note_triggers {log : SendLog} (h : .send a.ping ∉ os) :
    (log.note a c os e).triggers = log.triggers := by
  cases e with
  | now time => exact if_neg h
  | sent result => rfl
  | received result => rfl

/-- A step that sends the ping. -/
theorem ClientStep.sends (h : ClientStep a c e c' os) (hsend : .send a.ping ∈ os) :
    ∃ time, e = .now time ∧ c.point = .looping ∧ time < c.deadline ∧ c.nextSend ≤ time ∧
      c' = { c with point := .sending time } ∧ os = [.send a.ping] := by
  cases h with
  | start => cases hsend
  | timeOut => cases List.mem_singleton.mp hsend
  | send time point early due => exact ⟨time, rfl, point, early, due, rfl, rfl⟩
  | skip => cases hsend
  | sent => cases hsend
  | wait => cases hsend
  | receive _ p p' calls point step =>
    obtain ⟨value, hv⟩ := receive_calls step hsend
    cases hv
  | received _ p result => exact absurd hsend ((incoming_cases a c result).2 _)
  | finish => cases List.mem_singleton.mp hsend

/-- What becomes of a result of `receive_packet_for` is a matter of the point only, and nothing is
returned but an error. -/
theorem incoming_eq (result : Except Exn (Option (Key32 × List UInt8))) :
    (∃ point, (∀ time, point ≠ .sending time) ∧ point ≠ .starting ∧
        (∀ p, point ≠ .receiving p) ∧ (c.incoming a result).1 = { c with point }) ∧
      ∀ o ∈ (c.incoming a result).2, ∃ x, o = .returned (.error x) := by
  unfold RendezvousClient.incoming RendezvousClient.returns
  split
  · exact ⟨⟨_, by simp, by simp, by simp, rfl⟩, by simp⟩
  · exact ⟨⟨_, by simp, by simp, by simp, rfl⟩, by simp⟩
  · split_ifs
    · exact ⟨⟨_, by simp, by simp, by simp, rfl⟩, by simp⟩
    · exact ⟨⟨_, by simp, by simp, by simp, rfl⟩, by simp⟩
    · exact ⟨⟨_, by simp, by simp, by simp, rfl⟩, by simp⟩

/-- A step that sends no ping leaves the schedule alone. -/
theorem ClientStep.quiet (h : ClientStep a c e c' os) (hpoint : c.point ≠ .starting)
    (hsend : .send a.ping ∉ os) : c'.started = c.started ∧ c'.deadline = c.deadline ∧
      c'.due = c.due ∧ c'.point ≠ .starting := by
  -- While nothing is being sent, the next ping is due when the state says so.
  have hdue : ∀ {point}, c.point = point → (∀ time, point ≠ .sending time) →
      c.due = c.nextSend := by
    rintro point rfl hp
    unfold RendezvousClient.due
    split
    · rename_i time ht
      exact absurd ht (hp time)
    · rfl
  cases h with
  | start time point => exact absurd point hpoint
  | timeOut time point late =>
    exact ⟨rfl, rfl, (hdue point (by simp)).symm, by simp [RendezvousClient.returns]⟩
  | send => exact absurd (List.mem_singleton_self _) hsend
  | skip time point early notDue => exact ⟨rfl, rfl, (hdue point (by simp)).symm, by simp⟩
  | sent time result error point =>
    refine ⟨rfl, rfl, ?_, by simp⟩
    unfold RendezvousClient.due
    rw [point]
  | wait time timeout point => exact ⟨rfl, rfl, (hdue point (by simp)).symm, by simp⟩
  | receive _ p p' calls point step => exact ⟨rfl, rfl, (hdue point (by simp)).symm, by simp⟩
  | received _ p result point step =>
    obtain ⟨⟨point', hp, hs, -, he⟩, -⟩ := @incoming_eq a c result
    rw [he]
    refine ⟨rfl, rfl, ?_, hs⟩
    rw [hdue point (by simp)]
    unfold RendezvousClient.due
    split
    · rename_i time ht
      exact absurd ht (hp time)
    · rfl
  | finish time point =>
    exact ⟨rfl, rfl, (hdue point (by simp)).symm, by simp [RendezvousClient.returns]⟩

/-- Sending a ping: the time is its trigger. -/
theorem scheduled_send {es : List RendezvousEvent} {log : SendLog} {time : ℤ}
    (h : Scheduled a es c log os) (hclock : (readings (es ++ [.now time])).Pairwise (· ≤ ·))
    (hpoint : c.point = .looping) (hearly : time < c.deadline) (hdue : c.nextSend ≤ time) :
    Scheduled a (es ++ [.now time]) { c with point := .sending time }
      (log.note a c [.send a.ping] (.now time)) (os ++ [.send a.ping]) := by
  have hnote : (log.note a c [.send a.ping] (.now time)).triggers = log.triggers ++ [time] :=
    if_pos (List.mem_singleton_self _)
  have hcdue : c.due = c.nextSend := by
    unfold RendezvousClient.due
    rw [hpoint]
  rw [readings_now] at hclock
  have hlater : ∀ r ∈ readings es, r ≤ time := fun r hr =>
    (List.pairwise_append.mp hclock).2.2 r hr time (by simp)
  -- Every earlier trigger is a second before the next ping is due, and that one is due now.
  have hspace : ∀ t ∈ log.triggers, t + nanoseconds 1000 ≤ time := fun t ht =>
    (h.due t ht).trans (hcdue ▸ hdue)
  have hphase := h.phase
  refine ⟨?_, ?_, ?_, ?_, ?_⟩
  · rw [hnote, List.length_append, List.count_append, h.count]
    simp
  · rw [hnote, List.pairwise_append]
    refine ⟨h.spaced, List.pairwise_singleton _ _, fun t ht t' ht' => ?_⟩
    obtain rfl := List.mem_singleton.mp ht'
    exact hspace t ht
  · rw [hnote]
    intro t ht
    rcases List.mem_append.mp ht with ht | ht
    · exact h.window t ht
    · obtain rfl := List.mem_singleton.mp ht
      refine ⟨hlater _ ?_, hearly⟩
      cases hphase with
      | starting point => exact absurd (hpoint.symm.trans point) (by simp)
      | started point one => exact one ▸ List.mem_singleton_self _
      | running point first rest more => exact more ▸ List.mem_cons_self
      | late first point => exact absurd (hpoint.symm.trans point) (by simp)
  · rw [hnote]
    intro t ht
    change t + nanoseconds 1000 ≤ time + nanoseconds 1000
    rcases List.mem_append.mp ht with ht | ht
    · have hle := hspace t ht
      unfold nanoseconds at *
      omega
    · exact le_of_eq (congrArg (· + nanoseconds 1000) (List.mem_singleton.mp ht))
  · rw [hnote]
    cases hphase with
    | starting point => exact absurd (hpoint.symm.trans point) (by simp)
    | started point one deadline due unsent noError =>
      refine .running (by simp) time [] ?_ deadline hearly ?_
      · rw [readings_now, one]
        rfl
      · rw [unsent]
        rfl
    | running point first rest more deadline early head =>
      refine .running (by simp) first (rest ++ [time]) ?_ deadline early ?_
      · rw [readings_now, more]
        rfl
      · rw [List.head?_append, head]
        rfl
    | late first point => exact absurd (hpoint.symm.trans point) (by simp)

/-- The first reading of all. -/
theorem scheduled_start {es : List RendezvousEvent} {log : SendLog} {time : ℤ}
    (h : Scheduled a es c log os) (hpoint : c.point = .starting) :
    Scheduled a (es ++ [.now time])
      { c with
        point := .looping
        started := time
        deadline := time + nanoseconds a.timeout
        nextSend := time }
      (log.note a c [] (.now time)) (os ++ []) := by
  have hnote : (log.note a c [] (.now time)).triggers = log.triggers := note_triggers (by simp)
  have hphase := h.phase
  cases hphase with
  | starting _ none unsent noError =>
    -- No ping has been sent yet.
    have hnone : ∀ {P : ℤ → Prop}, ∀ t ∈ (log.note a c [] (.now time)).triggers, P t := by
      rw [hnote, unsent]
      simp
    refine ⟨?_, ?_, hnone, hnone, .started rfl ?_ rfl rfl ?_ noError⟩
    · rw [hnote, List.append_nil, h.count]
    · rw [hnote, unsent]
      exact .nil
    · rw [readings_now, none]
      rfl
    · rw [hnote, unsent]
  | started point => exact absurd (point.symm.trans hpoint) (by simp)
  | running point => exact absurd hpoint point
  | late first point => exact absurd (point.symm.trans hpoint) (by simp)

/-- A client that has returned takes no step. -/
theorem ClientStep.not_returned (h : ClientStep a c e c' os) (result : Except Exn ℤ) :
    c.point ≠ .returned result := by
  intro hp
  cases h <;> simp_all

/-- A step that sends no ping, after the first reading of all. -/
theorem ClientStep.phase {es : List RendezvousEvent} {triggers : List ℤ}
    (h : ClientStep a c e c' os) (hphase : Phase a es c triggers) (hpoint : c.point ≠ .starting)
    (hclock : (readings (es ++ [e])).Pairwise (· ≤ ·)) (hsend : .send a.ping ∉ os) :
    Phase a (es ++ [e]) c' triggers := by
  obtain ⟨hstarted, hdeadline, -, hpoint'⟩ := h.quiet hpoint hsend
  cases hphase with
  | starting point => exact absurd point hpoint
  | started point one deadline due unsent noError =>
    -- The first reading of the loop is due, so that the time is over when no ping is sent.
    have hlooping : ∀ {p}, c.point = p → p ≠ .looping → False := fun hp hn =>
      hn (hp.symm.trans point)
    cases h with
    | start time point' => exact absurd point' hpoint
    | timeOut time _ late =>
      refine .late time ?_ ?_ deadline late unsent
      · simp [RendezvousClient.returns, RendezvousClient.timedOut, noError]
      · rw [readings_now, one]
        rfl
    | send => exact absurd (List.mem_singleton_self _) hsend
    | skip time _ early notDue =>
      rw [readings_now, one] at hclock
      have hle := (List.pairwise_cons.mp hclock).1 time (by simp)
      rw [due] at notDue
      exact absurd hle (not_le.mpr notDue)
    | sent time result error point' => exact (hlooping point' (by simp)).elim
    | wait time timeout point' => exact (hlooping point' (by simp)).elim
    | receive _ p p' calls point' => exact (hlooping point' (by simp)).elim
    | received _ p result point' => exact (hlooping point' (by simp)).elim
    | finish time point' => exact (hlooping point' (by simp)).elim
  | running point first rest more deadline early head =>
    refine .running hpoint' first (rest ++ readings [e]) ?_ ?_ (hdeadline ▸ early) head
    · rw [readings_append, more, hstarted]
      rfl
    · rw [hdeadline, hstarted, deadline]
  | late first point => exact absurd point (h.not_returned _)

/-- **One step keeps the schedule.** -/
theorem scheduled_step {es : List RendezvousEvent} {log : SendLog} {os' : List RendezvousOutput}
    (h : Scheduled a es c log os) (hclock : (readings (es ++ [e])).Pairwise (· ≤ ·))
    (hs : c.step a e = some (c', os')) :
    Scheduled a (es ++ [e]) c' (log.note a c os' e) (os ++ os') := by
  have hstep := clientStep hs
  -- A step sends a ping, or starts the schedule, or leaves it as it is.
  by_cases hsend : .send a.ping ∈ os'
  · obtain ⟨time, rfl, hpoint, hearly, hdue, rfl, rfl⟩ := hstep.sends hsend
    exact scheduled_send h hclock hpoint hearly hdue
  by_cases hstart : c.point = .starting
  · unfold RendezvousClient.step at hs
    rw [hstart] at hs
    cases e with
    | now time =>
      obtain ⟨rfl, rfl⟩ := Prod.mk.inj (Option.some.inj hs)
      exact scheduled_start h hstart
    | sent result => cases hs
    | received result => cases hs
  · have hnote : (log.note a c os' e).triggers = log.triggers := note_triggers hsend
    obtain ⟨hstarted, hdeadline, hdue, -⟩ := hstep.quiet hstart hsend
    refine ⟨?_, hnote ▸ h.spaced, ?_, ?_, ?_⟩
    · rw [hnote, List.count_append, List.count_eq_zero.mpr hsend, h.count, Nat.add_zero]
    · rw [hnote, hstarted, hdeadline]
      exact h.window
    · rw [hnote, hdue]
      exact h.due
    · rw [hnote]
      exact hstep.phase h.phase hstart hclock hsend

/-! ## Waits -/

/-- The timeouts that the transport is given. -/
def receiveTimeouts (os : List RendezvousOutput) : List ℤ :=
  os.filterMap fun
    | .receiveFor timeout => some timeout
    | _ => none

theorem mem_receiveTimeouts {timeout : ℤ} :
    timeout ∈ receiveTimeouts os ↔ .receiveFor timeout ∈ os := by
  simp only [receiveTimeouts, List.mem_filterMap]
  constructor
  · rintro ⟨o, ho, h⟩
    split at h
    · cases h
      exact ho
    · cases h
  · intro h
    exact ⟨_, h, rfl⟩

theorem receiveTimeouts_append (os os' : List RendezvousOutput) :
    receiveTimeouts (os ++ os') = receiveTimeouts os ++ receiveTimeouts os' := List.filterMap_append

/-- A timeout for the transport within the time that the loop allowed: at least a millisecond, and
no more than the time that was left, or a millisecond. -/
def WaitBound (w : ℤ × ℤ) : Prop := 1 ≤ w.1 ∧ nanoseconds w.1 ≤ max (nanoseconds 1) w.2

/-- **Waits are bounded**: where `receive_packet_for` stands, and every wait so far. -/
structure Waits (es : List RendezvousEvent) (c : RendezvousClient) (log : SendLog)
    (os : List RendezvousOutput) : Prop where
  within : ∀ p, c.point = .receiving p → p.Within es (min c.nextSend c.deadline - log.reading)
  noted : log.waits.map Prod.fst = receiveTimeouts os
  bound : ∀ w ∈ log.waits, WaitBound w

/-- Steps that wait for no frame are noted without a wait. -/
theorem note_waits {log : SendLog} (h : receiveTimeouts os = []) :
    (log.note a c os e).waits = log.waits := by
  cases e with
  | now time =>
    have hnone : (os.filterMap fun
        | .receiveFor timeout => some (timeout, min c.nextSend c.deadline - log.reading)
        | _ => none) = [] := by
      rw [List.filterMap_eq_nil_iff]
      intro o ho
      split
      · rw [List.eq_nil_iff_forall_not_mem] at h
        exact absurd (mem_receiveTimeouts.mpr ho) (h _)
      · rfl
    exact (congrArg (log.waits ++ ·) hnone).trans (List.append_nil _)
  | sent result => rfl
  | received result => rfl

/-- A step that leaves `receive_packet_for`, or never was in it, waits for no frame. -/
theorem Waits.leave {es : List RendezvousEvent} {log : SendLog} {os' : List RendezvousOutput}
    (h : Waits es c log os) (hnone : receiveTimeouts os' = [])
    (hp : ∀ p, c'.point = .receiving p → p.Within (es ++ [e])
      (min c'.nextSend c'.deadline - (log.note a c os' e).reading)) :
    Waits (es ++ [e]) c' (log.note a c os' e) (os ++ os') := by
  refine ⟨hp, ?_, ?_⟩
  · rw [note_waits hnone, receiveTimeouts_append, hnone, List.append_nil, h.noted]
  · rw [note_waits hnone]
    exact h.bound

/-- The wait that the loop computes. -/
theorem wait_bound {left wait : ℤ}
    (h : wait = if milliseconds left ≤ 0 then 1 else milliseconds left) : WaitBound (wait, left) := by
  unfold WaitBound
  subst h
  split_ifs with hle
  · exact ⟨le_rfl, le_max_left _ _⟩
  · refine ⟨by omega, le_trans ?_ (le_max_right _ _)⟩
    unfold milliseconds nanoseconds at *
    dsimp only
    have hpos : 0 ≤ left := by
      by_contra hneg
      apply hle
      rw [← neg_neg left, Int.neg_tdiv]
      exact neg_nonpos.mpr (Int.tdiv_nonneg (by omega) (by norm_num))
    rw [Int.tdiv_eq_ediv_of_nonneg hpos] at *
    omega

/-- The calls of `receive_packet_for`: pongs, or one wait after a reading. -/
theorem receive_goes {p p' : ReceivePoint} {calls : List RendezvousOutput}
    (h : p.step e = some (.goes p' calls)) :
    (∀ o ∈ calls, ∃ value, o = .send (.pong value)) ∨
      ∃ time timeout, e = .now time ∧ calls = [.receiveFor timeout] := by
  unfold ReceivePoint.step at h
  split at h
  · cases h
    exact .inl (by simp)
  · split_ifs at h
    · cases h
    · cases h
      exact .inr ⟨_, _, rfl, rfl⟩
  · split at h
    · cases h
    · cases h
    · -- A frame leads to no wait at once.
      have h := Option.some.inj h
      unfold ReceivePoint.handle at h
      split_ifs at h
      · cases h
        exact .inl (by simp)
      · cases h
        exact .inl (by simp)
      · split at h <;> cases h
      · cases h
        exact .inl (by simp)
  · split at h
    · cases h
    · cases h
      exact .inl (by simp)
  · cases h

/-- **One step keeps the waits bounded.** -/
theorem waits_step {es : List RendezvousEvent} {log : SendLog} {os' : List RendezvousOutput}
    (h : Waits es c log os) (hclock : (readings (es ++ [e])).Pairwise (· ≤ ·))
    (hs : c.step a e = some (c', os')) :
    Waits (es ++ [e]) c' (log.note a c os' e) (os ++ os') := by
  cases clientStep hs with
  | start => exact h.leave rfl (by simp)
  | timeOut => exact h.leave rfl (by simp [RendezvousClient.returns])
  | send => exact h.leave rfl (by simp)
  | skip => exact h.leave rfl (by simp)
  | sent => exact h.leave rfl (by simp)
  | finish => exact h.leave rfl (by simp [RendezvousClient.returns])
  | received _ p result =>
    obtain ⟨⟨point', -, -, hpoint, he⟩, hnone⟩ := @incoming_eq a c result
    refine h.leave ?_ fun p' hp' => ?_
    · refine List.eq_nil_iff_forall_not_mem.mpr fun t ht => ?_
      obtain ⟨x, hx⟩ := hnone _ (mem_receiveTimeouts.mp ht)
      cases hx
    · rw [he] at hp'
      exact absurd hp' (hpoint p')
  | wait time timeout point timeout_eq =>
    -- The reading for the wait is the latest one of the loop.
    refine h.leave rfl fun p hp => ?_
    obtain rfl := ClientPoint.receiving.inj hp
    have hreading : (log.note a c [] (.now time)).reading = time := by
      simp only [SendLog.note]
      rw [point]
    rw [hreading]
    exact wait_bound timeout_eq
  | receive _ p p' calls point step =>
    have hreading : (log.note a c os' e).reading = log.reading := by
      cases e with
      | now time =>
        simp only [SendLog.note]
        rw [point]
      | sent result => rfl
      | received result => rfl
    obtain ⟨hwithin, hcalls⟩ := receive_within (h.within p point) hclock step
    have hp' : ∀ q, ClientPoint.receiving p' = .receiving q → q.Within (es ++ [e])
        (min c.nextSend c.deadline - (log.note a c os' e).reading) := by
      intro q hq
      obtain rfl := ClientPoint.receiving.inj hq
      rw [hreading]
      exact hwithin
    rcases receive_goes step with hpong | ⟨time, timeout, rfl, rfl⟩
    · refine h.leave (List.eq_nil_iff_forall_not_mem.mpr fun t ht => ?_) hp'
      obtain ⟨value, hv⟩ := hpong _ (mem_receiveTimeouts.mp ht)
      cases hv
    · refine ⟨hp', ?_, fun w hw => ?_⟩
      · rw [receiveTimeouts_append, ← h.noted]
        exact List.map_append
      · rcases List.mem_append.mp hw with hw | hw
        · exact h.bound w hw
        · obtain rfl := List.mem_singleton.mp hw
          exact hcalls timeout (List.mem_singleton_self _)

/-! ## The answer -/

/-- The last call brought the answer of the server. -/
def Answered (a : RendezvousArguments) (es : List RendezvousEvent) : Prop :=
  ∃ es' frame packet, es = es' ++ [.received (.ok (some frame))] ∧ frame.type = .recvPacket ∧
    parseDerpRecvPacket frame.payload = some (a.serverPublic, packet) ∧
    isMeowedPacket packet = true

/-- **Success comes with the answer**: after it there is one reading of the clock only. -/
structure Answers (a : RendezvousArguments) (es : List RendezvousEvent) (c : RendezvousClient)
    (os : List RendezvousOutput) : Prop where
  accepted : c.point = .accepted → Answered a es
  returned : ∀ elapsed, .returned (.ok elapsed) ∈ os → c.point = .returned (.ok elapsed) ∧
    ∃ es' time, es = es' ++ [.now time] ∧ Answered a es'

/-- A client that has got the answer returns. -/
theorem ClientStep.of_accepted (h : ClientStep a c e c' os) (hp : c.point = .accepted) :
    ∃ elapsed, c'.point = .returned (.ok elapsed) := by
  cases h <;> simp_all [RendezvousClient.returns]

/-- The step that returns successfully. -/
theorem ClientStep.returns_ok (h : ClientStep a c e c' os) {elapsed : ℤ}
    (hr : .returned (.ok elapsed) ∈ os) :
    c.point = .accepted ∧ c'.point = .returned (.ok elapsed) ∧ ∃ time, e = .now time := by
  cases h with
  | start => cases hr
  | timeOut => cases List.mem_singleton.mp hr
  | send => cases List.mem_singleton.mp hr
  | skip => cases hr
  | sent => cases hr
  | wait => cases hr
  | receive _ p p' calls point step =>
    rcases receive_goes step with hpong | ⟨time, timeout, rfl, rfl⟩
    · obtain ⟨value, hv⟩ := hpong _ hr
      cases hv
    · cases List.mem_singleton.mp hr
  | received _ p result =>
    obtain ⟨x, hx⟩ := incoming_eq result |>.2 _ hr
    cases hx
  | finish time point =>
    cases List.mem_singleton.mp hr
    exact ⟨point, rfl, time, rfl⟩

theorem answers_step {es : List RendezvousEvent} {os' : List RendezvousOutput}
    (h : Answers a es c os) (hs : c.step a e = some (c', os')) :
    Answers a (es ++ [e]) c' (os ++ os') := by
  have hstep := clientStep hs
  constructor
  · intro hacc
    rcases accepted_step hs (.inl hacc) with (hp | ⟨elapsed, hp⟩) | ⟨frame, packet, rfl, hanswer⟩
    · obtain ⟨elapsed, hret⟩ := hstep.of_accepted hp
      rw [hacc] at hret
      cases hret
    · exact absurd hp (hstep.not_returned _)
    · exact ⟨es, frame, packet, rfl, hanswer⟩
  · intro elapsed hr
    rcases List.mem_append.mp hr with hr | hr
    · exact absurd (h.returned elapsed hr).1 (hstep.not_returned _)
    · obtain ⟨hp, hret, time, rfl⟩ := hstep.returns_ok hr
      exact ⟨hret, es, time, rfl, h.accepted hp⟩

/-! ## Runs -/

/-- What holds of the client and the notes in every run. -/
structure Disciplined (a : RendezvousArguments) (es : List RendezvousEvent)
    (s : RendezvousClient × SendLog) (os : List RendezvousOutput) : Prop where
  scheduled : Scheduled a es s.1 s.2 os
  waits : Waits es s.1 s.2 os
  answers : Answers a es s.1 os

/-- **The discipline of a run**, when the clock does not go back. -/
theorem disciplined_runs {es : List RendezvousEvent} {s : RendezvousClient × SendLog}
    (hT : 0 < a.timeout) (h : (observedMachine a).Runs es s os)
    (hclock : (readings es).Pairwise (· ≤ ·)) : Disciplined a es s os := by
  refine h.trace_invariant
    (I := fun es s os => (readings es).Pairwise (· ≤ ·) → Disciplined a es s os) ?_ ?_ hclock
  · intro _
    have hinit : (observedMachine a).init = ({ point := .starting }, {}) :=
      congrArg (·, ({} : SendLog)) (if_neg (not_le.mpr hT))
    rw [hinit]
    refine ⟨⟨rfl, .nil, by simp, by simp, .starting rfl rfl rfl rfl⟩, ⟨by simp, rfl, by simp⟩, ?_⟩
    exact ⟨by simp, by simp⟩
  · intro es s os e s' os' _ ih hs hclock
    obtain ⟨hs, hlog⟩ := Machine.observed_step.mp hs
    have hbefore : (readings es).Pairwise (· ≤ ·) := by
      rw [readings_append] at hclock
      exact (List.pairwise_append.mp hclock).1
    obtain ⟨hscheduled, hwaits, hanswers⟩ := ih hbefore
    refine ⟨?_, ?_, answers_step hanswers hs⟩
    · exact hlog ▸ scheduled_step hscheduled hclock hs
    · exact hlog ▸ waits_step hwaits hclock hs

/-- The number of pings: one a second, in the time of the client. -/
theorem count_le_ceil {es : List RendezvousEvent} {log : SendLog} (hT : 0 < a.timeout)
    (h : Scheduled a es c log os) (hdeadline : c.deadline = c.started + nanoseconds a.timeout) :
    (os.count (.send a.ping) : ℤ) ≤ ⌈(a.timeout : ℚ) / 1000⌉ := by
  have hn : 0 ≤ nanoseconds a.timeout := mul_nonneg hT.le (by norm_num)
  have hle := length_le_ceil (d := nanoseconds 1000) (by decide) hn h.spaced fun t ht =>
    hdeadline ▸ h.window t ht
  have hscale : ((nanoseconds a.timeout : ℤ) : ℚ) / (nanoseconds 1000 : ℤ) = a.timeout / 1000 := by
    unfold nanoseconds
    push_cast
    ring
  rwa [h.count, hscale] at hle

/-- **The retry discipline** of a client with a positive timeout, when its clock does not go back.

Each ping has the reading of the loop that triggered it. If the first reading of the loop is before
the deadline, it triggers a ping, and otherwise the client gives up without one. Triggers are a
second apart and before the deadline, so that there are at most `⌈timeout / 1 s⌉` pings. Every
timeout that the transport is given is at least a millisecond, and at most the time until the next
ping or the deadline, unless that is less. When a send fails, the loop goes on. The client returns
successfully only right after the answer of the server. -/
theorem retry_discipline {es : List RendezvousEvent} {log : SendLog} (hT : 0 < a.timeout)
    (h : (observedMachine a).Runs es (c, log) os) (hclock : (readings es).Pairwise (· ≤ ·)) :
    log.triggers.length = os.count (.send a.ping) ∧
    (∀ start first rest, readings es = start :: first :: rest →
      if first < start + nanoseconds a.timeout then log.triggers.head? = some first
      else log.triggers = [] ∧ c.point = .returned (.error
        (.runtimeError "timed out waiting for Tailcat MEOWED acknowledgment"))) ∧
    (log.triggers.Pairwise fun t t' => t + nanoseconds 1000 ≤ t') ∧
    (∀ start rest, readings es = start :: rest →
      ∀ t ∈ log.triggers, start ≤ t ∧ t < start + nanoseconds a.timeout) ∧
    (os.count (.send a.ping) : ℤ) ≤ ⌈(a.timeout : ℚ) / 1000⌉ ∧
    log.waits.map Prod.fst = receiveTimeouts os ∧
    (∀ w ∈ log.waits, 1 ≤ w.1 ∧ nanoseconds w.1 ≤ max (nanoseconds 1) w.2) ∧
    (∀ time x, c.point = .sending time →
      ∃ c', c.step a (.sent (.error x)) = some (c', []) ∧ c'.point = .waiting) ∧
    ∀ elapsed, .returned (.ok elapsed) ∈ os →
      ∃ es' time, es = es' ++ [.now time] ∧ Answered a es' := by
  obtain ⟨hscheduled, hwaits, hanswers⟩ := disciplined_runs hT h hclock
  refine ⟨hscheduled.count, ?_, hscheduled.spaced, ?_, ?_, hwaits.noted, hwaits.bound, ?_,
    fun elapsed hr => (hanswers.returned elapsed hr).2⟩
  · -- The phase knows whether the loop began before the deadline.
    intro start first rest hreadings
    cases hscheduled.phase with
    | starting point none =>
      rw [none] at hreadings
      cases hreadings
    | started point one =>
      rw [one] at hreadings
      cases hreadings
    | running point first' rest' more deadline early head =>
      rw [more] at hreadings
      cases hreadings
      rw [deadline] at early
      exact (if_pos early).mpr head
    | late first' point two deadline late unsent =>
      rw [two] at hreadings
      cases hreadings
      rw [deadline] at late
      exact (if_neg (not_lt.mpr late)).mpr ⟨unsent, point⟩
  · -- The window is stated with the client's own start; here with the first reading.
    intro start rest hreadings t ht
    have hwindow := hscheduled.window t ht
    cases hscheduled.phase with
    | starting point none =>
      rw [none] at hreadings
      cases hreadings
    | started point one deadline =>
      rw [one] at hreadings
      cases hreadings
      exact deadline ▸ hwindow
    | running point first' rest' more deadline =>
      rw [more] at hreadings
      cases hreadings
      exact deadline ▸ hwindow
    | late first' point two deadline =>
      rw [two] at hreadings
      cases hreadings
      exact deadline ▸ hwindow
  · cases hscheduled.phase with
    | starting point none unsent =>
      -- There is no deadline yet, but no ping either.
      rw [← hscheduled.count, unsent]
      exact Int.ceil_nonneg (by positivity)
    | started point one deadline => exact count_le_ceil hT hscheduled deadline
    | running point first rest more deadline => exact count_le_ceil hT hscheduled deadline
    | late first point two deadline => exact count_le_ceil hT hscheduled deadline
  · intro time x hpoint
    refine ⟨{ c with point := .waiting, lastSendError := x.what,
                     nextSend := time + nanoseconds 1000 }, ?_, rfl⟩
    unfold RendezvousClient.step
    rw [hpoint]

/-- Two pings, the first of which is lost, and the answer. -/
theorem retry_discipline_example :
    let a : RendezvousArguments := ⟨⟨Octets.zero 32, List.Vector.replicate 32 1⟩,
      List.Vector.replicate 32 2, Octets.zero 32, 1500⟩
    let answer : DerpFrame := ⟨.recvPacket, a.serverPublic.toList ++ encodeMeowed⟩
    let es : List RendezvousEvent := [.now 0, .now 7, .sent (.error (.runtimeError "closed")),
      .now 7, .now 7, .now 7, .received (.ok none), .now 1000000007, .sent (.ok ()),
      .now 1000000007, .now 1000000007, .now 1000000007, .received (.ok (some answer)),
      .now 1100000000]
    ∃ c log os, (observedMachine a).Runs es (c, log) os ∧
      (os.count (.send a.ping) : ℤ) ≤ ⌈(a.timeout : ℚ) / 1000⌉ ∧ os.count (.send a.ping) = 2 := by
  intro a answer es
  obtain ⟨⟨⟨c, log⟩, os⟩, hr⟩ : ∃ r, (observedMachine a).run es = some r :=
    Option.isSome_iff_exists.mp (by decide +kernel)
  have hcount : ((observedMachine a).run es).map (fun r => r.2.count (.send a.ping)) = some 2 := by
    decide +kernel
  rw [hr] at hcount
  obtain ⟨-, -, -, -, hle, -⟩ := retry_discipline (a := a) (by decide) hr (by decide)
  exact ⟨c, log, os, hr, hle, Option.some.inj hcount⟩

/-- When the clock stands at the deadline at the top of the loop, the first iteration sends no
ping. -/
theorem retry_discipline_late :
    let a : RendezvousArguments := ⟨⟨Octets.zero 32, List.Vector.replicate 32 1⟩,
      List.Vector.replicate 32 2, Octets.zero 32, 5000⟩
    let es : List RendezvousEvent := [.now 0, .now (nanoseconds 5000)]
    0 < a.timeout ∧ (readings es).Pairwise (· ≤ ·) ∧
      ∃ c os, (clientMachine a).Runs es c os ∧ (∃ x, c.point = .returned (.error x)) ∧
        .send a.ping ∉ os := by
  intro a es
  exact ⟨by decide, by decide, _, _, rfl, ⟨_, rfl⟩, by decide⟩

end Tailcat
