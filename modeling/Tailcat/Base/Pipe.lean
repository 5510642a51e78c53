import Tailcat.Base.Machine

/-!
# Pipes

A pipe takes pieces of a stream from a source and hands them on to a sink, in other pieces but in
the same order. The source may end; the sink is closed only when the source has ended and everything
was handed on. A trace of such actions is transparent when a pipe can perform it.

## Main definitions

* `PipeAction`: what happens at the two ends of a pipe
* `Pipe`, `Pipe.step`, `Pipe.steps`: what is under way in a pipe, and how actions change it
* `pushed t`, `given t`: what the source gave and what the sink got
* `Transparent t`: a pipe can perform the trace
* `Complete t`: when the sink is closed, it has got everything
* `Performs m action R C e`: a step of a machine is actions of a pipe that it is related to

## Main results

* `Pipe.steps_eq_some`: what was given to the sink, then what is under way, is what the source gave
* `Transparent.given_prefix`: the sink has got a prefix
* `Transparent.sinkEnd`, `Transparent.complete`: a transparent trace is complete
* `transparent_iff_meets`, `complete_iff_meets`: the runs of a machine that are transparent
-/

/-- What happens at the ends of a pipe. -/
inductive PipeAction (α : Type*)
  | push (piece : List α)
  | sourceEnd
  | give (piece : List α)
  | sinkEnd
  deriving DecidableEq

/-- What is under way, and which ends are done. The sink is not closed before the source has ended
and nothing is under way. -/
structure Pipe (α : Type*) where
  buffered : List α
  ended : Bool
  closed : Bool
  done_of_closed : closed = true → ended = true ∧ buffered = []

namespace Pipe

variable {α : Type*}

/-- A pipe at the start. -/
def empty : Pipe α :=
  { buffered := [], ended := false, closed := false
    done_of_closed := fun h => absurd h Bool.false_ne_true }

variable [DecidableEq α]

/-- One action, unless the pipe cannot perform it. -/
def step (p : Pipe α) : PipeAction α → Option (Pipe α)
  | .push piece =>
    if h : p.ended = true then
      none
    else
      some { p with
        buffered := p.buffered ++ piece
        done_of_closed := fun hc => absurd (p.done_of_closed hc).1 h }
  | .sourceEnd =>
    if p.ended = true then
      none
    else
      some { p with ended := true, done_of_closed := fun hc => ⟨rfl, (p.done_of_closed hc).2⟩ }
  | .give piece =>
    if piece <+: p.buffered then
      some { p with
        buffered := p.buffered.drop piece.length
        done_of_closed := fun hc => ⟨(p.done_of_closed hc).1, by simp [(p.done_of_closed hc).2]⟩ }
    else
      none
  | .sinkEnd =>
    if h : p.ended = true ∧ p.buffered = [] ∧ p.closed = false then
      some { p with closed := true, done_of_closed := fun _ => ⟨h.1, h.2.1⟩ }
    else
      none

/-- A source that has not ended may give more. -/
theorem step_push {p : Pipe α} (h : p.ended = false) (piece : List α) :
    ∃ q, p.step (.push piece) = some q ∧ q.buffered = p.buffered ++ piece ∧
      q.ended = p.ended ∧ q.closed = p.closed :=
  ⟨_, dif_neg (h ▸ Bool.false_ne_true), rfl, rfl, rfl⟩

theorem step_sourceEnd {p : Pipe α} (h : p.ended = false) :
    ∃ q, p.step .sourceEnd = some q ∧ q.buffered = p.buffered ∧ q.ended = true ∧
      q.closed = p.closed :=
  ⟨_, if_neg (h ▸ Bool.false_ne_true), rfl, rfl, rfl⟩

/-- The first elements under way may be handed on. -/
theorem step_give {p : Pipe α} {piece rest : List α} (h : p.buffered = piece ++ rest) :
    ∃ q, p.step (.give piece) = some q ∧ q.buffered = rest ∧ q.ended = p.ended ∧
      q.closed = p.closed :=
  have hrest : p.buffered.drop piece.length = rest := by rw [h, List.drop_left]
  ⟨_, if_pos ⟨rest, h.symm⟩, hrest, rfl, rfl⟩

/-- Some of the first elements under way are handed on, and the rest of them stays. -/
theorem step_take {p : Pipe α} {first rest : List α} (h : p.buffered = first ++ rest) (n : ℕ) :
    ∃ q, p.step (.give (first.take n)) = some q ∧
      q.buffered = first.drop (first.take n).length ++ rest ∧ q.ended = p.ended ∧
      q.closed = p.closed := by
  apply step_give
  rw [h, ← List.append_assoc, List.prefix_iff_eq_append.mp (List.take_prefix n first)]

theorem step_sinkEnd {p : Pipe α} (he : p.ended = true) (hb : p.buffered = [])
    (hc : p.closed = false) : ∃ q, p.step .sinkEnd = some q ∧ q.buffered = p.buffered ∧
      q.ended = p.ended ∧ q.closed = true :=
  ⟨_, dif_pos ⟨he, hb, hc⟩, rfl, rfl, rfl⟩

/-- The actions of a trace, one after the other. -/
def steps (p : Pipe α) (t : List (PipeAction α)) : Option (Pipe α) := t.foldlM step p

@[simp] theorem steps_nil (p : Pipe α) : p.steps [] = some p := rfl

theorem steps_cons (p : Pipe α) (a : PipeAction α) (t : List (PipeAction α)) :
    p.steps (a :: t) = (p.step a).bind fun q => q.steps t := List.foldlM_cons

theorem steps_append (p : Pipe α) (t t' : List (PipeAction α)) :
    p.steps (t ++ t') = (p.steps t).bind fun q => q.steps t' := List.foldlM_append

@[simp] theorem steps_singleton (p : Pipe α) (a : PipeAction α) : p.steps [a] = p.step a := by
  rw [steps_cons]
  cases p.step a <;> rfl

theorem steps_pair {p q r : Pipe α} {a b : PipeAction α} (ha : p.step a = some q)
    (hb : q.step b = some r) : p.steps [a, b] = some r := by
  rw [steps_cons, ha]
  exact (steps_singleton q b).trans hb

end Pipe

section Traces

variable {α : Type*}

/-- What the source gave. -/
def pushed (t : List (PipeAction α)) : List α :=
  t.flatMap fun
    | .push piece => piece
    | _ => []

/-- What the sink got. -/
def given (t : List (PipeAction α)) : List α :=
  t.flatMap fun
    | .give piece => piece
    | _ => []

@[simp] theorem pushed_nil : pushed ([] : List (PipeAction α)) = [] := rfl

@[simp] theorem given_nil : given ([] : List (PipeAction α)) = [] := rfl

theorem pushed_append (t t' : List (PipeAction α)) : pushed (t ++ t') = pushed t ++ pushed t' :=
  List.flatMap_append

theorem given_append (t t' : List (PipeAction α)) : given (t ++ t') = given t ++ given t' :=
  List.flatMap_append

/-- Outputs that are read as giving the same elements give the same elements. -/
theorem given_filterMap_congr {O : Type*} {f g : O → Option (PipeAction α)}
    (h : ∀ o, given (f o).toList = given (g o).toList) {os : List O} :
    given (os.filterMap f) = given (os.filterMap g) := by
  induction os with
  | nil => rfl
  | cons o os ih =>
    have hcons (f : O → Option (PipeAction α)) :
        given ((o :: os).filterMap f) = given (f o).toList ++ given (os.filterMap f) := by
      rw [← given_append, List.filterMap_cons]
      cases f o <;> rfl
    rw [hcons f, hcons g, h o, ih]

/-- Outputs that are read as taking the same elements take the same elements. -/
theorem pushed_filterMap_congr {O : Type*} {f g : O → Option (PipeAction α)}
    (h : ∀ o, pushed (f o).toList = pushed (g o).toList) {os : List O} :
    pushed (os.filterMap f) = pushed (os.filterMap g) := by
  induction os with
  | nil => rfl
  | cons o os ih =>
    have hcons (f : O → Option (PipeAction α)) :
        pushed ((o :: os).filterMap f) = pushed (f o).toList ++ pushed (os.filterMap f) := by
      rw [← pushed_append, List.filterMap_cons]
      cases f o <;> rfl
    rw [hcons f, hcons g, h o, ih]

variable [DecidableEq α]

/-- Nothing is lost, added or reordered: one action. -/
theorem Pipe.step_eq_some {p q : Pipe α} {a : PipeAction α} (h : p.step a = some q) :
    p.buffered ++ pushed [a] = given [a] ++ q.buffered ∧
      (q.ended = true ↔ p.ended = true ∨ a = .sourceEnd) ∧
      (q.closed = true ↔ p.closed = true ∨ a = .sinkEnd) ∧
      (p.ended = true → pushed [a] = [] ∧ a ≠ .sourceEnd) ∧
      (a = .sinkEnd → q.ended = true ∧ p.buffered = []) := by
  cases a with
  | push piece =>
    dsimp only [step] at h
    split at h
    · cases h
    · rename_i hended
      obtain rfl := Option.some.inj h
      simp [pushed, given, hended]
  | sourceEnd =>
    dsimp only [step] at h
    split at h
    · cases h
    · rename_i hended
      obtain rfl := Option.some.inj h
      simp [pushed, given, hended]
  | give piece =>
    dsimp only [step] at h
    split at h
    · rename_i hstarts
      obtain ⟨rest, hrest⟩ := hstarts
      obtain rfl := Option.some.inj h
      simp [pushed, given, ← hrest]
    · cases h
  | sinkEnd =>
    dsimp only [step] at h
    split at h
    · rename_i hdone
      obtain rfl := Option.some.inj h
      simp [pushed, given, hdone.1, hdone.2.1]
    · cases h

/-- **What is under way**: a trace that starts with an empty pipe. -/
theorem Pipe.steps_eq_some {t : List (PipeAction α)} {p : Pipe α} (h : empty.steps t = some p) :
    pushed t = given t ++ p.buffered ∧ (p.ended = true ↔ .sourceEnd ∈ t) ∧
      (p.closed = true ↔ .sinkEnd ∈ t) := by
  induction t using List.reverseRecOn generalizing p with
  | nil =>
    obtain rfl := Option.some.inj h
    simp [empty]
  | append_singleton t a ih =>
    rw [steps_append] at h
    obtain ⟨q, hq, hs⟩ := Option.bind_eq_some_iff.mp h
    rw [steps_singleton] at hs
    obtain ⟨hp, he, hc⟩ := ih hq
    obtain ⟨hb, hended, hclosed, -, -⟩ := step_eq_some hs
    refine ⟨?_, ?_, ?_⟩
    · rw [pushed_append, given_append, hp, List.append_assoc, hb, List.append_assoc]
    · rw [hended, he, List.mem_append, List.mem_singleton, @eq_comm _ a]
    · rw [hclosed, hc, List.mem_append, List.mem_singleton, @eq_comm _ a]

/-- A pipe whose source has ended takes nothing more. -/
theorem Pipe.pushed_of_ended {p q : Pipe α} {t : List (PipeAction α)} (hp : p.ended = true)
    (h : p.steps t = some q) : pushed t = [] := by
  induction t generalizing p with
  | nil => rfl
  | cons a t ih =>
    rw [steps_cons] at h
    obtain ⟨r, hr, hs⟩ := Option.bind_eq_some_iff.mp h
    obtain ⟨-, hended, -, hnone, -⟩ := step_eq_some hr
    rw [← List.singleton_append, pushed_append, (hnone hp).1, ih (hended.mpr (.inl hp)) hs]
    rfl

/-- A pipe can perform the trace. -/
def Transparent (t : List (PipeAction α)) : Prop := ∃ p, Pipe.empty.steps t = some p

namespace Transparent

variable {t : List (PipeAction α)}

/-- The sink has got a prefix of what the source gave. -/
theorem given_prefix (h : Transparent t) : given t <+: pushed t := by
  obtain ⟨p, hp⟩ := h
  rw [(Pipe.steps_eq_some hp).1]
  exact List.prefix_append _ _

/-- **Closing the sink**: the source had ended before, and the sink had got everything that the
source ever gave. -/
theorem sinkEnd {t' : List (PipeAction α)} (h : Transparent (t ++ .sinkEnd :: t')) :
    .sourceEnd ∈ t ∧ given t = pushed (t ++ .sinkEnd :: t') := by
  obtain ⟨p, hp⟩ := h
  rw [Pipe.steps_append] at hp
  obtain ⟨q, hq, hp⟩ := Option.bind_eq_some_iff.mp hp
  have hp' := hp
  rw [Pipe.steps_cons] at hp
  obtain ⟨r, hr, hs⟩ := Option.bind_eq_some_iff.mp hp
  obtain ⟨hpushed, hended, -⟩ := Pipe.steps_eq_some hq
  obtain ⟨-, hended', -, -, hlast⟩ := Pipe.step_eq_some hr
  obtain ⟨hr, hempty⟩ := hlast rfl
  -- Closing the sink does not end the source, which must have ended before.
  have hq' : q.ended = true := by
    rcases hended'.mp hr with he | he
    · exact he
    · cases he
  refine ⟨hended.mp hq', ?_⟩
  rw [pushed_append, Pipe.pushed_of_ended hq' hp', hpushed, hempty, List.append_nil,
    List.append_nil]

end Transparent

/-- When the sink is closed, it has got everything that the source ever gives. -/
def Complete (t : List (PipeAction α)) : Prop :=
  ∀ before after, t = before ++ .sinkEnd :: after → given before = pushed t

/-- The sink is closed while something is under way. -/
def ClosedEarly (t : List (PipeAction α)) : Prop :=
  ∃ before after p, t = before ++ .sinkEnd :: after ∧ Pipe.empty.steps before = some p ∧
    p.buffered ≠ []

theorem Transparent.complete {t : List (PipeAction α)} (h : Transparent t) : Complete t := by
  rintro before after rfl
  exact h.sinkEnd.2

theorem ClosedEarly.append {t : List (PipeAction α)} (h : ClosedEarly t)
    (t' : List (PipeAction α)) : ClosedEarly (t ++ t') := by
  obtain ⟨before, after, p, rfl, hp, hne⟩ := h
  exact ⟨before, after ++ t', p, by rw [List.append_assoc, List.cons_append], hp, hne⟩

theorem ClosedEarly.not_complete {t : List (PipeAction α)} (h : ClosedEarly t) :
    ¬ Complete t := by
  obtain ⟨before, after, p, rfl, hp, hne⟩ := h
  intro hc
  have hall := hc before after rfl
  -- What is under way at the closing was given by the source, and has not reached the sink.
  rw [pushed_append, (Pipe.steps_eq_some hp).1, List.append_assoc, List.self_eq_append_right,
    List.append_eq_nil_iff] at hall
  exact hne hall.1

/-! ## Machines with a pipe inside -/

section Machines

variable {S E O : Type*} {m : Machine S E O} {action : O → Option (PipeAction α)}
  {R : S → Pipe α → Prop} {T : E → Prop} {C : S → E → Prop}

/-- A step that meets `C` performs actions of the pipe and keeps state and pipe related; any other
step closes the sink while something is under way. -/
def Performs (m : Machine S E O) (action : O → Option (PipeAction α)) (R : S → Pipe α → Prop)
    (C : S → E → Prop) (e : E) : Prop :=
  ∀ s s' os p, R s p → m.step s e = some (s', os) →
    (C s e → ∃ q, p.steps (os.filterMap action) = some q ∧ R s' q) ∧
    (¬ C s e → ∃ before after q, os.filterMap action = before ++ .sinkEnd :: after ∧
      p.steps before = some q ∧ q.buffered ≠ [])

/-- A step that needs no condition. -/
theorem Performs.of_true {e : E} (hC : ∀ s, C s e)
    (h : ∀ s s' os p, R s p → m.step s e = some (s', os) →
      ∃ q, p.steps (os.filterMap action) = some q ∧ R s' q) : Performs m action R C e :=
  fun s s' os p hR hs => ⟨fun _ => h s s' os p hR hs, fun hn => absurd (hC s) hn⟩

/-- **Runs with a pipe inside**: the steps of a run meet `C` and a pipe related to the state
performs its trace, or its trace closes the sink early. -/
theorem Machine.Runs.related (h₀ : R m.init .empty) (hstep : ∀ e, T e → Performs m action R C e)
    {es : List E} {s : S} {os : List O} (hr : m.Runs es s os) (hT : ∀ e ∈ es, T e) :
    (m.Meets C es ∧ ∃ p, Pipe.empty.steps (os.filterMap action) = some p ∧ R s p) ∨
      (¬ m.Meets C es ∧ ClosedEarly (os.filterMap action)) := by
  refine hr.trace_invariant (I := fun es s os => (∀ e ∈ es, T e) →
    (m.Meets C es ∧ ∃ p, Pipe.empty.steps (os.filterMap action) = some p ∧ R s p) ∨
      (¬ m.Meets C es ∧ ClosedEarly (os.filterMap action))) ?_ ?_ hT
  · exact fun _ => .inl ⟨Machine.meets_nil, .empty, rfl, h₀⟩
  · intro es s os e s' os' hr hI hs hT
    rw [List.filterMap_append, Machine.meets_snoc]
    rcases hI fun e he => hT e (List.mem_append_left _ he) with ⟨hm, p, hp, hR⟩ | ⟨hm, hearly⟩
    · obtain ⟨hdone, hstuck⟩ := hstep e (hT e (by simp)) s s' os' p hR hs
      by_cases hC : C s e
      · obtain ⟨q, hq, hR'⟩ := hdone hC
        refine .inl ⟨⟨hm, fun t ps hr' => (hr.unique hr').1 ▸ hC⟩, q, ?_, hR'⟩
        rw [Pipe.steps_append, hp]
        exact hq
      · obtain ⟨before, after, q, he, hq, hne⟩ := hstuck hC
        refine .inr ⟨fun h => hC (h.2 s os hr), os.filterMap action ++ before, after, q, ?_, ?_, hne⟩
        · rw [he, List.append_assoc]
        · rw [Pipe.steps_append, hp]
          exact hq
    · exact .inr ⟨fun h => hm h.1, hearly.append _⟩

/-- **Transparent runs**: a run is transparent just if all its steps meet `C`. -/
theorem transparent_iff_meets (h₀ : R m.init .empty)
    (hstep : ∀ e, T e → Performs m action R C e) {es : List E} {s : S} {os : List O}
    (hr : m.Runs es s os) (hT : ∀ e ∈ es, T e) :
    Transparent (os.filterMap action) ↔ m.Meets C es := by
  rcases hr.related h₀ hstep hT with ⟨hm, p, hp, -⟩ | ⟨hm, hearly⟩
  · exact iff_of_true ⟨p, hp⟩ hm
  · exact iff_of_false (fun h => hearly.not_complete h.complete) hm

/-- **Complete runs**: the sink gets everything just if all steps meet `C`. -/
theorem complete_iff_meets (h₀ : R m.init .empty)
    (hstep : ∀ e, T e → Performs m action R C e) {es : List E} {s : S} {os : List O}
    (hr : m.Runs es s os) (hT : ∀ e ∈ es, T e) :
    Complete (os.filterMap action) ↔ m.Meets C es := by
  rcases hr.related h₀ hstep hT with ⟨hm, p, hp, -⟩ | ⟨hm, hearly⟩
  · exact iff_of_true (Transparent.complete ⟨p, hp⟩) hm
  · exact iff_of_false hearly.not_complete hm

end Machines

end Traces
