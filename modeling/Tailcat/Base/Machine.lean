import Mathlib.Tactic

/-!
# Machines and their runs

A machine reads events one at a time; each event changes its state and emits outputs, or finds
the machine stuck. A run feeds it a list of events. What one step preserves, every run preserves,
and two runs whose events are pairwise related keep their states related.

## Main definitions

* `Machine`: an initial state and a step
* `Machine.run m es`: the state and the outputs after the events `es`, unless the machine is stuck
* `Machine.Runs m es s os`: the events `es` lead from the initial state to `s` and emit `os`
* `Machine.Meets m C es`: every step of the run on `es` meets the condition `C`
* `Machine.observed m l₀ note`: the machine with an observer, who takes notes
* `Machine.Throughout P os`: every output has a property, given those before it
* `Machine.Preceded needs os`: what an output needs comes before it

## Main results

* `Runs.trace_invariant`, `Runs.invariant`: invariants of whole traces and of states
* `Runs.iff_meets`: properties that the runs have whose steps meet a condition, and no others
* `runs_observed`: observing changes nothing
* `Runs.rel`: related events keep two runs related
* `Runs.project`: a run of a machine is a run of a part of it
-/

/-- A machine with states `S`: at an event of `E` it moves and emits outputs of `O`, or is stuck. -/
structure Machine (S E O : Type*) where
  init : S
  step : S → E → Option (S × List O)

namespace Machine

variable {S E O : Type*}

/-- One more event after a run that ended in `p.1` and emitted `p.2`. -/
def extend (m : Machine S E O) (p : S × List O) (e : E) : Option (S × List O) :=
  (m.step p.1 e).map fun q => (q.1, p.2 ++ q.2)

/-- The state and the outputs after the events `es`, or `none` when one of them is stuck. -/
def run (m : Machine S E O) (es : List E) : Option (S × List O) :=
  es.foldlM m.extend (m.init, [])

/-- The events `es` lead the machine from its initial state to `s`, emitting `os`. -/
def Runs (m : Machine S E O) (es : List E) (s : S) (os : List O) : Prop :=
  m.run es = some (s, os)

instance [DecidableEq S] [DecidableEq O] (m : Machine S E O) (es : List E) (s : S) (os : List O) :
    Decidable (m.Runs es s os) :=
  inferInstanceAs (Decidable (m.run es = some (s, os)))

variable {m : Machine S E O}

theorem runs_nil {s : S} {os : List O} : m.Runs [] s os ↔ s = m.init ∧ os = [] := by
  simp [Runs, run, eq_comm]

theorem Runs.nil : m.Runs [] m.init [] := runs_nil.mpr ⟨rfl, rfl⟩

theorem runs_snoc {es : List E} {e : E} {s' : S} {os : List O} :
    m.Runs (es ++ [e]) s' os ↔
      ∃ s os₁ os₂, m.Runs es s os₁ ∧ m.step s e = some (s', os₂) ∧ os = os₁ ++ os₂ := by
  simp only [Runs, run, List.foldlM_append, List.foldlM_cons, List.foldlM_nil, Option.bind_eq_bind,
    Option.bind_eq_some_iff, Prod.exists, extend, Option.map_eq_some_iff, Prod.mk.injEq]
  constructor
  · rintro ⟨s, os₁, hr, t, ps, ⟨t', os₂, hs, rfl, rfl⟩, he⟩
    obtain ⟨rfl, rfl⟩ := Prod.mk.inj (Option.some.inj he)
    exact ⟨s, os₁, os₂, hr, hs, rfl⟩
  · rintro ⟨s, os₁, os₂, hr, hs, rfl⟩
    exact ⟨s, os₁, hr, s', os₁ ++ os₂, ⟨s', os₂, hs, rfl, rfl⟩, rfl⟩

theorem Runs.snoc {es : List E} {e : E} {s s' : S} {os os' : List O} (h : m.Runs es s os)
    (hs : m.step s e = some (s', os')) : m.Runs (es ++ [e]) s' (os ++ os') :=
  runs_snoc.mpr ⟨s, os, os', h, hs, rfl⟩

/-- A run is determined by its events. -/
theorem Runs.unique {es : List E} {s t : S} {os ps : List O} (h : m.Runs es s os)
    (h' : m.Runs es t ps) : s = t ∧ os = ps :=
  Prod.mk.inj (Option.some.inj (h.symm.trans h'))

/-- A run goes on from where another one ended. -/
theorem Runs.append {n : Machine S E O} (hn : n.step = m.step) {es es' : List E} {s : S}
    {os os' : List O} (h : m.Runs es n.init os) (h' : n.Runs es' s os') :
    m.Runs (es ++ es') s (os ++ os') := by
  induction es' using List.reverseRecOn generalizing s os' with
  | nil =>
    obtain ⟨rfl, rfl⟩ := runs_nil.mp h'
    simpa using h
  | append_singleton es' e ih =>
    obtain ⟨t, os₁, os₂, hr, hs, rfl⟩ := runs_snoc.mp h'
    rw [hn] at hs
    rw [← List.append_assoc, ← List.append_assoc]
    exact (ih hr).snoc hs

/-- A run in two parts: the second one starts where the first one ended. -/
theorem Runs.split {es es' : List E} {s s' : S} {os ps : List O} (h : m.Runs es s os)
    (h' : m.Runs (es ++ es') s' ps) :
    ∃ os', ({ m with init := s }).Runs es' s' os' ∧ ps = os ++ os' := by
  induction es' using List.reverseRecOn generalizing s' ps with
  | nil =>
    rw [List.append_nil] at h'
    obtain ⟨rfl, rfl⟩ := h.unique h'
    exact ⟨[], .nil, (List.append_nil _).symm⟩
  | append_singleton es' e ih =>
    rw [← List.append_assoc] at h'
    obtain ⟨t, os₁, os₂, hr, hs, rfl⟩ := runs_snoc.mp h'
    obtain ⟨os', hr', rfl⟩ := ih hr
    exact ⟨os' ++ os₂, hr'.snoc (m := { m with init := s }) hs, List.append_assoc _ _ _⟩

/-- A run has begun with a run. -/
theorem Runs.before {es es' : List E} {s' : S} {os : List O} (h : m.Runs (es ++ es') s' os) :
    ∃ s ps, m.Runs es s ps := by
  induction es' using List.reverseRecOn generalizing s' os with
  | nil => exact ⟨s', os, by rwa [List.append_nil] at h⟩
  | append_singleton es' e ih =>
    rw [← List.append_assoc] at h
    obtain ⟨t, ps, qs, hr, -, -⟩ := runs_snoc.mp h
    exact ih hr

/-- A run comes through every event: before it, at it, and from there on. -/
theorem Runs.through {es es' : List E} {e : E} {s' : S} {os : List O}
    (h : m.Runs (es ++ e :: es') s' os) :
    ∃ s ps t qs rs, m.Runs es s ps ∧ m.step s e = some (t, qs) ∧
      ({ m with init := t }).Runs es' s' rs ∧ os = ps ++ qs ++ rs := by
  rw [List.append_cons] at h
  obtain ⟨t, ps, hr⟩ := h.before
  obtain ⟨rs, hrest, rfl⟩ := hr.split h
  obtain ⟨s, ps', qs, hes, hs, rfl⟩ := runs_snoc.mp hr
  exact ⟨s, ps', t, qs, rs, hes, hs, hrest, rfl⟩

/-! ## Invariants -/

/-- **The trace rule**: a property of events, state and outputs that holds at the start and that
one step preserves holds of every run. -/
theorem Runs.trace_invariant {I : List E → S → List O → Prop} (h₀ : I [] m.init [])
    (hstep : ∀ es s os e s' os', m.Runs es s os → I es s os → m.step s e = some (s', os') →
      I (es ++ [e]) s' (os ++ os'))
    {es : List E} {s : S} {os : List O} (h : m.Runs es s os) : I es s os := by
  induction es using List.reverseRecOn generalizing s os with
  | nil =>
    obtain ⟨rfl, rfl⟩ := runs_nil.mp h
    exact h₀
  | append_singleton es e ih =>
    obtain ⟨t, os₁, os₂, hr, hs, rfl⟩ := runs_snoc.mp h
    exact hstep es t os₁ e s os₂ hr (ih hr) hs

/-- **The invariant rule**: a property of states that holds at the start and that one step
preserves holds of every reachable state. -/
theorem Runs.invariant {I : S → Prop} (h₀ : I m.init)
    (hstep : ∀ s e s' os, I s → m.step s e = some (s', os) → I s')
    {es : List E} {s : S} {os : List O} (h : m.Runs es s os) : I s :=
  h.trace_invariant (I := fun _ s _ => I s) h₀ fun _ s _ e s' os' _ hI hs =>
    hstep s e s' os' hI hs

/-- The invariant rule for the rest of a run. -/
theorem Runs.invariant_from {I : S → Prop} {s₀ : S} (h₀ : I s₀)
    (hstep : ∀ s e s' os, I s → m.step s e = some (s', os) → I s')
    {es : List E} {s : S} {os : List O} (h : ({ m with init := s₀ }).Runs es s os) : I s :=
  Runs.invariant (m := { m with init := s₀ }) h₀ hstep h

/-! ## Runs whose steps meet a condition -/

/-- Every step of the run on `es` is taken in a state and at an event that meet `C`. -/
def Meets (m : Machine S E O) (C : S → E → Prop) (es : List E) : Prop :=
  ∀ es₁ e es₂ s os, es = es₁ ++ e :: es₂ → m.Runs es₁ s os → C s e

theorem meets_nil {C : S → E → Prop} : m.Meets C [] := by
  intro es₁ e es₂ s os he
  simp at he

theorem meets_snoc {C : S → E → Prop} {es : List E} {e : E} :
    m.Meets C (es ++ [e]) ↔ m.Meets C es ∧ ∀ s os, m.Runs es s os → C s e := by
  constructor
  · intro h
    refine ⟨fun es₁ e' es₂ s os he hr => ?_, fun s os hr => h es e [] s os rfl hr⟩
    exact h es₁ e' (es₂ ++ [e]) s os (by simp [he]) hr
  · rintro ⟨h, he⟩ es₁ e' es₂ s os heq hr
    rcases List.eq_nil_or_concat es₂ with rfl | ⟨es₂, e₂, rfl⟩
    · obtain ⟨rfl, hee⟩ := List.append_inj' heq rfl
      obtain rfl : e = e' := by simpa using hee
      exact he s os hr
    · rw [List.concat_eq_append, ← List.cons_append, ← List.append_assoc] at heq
      obtain ⟨rfl, -⟩ := List.append_inj' heq rfl
      exact h es₁ e' es₂ s os rfl hr

/-- The condition a property needs, for runs on events of the kind `T`. -/
theorem Runs.iff_meets_of {T : E → Prop} {C : S → E → Prop} {P : S → List O → Prop}
    (h₀ : P m.init [])
    (hstep : ∀ es s os e s' os', m.Runs es s os → (∀ e ∈ es, T e) → T e →
      m.step s e = some (s', os') → (P s' (os ++ os') ↔ P s os ∧ C s e))
    {es : List E} {s : S} {os : List O} (h : m.Runs es s os) (hT : ∀ e ∈ es, T e) :
    P s os ↔ m.Meets C es := by
  refine h.trace_invariant (I := fun es s os => (∀ e ∈ es, T e) → (P s os ↔ m.Meets C es))
    (fun _ => iff_of_true h₀ meets_nil) ?_ hT
  intro es s os e s' os' hr hI hs hT
  have hes : ∀ e ∈ es, T e := fun e he => hT e (List.mem_append_left _ he)
  rw [hstep es s os e s' os' hr hes (hT e (by simp)) hs, hI hes, meets_snoc]
  apply and_congr_right
  intro _
  constructor
  · intro he t ps hr'
    obtain ⟨rfl, -⟩ := hr.unique hr'
    exact he
  · intro he
    exact he s os hr

/-- **The condition a property needs**: when every step keeps `P` just if it meets `C`, a run has
`P` just if all its steps meet `C`. -/
theorem Runs.iff_meets {C : S → E → Prop} {P : S → List O → Prop} (h₀ : P m.init [])
    (hstep : ∀ es s os e s' os', m.Runs es s os → m.step s e = some (s', os') →
      (P s' (os ++ os') ↔ P s os ∧ C s e))
    {es : List E} {s : S} {os : List O} (h : m.Runs es s os) : P s os ↔ m.Meets C es :=
  h.iff_meets_of (T := fun _ => True) h₀
    (fun es s os e s' os' hr _ _ hs => hstep es s os e s' os' hr hs) fun _ _ => trivial

/-! ## Observers -/

section Observers

variable {L : Type*}

/-- A machine with an observer, who makes a note of every step. -/
def observed (m : Machine S E O) (l₀ : L) (note : S → List O → E → L → L) :
    Machine (S × L) E O where
  init := (m.init, l₀)
  step s e := (m.step s.1 e).map fun q => ((q.1, note s.1 q.2 e s.2), q.2)

theorem observed_step {l₀ : L} {note : S → List O → E → L → L} {s s' : S × L} {e : E} {os : List O} :
    (m.observed l₀ note).step s e = some (s', os) ↔
      m.step s.1 e = some (s'.1, os) ∧ s'.2 = note s.1 os e s.2 := by
  obtain ⟨s', l'⟩ := s'
  simp only [observed, Option.map_eq_some_iff, Prod.exists, Prod.mk.injEq]
  constructor
  · rintro ⟨t, ps, hs, ⟨rfl, rfl⟩, rfl⟩
    exact ⟨hs, rfl⟩
  · rintro ⟨hs, rfl⟩
    exact ⟨s', os, hs, ⟨rfl, rfl⟩, rfl⟩

/-- **Observing changes nothing**: the runs are those of the machine. -/
theorem runs_observed {l₀ : L} {note : S → List O → E → L → L} {es : List E} {s : S} {os : List O} :
    (∃ l, (m.observed l₀ note).Runs es (s, l) os) ↔ m.Runs es s os := by
  induction es using List.reverseRecOn generalizing s os with
  | nil =>
    simp only [runs_nil]
    constructor
    · rintro ⟨l, he, rfl⟩
      exact ⟨congrArg Prod.fst he, rfl⟩
    · rintro ⟨rfl, rfl⟩
      exact ⟨l₀, rfl, rfl⟩
  | append_singleton es e ih =>
    constructor
    · rintro ⟨l, hr⟩
      obtain ⟨⟨t, k⟩, os₁, os₂, hbefore, hs, rfl⟩ := runs_snoc.mp hr
      exact (ih.mp ⟨k, hbefore⟩).snoc (observed_step.mp hs).1
    · intro hr
      obtain ⟨t, os₁, os₂, hbefore, hs, rfl⟩ := runs_snoc.mp hr
      obtain ⟨k, hk⟩ := ih.mpr hbefore
      exact ⟨note t os₂ e k, hk.snoc (observed_step.mpr ⟨hs, rfl⟩)⟩

end Observers

/-! ## The order of outputs -/

section Throughout

variable {P : List O → O → Prop} {os : List O}

/-- Every output has the property `P`, given the outputs before it. -/
def Throughout (P : List O → O → Prop) (os : List O) : Prop :=
  ∀ before o after, os = before ++ o :: after → P before o

theorem throughout_nil : Throughout P [] := by
  intro before o after h
  simp at h

theorem throughout_snoc {o : O} : Throughout P (os ++ [o]) ↔ Throughout P os ∧ P os o := by
  constructor
  · intro h
    refine ⟨fun before o' after he => ?_, h os o [] rfl⟩
    exact h before o' (after ++ [o]) (by simp [he])
  · rintro ⟨h, ho⟩ before o' after he
    rcases List.eq_nil_or_concat after with rfl | ⟨after, o₂, rfl⟩
    · obtain ⟨rfl, hoo⟩ := List.append_inj' he rfl
      obtain rfl : o = o' := by simpa using hoo
      exact ho
    · rw [List.concat_eq_append, ← List.cons_append, ← List.append_assoc] at he
      obtain ⟨rfl, -⟩ := List.append_inj' he rfl
      exact h before o' after rfl

end Throughout

section Order

variable {needs : O → List O} {os os' : List O}

/-- What an output needs comes before it. -/
def Preceded (needs : O → List O) (os : List O) : Prop :=
  ∀ before o after, os = before ++ o :: after → ∀ n ∈ needs o, n ∈ before

theorem preceded_nil : Preceded needs [] := throughout_nil

theorem preceded_snoc {o : O} :
    Preceded needs (os ++ [o]) ↔ Preceded needs os ∧ ∀ n ∈ needs o, n ∈ os :=
  throughout_snoc (P := fun before o => ∀ n ∈ needs o, n ∈ before)

/-- Outputs that need what there is already. -/
theorem Preceded.append (h : Preceded needs os) (h' : ∀ o ∈ os', ∀ n ∈ needs o, n ∈ os) :
    Preceded needs (os ++ os') := by
  induction os' using List.reverseRecOn with
  | nil => rwa [List.append_nil]
  | append_singleton os' o ih =>
    rw [← List.append_assoc, preceded_snoc]
    refine ⟨ih fun o' ho' => h' o' (List.mem_append_left _ ho'), fun n hn => ?_⟩
    exact List.mem_append_left _ (h' o (by simp) n hn)

end Order

/-! ## Two runs -/

/-- Pairwise related lists, split where the last element of the first one stands. -/
theorem forall₂_snoc_left {α β : Type*} {r : α → β → Prop} {l : List α} {a : α} {fs : List β}
    (h : List.Forall₂ r (l ++ [a]) fs) :
    ∃ fs' f, fs = fs' ++ [f] ∧ List.Forall₂ r l fs' ∧ r a f := by
  have h₁ := (List.forall₂_take_append fs l [a] h.flip).flip
  have h₂ := (List.forall₂_drop_append fs l [a] h.flip).flip
  obtain ⟨f, fs', hf, hnil, he⟩ := List.forall₂_cons_left_iff.mp h₂
  obtain rfl := List.forall₂_nil_left_iff.mp hnil
  exact ⟨_, f, by rw [← he, List.take_append_drop], h₁, hf⟩

/-- When related events take related states to related states and emit related outputs, runs on
pairwise related events stay related. -/
theorem Runs.rel {S' E' O' : Type*} {m' : Machine S' E' O'} {R : S → S' → Prop}
    {r : E → E' → Prop} {q : List O → List O' → Prop} (h₀ : R m.init m'.init) (hq : q [] [])
    (happ : ∀ os ps os' ps', q os ps → q os' ps' → q (os ++ os') (ps ++ ps'))
    (hstep : ∀ s t e f s' os, R s t → r e f → m.step s e = some (s', os) →
      ∃ t' ps, m'.step t f = some (t', ps) ∧ R s' t' ∧ q os ps)
    {es : List E} {s : S} {os : List O} (h : m.Runs es s os) {fs : List E'}
    (hr : List.Forall₂ r es fs) : ∃ t ps, m'.Runs fs t ps ∧ R s t ∧ q os ps := by
  induction es using List.reverseRecOn generalizing s os fs with
  | nil =>
    obtain ⟨rfl, rfl⟩ := runs_nil.mp h
    obtain rfl := List.forall₂_nil_left_iff.mp hr
    exact ⟨_, _, .nil, h₀, hq⟩
  | append_singleton es e ih =>
    obtain ⟨u, os₁, os₂, hru, hs, rfl⟩ := runs_snoc.mp h
    obtain ⟨fs, f, rfl, h₁, hef⟩ := forall₂_snoc_left hr
    obtain ⟨t, ps, ht, hR, hp⟩ := ih hru h₁
    obtain ⟨t', ps', ht', hR', hp'⟩ := hstep u t e f s os₂ hR hef hs
    exact ⟨t', ps ++ ps', ht.snoc ht', hR', happ _ _ _ _ hp hp'⟩

/-! ## Parts of a machine -/

/-- **Projection**: when each step is a step of a part of the machine, or leaves the part alone and
tells nothing of it, then the runs of the machine are runs of the part. -/
theorem Runs.project {S' E' O' : Type*} {m' : Machine S' E' O'} (view : S → S')
    (event : E → Option E') (output : O → Option O') (h₀ : view m.init = m'.init)
    (hstep : ∀ s e s' os, m.step s e = some (s', os) →
      (event e = none ∧ view s' = view s ∧ os.filterMap output = []) ∨
        ∃ e', event e = some e' ∧ m'.step (view s) e' = some (view s', os.filterMap output))
    {es : List E} {s : S} {os : List O} (h : m.Runs es s os) :
    m'.Runs (es.filterMap event) (view s) (os.filterMap output) := by
  induction es using List.reverseRecOn generalizing s os with
  | nil =>
    obtain ⟨rfl, rfl⟩ := runs_nil.mp h
    exact runs_nil.mpr ⟨h₀, rfl⟩
  | append_singleton es e ih =>
    obtain ⟨t, os₁, os₂, hr, hs, rfl⟩ := runs_snoc.mp h
    rw [List.filterMap_append, List.filterMap_append]
    rcases hstep t e s os₂ hs with ⟨he, hview, hos⟩ | ⟨e', he, hs'⟩
    · rw [List.filterMap_cons_none he, List.filterMap_nil, hview, hos, List.append_nil,
        List.append_nil]
      exact ih hr
    · rw [List.filterMap_cons_some he, List.filterMap_nil]
      exact (ih hr).snoc hs'

end Machine
