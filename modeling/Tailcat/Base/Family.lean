import Tailcat.Base.Joint

/-!
# Machines with many members

A machine that keeps members, each under a key of its own: one at a time they join, move as a
machine of their own does, and leave. Whatever the other members do in between, the history of each
member is a run of that machine.

Two such machines are joined by a pair of wires for each key.

## Main definitions

* `Roster`: the members, and the keys that were never one's
* `Roster.Step`: what a step does to a roster
* `Roster.Tells`: what the history of one key is
* `Machine.HandsOn`: what a step does to those that wait
* `Machine.network`: two machines, joined by wires for each key

## Main results

* `Machine.Runs.member`: the history of each key is a run of the machine of the members
* `Machine.Runs.in_turn`, `Machine.Runs.handled_once`: those that wait are handled in their order,
  and once
* `Machine.Runs.networkLeft`, `Machine.Runs.networkRight`: both machines of a network run
* `Machine.Runs.carriedAt`: what the wires of a key have carried
-/

section Members

variable {K S E O S' E' O' : Type*}

/-- What belongs to a key. -/
def ofKey [DecidableEq K] {β : Type*} (k : K) (a : K × β) : Option β :=
  if a.1 = k then some a.2 else none

theorem ofKey_self [DecidableEq K] {β : Type*} (k : K) (b : β) : ofKey k (k, b) = some b :=
  if_pos rfl

theorem ofKey_of_ne [DecidableEq K] {β : Type*} {k k' : K} (h : k' ≠ k) (b : β) :
    ofKey k (k', b) = none := if_neg h

/-- What belongs to one key belongs to no other one. -/
theorem filterMap_ofKey_map [DecidableEq K] {β : Type*} (k k' : K) (l : List β) :
    (l.map (Prod.mk k')).filterMap (ofKey k) = if k' = k then l else [] := by
  split
  · rename_i h
    subst h
    rw [List.filterMap_map]
    exact (List.filterMap_congr fun b _ => ofKey_self k' b).trans List.filterMap_some
  · rename_i h
    rw [List.filterMap_map]
    exact List.filterMap_eq_nil_iff.mpr fun b _ => ofKey_of_ne h b

/-- What is left of one event. -/
theorem filterMap_filterMap_singleton {α β γ : Type*} (f : α → Option β) (g : β → Option γ)
    (a : α) : ([a].filterMap f).filterMap g = ((f a).bind g).toList := by
  rw [List.filterMap_filterMap, List.filterMap_cons, List.filterMap_nil]
  cases (f a).bind g <;> rfl

/-- What a list says of the key `k`. -/
def atKey [DecidableEq K] {A β : Type*} (f : A → Option (K × β)) (k : K) (l : List A) : List β :=
  (l.filterMap f).filterMap (ofKey k)

theorem atKey_append [DecidableEq K] {A β : Type*} (f : A → Option (K × β)) (k : K)
    (l l' : List A) : atKey f k (l ++ l') = atKey f k l ++ atKey f k l' := by
  unfold atKey
  rw [List.filterMap_append, List.filterMap_append]

/-- What is said with `g` of a value, under another key. -/
def keyed {K' β γ : Type*} (φ : K → Option K') (g : β → Option γ) (a : K × β) :
    Option (K' × γ) :=
  (φ a.1).bind fun k => (g a.2).map (Prod.mk k)

theorem bind_ofKey_map [DecidableEq K] {β : Type*} (k k' : K) (b : Option β) :
    (b.map (Prod.mk k')).bind (ofKey k) = if k' = k then b else none := by
  cases b <;> simp [ofKey]

/-- What is said under the other key. -/
theorem atKey_keyed [DecidableEq K] {K' A β γ : Type*} [DecidableEq K'] {φ : K → Option K'}
    {g : β → Option γ} (f : A → Option (K × β)) {k : K} {k' : K'}
    (hφ : ∀ j, φ j = some k' ↔ j = k) (l : List A) :
    atKey (fun a => (f a).bind (keyed φ g)) k' l = (atKey f k l).filterMap g := by
  have hkeyed (j : K) (b : β) : (keyed φ g (j, b)).bind (ofKey k') = (ofKey k (j, b)).bind g := by
    unfold keyed
    rw [Option.bind_assoc]
    by_cases hj : j = k
    · rw [(hφ j).mpr hj, hj, ofKey_self]
      exact (bind_ofKey_map k' k' (g b)).trans (if_pos rfl)
    · rw [ofKey_of_ne hj, Option.bind_none]
      refine Option.bind_eq_none_iff.mpr fun i hi => ?_
      have hne : i ≠ k' := fun h => hj ((hφ j).mp (hi.trans (congrArg some h)))
      rw [bind_ofKey_map, if_neg hne]
  unfold atKey
  rw [List.filterMap_filterMap, List.filterMap_filterMap, List.filterMap_filterMap]
  refine List.filterMap_congr fun a _ => ?_
  rw [Option.bind_assoc]
  exact Option.bind_congr fun ⟨j, b⟩ _ => hkeyed j b

/-- The members of a family, and the keys that were never a member's. -/
structure Roster (K S : Type*) where
  members : List (K × S)
  unborn : Set K

namespace Roster

/-- Keys are used once. -/
structure WellFormed (R : Roster K S) : Prop where
  nodup : (R.members.map Prod.fst).Nodup
  born : ∀ k s, (k, s) ∈ R.members → k ∉ R.unborn

/-- What a step does to a roster, with the event and the outputs of the member that moves. Those who
leave, or are dismissed before they have joined, have the property `Q`. -/
inductive Step (m : Machine S E O) (Q : K → S → Prop) (R : Roster K S) :
    Option (K × E) → Roster K S → List (K × O) → Prop
  | rest {R' : Roster K S} (hmembers : R'.members.Perm R.members) (hunborn : R'.unborn = R.unborn) :
    Step m Q R none R' []
  | join {R' : Roster K S} {k : K} (hk : k ∈ R.unborn)
      (hmembers : R'.members.Perm ((k, m.init) :: R.members))
      (hunborn : R'.unborn = R.unborn \ {k}) :
    Step m Q R none R' []
  | dismiss {R' : Roster K S} (hmembers : R'.members.Perm R.members)
      (hunborn : R'.unborn ⊆ R.unborn) (hQ : ∀ k ∈ R.unborn, k ∉ R'.unborn → Q k m.init) :
    Step m Q R none R' []
  | move {R' : Roster K S} {k : K} {s s' : S} {e : E} {os : List O} {others : List (K × S)}
      (hs : m.step s e = some (s', os)) (hbefore : R.members.Perm ((k, s) :: others))
      (hafter : R'.members.Perm ((k, s') :: others)) (hunborn : R'.unborn = R.unborn) :
    Step m Q R (some (k, e)) R' (os.map (Prod.mk k))
  | leave {R' : Roster K S} {gone : List (K × S)} (hmembers : R.members.Perm (gone ++ R'.members))
      (hunborn : R'.unborn = R.unborn) (hQ : ∀ k s, (k, s) ∈ gone → Q k s) :
    Step m Q R none R' []

variable {m : Machine S E O} {Q : K → S → Prop} {R R' : Roster K S} {e : Option (K × E)}
  {os : List (K × O)}

theorem Step.wellFormed (h : Step m Q R e R' os) (hR : R.WellFormed) : R'.WellFormed := by
  cases h with
  | rest hmembers hunborn =>
    refine ⟨(hmembers.map Prod.fst).nodup_iff.mpr hR.nodup, fun k s hk => ?_⟩
    rw [hunborn]
    exact hR.born k s (hmembers.mem_iff.mp hk)
  | @join _ k hk hmembers hunborn =>
    constructor
    · rw [(hmembers.map Prod.fst).nodup_iff, List.map_cons, List.nodup_cons]
      refine ⟨fun hmem => ?_, hR.nodup⟩
      obtain ⟨⟨_, s⟩, hs, rfl⟩ := List.mem_map.mp hmem
      exact hR.born _ s hs hk
    · intro k' s hk'
      rw [hunborn]
      rcases List.mem_cons.mp (hmembers.mem_iff.mp hk') with he | hmem
      · exact fun h => h.2 (Prod.mk.inj he).1
      · exact fun h => hR.born k' s hmem h.1
  | dismiss hmembers hunborn hQ =>
    refine ⟨(hmembers.map Prod.fst).nodup_iff.mpr hR.nodup, fun k s hk hunborn' => ?_⟩
    exact hR.born k s (hmembers.mem_iff.mp hk) (hunborn hunborn')
  | @move _ k s s' e os others hs hbefore hafter hunborn =>
    constructor
    · rw [(hafter.map Prod.fst).nodup_iff]
      exact (hbefore.map Prod.fst).nodup_iff.mp hR.nodup
    · intro k' t hk'
      rw [hunborn]
      rcases List.mem_cons.mp (hafter.mem_iff.mp hk') with he | hmem
      · obtain ⟨rfl, -⟩ := Prod.mk.inj he
        exact hR.born _ s (hbefore.mem_iff.mpr (by simp))
      · exact hR.born k' t (hbefore.mem_iff.mpr (List.mem_cons_of_mem _ hmem))
  | leave hmembers hunborn hQ =>
    constructor
    · have h := (hmembers.map Prod.fst).nodup_iff.mp hR.nodup
      rw [List.map_append] at h
      exact h.of_append_right
    · intro k s hk
      rw [hunborn]
      exact hR.born k s (hmembers.mem_iff.mpr (List.mem_append_right _ hk))

/-- A key belongs to one member. -/
theorem WellFormed.unique (hR : R.WellFormed) {k : K} {s t : S} (hs : (k, s) ∈ R.members)
    (ht : (k, t) ∈ R.members) : s = t :=
  (Prod.mk.inj (List.inj_on_of_nodup_map hR.nodup hs ht rfl)).2

/-- The history of the key `k`, from the events `es` to the outputs `os` of its member, in a run
with all the outputs `ps`. -/
def Tells (m : Machine S' E' O') (Q : List O → K → S' → Prop) (R : Roster K S') (k : K)
    (es : List E') (os : List O') (ps : List O) : Prop :=
  ∃ s, m.Runs es s os ∧ (k ∈ R.unborn → es = []) ∧ (∀ t, (k, t) ∈ R.members → t = s) ∧
    (k ∉ R.unborn → (∀ t, (k, t) ∉ R.members) → ∃ qs, qs ⊆ ps ∧ Q qs k s)

section History

variable [DecidableEq K] {m' : Machine S' E' O'} {Q : List O → K → S' → Prop}
  {R R' : Roster K S'} {e : Option (K × E')} {os : List (K × O')}

/-- The history of a key goes on. -/
theorem Tells.step {k : K} {es : List E'} {qs : List O'} {ps ps' : List O}
    (hR : R.WellFormed) (h : R.Tells m' Q k es qs ps) (hs : Step m' (Q ps') R e R' os) :
    R'.Tells m' Q k (es ++ (e.bind (ofKey k)).toList) (qs ++ os.filterMap (ofKey k))
      (ps ++ ps') := by
  obtain ⟨s, hrun, hunborn, halive, hgone⟩ := h
  have hleft : k ∉ R.unborn → (∀ t, (k, t) ∉ R.members) → ∃ qs, qs ⊆ ps ++ ps' ∧ Q qs k s := by
    intro hk hnone
    obtain ⟨qs, hqs, hQ⟩ := hgone hk hnone
    exact ⟨qs, fun o ho => List.mem_append_left _ (hqs ho), hQ⟩
  cases hs with
  | rest hmembers hunborn' =>
    refine ⟨s, by simpa using hrun, ?_, ?_, ?_⟩
    · simpa [hunborn'] using hunborn
    · exact fun t ht => halive t (hmembers.mem_iff.mp ht)
    · rw [hunborn']
      exact fun hk hnone => hleft hk fun t ht => hnone t (hmembers.mem_iff.mpr ht)
  | @join _ k' hk' hmembers hunborn' =>
    refine ⟨s, by simpa using hrun, ?_, ?_, ?_⟩
    · intro hk
      rw [hunborn'] at hk
      simpa using hunborn hk.1
    · intro t ht
      rcases List.mem_cons.mp (hmembers.mem_iff.mp ht) with he | hmem
      · -- The new member has no history.
        obtain ⟨rfl, rfl⟩ := Prod.mk.inj he
        rw [hunborn hk'] at hrun
        exact (Machine.runs_nil.mp hrun).1.symm
      · exact halive t hmem
    · intro hk hnone
      rw [hunborn'] at hk
      have hne : k ≠ k' := by
        rintro rfl
        exact hnone m'.init (hmembers.mem_iff.mpr (by simp))
      exact hleft (fun h => hk ⟨h, hne⟩) fun t ht =>
        hnone t (hmembers.mem_iff.mpr (List.mem_cons_of_mem _ ht))
  | dismiss hmembers hunborn' hQ =>
    refine ⟨s, by simpa using hrun, ?_, ?_, ?_⟩
    · intro hk
      simpa using hunborn (hunborn' hk)
    · exact fun t ht => halive t (hmembers.mem_iff.mp ht)
    · intro hk hnone
      by_cases hold : k ∈ R.unborn
      · rw [hunborn hold] at hrun
        obtain ⟨rfl, -⟩ := Machine.runs_nil.mp hrun
        exact ⟨ps', List.subset_append_right _ _, hQ k hold hk⟩
      · exact hleft hold fun t ht => hnone t (hmembers.mem_iff.mpr ht)
  | @move _ k' t t' e' os' others hstep hbefore hafter hunborn' =>
    rw [filterMap_ofKey_map]
    by_cases hk : k' = k
    · subst hk
      have ht : (k', t) ∈ R.members := hbefore.mem_iff.mpr (by simp)
      obtain rfl := halive t ht
      have hmem : (k', t') ∈ R'.members := hafter.mem_iff.mpr (by simp)
      refine ⟨t', ?_, ?_, ?_, ?_⟩
      · simpa [ofKey_self] using hrun.snoc hstep
      · intro hk
        rw [hunborn'] at hk
        exact absurd hk (hR.born k' t ht)
      · intro u hu
        exact ((Step.move hstep hbefore hafter hunborn').wellFormed (Q := Q ps') hR).unique
          hu hmem
      · exact fun _ hnone => absurd hmem (hnone t')
    · rw [if_neg hk, Option.bind_some, ofKey_of_ne hk]
      have hiff : ∀ u, (k, u) ∈ R'.members ↔ (k, u) ∈ R.members := by
        intro u
        rw [hafter.mem_iff, hbefore.mem_iff, List.mem_cons, List.mem_cons]
        exact or_congr_left (iff_of_false (fun h => hk (Prod.mk.inj h).1.symm)
          fun h => hk (Prod.mk.inj h).1.symm)
      refine ⟨s, by simpa using hrun, ?_, ?_, ?_⟩
      · simpa [hunborn'] using hunborn
      · exact fun u hu => halive u ((hiff u).mp hu)
      · rw [hunborn']
        exact fun hk hnone => hleft hk fun u hu => hnone u ((hiff u).mpr hu)
  | @leave _ gone hmembers hunborn' hQ =>
    refine ⟨s, by simpa using hrun, ?_, ?_, ?_⟩
    · simpa [hunborn'] using hunborn
    · exact fun t ht => halive t (hmembers.mem_iff.mpr (List.mem_append_right _ ht))
    · intro hk hnone
      rw [hunborn'] at hk
      by_cases hstay : ∃ t, (k, t) ∈ R.members
      · obtain ⟨t, ht⟩ := hstay
        obtain rfl := halive t ht
        have hgone' : (k, t) ∈ gone :=
          (List.mem_append.mp (hmembers.mem_iff.mp ht)).resolve_right (hnone t)
        exact ⟨ps', List.subset_append_right _ _, hQ k t hgone'⟩
      · exact hleft hk fun t ht => hstay ⟨t, ht⟩

end History

end Roster

namespace Machine

variable [DecidableEq K] {m : Machine S E O} {m' : Machine S' E' O'}
  {Q : List O → K → S' → Prop}

/-- **Members run on their own**: when every step of a machine is a step of its roster, the history
of each key is a run of the machine of the members. -/
theorem Runs.member (roster : S → Roster K S') (event : E → Option (K × E'))
    (output : O → Option (K × O')) (h₀ : roster m.init = ⟨[], Set.univ⟩)
    (hstep : ∀ es s os e s' os', m.Runs es s os → (roster s).WellFormed →
      m.step s e = some (s', os') →
        Roster.Step m' (Q os') (roster s) (event e) (roster s') (os'.filterMap output))
    {es : List E} {s : S} {os : List O} (h : m.Runs es s os) :
    (roster s).WellFormed ∧
      ∀ k, (roster s).Tells m' Q k (atKey event k es) (atKey output k os) os := by
  refine h.trace_invariant (I := fun es s os => (roster s).WellFormed ∧
    ∀ k, (roster s).Tells m' Q k (atKey event k es) (atKey output k os) os) ?_ ?_
  · rw [h₀]
    refine ⟨⟨List.nodup_nil, nofun⟩, fun k => ?_⟩
    exact ⟨m'.init, .nil, fun _ => rfl, nofun, fun hk => absurd trivial hk⟩
  · intro es s os e s' os' hr ⟨hwf, htells⟩ hs
    have h := hstep es s os e s' os' hr hwf hs
    refine ⟨h.wellFormed hwf, fun k => ?_⟩
    have hnext := Roster.Tells.step hwf (htells k) h
    rw [atKey_append, atKey_append]
    rwa [← filterMap_filterMap_singleton] at hnext

/-! ## Queues -/

section Queues

variable {S E O K : Type*} {m : Machine S E O} {s : S} {es : List E} {os : List O}

/-- **In turn**: when every step hands on the first ones of those that wait or arrive, they are
handled in the order in which they arrived. -/
theorem Runs.in_turn (pending : S → List K) (arrived handled : O → Option K)
    (h₀ : pending m.init = [])
    (hstep : ∀ s e s' os, m.step s e = some (s', os) →
      pending s ++ os.filterMap arrived = os.filterMap handled ++ pending s')
    (h : m.Runs es s os) : os.filterMap arrived = os.filterMap handled ++ pending s := by
  refine h.trace_invariant
    (I := fun _ s os => os.filterMap arrived = os.filterMap handled ++ pending s) ?_ ?_
  · rw [h₀]
    rfl
  · intro es s os e s' os' _ hI hs
    rw [List.filterMap_append, List.filterMap_append, hI, List.append_assoc, hstep s e s' os' hs,
      ← List.append_assoc]

/-- What a step does to those that wait: they are handled, or wait with those that arrive, which
are new. -/
structure HandsOn (waiting waiting' seen seen' arrived handled : List K) : Prop where
  perm : (waiting ++ arrived).Perm (handled ++ waiting')
  seen_eq : seen' = arrived ++ seen
  nodup : arrived.Nodup
  fresh : ∀ k ∈ arrived, k ∉ seen

/-- **Once**: what was handled, or waits, was handled once, or waits once. -/
theorem Runs.handled_once (waiting seen : S → List K) (arrived handled : O → Option K)
    (h₀ : waiting m.init = [])
    (hstep : ∀ s e s' os, m.step s e = some (s', os) → HandsOn (waiting s) (waiting s') (seen s)
      (seen s') (os.filterMap arrived) (os.filterMap handled))
    (h : m.Runs es s os) :
    (os.filterMap handled ++ waiting s).Nodup ∧
      ∀ k ∈ os.filterMap handled ++ waiting s, k ∈ seen s := by
  refine h.trace_invariant (I := fun _ s os => (os.filterMap handled ++ waiting s).Nodup ∧
    ∀ k ∈ os.filterMap handled ++ waiting s, k ∈ seen s) ?_ ?_
  · rw [h₀]
    exact ⟨List.nodup_nil, nofun⟩
  · intro es s os e s' os' _ ⟨hnodup, hall⟩ hs
    have hnext := hstep s e s' os' hs
    have hperm : ((os ++ os').filterMap handled ++ waiting s').Perm
        (os.filterMap handled ++ waiting s ++ os'.filterMap arrived) := by
      rw [List.filterMap_append, List.append_assoc, List.append_assoc]
      exact hnext.perm.symm.append_left _
    constructor
    · refine hperm.nodup_iff.mpr
        (List.nodup_append.mpr ⟨hnodup, hnext.nodup, fun a ha b hb hab => ?_⟩)
      exact hnext.fresh b hb (hab ▸ hall a ha)
    · intro k hk
      rw [hnext.seen_eq, List.mem_append]
      exact (List.mem_append.mp (hperm.mem_iff.mp hk)).symm.imp_right (hall k)

end Queues

end Machine

end Members

/-! ## The wires of a family -/

section Wires

variable {K A W : Type*} [DecidableEq K]

/-- Each action changes what is at its key. -/
def foldAt (f : W → A → Option W) (w : K → W) (t : List (K × A)) : Option (K → W) :=
  t.foldlM (fun w a => (f (w a.1) a.2).map (Function.update w a.1)) w

/-- What is at a key was changed by the actions of the key. -/
theorem foldAt_apply {f : W → A → Option W} {w w' : K → W} {t : List (K × A)}
    (h : foldAt f w t = some w') (k : K) :
    (t.filterMap (ofKey k)).foldlM f (w k) = some (w' k) := by
  induction t generalizing w with
  | nil =>
    obtain rfl := Option.some.inj h
    rfl
  | cons a t ih =>
    obtain ⟨k', a⟩ := a
    obtain ⟨v, hv, h⟩ := Option.bind_eq_some_iff.mp (List.foldlM_cons.symm.trans h)
    obtain ⟨u, hu, rfl⟩ := Option.map_eq_some_iff.mp hv
    have hrest := ih h
    by_cases hk : k' = k
    · subst hk
      rw [Function.update_self] at hrest
      rw [List.filterMap_cons_some (ofKey_self k' a), List.foldlM_cons, hu]
      exact hrest
    · rw [Function.update_of_ne (Ne.symm hk)] at hrest
      rwa [List.filterMap_cons_none (ofKey_of_ne hk a)]

end Wires

/-- How the outputs `O` of a machine are tied to the wires of its members. -/
structure KeyedPort (K O α : Type*) where
  sends : O → Option (K × PipeAction α)
  receives : O → Option (K × PipeAction α)

/-- Two machines, the calls of the left one, and what is under way between them. -/
structure Network (S₁ S₂ K X α : Type*) where
  left : S₁
  right : S₂
  called : List (K × X) := []
  toRight : K → Wire α := fun _ => {}
  toLeft : K → Wire α := fun _ => {}

namespace Machine

variable {S₁ E₁ O₁ S₂ E₂ O₂ K X α : Type*} [DecidableEq K] [DecidableEq X] [DecidableEq α]

/-- The machines `m₁` and `m₂`, joined by two wires for each key. The left one calls, and the right
one answers only what was called. -/
def network (m₁ : Machine S₁ E₁ O₁) (m₂ : Machine S₂ E₂ O₂) (p₁ : KeyedPort K O₁ α)
    (p₂ : KeyedPort K O₂ α) (calls : O₁ → Option (K × X)) (answers : E₂ → Option (K × X)) :
    Machine (Network S₁ S₂ K X α) (E₁ ⊕ E₂) (O₁ ⊕ O₂) where
  init := { left := m₁.init, right := m₂.init }
  step s
    | .inl e =>
      (m₁.step s.left e).bind fun q =>
        (foldAt Wire.take s.toLeft (q.2.filterMap p₁.receives)).bind fun toLeft =>
          (foldAt Wire.put s.toRight (q.2.filterMap p₁.sends)).map fun toRight =>
            ({ left := q.1, right := s.right, called := s.called ++ q.2.filterMap calls,
               toRight, toLeft }, q.2.map .inl)
    | .inr e =>
      if ∀ c ∈ (answers e).toList, c ∈ s.called then
        (m₂.step s.right e).bind fun q =>
          (foldAt Wire.take s.toRight (q.2.filterMap p₂.receives)).bind fun toRight =>
            (foldAt Wire.put s.toLeft (q.2.filterMap p₂.sends)).map fun toLeft =>
              ({ s with right := q.1, toRight, toLeft }, q.2.map .inr)
      else
        none

variable {m₁ : Machine S₁ E₁ O₁} {m₂ : Machine S₂ E₂ O₂} {p₁ : KeyedPort K O₁ α}
  {p₂ : KeyedPort K O₂ α} {calls : O₁ → Option (K × X)} {answers : E₂ → Option (K × X)}
  {s s' : Network S₁ S₂ K X α} {os : List (O₁ ⊕ O₂)}

/-- A step of the left machine, over the wires. -/
theorem network_step_inl {e : E₁}
    (hs : (m₁.network m₂ p₁ p₂ calls answers).step s (.inl e) = some (s', os)) :
    ∃ os₁, os = os₁.map .inl ∧ m₁.step s.left e = some (s'.left, os₁) ∧ s'.right = s.right ∧
      s'.called = s.called ++ os₁.filterMap calls ∧
      foldAt Wire.take s.toLeft (os₁.filterMap p₁.receives) = some s'.toLeft ∧
      foldAt Wire.put s.toRight (os₁.filterMap p₁.sends) = some s'.toRight := by
  obtain ⟨⟨t, os₁⟩, hstep, hs⟩ := Option.bind_eq_some_iff.mp hs
  obtain ⟨toLeft, htakes, hs⟩ := Option.bind_eq_some_iff.mp hs
  obtain ⟨toRight, hputs, hs⟩ := Option.map_eq_some_iff.mp hs
  obtain ⟨rfl, rfl⟩ := Prod.mk.inj hs
  exact ⟨os₁, rfl, hstep, rfl, rfl, htakes, hputs⟩

/-- A step of the right machine, over the wires. -/
theorem network_step_inr {e : E₂}
    (hs : (m₁.network m₂ p₁ p₂ calls answers).step s (.inr e) = some (s', os)) :
    ∃ os₂, os = os₂.map .inr ∧ m₂.step s.right e = some (s'.right, os₂) ∧ s'.left = s.left ∧
      s'.called = s.called ∧ (∀ c ∈ (answers e).toList, c ∈ s.called) ∧
      foldAt Wire.take s.toRight (os₂.filterMap p₂.receives) = some s'.toRight ∧
      foldAt Wire.put s.toLeft (os₂.filterMap p₂.sends) = some s'.toLeft := by
  dsimp only [network] at hs
  split at hs
  · rename_i hcalled
    obtain ⟨⟨t, os₂⟩, hstep, hs⟩ := Option.bind_eq_some_iff.mp hs
    obtain ⟨toRight, htakes, hs⟩ := Option.bind_eq_some_iff.mp hs
    obtain ⟨toLeft, hputs, hs⟩ := Option.map_eq_some_iff.mp hs
    obtain ⟨rfl, rfl⟩ := Prod.mk.inj hs
    exact ⟨os₂, rfl, hstep, rfl, rfl, hcalled, htakes, hputs⟩
  · cases hs

variable {es : List (E₁ ⊕ E₂)}

/-- The left machine runs. -/
theorem Runs.networkLeft (h : (m₁.network m₂ p₁ p₂ calls answers).Runs es s os) :
    m₁.Runs (lefts es) s.left (lefts os) := by
  refine h.project Network.left Sum.getLeft? Sum.getLeft? rfl ?_
  rintro s (e | e) s' os hs
  · obtain ⟨os₁, rfl, hstep, -⟩ := network_step_inl hs
    refine .inr ⟨e, rfl, ?_⟩
    show m₁.step s.left e = some (s'.left, lefts (os₁.map .inl))
    rw [hstep, lefts_inl]
  · obtain ⟨os₂, rfl, -, hleft, -⟩ := network_step_inr hs
    exact .inl ⟨rfl, hleft, lefts_inr os₂⟩

/-- The right machine runs. -/
theorem Runs.networkRight (h : (m₁.network m₂ p₁ p₂ calls answers).Runs es s os) :
    m₂.Runs (rights es) s.right (rights os) := by
  refine h.project Network.right Sum.getRight? Sum.getRight? rfl ?_
  rintro s (e | e) s' os hs
  · obtain ⟨os₁, rfl, -, hright, -⟩ := network_step_inl hs
    exact .inl ⟨rfl, hright, rights_inl os₁⟩
  · obtain ⟨os₂, rfl, hstep, -⟩ := network_step_inr hs
    refine .inr ⟨e, rfl, ?_⟩
    show m₂.step s.right e = some (s'.right, rights (os₂.map .inr))
    rw [hstep, rights_inr]

/-- What the wires of a key have carried. -/
theorem Runs.carriedAt (h : (m₁.network m₂ p₁ p₂ calls answers).Runs es s os) (k : K) :
    Carried (atKey p₁.sends k (lefts os)) (atKey p₂.receives k (rights os)) (s.toRight k) ∧
      Carried (atKey p₂.sends k (rights os)) (atKey p₁.receives k (lefts os))
        (s.toLeft k) := by
  refine h.trace_invariant (I := fun _ s os =>
    Carried (atKey p₁.sends k (lefts os)) (atKey p₂.receives k (rights os)) (s.toRight k) ∧
      Carried (atKey p₂.sends k (rights os)) (atKey p₁.receives k (lefts os))
        (s.toLeft k)) ?_ ?_
  · exact ⟨.nil, .nil⟩
  rintro es s os (e | e) s' os' - ⟨hright, hleft⟩ hs
  · obtain ⟨os₁, rfl, -, -, -, htakes, hputs⟩ := network_step_inl hs
    rw [lefts_append, rights_append, lefts_inl, rights_inl, List.append_nil, atKey_append,
      atKey_append]
    exact ⟨hright.puts (foldAt_apply hputs k), hleft.takes (foldAt_apply htakes k)⟩
  · obtain ⟨os₂, rfl, -, -, -, -, htakes, hputs⟩ := network_step_inr hs
    rw [lefts_append, rights_append, lefts_inr, rights_inr, List.append_nil, atKey_append,
      atKey_append]
    exact ⟨hright.takes (foldAt_apply htakes k), hleft.puts (foldAt_apply hputs k)⟩

/-- What is answered was called. -/
theorem Runs.answered (h : (m₁.network m₂ p₁ p₂ calls answers).Runs es s os) {e : E₂} {c : K × X}
    (he : e ∈ rights es) (hc : answers e = some c) : c ∈ (lefts os).filterMap calls := by
  have hinv := h.trace_invariant (I := fun es s os => s.called = (lefts os).filterMap calls ∧
    ∀ e ∈ rights es, ∀ c ∈ (answers e).toList, c ∈ s.called) ⟨rfl, nofun⟩ ?_
  · exact hinv.1 ▸ hinv.2 e he c (by simp [hc])
  rintro es s os (e | e) s' os' - ⟨hcalled, hans⟩ hs
  · obtain ⟨os₁, rfl, -, -, hcalls, -⟩ := network_step_inl hs
    rw [hcalls, lefts_append, lefts_inl, List.filterMap_append, hcalled, rights_append]
    refine ⟨rfl, fun e he c hc => List.mem_append_left _ (hcalled ▸ hans e ?_ c hc)⟩
    exact (List.mem_append.mp he).resolve_right (by simp [rights])
  · obtain ⟨os₂, rfl, -, -, hcalls, hnew, -⟩ := network_step_inr hs
    rw [hcalls, lefts_append, lefts_inr, List.append_nil, rights_append]
    refine ⟨hcalled, fun e' he c hc => ?_⟩
    rcases List.mem_append.mp he with he | he
    · exact hans e' he c hc
    · obtain rfl : e' = e := by simpa [rights] using he
      exact hnew c hc

end Machine
