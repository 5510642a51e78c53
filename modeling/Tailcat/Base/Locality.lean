import Mathlib.Tactic

/-!
# Operations on one component

A state is seen through its components. An operation is local to a component when it leaves the
others as they are and looks at this one only. Operations that are local to different components can
be done in either order.

## Main definitions

* `LocalAt view I i f`: on states that satisfy `I`, the operation `f` is local to the component `i`

## Main results

* `LocalAt.comm`: local operations at different components commute
-/

variable {S V ι O O' : Type*} {view : ι → S → V} {I : S → Prop} {i j : ι} {f : S → S × O}
  {g : S → S × O'}

/-- On states that satisfy `I`, which it keeps, `f` changes the component `i` only; what this
becomes, and what `f` returns, depends on this component only. -/
structure LocalAt (view : ι → S → V) (I : S → Prop) (i : ι) (f : S → S × O) : Prop where
  keeps : ∀ s, I s → I (f s).1
  frame : ∀ s, I s → ∀ j, j ≠ i → view j (f s).1 = view j s
  same : ∀ s t, I s → I t → view i s = view i t →
    view i (f s).1 = view i (f t).1 ∧ (f s).2 = (f t).2

/-- What an operation returns does not depend on what another one did elsewhere before. -/
theorem LocalAt.result_eq (hf : LocalAt view I i f) (hg : LocalAt view I j g) (hij : i ≠ j) {s : S}
    (hs : I s) : view i (f (g s).1).1 = view i (f s).1 ∧ (f (g s).1).2 = (f s).2 :=
  hf.same (g s).1 s (hg.keeps s hs) hs (hg.frame s hs i hij)

/-- **Operations on different components commute**, and return the same in either order. -/
theorem LocalAt.comm (hext : ∀ s t, (∀ k, view k s = view k t) → s = t) (hf : LocalAt view I i f)
    (hg : LocalAt view I j g) (hij : i ≠ j) {s : S} (hs : I s) :
    (g (f s).1).1 = (f (g s).1).1 ∧ (g (f s).1).2 = (g s).2 ∧ (f (g s).1).2 = (f s).2 := by
  obtain ⟨hfview, hfresult⟩ := hf.result_eq hg hij hs
  obtain ⟨hgview, hgresult⟩ := hg.result_eq hf hij.symm hs
  refine ⟨hext _ _ fun k => ?_, hgresult, hfresult⟩
  have hfs := hf.keeps s hs
  have hgs := hg.keeps s hs
  -- Each component is changed by one of the two at most.
  by_cases hki : k = i
  · subst hki
    rw [hg.frame _ hfs k hij, hfview]
  by_cases hkj : k = j
  · subst hkj
    rw [hgview, hf.frame _ hgs k hki]
  · rw [hg.frame _ hfs k hkj, hf.frame _ hs k hki, hf.frame _ hgs k hki, hg.frame _ hs k hkj]
