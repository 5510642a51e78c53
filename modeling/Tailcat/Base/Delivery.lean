import Tailcat.Base.Pipe

/-!
# Sinks that are closed at any time

A pipe closes its sink when the source has ended and nothing is under way. A program may close the
sink at other times, too, and then what is under way is given up. As long as it moves pieces from
the source to the sink and does nothing else with them, what is given up is what is under way when
the sink is closed, and what the source gives after that.

## Main definitions

* `Conserves left t left'`: a trace moves pieces, with `left` under way before it and `left'` after

## Main results

* `Conserves.append`: traces one after the other
* `complete_append_of_closing`, `complete_append_of_mem`: what completeness asks of one more step
-/

section Splits

variable {β : Type*} {t t' before after : List β} {a : β}

/-- Where an element stands that is not in the first of two lists. -/
theorem exists_split_right (h : a ∉ t) (he : t ++ t' = before ++ a :: after) :
    ∃ before', before = t ++ before' ∧ t' = before' ++ a :: after := by
  rcases List.append_eq_append_iff.mp he with ⟨before', hb, ht'⟩ | ⟨after', ht, ht'⟩
  · exact ⟨before', hb, ht'⟩
  · cases after' with
    | nil => exact ⟨[], by simpa using ht.symm, ht'.symm⟩
    | cons b after' =>
      obtain ⟨rfl, -⟩ := List.cons.inj ht'
      exact absurd (ht ▸ List.mem_append_right _ List.mem_cons_self) h

/-- Where an element stands that is not in the second of two lists. -/
theorem exists_split_left (h : a ∉ t') (he : t ++ t' = before ++ a :: after) :
    ∃ after', t = before ++ a :: after' ∧ after = after' ++ t' := by
  rcases List.append_eq_append_iff.mp he with ⟨before', -, ht'⟩ | ⟨after', ht, ht'⟩
  · exact absurd (ht' ▸ List.mem_append_right _ List.mem_cons_self) h
  · cases after' with
    | nil =>
      rw [List.nil_append] at ht'
      exact absurd (ht' ▸ List.mem_cons_self) h
    | cons b after' =>
      obtain ⟨rfl, hafter⟩ := List.cons.inj ht'
      exact ⟨after', ht, hafter⟩

end Splits

variable {α : Type*}

/-- Nothing is lost, added or reordered, from `left` under way to `left'` under way; and the sink is
closed at the end of the trace, if at all. -/
structure Conserves (left : List α) (t : List (PipeAction α)) (left' : List α) : Prop where
  conserved : left ++ pushed t = given t ++ left'
  last : ∀ before after, t = before ++ .sinkEnd :: after → after = []

theorem Conserves.nil (left : List α) : Conserves left [] left :=
  ⟨by simp, fun before after h => by simp at h⟩

theorem Conserves.singleton {left left' : List α} {a : PipeAction α}
    (h : left ++ pushed [a] = given [a] ++ left') : Conserves left [a] left' := by
  refine ⟨h, fun before after he => ?_⟩
  rcases List.cons_eq_append_iff.mp he with ⟨-, he⟩ | ⟨before', -, he⟩
  · exact (List.cons.inj he).2
  · simp at he

/-- Of two traces one after the other, the first one leaves the sink open. -/
theorem Conserves.append {left left' left'' : List α} {t t' : List (PipeAction α)}
    (h : Conserves left t left') (hopen : .sinkEnd ∉ t) (h' : Conserves left' t' left'') :
    Conserves left (t ++ t') left'' := by
  refine ⟨?_, fun before after he => ?_⟩
  · rw [pushed_append, given_append, ← List.append_assoc, h.conserved, List.append_assoc,
      h'.conserved, List.append_assoc]
  · obtain ⟨before', -, ht'⟩ := exists_split_right hopen he
    exact h'.last before' after ht'

theorem complete_of_not_mem {t : List (PipeAction α)} (h : .sinkEnd ∉ t) : Complete t := by
  rintro before after rfl
  exact absurd (List.mem_append_right _ List.mem_cons_self) h

/-- **After the sink was closed**: a trace stays complete just if the source gives nothing more. -/
theorem complete_append_of_mem {t t' : List (PipeAction α)} (hmem : .sinkEnd ∈ t)
    (hgiven : given t <+: pushed t) (hopen : .sinkEnd ∉ t') :
    Complete (t ++ t') ↔ Complete t ∧ pushed t' = [] := by
  constructor
  · intro h
    obtain ⟨before, after, rfl⟩ := List.append_of_mem hmem
    have hall := h before (after ++ t') (by simp)
    -- The sink has got no more than the source gave before, which is all that it ever gives.
    have hnone : pushed t' = [] := by
      have hle := hgiven.length_le
      have heq := congrArg List.length hall
      rw [pushed_append, List.length_append] at heq
      rw [given_append, List.length_append] at hle
      exact List.length_eq_zero_iff.mp (by omega)
    refine ⟨fun before' after' he => ?_, hnone⟩
    have := h before' (after' ++ t') (by rw [he]; simp)
    rwa [pushed_append, hnone, List.append_nil] at this
  · rintro ⟨h, hnone⟩ before after he
    obtain ⟨after', ht, -⟩ := exists_split_left hopen he
    rw [pushed_append, hnone, List.append_nil]
    exact h before after' ht

/-- **Closing the sink**: the trace is complete just if nothing is left under way. -/
theorem complete_append_of_closing {t t' : List (PipeAction α)} {left left' : List α}
    (ht : pushed t = given t ++ left) (hopen : .sinkEnd ∉ t) (h : Conserves left t' left')
    (hmem : .sinkEnd ∈ t') : Complete (t ++ t') ↔ left' = [] := by
  have hall : pushed (t ++ t') = given (t ++ t') ++ left' := by
    rw [pushed_append, given_append, ht, List.append_assoc, h.conserved, List.append_assoc]
  -- Closing comes last: the sink has got before it what it gets in the whole trace.
  have hgiven : ∀ before after, t ++ t' = before ++ .sinkEnd :: after →
      given before = given (t ++ t') := by
    intro before after he
    obtain ⟨before', -, ht'⟩ := exists_split_right hopen he
    obtain rfl := h.last before' after ht'
    rw [he, given_append]
    exact (List.append_nil _).symm
  constructor
  · intro hc
    obtain ⟨before, after, he⟩ := List.append_of_mem (List.mem_append_right t hmem)
    have hboth := hc before after he
    rw [hgiven before after he, hall] at hboth
    simpa using hboth
  · rintro rfl before after he
    rw [hgiven before after he, hall, List.append_nil]
