import Mathlib.Tactic

/-!
# Items on a wire

Items are put on a wire one after another, each from its front, and an attempt at one may stop
before the item is complete. The wire carries whole items, up to the last one, as long as nothing
follows an item that was broken off.

## Main definitions

* `Attempt`: an item, and how much of it is on the wire
* `Attempt.wire`: what is on the wire
* `Attempt.Intact`: nothing follows an item that was broken off

## Main results

* `Attempt.Intact.wire_prefix`: an intact wire carries a prefix of whole items
-/

/-- An item, and how many of its elements are on the wire. -/
structure Attempt (β : Type) where
  item : List β
  count : ℕ
  count_le : count ≤ item.length

namespace Attempt

variable {β : Type}

/-- What is on the wire of an item. -/
def written (a : Attempt β) : List β := a.item.take a.count

/-- Some of the item is on the wire, but not all. -/
def BrokenOff (a : Attempt β) : Prop := 0 < a.count ∧ a.count < a.item.length

instance (a : Attempt β) : Decidable a.BrokenOff := inferInstanceAs (Decidable (_ ∧ _))

/-- The attempt at an item before anything of it is on the wire. -/
def start (item : List β) : Attempt β := ⟨item, 0, Nat.zero_le _⟩

/-- What is on the wire after some attempts, of which the last one comes first. -/
def wire : List (Attempt β) → List β
  | [] => []
  | a :: before => wire before ++ a.written

/-- Nothing follows an item that was broken off. The last attempt comes first. -/
def Intact : List (Attempt β) → Prop
  | [] => True
  | a :: before => (0 < a.count → ∀ b ∈ before, ¬ b.BrokenOff) ∧ Intact before

instance : (as : List (Attempt β)) → Decidable (Intact as)
  | [] => inferInstanceAs (Decidable True)
  | _ :: before =>
    have := instDecidableIntact before
    inferInstanceAs (Decidable (_ ∧ _))

/-- No attempt but the last is broken off. -/
theorem intact_of_tail {as : List (Attempt β)} (h : ∀ a ∈ as.tail, ¬ a.BrokenOff) :
    Intact as := by
  induction as with
  | nil => trivial
  | cons a before ih =>
    exact ⟨fun _ => h, ih fun b hb => h b (List.mem_of_mem_tail hb)⟩

/-- The items that are attempted, in order. -/
def items (as : List (Attempt β)) : List (List β) := (as.map item).reverse

@[simp] theorem items_cons (a : Attempt β) (before : List (Attempt β)) :
    items (a :: before) = items before ++ [a.item] := by
  simp [items]

/-- Where no attempt was broken off, the wire carries the complete items. -/
theorem wire_of_complete {as : List (Attempt β)} (h : ∀ a ∈ as, ¬ a.BrokenOff) :
    ∃ complete : List (List β), complete.Sublist (items as) ∧ wire as = complete.flatten := by
  induction as with
  | nil => exact ⟨[], .slnil, rfl⟩
  | cons a before ih =>
    obtain ⟨complete, hs, hw⟩ := ih fun b hb => h b (List.mem_cons_of_mem a hb)
    rw [items_cons, wire, hw]
    -- The last item is on the wire as a whole, or not at all.
    by_cases hc : 0 < a.count
    · have ha : a.item.length ≤ a.count := by
        have hb := h a List.mem_cons_self
        unfold BrokenOff at hb
        omega
      refine ⟨complete ++ [a.item], hs.append (.refl _), ?_⟩
      rw [written, List.take_of_length_le ha, List.flatten_append, List.flatten_singleton]
    · refine ⟨complete, hs.trans (List.sublist_append_left _ _), ?_⟩
      rw [written, Nat.eq_zero_of_not_pos hc, List.take_zero, List.append_nil]

/-- **An intact wire** carries a prefix of whole items, in the order of the attempts. -/
theorem Intact.wire_prefix {as : List (Attempt β)} (h : Intact as) :
    ∃ complete : List (List β), complete.Sublist (items as) ∧ wire as <+: complete.flatten := by
  induction as with
  | nil => exact ⟨[], .slnil, List.prefix_refl _⟩
  | cons a before ih =>
    by_cases hc : 0 < a.count
    · -- Everything before the last item is complete.
      obtain ⟨complete, hs, hw⟩ := wire_of_complete (h.1 hc)
      refine ⟨complete ++ [a.item], ?_, ?_⟩
      · rw [items_cons]
        exact hs.append (.refl _)
      · rw [wire, hw, List.flatten_append, List.flatten_singleton]
        exact (List.prefix_append_right_inj _).mpr (List.take_prefix _ _)
    · obtain ⟨complete, hs, hw⟩ := ih h.2
      refine ⟨complete, ?_, ?_⟩
      · rw [items_cons]
        exact hs.trans (List.sublist_append_left _ _)
      · rwa [wire, written, Nat.eq_zero_of_not_pos hc, List.take_zero, List.append_nil]

end Attempt
