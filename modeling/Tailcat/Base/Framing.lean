import Mathlib.Tactic

/-!
# Framing

Items are sent one after another as octets, and a receiver takes them off the front of what it has
received so far. When a complete encoding is recognised whatever follows it, and no proper prefix
of one is taken for an item, the receiver returns the items in order, wherever the pieces it
receives are cut.

## Main definitions

* `Framing`: encodings of items, and the function that takes an item off a buffer
* `Framing.stream`: the encodings of some items, one after another
* `Framing.Partway`: where the receiver of a list of items stands

## Main results

* `Partway.receive`: a received piece goes behind the buffer
* `Partway.take`: the buffer yields the next item, or needs more octets
-/

/-- Encodings of the valid items of `α` as lists over `β`, and the function that takes an item off
the front of a buffer, needs more of it, or throws. -/
structure Framing (ε α β : Type) where
  valid : α → Prop
  enc : α → List β
  take : List β → Except ε (Option (α × List β))
  take_nil : take [] = .ok none
  take_enc : ∀ a, valid a → ∀ rest, take (enc a ++ rest) = .ok (some (a, rest))
  take_short : ∀ a, valid a → ∀ b, b <+: enc a → b ≠ enc a → take b = .ok none

namespace Framing

variable {ε α β : Type} (F : Framing ε α β)

/-- The encodings of the items, one after another. -/
def stream (items : List α) : List β := items.flatMap F.enc

@[simp] theorem stream_nil : F.stream [] = [] := rfl

@[simp] theorem stream_cons (a : α) (items : List α) :
    F.stream (a :: items) = F.enc a ++ F.stream items := List.flatMap_cons

@[simp] theorem stream_append (items items' : List α) :
    F.stream (items ++ items') = F.stream items ++ F.stream items' := List.flatMap_append

/-- The receiver of `items` has received `received`, returned `returned` and holds `buffer`. -/
structure Partway (items returned : List α) (received buffer : List β) : Prop where
  returned_prefix : returned <+: items
  received_eq : received = F.stream returned ++ buffer
  received_prefix : received <+: F.stream items

variable {F} {items returned : List α} {received buffer : List β}

theorem Partway.start : F.Partway items [] [] [] :=
  ⟨List.nil_prefix, rfl, List.nil_prefix⟩

/-- A received piece goes behind the buffer. -/
theorem Partway.receive {piece : List β} (h : F.Partway items returned received buffer)
    (hp : received ++ piece <+: F.stream items) :
    F.Partway items returned (received ++ piece) (buffer ++ piece) :=
  ⟨h.returned_prefix, by rw [h.received_eq, List.append_assoc], hp⟩

/-- The buffer yields the next item, or it needs more octets; when there are no more, everything
has been returned. -/
theorem Partway.take (hv : ∀ a ∈ items, F.valid a) (h : F.Partway items returned received buffer) :
    (F.take buffer = .ok none ∧ (received = F.stream items → returned = items)) ∨
      ∃ a rest, F.take buffer = .ok (some (a, rest)) ∧
        F.Partway items (returned ++ [a]) received rest := by
  obtain ⟨left, rfl⟩ := h.returned_prefix
  have hs := h.received_prefix
  rw [h.received_eq, stream_append] at hs
  have hb : buffer <+: F.stream left := (List.prefix_append_right_inj _).mp hs
  cases left with
  | nil =>
    obtain rfl : buffer = [] := List.prefix_nil.mp hb
    exact .inl ⟨F.take_nil, by simp⟩
  | cons a left =>
    have ha : F.valid a := hv a (by simp)
    rw [stream_cons] at hb
    -- Either the whole encoding of the next item has arrived, or a proper prefix of it.
    by_cases he : F.enc a <+: buffer
    · obtain ⟨rest, rfl⟩ := he
      refine .inr ⟨a, rest, F.take_enc a ha rest, ⟨left, by simp⟩, ?_, h.received_prefix⟩
      rw [h.received_eq]
      simp
    · have hp : buffer <+: F.enc a :=
        (List.prefix_or_prefix_of_prefix hb (List.prefix_append _ _)).resolve_right he
      have hne : buffer ≠ F.enc a := by
        rintro rfl
        exact he (List.prefix_refl _)
      refine .inl ⟨F.take_short a ha buffer hp hne, fun hall => ?_⟩
      rw [h.received_eq, stream_append] at hall
      have hlen := congrArg List.length (List.append_cancel_left hall)
      rw [stream_cons, List.length_append] at hlen
      exact absurd (hp.eq_of_length_le (by omega)) hne

end Framing
