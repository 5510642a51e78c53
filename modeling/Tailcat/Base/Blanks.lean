import Mathlib.Tactic
import Mathlib.Data.List.DropRight

/-!
# Words between blanks

A text whose elements are blank or not. The words are its pieces without blanks. They are read from
the front, one after another, and blanks around the text make no difference to them.

## Main definitions

* `Blanks.trim`: a text without the blanks around it
* `Blanks.words`: the words of a text
* `Blanks.extract`: reading a word from the front

## Main results

* `Blanks.words_of_extract`: reading from the front gives the words
* `Blanks.trim_spec`: what is cut off is blank
* `Blanks.words_append_left`, `Blanks.words_append_right`, `Blanks.find?_around`: blanks around a
  text
-/

namespace Blanks

variable {α : Type} {p : α → Bool} {text : List α}

/-- A text without the blanks around it. -/
def trim (p : α → Bool) (text : List α) : List α := (text.dropWhile p).rdropWhile p

/-- The first word and what is behind it. The word is empty where there is none. -/
def extract (p : α → Bool) (text : List α) : List α × List α :=
  let rest := text.dropWhile p
  (rest.takeWhile fun x => ! p x, rest.dropWhile fun x => ! p x)

/-! ## Words -/

/-- The pieces between blanks. -/
def words (p : α → Bool) (text : List α) : List (List α) := (text.splitOnP p).filter (· ≠ [])

@[simp] theorem words_nil : words p [] = [] := by
  simp [words, List.splitOnP_nil]

/-- **Words end at blanks.** -/
theorem words_append_cons {x : α} (hx : p x) (before after : List α) :
    words p (before ++ x :: after) = words p before ++ words p after := by
  rw [words, List.splitOnP_append_cons before after hx, List.filter_append]
  rfl

theorem words_cons {x : α} (hx : p x) (text : List α) : words p (x :: text) = words p text := by
  simpa using words_append_cons hx [] text

theorem words_append_left {before : List α} (h : ∀ x ∈ before, p x) (text : List α) :
    words p (before ++ text) = words p text := by
  induction before with
  | nil => rfl
  | cons x before ih =>
    rw [List.cons_append, words_cons (h x (by simp)), ih fun y hy => h y (by simp [hy])]

theorem words_of_forall_blank (h : ∀ x ∈ text, p x) : words p text = [] := by
  simpa using words_append_left h []

theorem words_append_right {after : List α} (h : ∀ x ∈ after, p x) (text : List α) :
    words p (text ++ after) = words p text := by
  cases after with
  | nil => rw [List.append_nil]
  | cons x after =>
    have hnil : words p after = [] := words_of_forall_blank fun y hy => h y (by simp [hy])
    rw [words_append_cons (h x (by simp)), hnil, List.append_nil]

theorem words_of_forall_not {word : List α} (hne : word ≠ []) (h : ∀ x ∈ word, p x = false) :
    words p word = [word] := by
  rw [words, List.splitOnP_eq_singleton h]
  simp [hne]

/-- Words are read one after another. -/
theorem words_of_extract (p : α → Bool) (text : List α) : words p text =
    if (extract p text).1 = [] then [] else (extract p text).1 :: words p (extract p text).2 := by
  have hblank : ∀ x ∈ text.takeWhile p, p x := fun x hx => List.mem_takeWhile_imp hx
  have hwords : words p text = words p (text.dropWhile p) := by
    conv_lhs => rw [← List.takeWhile_append_dropWhile (p := p) (l := text)]
    exact words_append_left hblank _
  rw [hwords]
  unfold extract
  dsimp only
  generalize htext : text.dropWhile p = rest
  have hword : ∀ x ∈ rest.takeWhile fun x => ! p x, p x = false := by
    intro x hx
    simpa using List.mem_takeWhile_imp hx
  have hsplit : (rest.takeWhile fun x => ! p x) ++ (rest.dropWhile fun x => ! p x) = rest :=
    List.takeWhile_append_dropWhile
  split_ifs with hempty
  · -- What is behind the leading blanks does not begin with a blank.
    rw [hempty, List.nil_append] at hsplit
    cases rest with
    | nil => rfl
    | cons x rest =>
      have hx : p x = false := by
        have hne : text.dropWhile p ≠ [] := by simp [htext]
        have hhead := List.head_dropWhile_not p hne
        simpa [htext] using hhead
      simp [hx] at hempty
  · rcases hafter : rest.dropWhile fun x => ! p x with _ | ⟨x, after⟩
    · rw [hafter, List.append_nil] at hsplit
      conv_lhs => rw [← hsplit]
      rw [words_nil, words_of_forall_not hempty hword]
    · have hx : p x := by
        have hne : (rest.dropWhile fun x => ! p x) ≠ [] := by simp [hafter]
        have hhead := List.head_dropWhile_not (fun x => ! p x) hne
        simpa [hafter] using hhead
      rw [hafter] at hsplit
      conv_lhs => rw [← hsplit]
      rw [words_append_cons hx, words_of_forall_not hempty hword, words_cons hx]
      rfl

/-! ## What is around a text -/

/-- What is cut off is blank. -/
theorem trim_spec (p : α → Bool) (text : List α) : ∃ before after,
    text = before ++ trim p text ++ after ∧ (∀ x ∈ before, p x) ∧ ∀ x ∈ after, p x := by
  refine ⟨text.takeWhile p, (text.dropWhile p).rtakeWhile p, ?_, ?_, ?_⟩
  · rw [trim, List.append_assoc, List.rdropWhile_append_rtakeWhile,
      List.takeWhile_append_dropWhile]
  · exact fun x hx => List.mem_takeWhile_imp hx
  · exact fun x hx => List.mem_rtakeWhile_imp hx

/-- What is left does not begin with a blank. -/
theorem head_trim {x : α} {rest : List α} (h : trim p text = x :: rest) : p x = false := by
  have hprefix : x :: rest <+: text.dropWhile p := h ▸ List.rdropWhile_prefix p _
  obtain ⟨after, hafter⟩ := hprefix
  have hne : text.dropWhile p ≠ [] := by simp [← hafter]
  have hhead := List.head_dropWhile_not p hne
  simpa [← hafter] using hhead

theorem trim_eq_nil : trim p text = [] ↔ ∀ x ∈ text, p x := by
  constructor
  · intro h
    obtain ⟨before, after, htext, hbefore, hafter⟩ := trim_spec p text
    rw [h, List.append_nil] at htext
    intro x hx
    rw [htext] at hx
    exact (List.mem_append.mp hx).elim (hbefore x) (hafter x)
  · intro h
    rw [trim, List.dropWhile_eq_nil_iff.mpr h]
    rfl

/-- Blanks around a text do not change which of its elements is the first that is not blank. -/
theorem find?_around {before after : List α} (hbefore : ∀ x ∈ before, p x)
    (hafter : ∀ x ∈ after, p x) (text : List α) :
    (before ++ text ++ after).find? (fun x => ! p x) = text.find? fun x => ! p x := by
  have hnone : ∀ l : List α, (∀ x ∈ l, p x) → l.find? (fun x => ! p x) = none := by
    intro l hl
    rw [List.find?_eq_none]
    intro x hx
    simp [hl x hx]
  rw [List.find?_append, List.find?_append, hnone before hbefore, hnone after hafter,
    Option.none_or, Option.or_none]

end Blanks
