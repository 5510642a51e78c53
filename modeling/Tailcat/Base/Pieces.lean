import Mathlib.Tactic

/-!
# Texts cut into pieces

A text is cut at every separator, as `find` and `substr` in a loop cut it. There are two such loops.
One goes on behind every separator, so that there is a last piece behind the last of them, even if
it is empty. The other one stops where nothing is left, so that a separator at the end ends the last
piece. Both run a body on one piece after another, which may throw.

## Main definitions

* `Pieces.find`, `Pieces.substr`: finding an element from a position on, and a part of a text
* `Pieces.each`: the loop over the pieces between separators
* `Pieces.lines`, `Pieces.eachLine`: the pieces that a separator ends, and the loop over them

## Main results

* `Pieces.each_eq`, `Pieces.eachLine_eq`: the loops run over `List.splitOn` and `Pieces.lines`
-/

namespace Pieces

variable {α σ ε : Type} [DecidableEq α]

/-- The first place from `start` on at which there is `sep`. -/
def find (sep : α) (text : List α) (start : ℕ) : Option ℕ :=
  ((text.drop start).findIdx? (· = sep)).map (start + ·)

/-- At most `count` elements from `start` on. -/
def substr (text : List α) (start count : ℕ) : List α := (text.drop start).take count

/-- There is no separator, or the first one is behind what has none. -/
theorem find_cases (sep : α) (text : List α) (start : ℕ) :
    (find sep text start = none ∧ sep ∉ text.drop start) ∨
      ∃ piece rest, text.drop start = piece ++ sep :: rest ∧ sep ∉ piece ∧
        find sep text start = some (start + piece.length) := by
  unfold find
  cases h : (text.drop start).findIdx? (· = sep) with
  | none =>
    refine .inl ⟨rfl, fun hm => ?_⟩
    simpa using List.findIdx?_eq_none_iff.mp h sep hm
  | some i =>
    obtain ⟨hi, hsep, hbefore⟩ := List.findIdx?_eq_some_iff_getElem.mp h
    refine .inr ⟨(text.drop start).take i, (text.drop start).drop (i + 1), ?_, fun hm => ?_, ?_⟩
    · rw [← of_decide_eq_true hsep, List.getElem_cons_drop, List.take_append_drop]
    · obtain ⟨j, hj, hget⟩ := List.mem_iff_getElem.mp hm
      rw [List.length_take] at hj
      rw [List.getElem_take] at hget
      have hij := hbefore j (by omega)
      simp [hget] at hij
    · rw [List.length_take, Nat.min_eq_left hi.le]
      rfl

theorem find_lt {sep : α} {text : List α} {start i : ℕ} (h : find sep text start = some i) :
    start ≤ i ∧ i < text.length := by
  rcases find_cases sep text start with ⟨hn, -⟩ | ⟨piece, rest, htext, -, hs⟩
  · rw [hn] at h
    cases h
  · obtain rfl := Option.some.inj (hs.symm.trans h)
    have hlen := congrArg List.length htext
    rw [List.length_drop, List.length_append, List.length_cons] at hlen
    omega

theorem find_of_notMem {sep : α} {text : List α} (h : sep ∉ text) : find sep text 0 = none := by
  rcases find_cases sep text 0 with ⟨hfind, -⟩ | ⟨piece, rest, htext, -, -⟩
  · exact hfind
  · refine absurd ?_ h
    rw [← List.drop_zero (l := text), htext]
    simp

/-- What comes before the first separator, and what comes behind it. -/
theorem find_append_cons {sep : α} {piece : List α} (h : sep ∉ piece) (rest : List α) :
    find sep (piece ++ sep :: rest) 0 = some piece.length := by
  have hpiece : piece.findIdx? (· = sep) = none :=
    List.findIdx?_eq_none_iff.mpr fun x hx => decide_eq_false fun hsep => h (hsep ▸ hx)
  unfold find
  rw [List.drop_zero, List.findIdx?_append, hpiece]
  simp [List.findIdx?_cons]

/-! ## Pieces between separators -/

/-- The loop over the pieces from `start` on. -/
def each (sep : α) (body : σ → List α → Except ε σ) (text : List α) (start : ℕ) (s : σ) :
    Except ε σ :=
  if start ≤ text.length then
    match h : find sep text start with
    | none => body s (substr text start (text.length - start))
    | some i => do
      let s ← body s (substr text start (i - start))
      each sep body text (i + 1) s
  else
    .ok s
termination_by text.length + 1 - start
decreasing_by
  have := find_lt h
  omega

/-- **The loop over pieces** runs over the text as `List.splitOn` splits it. -/
theorem each_eq (sep : α) (body : σ → List α → Except ε σ) (text : List α) {start : ℕ} (s : σ)
    (h : start ≤ text.length) :
    each sep body text start s = ((text.drop start).splitOn sep).foldlM body s := by
  -- The loop goes on behind the first separator, with fewer elements left.
  induction hn : text.length + 1 - start using Nat.strong_induction_on generalizing start s with
  | _ n ih =>
    rw [each, if_pos h]
    rcases find_cases sep text start with ⟨hfind, hmem⟩ | ⟨piece, rest, htext, hmem, hfind⟩
    · rw [List.splitOn_eq_singleton hmem, List.foldlM_cons]
      split
      · rw [substr, ← List.length_drop, List.take_length]
        exact (bind_pure _).symm
      · rename_i i hi
        cases hfind.symm.trans hi
    · have hlt := (find_lt hfind).2
      have hrest : text.drop (start + piece.length + 1) = rest := by
        rw [Nat.add_assoc, ← List.drop_drop, htext]
        simp
      rw [htext, List.splitOn_append_cons_self_of_not_mem hmem, List.foldlM_cons]
      split
      · rename_i hi
        cases hfind.symm.trans hi
      · rename_i i hi
        obtain rfl := Option.some.inj (hfind.symm.trans hi)
        rw [substr, htext, Nat.add_sub_cancel_left, List.take_left]
        congr 1
        funext t
        rw [ih _ (by omega) t (by omega) rfl, hrest]

/-- What is in a piece is in the text. -/
theorem mem_of_mem_splitOn {sep x : α} {text piece : List α} (hpiece : piece ∈ text.splitOn sep)
    (hx : x ∈ piece) : x ∈ text := by
  induction text generalizing piece with
  | nil =>
    rw [List.splitOn_nil, List.mem_singleton] at hpiece
    exact hpiece ▸ hx
  | cons y text ih =>
    rw [List.splitOn_cons_eq_if_modifyHead] at hpiece
    obtain ⟨first, rest, hsplit⟩ := List.exists_cons_of_ne_nil (List.splitOn_ne_nil sep text)
    rw [hsplit] at hpiece ih
    split_ifs at hpiece with hsep
    · rcases List.mem_cons.mp hpiece with rfl | hmem
      · cases hx
      · exact List.mem_cons_of_mem y (ih hmem hx)
    · rw [List.modifyHead_cons] at hpiece
      rcases List.mem_cons.mp hpiece with rfl | hmem
      · rcases List.mem_cons.mp hx with rfl | hx
        · exact List.mem_cons_self
        · exact List.mem_cons_of_mem y (ih List.mem_cons_self hx)
      · exact List.mem_cons_of_mem y (ih (List.mem_cons_of_mem first hmem) hx)

/-! ## Lines -/

/-- The pieces that a separator ends, or the end of the text. -/
def lines (sep : α) (text : List α) : List (List α) :=
  if text.getLast? = some sep ∨ text = [] then (text.splitOn sep).dropLast else text.splitOn sep

/-- The loop over the lines. -/
def eachLine (sep : α) (body : σ → List α → Except ε σ) (text : List α) (s : σ) : Except ε σ :=
  if text = [] then
    .ok s
  else
    match h : find sep text 0 with
    | none => body s (substr text 0 text.length)
    | some i => do
      let s ← body s (substr text 0 i)
      eachLine sep body (text.drop (i + 1)) s
termination_by text.length
decreasing_by
  have := find_lt h
  rw [List.length_drop]
  omega

@[simp] theorem lines_nil (sep : α) : lines sep [] = [] := by simp [lines]

theorem lines_of_not_mem {sep : α} {text : List α} (hne : text ≠ []) (h : sep ∉ text) :
    lines sep text = [text] := by
  rw [lines, if_neg, List.splitOn_eq_singleton h]
  rintro (hlast | hnil)
  · exact h (List.mem_of_getLast? hlast)
  · exact hne hnil

theorem lines_append_cons {sep : α} {line : List α} (rest : List α) (h : sep ∉ line) :
    lines sep (line ++ sep :: rest) = line :: lines sep rest := by
  unfold lines
  rw [List.splitOn_append_cons_self_of_not_mem h]
  cases rest with
  | nil => simp
  | cons x rest =>
    have hlast : (line ++ sep :: x :: rest).getLast? = (x :: rest).getLast? := by
      rw [List.append_cons, List.getLast?_append_cons]
    rw [hlast]
    simp only [List.append_eq_nil_iff, reduceCtorEq, and_false, or_false]
    split
    · exact List.dropLast_cons_of_ne_nil (List.splitOn_ne_nil sep _)
    · rfl

/-- **The loop over lines** runs over the lines. -/
theorem eachLine_eq (sep : α) (body : σ → List α → Except ε σ) (text : List α) (s : σ) :
    eachLine sep body text s = (lines sep text).foldlM body s := by
  -- The first line is taken off the text.
  induction hn : text.length using Nat.strong_induction_on generalizing text s with
  | _ n ih =>
    rw [eachLine]
    by_cases hnil : text = []
    · subst hnil
      simp
      rfl
    rw [if_neg hnil]
    rcases find_cases sep text 0 with ⟨hfind, hmem⟩ | ⟨line, rest, htext, hmem, hfind⟩
    · rw [List.drop_zero] at hmem
      rw [lines_of_not_mem hnil hmem, List.foldlM_cons]
      split
      · rw [substr, List.drop_zero, List.take_length]
        exact (bind_pure _).symm
      · rename_i i hi
        cases hfind.symm.trans hi
    · rw [List.drop_zero] at htext
      rw [Nat.zero_add] at hfind
      subst htext
      rw [lines_append_cons rest hmem, List.foldlM_cons]
      split
      · rename_i hi
        cases hfind.symm.trans hi
      · rename_i i hi
        obtain rfl := Option.some.inj (hfind.symm.trans hi)
        rw [substr, List.drop_zero, List.take_left]
        congr 1
        funext t
        have hrest : (line ++ sep :: rest).drop (line.length + 1) = rest := by simp
        rw [hrest]
        refine ih _ ?_ rest t rfl
        rw [← hn, List.length_append, List.length_cons]
        omega

end Pieces
