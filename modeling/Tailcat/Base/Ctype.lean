import Mathlib.Data.List.TakeWhile
import Mathlib.Tactic
import Tailcat.Base.Octets

/-!
# Characters and numbers of the C library

The classes of octets in the C locale, and how `strtoul` reads a decimal number in 64 bits: behind
blanks and a sign, as many digits as there are. Under a minus sign the number is negated modulo 2⁶⁴.

## Main definitions

* `isSpace`, `isDigit`, `isAlnum`, `toLower`, `cStr`: classes of octets, letters in small case, and
  C strings
* `decimal`: the number that digits spell
* `strtoul`: reading a number
* `IsNumber`: blanks, a sign, digits, and what is behind them

## Main results

* `IsNumber.strtoul_eq`: how a number is read
* `strtoul_cases`: nothing else is read
-/

namespace Ctype

/-- `std::isspace`: the space, and the octets from the tab to the carriage return. -/
def isSpace (c : UInt8) : Bool := c == 0x20 || (0x09 ≤ c && c ≤ 0x0d)

/-- `std::isdigit`. -/
def isDigit (c : UInt8) : Bool := 0x30 ≤ c && c ≤ 0x39

/-- `std::isalnum`. -/
def isAlnum (c : UInt8) : Bool :=
  isDigit c || (0x41 ≤ c && c ≤ 0x5a) || (0x61 ≤ c && c ≤ 0x7a)

/-- `std::tolower`. -/
def toLower (c : UInt8) : UInt8 := if 0x41 ≤ c ∧ c ≤ 0x5a then c + 0x20 else c

/-- What a null octet leaves of a text. -/
def cStr (text : List UInt8) : List UInt8 := text.takeWhile (· ≠ 0)

/-- The number that decimal digits spell. -/
def decimal (digits : List UInt8) : ℕ := digits.foldl (fun n c => 10 * n + (c.toNat - 0x30)) 0

theorem isDigit_not_isSpace {c : UInt8} (h : isDigit c) : isSpace c = false :=
  UInt8.forall_of_ofNat (P := fun c => isDigit c → isSpace c = false) (by decide +kernel) c h

/-! ## Reading a number -/

/-- `'+'` -/
def plusSign : UInt8 := 0x2b

/-- `'-'` -/
def minusSign : UInt8 := 0x2d

/-- What `strtoul` returns: nothing is converted, or the number is out of range, or it is a number
that has taken so many octets. -/
inductive Strtoul
  | nothing
  | range
  | value (n : UInt64) (consumed : ℕ)
  deriving DecidableEq

/-- A number behind a sign, modulo 2⁶⁴. -/
def signed (sign : List UInt8) (n : ℕ) : UInt64 :=
  if sign = [minusSign] then - UInt64.ofNat n else UInt64.ofNat n

/-- The sign behind the blanks, if there is one. -/
def signOf (text : List UInt8) : List UInt8 :=
  let first := (text.dropWhile isSpace).take 1
  if first = [plusSign] ∨ first = [minusSign] then first else []

/-- The digits behind the blanks and the sign. -/
def digitsOf (text : List UInt8) : List UInt8 :=
  ((text.dropWhile isSpace).drop (signOf text).length).takeWhile isDigit

/-- The number at the front of a text, unless there is none or it does not fit 64 bits. -/
def strtoul (text : List UInt8) : Strtoul :=
  let digits := digitsOf text
  if digits = [] then
    .nothing
  else if 2 ^ 64 ≤ decimal digits then
    .range
  else
    .value (signed (signOf text) (decimal digits))
      ((text.takeWhile isSpace).length + (signOf text).length + digits.length)

/-- Blanks, a sign, digits, and something that is no digit. -/
structure IsNumber (text blanks sign digits rest : List UInt8) : Prop where
  text_eq : text = blanks ++ (sign ++ (digits ++ rest))
  blanks_isSpace : ∀ x ∈ blanks, isSpace x
  sign_eq : sign = [] ∨ sign = [plusSign] ∨ sign = [minusSign]
  digits_ne_nil : digits ≠ []
  digits_isDigit : ∀ x ∈ digits, isDigit x
  rest_isDigit : ∀ x ∈ rest.head?, isDigit x = false

/-- What is taken while `p` holds, in front of something that it does not hold of. -/
theorem takeWhile_dropWhile_append {α : Type} {p : α → Bool} {before after : List α}
    (hbefore : ∀ x ∈ before, p x) (hafter : ∀ x ∈ after.head?, p x = false) :
    (before ++ after).takeWhile p = before ∧ (before ++ after).dropWhile p = after := by
  have htake : after.takeWhile p = [] := by
    cases after with
    | nil => rfl
    | cons x after => simp [hafter x rfl]
  have hdrop : after.dropWhile p = after := by
    cases after with
    | nil => rfl
    | cons x after => simp [hafter x rfl]
  rw [List.takeWhile_append_of_pos hbefore, List.dropWhile_append_of_pos hbefore, htake, hdrop,
    List.append_nil]
  exact ⟨rfl, rfl⟩

namespace IsNumber

variable {text blanks sign digits rest : List UInt8}

/-- The parts of a number are those that are read. -/
theorem parts (h : IsNumber text blanks sign digits rest) :
    text.takeWhile isSpace = blanks ∧ signOf text = sign ∧ digitsOf text = digits := by
  obtain ⟨x, tail, rfl⟩ := List.exists_cons_of_ne_nil h.digits_ne_nil
  have hx : isDigit x := h.digits_isDigit x (by simp)
  -- Neither a sign nor a digit is a blank.
  have hhead : ∀ y ∈ (sign ++ (x :: tail ++ rest)).head?, isSpace y = false := by
    rcases h.sign_eq with rfl | rfl | rfl
    · intro y hy
      obtain rfl : x = y := by simpa using hy
      exact isDigit_not_isSpace hx
    · intro y hy
      obtain rfl : plusSign = y := by simpa using hy
      rfl
    · intro y hy
      obtain rfl : minusSign = y := by simpa using hy
      rfl
  obtain ⟨hblanks, hbehind⟩ := takeWhile_dropWhile_append h.blanks_isSpace hhead
  rw [← h.text_eq] at hblanks hbehind
  -- A digit is no sign.
  have hnoSign : x ≠ plusSign ∧ x ≠ minusSign := by
    constructor
    · rintro rfl
      cases hx
    · rintro rfl
      cases hx
  have hsign : signOf text = sign := by
    unfold signOf
    rw [hbehind]
    rcases h.sign_eq with rfl | rfl | rfl
    · exact if_neg (by simp [hnoSign])
    · exact if_pos (.inl rfl)
    · exact if_pos (.inr rfl)
  refine ⟨hblanks, hsign, ?_⟩
  rw [digitsOf, hsign, hbehind, List.drop_left]
  exact (takeWhile_dropWhile_append h.digits_isDigit h.rest_isDigit).1

theorem unique {blanks' sign' digits' rest' : List UInt8}
    (h : IsNumber text blanks sign digits rest) (h' : IsNumber text blanks' sign' digits' rest') :
    blanks = blanks' ∧ sign = sign' ∧ digits = digits' ∧ rest = rest' := by
  obtain ⟨hblanks, hsign, hdigits⟩ := h.parts
  obtain ⟨hblanks', hsign', hdigits'⟩ := h'.parts
  obtain rfl := hblanks.symm.trans hblanks'
  obtain rfl := hsign.symm.trans hsign'
  obtain rfl := hdigits.symm.trans hdigits'
  have hrest := h.text_eq.symm.trans h'.text_eq
  simp only [List.append_cancel_left_eq] at hrest
  exact ⟨rfl, rfl, rfl, hrest⟩

/-- **How a number is read.** -/
theorem strtoul_eq (h : IsNumber text blanks sign digits rest) : strtoul text =
    if 2 ^ 64 ≤ decimal digits then .range
    else .value (signed sign (decimal digits)) (blanks.length + sign.length + digits.length) := by
  obtain ⟨hblanks, hsign, hdigits⟩ := h.parts
  unfold strtoul
  rw [hblanks, hsign, hdigits]
  exact if_neg h.digits_ne_nil

theorem strtoul_ne_nothing (h : IsNumber text blanks sign digits rest) :
    strtoul text ≠ .nothing := by
  rw [h.strtoul_eq]
  split_ifs <;> simp

/-- Digits are a number. -/
theorem of_digits (hne : text ≠ []) (h : ∀ x ∈ text, isDigit x) : IsNumber text [] [] text [] where
  text_eq := by simp
  blanks_isSpace := by simp
  sign_eq := .inl rfl
  digits_ne_nil := hne
  digits_isDigit := h
  rest_isDigit := by simp

end IsNumber

theorem head?_dropWhile {α : Type} (p : α → Bool) (l : List α) :
    ∀ x ∈ (l.dropWhile p).head?, p x = false := by
  intro x hx
  have hne : l.dropWhile p ≠ [] := by
    rintro h
    rw [h] at hx
    cases hx
  have hhead := List.head_dropWhile_not p hne
  rw [List.head?_eq_some_head hne, Option.mem_def, Option.some_inj] at hx
  exact hx ▸ hhead

/-- **What is read**: a number, or nothing. -/
theorem strtoul_cases (text : List UInt8) :
    strtoul text = .nothing ∨ ∃ blanks sign digits rest, IsNumber text blanks sign digits rest := by
  by_cases hdigits : digitsOf text = []
  · exact .inl (if_pos hdigits)
  -- The parts that are read, one behind the other, are the text.
  have hsign : signOf text = (text.dropWhile isSpace).take (signOf text).length ∧
      (signOf text = [] ∨ signOf text = [plusSign] ∨ signOf text = [minusSign]) := by
    unfold signOf
    dsimp only
    split_ifs with h
    · refine ⟨?_, .inr h⟩
      rcases h with h | h <;> rw [h] <;> exact h.symm
    · exact ⟨rfl, .inl rfl⟩
  have hbehind : signOf text ++ (text.dropWhile isSpace).drop (signOf text).length =
      text.dropWhile isSpace := by
    conv_lhs =>
      lhs
      rw [hsign.1]
    exact List.take_append_drop _ _
  refine .inr ⟨text.takeWhile isSpace, signOf text, digitsOf text,
    ((text.dropWhile isSpace).drop (signOf text).length).dropWhile isDigit, ?_,
    fun x hx => List.mem_takeWhile_imp hx, hsign.2, hdigits,
    fun x hx => List.mem_takeWhile_imp hx, head?_dropWhile _ _⟩
  rw [digitsOf, List.takeWhile_append_dropWhile, hbehind, List.takeWhile_append_dropWhile]

end Ctype
