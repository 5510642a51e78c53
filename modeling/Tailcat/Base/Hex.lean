import Tailcat.Base.Ctype

/-!
# Hexadecimal text

Octets are written with two digits each, in small letters. Digits are read in either case: what is
read are the octets whose digits are the text in small letters.

## Main definitions

* `Hex.digit`, `Hex.encode`: writing a digit, and octets
* `Hex.Spells text octets`: the text is the digits of the octets, up to the case of its letters

## Main results

* `Hex.spells_encode`, `Hex.Spells.unique`: octets are spelled by their digits, and by no others
-/

namespace Hex

open Ctype

/-- The digit of a number below sixteen. -/
def digit (n : UInt8) : UInt8 := if n < 10 then 0x30 + n else 0x57 + n

/-- The digits of an octet, the high one first. -/
def octet (b : UInt8) : List UInt8 := [digit (b >>> 4), digit (b &&& 0xf)]

/-- Two digits for every octet. -/
def encode (octets : List UInt8) : List UInt8 := octets.flatMap octet

/-- The text is the digits of the octets, up to the case of its letters. -/
def Spells (text octets : List UInt8) : Prop := text.map toLower = encode octets

instance (text octets : List UInt8) : Decidable (Spells text octets) :=
  inferInstanceAs (Decidable (text.map toLower = encode octets))

/-! ## Halves of an octet -/

theorem shiftRight_lt (b : UInt8) : b >>> 4 < 16 :=
  UInt8.forall_of_ofNat (P := fun b => b >>> 4 < 16) (by decide +kernel) b

theorem and_lt (b : UInt8) : b &&& 0xf < 16 :=
  UInt8.forall_of_ofNat (P := fun b => b &&& 0xf < 16) (by decide +kernel) b

/-- An octet consists of its halves. -/
theorem halves (b : UInt8) : b >>> 4 <<< 4 ||| b &&& 0xf = b :=
  UInt8.forall_of_ofNat (P := fun b => b >>> 4 <<< 4 ||| b &&& 0xf = b) (by decide +kernel) b

/-- The halves of an octet that is put together from two numbers are these. -/
theorem halves_of_lt {high low : UInt8} (hhigh : high < 16) (hlow : low < 16) :
    (high <<< 4 ||| low) >>> 4 = high ∧ (high <<< 4 ||| low) &&& 0xf = low := by
  have hall : ∀ n < 16, ∀ m < 16,
      (UInt8.ofNat n <<< 4 ||| UInt8.ofNat m) >>> 4 = UInt8.ofNat n ∧
        (UInt8.ofNat n <<< 4 ||| UInt8.ofNat m) &&& 0xf = UInt8.ofNat m := by
    decide +kernel
  have h := hall high.toNat hhigh low.toNat hlow
  rwa [UInt8.ofNat_toNat, UInt8.ofNat_toNat] at h

/-! ## Digits -/

theorem toLower_digit {n : UInt8} (h : n < 16) : toLower (digit n) = digit n :=
  UInt8.forall_lt_of_ofNat (P := fun n => toLower (digit n) = digit n) 16 (by decide +kernel) h

theorem digit_inj {n m : UInt8} (hn : n < 16) (hm : m < 16) (h : digit n = digit m) : n = m := by
  have hall : ∀ i < 16, ∀ j < 16, digit (UInt8.ofNat i) = digit (UInt8.ofNat j) →
      UInt8.ofNat i = UInt8.ofNat j := by
    decide +kernel
  have hnm := hall n.toNat hn m.toNat hm
  rw [UInt8.ofNat_toNat, UInt8.ofNat_toNat] at hnm
  exact hnm h

/-! ## Octets -/

@[simp] theorem encode_nil : encode [] = [] := rfl

@[simp] theorem encode_cons (b : UInt8) (octets : List UInt8) :
    encode (b :: octets) = digit (b >>> 4) :: digit (b &&& 0xf) :: encode octets := rfl

@[simp] theorem length_encode (octets : List UInt8) :
    (encode octets).length = 2 * octets.length := by
  induction octets with
  | nil => rfl
  | cons b octets ih =>
    simp only [encode_cons, List.length_cons, ih]
    omega

theorem encode_injective : Function.Injective encode := by
  intro octets
  induction octets with
  | nil =>
    intro others h
    cases others with
    | nil => rfl
    | cons b others => simp at h
  | cons b octets ih =>
    intro others h
    cases others with
    | nil => simp at h
    | cons c others =>
      simp only [encode_cons, List.cons.injEq] at h
      obtain ⟨hhigh, hlow, hrest⟩ := h
      have hhigh' := digit_inj (shiftRight_lt b) (shiftRight_lt c) hhigh
      have hlow' := digit_inj (and_lt b) (and_lt c) hlow
      rw [← halves b, ← halves c, hhigh', hlow', ih hrest]

theorem spells_encode (octets : List UInt8) : Spells (encode octets) octets := by
  induction octets with
  | nil => rfl
  | cons b octets ih =>
    rw [Spells, encode_cons, List.map_cons, List.map_cons, toLower_digit (shiftRight_lt b),
      toLower_digit (and_lt b), ih]

theorem Spells.length_eq {text octets : List UInt8} (h : Spells text octets) :
    text.length = 2 * octets.length := by
  rw [← length_encode octets, ← h, List.length_map]

/-- A text spells octets of one value only. -/
theorem Spells.unique {text octets others : List UInt8} (h : Spells text octets)
    (h' : Spells text others) : octets = others :=
  encode_injective (h.symm.trans h')

/-- A text spells octets as its first two digits spell the first one and the rest the others. -/
theorem spells_cons {c d b : UInt8} {text octets : List UInt8} :
    Spells (c :: d :: text) (b :: octets) ↔
      (toLower c = digit (b >>> 4) ∧ toLower d = digit (b &&& 0xf)) ∧ Spells text octets := by
  simp only [Spells, List.map_cons, encode_cons, List.cons.injEq, and_assoc]

end Hex
