import Tailcat.Protocol.Types

/-!
# base64url

The unpadded base64url text of an address. The encoder takes three octets at a time and ends with
a group of two or three characters; the decoder refuses padding, characters outside the alphabet
and lengths that leave one character over.

## Main definitions

* `base64urlEncode`, `base64urlDecode`

## Main results

* `base64urlDecode_encode`: decoding the encoding of a nonempty vector gives it back
-/

namespace Tailcat

/-- The characters of base64url, at their values. -/
def alphabet : List UInt8 :=
  "ABCDEFGHIJKLMNOPQRSTUVWXYZabcdefghijklmnopqrstuvwxyz0123456789-_".toList.map Char.toUInt8

/-- The character of the low six bits of `v`. -/
def alphabetAt (v : UInt32) : UInt8 := alphabet.getD (v &&& 63).toNat 0

/-- Groups of three octets as four characters each, the last one without padding. -/
def base64urlEncode : List UInt8 → List UInt8
  | a :: b :: c :: rest =>
    let v := a.toUInt32 <<< 16 ||| b.toUInt32 <<< 8 ||| c.toUInt32
    alphabetAt (v >>> 18) :: alphabetAt (v >>> 12) :: alphabetAt (v >>> 6) :: alphabetAt v ::
      base64urlEncode rest
  | [a, b] =>
    let v := a.toUInt32 <<< 16 ||| b.toUInt32 <<< 8
    [alphabetAt (v >>> 18), alphabetAt (v >>> 12), alphabetAt (v >>> 6)]
  | [a] =>
    let v := a.toUInt32 <<< 16
    [alphabetAt (v >>> 18), alphabetAt (v >>> 12)]
  | [] => []

/-- The value of a character. -/
def b64Value (c : UInt8) : Except Exn UInt8 :=
  if 'A'.toUInt8 ≤ c ∧ c ≤ 'Z'.toUInt8 then .ok (c - 'A'.toUInt8)
  else if 'a'.toUInt8 ≤ c ∧ c ≤ 'z'.toUInt8 then .ok (26 + c - 'a'.toUInt8)
  else if '0'.toUInt8 ≤ c ∧ c ≤ '9'.toUInt8 then .ok (52 + c - '0'.toUInt8)
  else if c = '-'.toUInt8 then .ok 62
  else if c = '_'.toUInt8 then .ok 63
  else .error (.runtimeError "invalid base64url character")

/-- The groups of four characters, and the last group of two or three. -/
def base64urlDecodeGroups : List UInt8 → Except Exn (List UInt8)
  | a :: b :: c :: d :: rest => do
    let v := (← b64Value a).toUInt32 <<< 18 ||| (← b64Value b).toUInt32 <<< 12 |||
      (← b64Value c).toUInt32 <<< 6 ||| (← b64Value d).toUInt32
    let out ← base64urlDecodeGroups rest
    return (v >>> 16 &&& 0xff).toUInt8 :: (v >>> 8 &&& 0xff).toUInt8 :: (v &&& 0xff).toUInt8 :: out
  | [a, b, c] => do
    let v := (← b64Value a).toUInt32 <<< 18 ||| (← b64Value b).toUInt32 <<< 12 |||
      (← b64Value c).toUInt32 <<< 6
    return [(v >>> 16 &&& 0xff).toUInt8, (v >>> 8 &&& 0xff).toUInt8]
  | [a, b] => do
    let v := (← b64Value a).toUInt32 <<< 18 ||| (← b64Value b).toUInt32 <<< 12
    return [(v >>> 16 &&& 0xff).toUInt8]
  | _ => .ok []

/-- The octets of a text without padding. -/
def base64urlDecode (text : List UInt8) : Except Exn (List UInt8) :=
  if text = [] ∨ '='.toUInt8 ∈ text ∨ text.length % 4 = 1 then
    .error (.runtimeError "invalid base64url length or padding")
  else base64urlDecodeGroups text

/-! ## The characters of sextets -/

theorem b64Value_alphabetAt (v : UInt32) :
    b64Value (alphabetAt v) = .ok (UInt8.ofNat (v.toNat % 64)) := by
  have h : ∀ i : Fin 64, b64Value (alphabet.getD i.val 0) = .ok (UInt8.ofNat i.val) := by
    decide +kernel
  have hv : (v &&& 63).toNat = v.toNat % 64 := by
    rw [UInt32.toNat_and]
    exact Nat.and_two_pow_sub_one_eq_mod _ 6
  rw [alphabetAt, hv]
  exact h ⟨v.toNat % 64, Nat.mod_lt _ (by decide)⟩

theorem alphabetAt_ne_pad (v : UInt32) : alphabetAt v ≠ '='.toUInt8 := by
  intro h
  have hv := b64Value_alphabetAt v
  rw [h] at hv
  cases hv

/-- The value of the character of a shifted word. -/
def sextet (v s : UInt32) : UInt8 := UInt8.ofNat ((v >>> s).toNat % 64)

theorem toNat_sextet (v s : UInt32) (k : ℕ) (hs : s.toNat = k) (hk : k < 32) :
    (sextet v s).toNat = v.toNat / 2 ^ k % 64 := by
  rw [sextet, UInt8.toNat_ofNat', v.toNat_shiftRight_eq_div s k hs hk]
  omega

theorem toNat_sextet_lt (v s : UInt32) : (sextet v s).toNat < 64 := by
  rw [sextet, UInt8.toNat_ofNat']
  omega

/-- The sextet of bits that are all clear. -/
theorem sextet_eq_zero {v : UInt32} (s : UInt32) (k : ℕ) (hs : s.toNat = k) (hk : k < 32)
    (h : v.toNat / 2 ^ k % 64 = 0) : sextet v s = 0 := by
  rw [← UInt8.toNat_inj, toNat_sextet v s k hs hk, h]
  rfl

/-- Three octets joined into a word. -/
theorem toNat_join (a b c : UInt8) :
    (a.toUInt32 <<< 16 ||| b.toUInt32 <<< 8 ||| c.toUInt32).toNat =
      a.toNat * 2 ^ 16 + b.toNat * 2 ^ 8 + c.toNat := by
  have ha := a.toNat_lt
  have hb := b.toNat_lt
  have hc := c.toNat_lt
  have hab : a.toNat * 2 ^ 16 ||| b.toNat * 2 ^ 8 = a.toNat * 2 ^ 16 + b.toNat * 2 ^ 8 :=
    Nat.or_eq_add_of_dvd 16 ⟨a.toNat, by ring⟩ (by omega)
  rw [UInt32.toNat_or, UInt32.toNat_or,
    a.toNat_toUInt32_shiftLeft 16 16 rfl (by decide) (by omega),
    b.toNat_toUInt32_shiftLeft 8 8 rfl (by decide) (by omega), UInt8.toNat_toUInt32, hab]
  exact Nat.or_eq_add_of_dvd 8 ⟨a.toNat * 2 ^ 8 + b.toNat, by ring⟩ hc

/-- Four sextets joined into a word. -/
theorem toNat_join_sextets {a b c d : UInt8} (ha : a.toNat < 64) (hb : b.toNat < 64)
    (hc : c.toNat < 64) (hd : d.toNat < 64) :
    (a.toUInt32 <<< 18 ||| b.toUInt32 <<< 12 ||| c.toUInt32 <<< 6 ||| d.toUInt32).toNat =
      a.toNat * 2 ^ 18 + b.toNat * 2 ^ 12 + c.toNat * 2 ^ 6 + d.toNat := by
  have hab : a.toNat * 2 ^ 18 ||| b.toNat * 2 ^ 12 = a.toNat * 2 ^ 18 + b.toNat * 2 ^ 12 :=
    Nat.or_eq_add_of_dvd 18 ⟨a.toNat, by ring⟩ (by omega)
  have habc : a.toNat * 2 ^ 18 + b.toNat * 2 ^ 12 ||| c.toNat * 2 ^ 6 =
      a.toNat * 2 ^ 18 + b.toNat * 2 ^ 12 + c.toNat * 2 ^ 6 :=
    Nat.or_eq_add_of_dvd 12 ⟨a.toNat * 2 ^ 6 + b.toNat, by ring⟩ (by omega)
  rw [UInt32.toNat_or, UInt32.toNat_or, UInt32.toNat_or,
    a.toNat_toUInt32_shiftLeft 18 18 rfl (by decide) (by omega),
    b.toNat_toUInt32_shiftLeft 12 12 rfl (by decide) (by omega),
    c.toNat_toUInt32_shiftLeft 6 6 rfl (by decide) (by omega), UInt8.toNat_toUInt32, hab, habc]
  exact Nat.or_eq_add_of_dvd 6 ⟨a.toNat * 2 ^ 12 + b.toNat * 2 ^ 6 + c.toNat, by ring⟩ hd

/-- A 24-bit word is the join of its four sextets. -/
theorem join_sextets {v : UInt32} (h : v.toNat < 2 ^ 24) :
    (sextet v 18).toUInt32 <<< 18 ||| (sextet v 12).toUInt32 <<< 12 |||
      (sextet v 6).toUInt32 <<< 6 ||| (sextet v 0).toUInt32 = v := by
  apply UInt32.toNat_inj.mp
  rw [toNat_join_sextets (toNat_sextet_lt v 18) (toNat_sextet_lt v 12) (toNat_sextet_lt v 6)
    (toNat_sextet_lt v 0), toNat_sextet v 18 18 rfl (by decide), toNat_sextet v 12 12 rfl (by decide),
    toNat_sextet v 6 6 rfl (by decide), toNat_sextet v 0 0 rfl (by decide)]
  omega

/-- Three joined octets fill 24 bits. -/
theorem join_lt {v : UInt32} {a b c : UInt8}
    (hv : v.toNat = a.toNat * 2 ^ 16 + b.toNat * 2 ^ 8 + c.toNat) : v.toNat < 2 ^ 24 := by
  have ha := a.toNat_lt
  have hb := b.toNat_lt
  have hc := c.toNat_lt
  omega

/-- The octets of three joined octets. -/
theorem octets_join {v : UInt32} {a b c : UInt8}
    (hv : v.toNat = a.toNat * 2 ^ 16 + b.toNat * 2 ^ 8 + c.toNat) :
    (v >>> 16 &&& 0xff).toUInt8 = a ∧ (v >>> 8 &&& 0xff).toUInt8 = b ∧
      (v &&& 0xff).toUInt8 = c := by
  have ha := a.toNat_lt
  have hb := b.toNat_lt
  have hc := c.toNat_lt
  refine ⟨?_, ?_, ?_⟩ <;> apply UInt8.toNat_inj.mp
  · rw [v.toUInt8_shiftRight 16 16 rfl (by decide), UInt8.toNat_ofNat']
    omega
  · rw [v.toUInt8_shiftRight 8 8 rfl (by decide), UInt8.toNat_ofNat']
    omega
  · rw [v.toUInt8_and_255, UInt8.toNat_ofNat']
    omega

/-! ## Decoding an encoding -/

theorem b64Value_shiftRight (v s : UInt32) : b64Value (alphabetAt (v >>> s)) = .ok (sextet v s) :=
  b64Value_alphabetAt _

theorem base64urlDecodeGroups_encode (xs : List UInt8) :
    base64urlDecodeGroups (base64urlEncode xs) = .ok xs := by
  induction xs using base64urlEncode.induct with
  | case1 a b c rest ih =>
    have hv := toNat_join a b c
    rw [base64urlEncode]
    set v := a.toUInt32 <<< 16 ||| b.toUInt32 <<< 8 ||| c.toUInt32
    obtain ⟨h1, h2, h3⟩ := octets_join hv
    have h0 : b64Value (alphabetAt v) = .ok (sextet v 0) := by
      simpa using b64Value_shiftRight v 0
    simp only [base64urlDecodeGroups, b64Value_shiftRight, h0, ih, bind, Except.bind, pure,
      Except.pure, join_sextets (join_lt hv), h1, h2, h3]
  | case2 a b =>
    -- The fourth sextet is left out, and is zero.
    have hv := toNat_join a b 0
    rw [base64urlEncode]
    set v := a.toUInt32 <<< 16 ||| b.toUInt32 <<< 8
    rw [show (0 : UInt8).toUInt32 = 0 from rfl, UInt32.or_zero] at hv
    obtain ⟨h1, h2, -⟩ := octets_join hv
    have hj := join_sextets (join_lt hv)
    rw [sextet_eq_zero 0 0 rfl (by decide) (by rw [hv]; simp; omega),
      show (0 : UInt8).toUInt32 = 0 from rfl, UInt32.or_zero] at hj
    simp only [base64urlDecodeGroups, b64Value_shiftRight, bind, Except.bind, pure, Except.pure, hj,
      h1, h2]
  | case3 a =>
    -- The third and the fourth sextet are left out, and are zero.
    have hv := toNat_join a 0 0
    rw [base64urlEncode]
    set v := a.toUInt32 <<< 16
    rw [show (0 : UInt8).toUInt32 = 0 from rfl, show (0 : UInt32) <<< 8 = 0 from rfl,
      UInt32.or_zero, UInt32.or_zero] at hv
    obtain ⟨h1, -, -⟩ := octets_join hv
    have hj := join_sextets (join_lt hv)
    rw [sextet_eq_zero 0 0 rfl (by decide) (by rw [hv]; simp; omega),
      sextet_eq_zero 6 6 rfl (by decide) (by rw [hv]; simp; omega),
      show (0 : UInt8).toUInt32 = 0 from rfl, show (0 : UInt32) <<< 6 = 0 from rfl,
      UInt32.or_zero, UInt32.or_zero] at hj
    simp only [base64urlDecodeGroups, b64Value_shiftRight, bind, Except.bind, pure, Except.pure, hj,
      h1]
  | case4 => rfl

theorem base64urlEncode_eq_nil {xs : List UInt8} : base64urlEncode xs = [] ↔ xs = [] := by
  cases xs using base64urlEncode.fun_cases <;> simp [base64urlEncode]

theorem pad_notMem_base64urlEncode (xs : List UInt8) : '='.toUInt8 ∉ base64urlEncode xs := by
  induction xs using base64urlEncode.induct <;>
    simp_all [base64urlEncode, (alphabetAt_ne_pad _).symm]

theorem length_base64urlEncode_mod (xs : List UInt8) : (base64urlEncode xs).length % 4 ≠ 1 := by
  induction xs using base64urlEncode.induct with
  | case1 a b c rest ih =>
    simp only [base64urlEncode, List.length_cons]
    omega
  | case2 a b => simp [base64urlEncode]
  | case3 a => simp [base64urlEncode]
  | case4 => simp [base64urlEncode]

/-- Decoding the encoding of a nonempty vector gives it back. -/
theorem base64urlDecode_encode {xs : List UInt8} (h : xs ≠ []) :
    base64urlDecode (base64urlEncode xs) = .ok xs := by
  rw [base64urlDecode, if_neg, base64urlDecodeGroups_encode]
  simp [base64urlEncode_eq_nil, h, pad_notMem_base64urlEncode, length_base64urlEncode_mod]

end Tailcat
