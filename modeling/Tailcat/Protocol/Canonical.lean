import Tailcat.Base.Exceptions
import Tailcat.Protocol.Base64url

/-!
# Texts in base64url

The decoder takes every text of characters of base64url whose length leaves no character over. The
characters of the last group may say more than the octets that it stands for, so that not every text
is the encoding of what is decoded from it.

## Main definitions

* `IsBase64url`: the characters
* `clearUnused`: the text whose last character says nothing more than its octets

## Main results

* `decodes_iff`: which texts are decoded
* `encode_of_decodeGroups`: what is decoded is encoded without the unused bits
* `base64url_codec`: both directions
-/

namespace Tailcat

/-- `A-Z`, `a-z`, `0-9`, `-` and `_`. -/
def IsBase64url (c : UInt8) : Prop :=
  ('A'.toUInt8 ≤ c ∧ c ≤ 'Z'.toUInt8) ∨ ('a'.toUInt8 ≤ c ∧ c ≤ 'z'.toUInt8) ∨
    ('0'.toUInt8 ≤ c ∧ c ≤ '9'.toUInt8) ∨ c = '-'.toUInt8 ∨ c = '_'.toUInt8

instance (c : UInt8) : Decidable (IsBase64url c) := inferInstanceAs (Decidable (_ ∨ _))

/-- The character of a value. -/
def base64urlChar (v : ℕ) : UInt8 := alphabet.getD v 0

/-- The character whose value has its low bits cleared. -/
def clearLow (bits : ℕ) (c : UInt8) : UInt8 :=
  base64urlChar (alphabet.idxOf c / 2 ^ bits * 2 ^ bits)

/-- How many bits of the last character stand for nothing. -/
def unusedBits (length : ℕ) : ℕ :=
  if length % 4 = 2 then 4 else if length % 4 = 3 then 2 else 0

/-- The text with the unused bits of its last character cleared. -/
def clearUnused (text : List UInt8) : List UInt8 :=
  text.dropLast ++ (text.getLast?.map (clearLow (unusedBits text.length))).toList

/-! ## Characters and their values -/

/-- The character of a shifted word. -/
theorem alphabetAt_shiftRight (v s : UInt32) (k : ℕ) (hs : s.toNat = k) (hk : k < 32) :
    alphabetAt (v >>> s) = base64urlChar (v.toNat / 2 ^ k % 64) := by
  rw [alphabetAt, UInt32.toNat_and, v.toNat_shiftRight_eq_div s k hs hk, base64urlChar]
  exact congrArg (alphabet.getD · 0) (Nat.and_two_pow_sub_one_eq_mod _ 6)

theorem alphabetAt_eq (v : UInt32) : alphabetAt v = base64urlChar (v.toNat % 64) := by
  rw [alphabetAt, UInt32.toNat_and, base64urlChar]
  exact congrArg (alphabet.getD · 0) (Nat.and_two_pow_sub_one_eq_mod _ 6)

theorem b64Value_char {v : ℕ} (h : v < 64) : b64Value (base64urlChar v) = .ok (UInt8.ofNat v) := by
  have hv : (UInt32.ofNat v).toNat % 64 = v := by
    rw [UInt32.toNat_ofNat']
    omega
  have hvalue := b64Value_alphabetAt (UInt32.ofNat v)
  rwa [alphabetAt_eq, hv] at hvalue

/-- No character stands in the alphabet twice. -/
theorem idxOf_char {v : ℕ} (h : v < 64) : alphabet.idxOf (base64urlChar v) = v := by
  have halphabet : alphabet.Nodup ∧ alphabet.length = 64 := by decide +kernel
  obtain ⟨hnodup, hlen⟩ := halphabet
  rw [← hlen] at h
  rw [base64urlChar, List.getD, List.getElem?_eq_getElem h, Option.getD_some]
  exact hnodup.idxOf_getElem v h

theorem clearLow_char {v : ℕ} (h : v < 64) (bits : ℕ) :
    clearLow bits (base64urlChar v) = base64urlChar (v / 2 ^ bits * 2 ^ bits) := by
  rw [clearLow, idxOf_char h]

theorem IsBase64url.exists_char {c : UInt8} (h : IsBase64url c) :
    ∃ v < 64, c = base64urlChar v := by
  have hall := UInt8.forall_of_ofNat (P := fun c => IsBase64url c →
    alphabet.idxOf c < 64 ∧ c = base64urlChar (alphabet.idxOf c)) (by decide +kernel) c
  obtain ⟨hlt, hchar⟩ := hall h
  exact ⟨_, hlt, hchar⟩

/-- The branches of `b64_value` are the kinds of characters. -/
theorem isBase64url_of_b64Value {c v : UInt8} (h : b64Value c = .ok v) : IsBase64url c := by
  unfold b64Value at h
  split_ifs at h with hupper hlower hdigit hminus hunderscore
  · exact .inl hupper
  · exact .inr (.inl hlower)
  · exact .inr (.inr (.inl hdigit))
  · exact .inr (.inr (.inr (.inl hminus)))
  · exact .inr (.inr (.inr (.inr hunderscore)))

/-! ## Groups -/

/-- An encoded group of three octets. -/
theorem base64urlEncode_three (x y z : UInt8) (out : List UInt8) :
    let n := x.toNat * 2 ^ 16 + y.toNat * 2 ^ 8 + z.toNat
    base64urlEncode (x :: y :: z :: out) = base64urlChar (n / 2 ^ 18 % 64) ::
      base64urlChar (n / 2 ^ 12 % 64) :: base64urlChar (n / 2 ^ 6 % 64) :: base64urlChar (n % 64) ::
      base64urlEncode out := by
  intro n
  have hn := toNat_join x y z
  rw [base64urlEncode, alphabetAt_shiftRight _ 18 18 rfl (by decide),
    alphabetAt_shiftRight _ 12 12 rfl (by decide), alphabetAt_shiftRight _ 6 6 rfl (by decide),
    alphabetAt_eq, hn]

theorem base64urlEncode_two (x y : UInt8) :
    let n := x.toNat * 2 ^ 16 + y.toNat * 2 ^ 8
    base64urlEncode [x, y] = [base64urlChar (n / 2 ^ 18 % 64), base64urlChar (n / 2 ^ 12 % 64),
      base64urlChar (n / 2 ^ 6 % 64)] := by
  intro n
  have hn := toNat_join x y 0
  rw [show (0 : UInt8).toUInt32 = 0 from rfl, UInt32.or_zero, UInt8.toNat_zero, Nat.add_zero] at hn
  rw [base64urlEncode, alphabetAt_shiftRight _ 18 18 rfl (by decide),
    alphabetAt_shiftRight _ 12 12 rfl (by decide), alphabetAt_shiftRight _ 6 6 rfl (by decide), hn]

theorem base64urlEncode_one (x : UInt8) :
    let n := x.toNat * 2 ^ 16
    base64urlEncode [x] = [base64urlChar (n / 2 ^ 18 % 64), base64urlChar (n / 2 ^ 12 % 64)] := by
  intro n
  have hn := toNat_join x 0 0
  rw [show (0 : UInt8).toUInt32 = 0 from rfl, show (0 : UInt32) <<< 8 = 0 from rfl, UInt32.or_zero,
    UInt32.or_zero, UInt8.toNat_zero, Nat.zero_mul, Nat.add_zero] at hn
  rw [base64urlEncode, alphabetAt_shiftRight _ 18 18 rfl (by decide),
    alphabetAt_shiftRight _ 12 12 rfl (by decide), hn]

/-- The octets of a word, as numbers. -/
theorem toNat_octets (v : UInt32) : (v >>> 16 &&& 0xff).toUInt8.toNat = v.toNat / 2 ^ 16 % 256 ∧
    (v >>> 8 &&& 0xff).toUInt8.toNat = v.toNat / 2 ^ 8 % 256 ∧
    (v &&& 0xff).toUInt8.toNat = v.toNat % 256 := by
  refine ⟨?_, ?_, ?_⟩
  · rw [v.toUInt8_shiftRight 16 16 rfl (by decide), UInt8.toNat_ofNat']
  · rw [v.toUInt8_shiftRight 8 8 rfl (by decide), UInt8.toNat_ofNat']
  · rw [v.toUInt8_and_255, UInt8.toNat_ofNat']

section Values

variable {a b c d : ℕ} (ha : a < 64) (hb : b < 64)

include ha hb

/-- The word of the values of four characters. -/
theorem toNat_values (hc : c < 64) (hd : d < 64) :
    ((UInt8.ofNat a).toUInt32 <<< 18 ||| (UInt8.ofNat b).toUInt32 <<< 12 |||
      (UInt8.ofNat c).toUInt32 <<< 6 ||| (UInt8.ofNat d).toUInt32).toNat =
      a * 2 ^ 18 + b * 2 ^ 12 + c * 2 ^ 6 + d := by
  have hsmall : ∀ n < 64, (UInt8.ofNat n).toNat = n := fun n hn => by
    rw [UInt8.toNat_ofNat', Nat.mod_eq_of_lt (by omega)]
  rw [toNat_join_sextets (by rwa [hsmall a ha]) (by rwa [hsmall b hb]) (by rwa [hsmall c hc])
    (by rwa [hsmall d hd]), hsmall a ha, hsmall b hb, hsmall c hc, hsmall d hd]

/-- **Four characters**: their octets are encoded as them. -/
theorem decodeGroups_four (hc : c < 64) (hd : d < 64) {rest out : List UInt8}
    (hrest : base64urlDecodeGroups rest = .ok out) :
    ∃ xs, base64urlDecodeGroups (base64urlChar a :: base64urlChar b :: base64urlChar c ::
        base64urlChar d :: rest) = .ok xs ∧
      base64urlEncode xs = base64urlChar a :: base64urlChar b :: base64urlChar c ::
        base64urlChar d :: base64urlEncode out := by
  have hv := toNat_values ha hb hc hd
  set v := (UInt8.ofNat a).toUInt32 <<< 18 ||| (UInt8.ofNat b).toUInt32 <<< 12 |||
    (UInt8.ofNat c).toUInt32 <<< 6 ||| (UInt8.ofNat d).toUInt32
  refine ⟨(v >>> 16 &&& 0xff).toUInt8 :: (v >>> 8 &&& 0xff).toUInt8 :: (v &&& 0xff).toUInt8 :: out,
    ?_, ?_⟩
  · simp only [base64urlDecodeGroups, b64Value_char ha, b64Value_char hb, b64Value_char hc,
      b64Value_char hd, hrest, bind, Except.bind, pure, Except.pure]
    rfl
  · obtain ⟨h1, h2, h3⟩ := toNat_octets v
    have hn : v.toNat / 2 ^ 16 % 256 * 2 ^ 16 + v.toNat / 2 ^ 8 % 256 * 2 ^ 8 + v.toNat % 256 =
        a * 2 ^ 18 + b * 2 ^ 12 + c * 2 ^ 6 + d := by omega
    have hvalues : (a * 2 ^ 18 + b * 2 ^ 12 + c * 2 ^ 6 + d) / 2 ^ 18 % 64 = a ∧
        (a * 2 ^ 18 + b * 2 ^ 12 + c * 2 ^ 6 + d) / 2 ^ 12 % 64 = b ∧
        (a * 2 ^ 18 + b * 2 ^ 12 + c * 2 ^ 6 + d) / 2 ^ 6 % 64 = c ∧
        (a * 2 ^ 18 + b * 2 ^ 12 + c * 2 ^ 6 + d) % 64 = d := by omega
    obtain ⟨e1, e2, e3, e4⟩ := hvalues
    rw [base64urlEncode_three, h1, h2, h3, hn, e1, e2, e3, e4]

/-- **Three characters** stand for two octets: two bits of the last one are unused. -/
theorem decodeGroups_three (hc : c < 64) :
    ∃ xs, base64urlDecodeGroups [base64urlChar a, base64urlChar b, base64urlChar c] = .ok xs ∧
      base64urlEncode xs =
        [base64urlChar a, base64urlChar b, clearLow 2 (base64urlChar c)] := by
  have hv := toNat_values ha hb hc (by decide : 0 < 64)
  rw [show (UInt8.ofNat 0).toUInt32 = 0 from rfl, UInt32.or_zero, Nat.add_zero] at hv
  set v := (UInt8.ofNat a).toUInt32 <<< 18 ||| (UInt8.ofNat b).toUInt32 <<< 12 |||
    (UInt8.ofNat c).toUInt32 <<< 6
  refine ⟨[(v >>> 16 &&& 0xff).toUInt8, (v >>> 8 &&& 0xff).toUInt8], ?_, ?_⟩
  · simp only [base64urlDecodeGroups, b64Value_char ha, b64Value_char hb, b64Value_char hc, bind,
      Except.bind, pure, Except.pure]
    rfl
  · obtain ⟨h1, h2, -⟩ := toNat_octets v
    have hn : v.toNat / 2 ^ 16 % 256 * 2 ^ 16 + v.toNat / 2 ^ 8 % 256 * 2 ^ 8 =
        a * 2 ^ 18 + b * 2 ^ 12 + c / 2 ^ 2 * 2 ^ 2 * 2 ^ 6 := by omega
    have hvalues : (a * 2 ^ 18 + b * 2 ^ 12 + c / 2 ^ 2 * 2 ^ 2 * 2 ^ 6) / 2 ^ 18 % 64 = a ∧
        (a * 2 ^ 18 + b * 2 ^ 12 + c / 2 ^ 2 * 2 ^ 2 * 2 ^ 6) / 2 ^ 12 % 64 = b ∧
        (a * 2 ^ 18 + b * 2 ^ 12 + c / 2 ^ 2 * 2 ^ 2 * 2 ^ 6) / 2 ^ 6 % 64 = c / 2 ^ 2 * 2 ^ 2 := by
      omega
    obtain ⟨e1, e2, e3⟩ := hvalues
    rw [base64urlEncode_two, h1, h2, hn, e1, e2, e3, clearLow_char hc]

/-- **Two characters** stand for one octet: four bits of the last one are unused. -/
theorem decodeGroups_two :
    ∃ xs, base64urlDecodeGroups [base64urlChar a, base64urlChar b] = .ok xs ∧
      base64urlEncode xs = [base64urlChar a, clearLow 4 (base64urlChar b)] := by
  have hv := toNat_values ha hb (by decide : 0 < 64) (by decide : 0 < 64)
  rw [show (UInt8.ofNat 0).toUInt32 = 0 from rfl, show (0 : UInt32) <<< 6 = 0 from rfl,
    UInt32.or_zero, UInt32.or_zero, Nat.zero_mul, Nat.add_zero] at hv
  set v := (UInt8.ofNat a).toUInt32 <<< 18 ||| (UInt8.ofNat b).toUInt32 <<< 12
  refine ⟨[(v >>> 16 &&& 0xff).toUInt8], ?_, ?_⟩
  · simp only [base64urlDecodeGroups, b64Value_char ha, b64Value_char hb, bind, Except.bind, pure,
      Except.pure]
    rfl
  · obtain ⟨h1, -, -⟩ := toNat_octets v
    have hn : v.toNat / 2 ^ 16 % 256 * 2 ^ 16 = a * 2 ^ 18 + b / 2 ^ 4 * 2 ^ 4 * 2 ^ 12 := by omega
    have hvalues : (a * 2 ^ 18 + b / 2 ^ 4 * 2 ^ 4 * 2 ^ 12) / 2 ^ 18 % 64 = a ∧
        (a * 2 ^ 18 + b / 2 ^ 4 * 2 ^ 4 * 2 ^ 12) / 2 ^ 12 % 64 = b / 2 ^ 4 * 2 ^ 4 := by omega
    obtain ⟨e1, e2⟩ := hvalues
    rw [base64urlEncode_one, h1, hn, e1, e2, clearLow_char hb]

end Values

/-! ## Texts -/

theorem length_four {α : Type} (a b c d : α) (rest : List α) :
    (a :: b :: c :: d :: rest).length = rest.length + 4 := rfl

/-- In whole groups nothing is unused. -/
theorem clearUnused_four {a b c d : UInt8} (hd : IsBase64url d) (rest : List UInt8) :
    clearUnused (a :: b :: c :: d :: rest) = a :: b :: c :: d :: clearUnused rest := by
  cases rest with
  | nil =>
    obtain ⟨v, hv, rfl⟩ := hd.exists_char
    have hlast : clearLow (unusedBits 4) (base64urlChar v) = base64urlChar v := by
      rw [clearLow_char hv]
      simp [unusedBits]
    simp [clearUnused, hlast]
  | cons x rest =>
    have hbits : unusedBits (rest.length + 1 + 4) = unusedBits (rest.length + 1) := by
      rw [unusedBits, Nat.add_mod_right, unusedBits]
    rw [clearUnused, length_four, List.length_cons, hbits]
    simp [clearUnused]

/-- Texts of characters that leave none over are decoded, and encoded again without the unused
bits. -/
theorem encode_of_decodeGroups {text : List UInt8} (hmod : text.length % 4 ≠ 1)
    (hchars : ∀ c ∈ text, IsBase64url c) :
    ∃ xs, base64urlDecodeGroups text = .ok xs ∧ base64urlEncode xs = clearUnused text := by
  -- Four characters are taken off the text, until there are three, two or none.
  induction text using base64urlDecodeGroups.induct with
  | case1 a b c d rest ih =>
    rw [length_four, Nat.add_mod_right] at hmod
    obtain ⟨out, hout, hencode⟩ := ih hmod fun x hx => hchars x (by simp [hx])
    rw [clearUnused_four (hchars d (by simp)), ← hencode]
    obtain ⟨a, ha, rfl⟩ := (hchars a (by simp)).exists_char
    obtain ⟨b, hb, rfl⟩ := (hchars b (by simp)).exists_char
    obtain ⟨c, hc, rfl⟩ := (hchars c (by simp)).exists_char
    obtain ⟨d, hd, rfl⟩ := (hchars d (by simp)).exists_char
    exact decodeGroups_four ha hb hc hd hout
  | case2 a b c =>
    obtain ⟨a, ha, rfl⟩ := (hchars a (by simp)).exists_char
    obtain ⟨b, hb, rfl⟩ := (hchars b (by simp)).exists_char
    obtain ⟨c, hc, rfl⟩ := (hchars c (by simp)).exists_char
    exact decodeGroups_three ha hb hc
  | case3 a b =>
    obtain ⟨a, ha, rfl⟩ := (hchars a (by simp)).exists_char
    obtain ⟨b, hb, rfl⟩ := (hchars b (by simp)).exists_char
    exact decodeGroups_two ha hb
  | case4 text h1 h2 h3 =>
    rcases text with - | ⟨a, - | ⟨b, - | ⟨c, - | ⟨d, rest⟩⟩⟩⟩
    · exact ⟨[], rfl, rfl⟩
    · exact absurd rfl hmod
    · exact absurd rfl (h3 a b)
    · exact absurd rfl (h2 a b c)
    · exact absurd rfl (h1 a b c d rest)

/-- What is decoded consists of characters. -/
theorem isBase64url_of_decodeGroups {text xs : List UInt8} (hmod : text.length % 4 ≠ 1)
    (h : base64urlDecodeGroups text = .ok xs) : ∀ c ∈ text, IsBase64url c := by
  induction text using base64urlDecodeGroups.induct generalizing xs with
  | case1 a b c d rest ih =>
    obtain ⟨va, ha, h⟩ := Except.bind_eq_ok_iff.mp h
    obtain ⟨vb, hb, h⟩ := Except.bind_eq_ok_iff.mp h
    obtain ⟨vc, hc, h⟩ := Except.bind_eq_ok_iff.mp h
    obtain ⟨vd, hd, h⟩ := Except.bind_eq_ok_iff.mp h
    obtain ⟨out, hout, -⟩ := Except.bind_eq_ok_iff.mp h
    rw [length_four, Nat.add_mod_right] at hmod
    have hrest := ih hmod hout
    simp only [List.forall_mem_cons]
    exact ⟨isBase64url_of_b64Value ha, isBase64url_of_b64Value hb, isBase64url_of_b64Value hc,
      isBase64url_of_b64Value hd, hrest⟩
  | case2 a b c =>
    obtain ⟨va, ha, h⟩ := Except.bind_eq_ok_iff.mp h
    obtain ⟨vb, hb, h⟩ := Except.bind_eq_ok_iff.mp h
    obtain ⟨vc, hc, -⟩ := Except.bind_eq_ok_iff.mp h
    simp only [List.forall_mem_cons]
    exact ⟨isBase64url_of_b64Value ha, isBase64url_of_b64Value hb, isBase64url_of_b64Value hc,
      by simp⟩
  | case3 a b =>
    obtain ⟨va, ha, h⟩ := Except.bind_eq_ok_iff.mp h
    obtain ⟨vb, hb, -⟩ := Except.bind_eq_ok_iff.mp h
    simp only [List.forall_mem_cons]
    exact ⟨isBase64url_of_b64Value ha, isBase64url_of_b64Value hb, by simp⟩
  | case4 text h1 h2 h3 =>
    rcases text with - | ⟨a, - | ⟨b, - | ⟨c, - | ⟨d, rest⟩⟩⟩⟩
    · simp
    · exact absurd rfl hmod
    · exact absurd rfl (h3 a b)
    · exact absurd rfl (h2 a b c)
    · exact absurd rfl (h1 a b c d rest)

/-- Padding is no character. -/
theorem not_isBase64url_pad : ¬ IsBase64url '='.toUInt8 := by decide

/-- The decoder looks for padding and at the length first. -/
theorem base64urlDecode_eq_ok_iff {text xs : List UInt8} : base64urlDecode text = .ok xs ↔
    text ≠ [] ∧ (∀ c ∈ text, IsBase64url c) ∧ text.length % 4 ≠ 1 ∧
      base64urlDecodeGroups text = .ok xs := by
  unfold base64urlDecode
  constructor
  · intro h
    split_ifs at h with hno
    rw [not_or, not_or] at hno
    obtain ⟨hne, -, hmod⟩ := hno
    exact ⟨hne, isBase64url_of_decodeGroups hmod h, hmod, h⟩
  · rintro ⟨hne, hchars, hmod, h⟩
    rw [if_neg]
    · exact h
    · rintro (hnil | hpad | hone)
      · exact hne hnil
      · exact not_isBase64url_pad (hchars _ hpad)
      · exact hmod hone

/-- **Which texts are decoded.** -/
theorem decodes_iff {text : List UInt8} : (∃ xs, base64urlDecode text = .ok xs) ↔
    text ≠ [] ∧ (∀ c ∈ text, IsBase64url c) ∧ text.length % 4 ≠ 1 := by
  constructor
  · rintro ⟨xs, h⟩
    obtain ⟨hne, hchars, hmod, -⟩ := base64urlDecode_eq_ok_iff.mp h
    exact ⟨hne, hchars, hmod⟩
  · rintro ⟨hne, hchars, hmod⟩
    obtain ⟨xs, hxs, -⟩ := encode_of_decodeGroups hmod hchars
    exact ⟨xs, base64urlDecode_eq_ok_iff.mpr ⟨hne, hchars, hmod, hxs⟩⟩

/-- What is decoded is encoded again without the unused bits. -/
theorem encode_of_decode {text xs : List UInt8} (h : base64urlDecode text = .ok xs) :
    base64urlEncode xs = clearUnused text := by
  obtain ⟨-, hchars, hmod, hgroups⟩ := base64urlDecode_eq_ok_iff.mp h
  obtain ⟨ys, hys, hencode⟩ := encode_of_decodeGroups hmod hchars
  rw [Except.ok.inj (hgroups.symm.trans hys), hencode]

/-- **The codec**: what is encoded is decoded, unless it is empty, and just the texts of characters
that leave none over are decoded. Encoding gives them back without the unused bits. -/
theorem base64url_codec :
    (∀ xs, xs ≠ [] → base64urlDecode (base64urlEncode xs) = .ok xs) ∧
    ∀ text, ((∃ xs, base64urlDecode text = .ok xs) ↔
        text ≠ [] ∧ (∀ c ∈ text, IsBase64url c) ∧ text.length % 4 ≠ 1) ∧
      ∀ xs, base64urlDecode text = .ok xs → base64urlEncode xs = clearUnused text :=
  ⟨fun _ => base64urlDecode_encode, fun _ => ⟨decodes_iff, fun _ => encode_of_decode⟩⟩

/-- Two texts of one octet, of which the encoder writes the second one. -/
theorem base64url_codec_example :
    base64urlDecode (base64urlEncode [0]) = .ok [0] ∧ base64urlDecode (ascii "AB") = .ok [0] ∧
      base64urlEncode [0] = clearUnused (ascii "AB") ∧ clearUnused (ascii "AB") = ascii "AA" := by
  obtain ⟨hround, htext⟩ := base64url_codec
  have hother : base64urlDecode (ascii "AB") = .ok [0] := by decide +kernel
  exact ⟨hround [0] (List.cons_ne_nil _ _), hother, (htext _).2 [0] hother, by decide +kernel⟩

end Tailcat
