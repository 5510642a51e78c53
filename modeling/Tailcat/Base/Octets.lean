import Mathlib.Data.Vector.Basic
import Mathlib.Tactic

/-!
# Octets: fixed-size arrays and the numbers they spell

Fixed-size arrays of octets, and the big-endian and little-endian spellings of numbers in a fixed
number of octets. The last section reads shifts and disjunctions of machine words as arithmetic,
which is how byte-order code spells these numbers.

## Main definitions

* `Octets n`: exactly `n` octets
* `beNat`, `beBytes k`: the number big-endian octets spell, and the `k` low octets of a number
* `leNat`, `leBytes k`: the same in little-endian order

## Main results

* `beNat_beBytes`, `leNat_leBytes`: reading back what was written gives the number modulo `256 ^ k`
* `beBytes_beNat`: writing what was read gives the octets
* `lt_of_beNat_lt`: octets of one length are ordered like the numbers that they spell
* `UInt8.forall_of_ofNat`: what can be checked of 256 numbers
* `Nat.or_eq_add_of_dvd`, `UInt64.toNat_shiftLeft_or`: joining disjoint bits adds
-/

/-- Exactly `n` octets. -/
abbrev Octets (n : ℕ) := List.Vector UInt8 n

namespace Octets

variable {n : ℕ}

/-- The array of `n` zero octets. -/
def zero (n : ℕ) : Octets n := List.Vector.replicate n 0

/-- Whether every octet is zero. -/
def allZero (x : Octets n) : Bool := x.toList.all (· == 0)

/-- A list of `n` octets. -/
def ofList (l : List UInt8) (h : l.length = n) : Octets n := ⟨l, h⟩

/-- The first `n` octets of a list that has at least `n`. -/
def ofTake (n : ℕ) (l : List UInt8) (h : n ≤ l.length) : Octets n :=
  ofList (l.take n) (by simp [h])

@[simp] theorem toList_ofList (l : List UInt8) (h : l.length = n) : (ofList l h).toList = l := rfl

@[simp] theorem ofList_toList (x : Octets n) (h : x.toList.length = n) : ofList x.toList h = x := rfl

@[simp] theorem toList_ofTake (l : List UInt8) (h : n ≤ l.length) :
    (ofTake n l h).toList = l.take n := rfl

theorem ofTake_toList_append (x : Octets n) (rest : List UInt8)
    (h : n ≤ (x.toList ++ rest).length) : ofTake n (x.toList ++ rest) h = x := by
  apply List.Vector.toList_injective
  rw [toList_ofTake, List.take_left' x.toList_length]

end Octets

/-! ## All octets -/

/-- What holds of the octets of the numbers below 256 holds of every octet. -/
theorem UInt8.forall_of_ofNat {P : UInt8 → Prop} (h : ∀ n < 256, P (UInt8.ofNat n)) (c : UInt8) :
    P c := by
  have hc := h c.toNat c.toNat_lt
  rwa [UInt8.ofNat_toNat] at hc

theorem UInt8.forall_lt_of_ofNat {P : UInt8 → Prop} (k : ℕ) (h : ∀ n < k, P (UInt8.ofNat n))
    {c : UInt8} (hc : c.toNat < k) : P c := by
  have hP := h c.toNat hc
  rwa [UInt8.ofNat_toNat] at hP

/-! ## Big-endian numbers -/

/-- The number that big-endian octets spell. -/
def beNat (bs : List UInt8) : ℕ := bs.foldl (fun acc b => acc * 256 + b.toNat) 0

/-- The `k` low octets of `n`, most significant first. -/
def beBytes : ℕ → ℕ → List UInt8
  | 0, _ => []
  | k + 1, n => UInt8.ofNat (n / 256 ^ k) :: beBytes k n

@[simp] theorem length_beBytes (k n : ℕ) : (beBytes k n).length = k := by
  induction k with
  | zero => rfl
  | succ k ih => simp [beBytes, ih]

theorem foldl_be (bs : List UInt8) (acc : ℕ) :
    bs.foldl (fun acc b => acc * 256 + b.toNat) acc = acc * 256 ^ bs.length + beNat bs := by
  induction bs using List.reverseRecOn with
  | nil => simp [beNat]
  | append_singleton bs b ih =>
    simp only [beNat, List.foldl_append, List.foldl_cons, List.foldl_nil, List.length_append,
      List.length_singleton, pow_succ] at ih ⊢
    rw [ih]
    ring

theorem beNat_cons (b : UInt8) (bs : List UInt8) :
    beNat (b :: bs) = b.toNat * 256 ^ bs.length + beNat bs := by
  rw [beNat, List.foldl_cons, foldl_be]
  simp

theorem beNat_lt (bs : List UInt8) : beNat bs < 256 ^ bs.length := by
  induction bs with
  | nil => simp [beNat]
  | cons b bs ih =>
    have hb := b.toNat_lt
    rw [beNat_cons, List.length_cons, pow_succ]
    nlinarith [pow_pos (show 0 < 256 by decide) bs.length]

/-- Big-endian octets read back as the number, reduced to the width they hold. -/
theorem beNat_beBytes (k n : ℕ) : beNat (beBytes k n) = n % 256 ^ k := by
  induction k with
  | zero => simp [beBytes, beNat, Nat.mod_one]
  | succ k ih =>
    rw [beBytes, beNat_cons, ih, length_beBytes, UInt8.toNat_ofNat', pow_succ 256 k,
      @Nat.mod_mul (256 ^ k) 256 n, Nat.mul_comm, Nat.add_comm]

theorem beNat_beBytes_of_lt {k n : ℕ} (h : n < 256 ^ k) : beNat (beBytes k n) = n := by
  rw [beNat_beBytes, Nat.mod_eq_of_lt h]

/-- What is above the octets does not matter. -/
theorem beBytes_add_beNat (m : ℕ) (bs : List UInt8) :
    beBytes bs.length (m * 256 ^ bs.length + beNat bs) = bs := by
  induction bs generalizing m with
  | nil => rfl
  | cons b bs ih =>
    have hn : m * 256 ^ (bs.length + 1) + beNat (b :: bs) =
        (m * 256 + b.toNat) * 256 ^ bs.length + beNat bs := by
      rw [beNat_cons]
      ring
    have hdiv : ((m * 256 + b.toNat) * 256 ^ bs.length + beNat bs) / 256 ^ bs.length =
        m * 256 + b.toNat := by
      rw [Nat.add_comm, Nat.add_mul_div_right _ _ (by positivity), Nat.div_eq_of_lt (beNat_lt bs),
        Nat.zero_add]
    have hb : UInt8.ofNat (m * 256 + b.toNat) = b := by
      apply UInt8.toNat_inj.mp
      rw [UInt8.toNat_ofNat', Nat.mul_comm, Nat.mul_add_mod, Nat.mod_eq_of_lt b.toNat_lt]
    rw [List.length_cons, hn, beBytes, hdiv, hb, ih]

/-- Octets are those of the number they spell. -/
theorem beBytes_beNat (bs : List UInt8) : beBytes bs.length (beNat bs) = bs := by
  have h := beBytes_add_beNat 0 bs
  rwa [Nat.zero_mul, Nat.zero_add] at h

theorem beBytes_eq_map (k n : ℕ) :
    beBytes k n = (List.range k).map fun i => UInt8.ofNat (n / 256 ^ (k - 1 - i)) := by
  induction k with
  | zero => rfl
  | succ k ih =>
    rw [beBytes, ih, List.range_succ_eq_map, List.map_cons, List.map_map]
    congr 1
    refine List.map_congr_left fun i _ => ?_
    rw [Function.comp_apply, Nat.succ_eq_add_one, Nat.add_sub_cancel, Nat.sub_add_eq,
      Nat.sub_right_comm]

theorem beNat_append (as bs : List UInt8) :
    beNat (as ++ bs) = beNat as * 256 ^ bs.length + beNat bs := by
  rw [beNat, List.foldl_append, foldl_be]
  rfl

/-- Octets of one length are ordered like the numbers that they spell. -/
theorem lt_of_beNat_lt {as bs : List UInt8} (hlen : as.length = bs.length)
    (h : beNat as < beNat bs) : as < bs := by
  induction as generalizing bs with
  | nil =>
    rw [List.length_eq_zero_iff.mp hlen.symm] at h
    exact absurd h (lt_irrefl _)
  | cons a as ih =>
    obtain ⟨b, bs, rfl⟩ := List.exists_cons_of_length_eq_add_one hlen.symm
    have hrest : as.length = bs.length := Nat.succ.inj hlen
    rw [beNat_cons, beNat_cons, hrest] at h
    rw [List.cons_lt_cons_iff]
    rcases lt_trichotomy a.toNat b.toNat with hab | hab | hba
    · exact .inl (UInt8.lt_iff_toNat_lt.mpr hab)
    · obtain rfl := UInt8.toNat_inj.mp hab
      exact .inr ⟨rfl, ih hrest (by omega)⟩
    · -- A larger first octet outweighs all the others.
      have hlt := beNat_lt bs
      have hmul := Nat.mul_le_mul_right (256 ^ bs.length) (show b.toNat + 1 ≤ a.toNat from hba)
      rw [Nat.add_mul, Nat.one_mul] at hmul
      omega

/-! ## Little-endian numbers -/

/-- The number that little-endian octets spell. -/
def leNat : List UInt8 → ℕ
  | [] => 0
  | b :: bs => b.toNat + 256 * leNat bs

/-- The `k` low octets of `n`, least significant first. -/
def leBytes : ℕ → ℕ → List UInt8
  | 0, _ => []
  | k + 1, n => UInt8.ofNat n :: leBytes k (n / 256)

@[simp] theorem length_leBytes (k n : ℕ) : (leBytes k n).length = k := by
  induction k generalizing n with
  | zero => rfl
  | succ k ih => simp [leBytes, ih]

/-- Little-endian octets read back as the number, reduced to the width they hold. -/
theorem leNat_leBytes (k n : ℕ) : leNat (leBytes k n) = n % 256 ^ k := by
  induction k generalizing n with
  | zero => simp [leBytes, leNat, Nat.mod_one]
  | succ k ih =>
    rw [leBytes, leNat, ih, UInt8.toNat_ofNat', pow_succ' 256 k,
      @Nat.mod_mul 256 (256 ^ k) n]

theorem leNat_leBytes_of_lt {k n : ℕ} (h : n < 256 ^ k) : leNat (leBytes k n) = n := by
  rw [leNat_leBytes, Nat.mod_eq_of_lt h]

theorem leBytes_eq_map (k n : ℕ) :
    leBytes k n = (List.range k).map fun i => UInt8.ofNat (n / 256 ^ i) := by
  induction k generalizing n with
  | zero => rfl
  | succ k ih =>
    rw [leBytes, ih, List.range_succ_eq_map, List.map_cons, List.map_map]
    congr 1
    · simp
    · refine List.map_congr_left fun i _ => ?_
      rw [Function.comp_apply, Nat.div_div_eq_div_mul, Nat.succ_eq_add_one, pow_succ']

theorem leNat_append (bs cs : List UInt8) :
    leNat (bs ++ cs) = leNat bs + 256 ^ bs.length * leNat cs := by
  induction bs with
  | nil => simp [leNat]
  | cons b bs ih =>
    rw [List.cons_append, leNat, leNat, ih, List.length_cons, pow_succ]
    ring

theorem leNat_lt (bs : List UInt8) : leNat bs < 256 ^ bs.length := by
  induction bs with
  | nil => simp [leNat]
  | cons b bs ih =>
    have hb := b.toNat_lt
    rw [leNat, List.length_cons, pow_succ]
    omega

/-! ## Machine words -/

/-- Joining a multiple of `2 ^ i` to a number below `2 ^ i` adds them. -/
theorem Nat.or_eq_add_of_dvd {a b : ℕ} (i : ℕ) (ha : 2 ^ i ∣ a) (hb : b < 2 ^ i) :
    a ||| b = a + b := by
  obtain ⟨q, rfl⟩ := ha
  rw [Nat.two_pow_add_eq_or_of_lt hb]

/-- An octet shifted within a 32-bit word. -/
theorem UInt8.toNat_toUInt32_shiftLeft (b : UInt8) (s : UInt32) (k : ℕ) (hs : s.toNat = k)
    (hk : k < 32) (h : b.toNat * 2 ^ k < 2 ^ 32) :
    (b.toUInt32 <<< s).toNat = b.toNat * 2 ^ k := by
  rw [UInt32.toNat_shiftLeft, UInt8.toNat_toUInt32, hs, Nat.shiftLeft_eq, Nat.mod_eq_of_lt hk,
    Nat.mod_eq_of_lt h]

theorem UInt32.toNat_shiftRight_eq_div (v s : UInt32) (k : ℕ) (hs : s.toNat = k) (hk : k < 32) :
    (v >>> s).toNat = v.toNat / 2 ^ k := by
  rw [UInt32.toNat_shiftRight, hs, Nat.mod_eq_of_lt hk, Nat.shiftRight_eq_div_pow]

theorem UInt32.toUInt8_and_255 (v : UInt32) : (v &&& 0xff).toUInt8 = UInt8.ofNat v.toNat := by
  apply UInt8.toNat_inj.mp
  rw [UInt32.toNat_toUInt8, UInt32.toNat_and, show (0xff : UInt32).toNat = 2 ^ 8 - 1 from rfl,
    Nat.and_two_pow_sub_one_eq_mod, Nat.mod_mod, UInt8.toNat_ofNat']

/-- An octet of a 32-bit word. -/
theorem UInt32.toUInt8_shiftRight (v s : UInt32) (k : ℕ) (hs : s.toNat = k) (hk : k < 32) :
    (v >>> s &&& 0xff).toUInt8 = UInt8.ofNat (v.toNat / 2 ^ k) := by
  rw [UInt32.toUInt8_and_255, v.toNat_shiftRight_eq_div s k hs hk]

/-- An octet of a 64-bit word. -/
theorem UInt64.toUInt8_shiftRight (v s : UInt64) (k : ℕ) (hs : s.toNat = k) (hk : k < 64) :
    (v >>> s &&& 0xff).toUInt8 = UInt8.ofNat (v.toNat / 2 ^ k) := by
  apply UInt8.toNat_inj.mp
  rw [UInt64.toNat_toUInt8, UInt64.toNat_and, show (0xff : UInt64).toNat = 2 ^ 8 - 1 from rfl,
    Nat.and_two_pow_sub_one_eq_mod, Nat.mod_mod, UInt8.toNat_ofNat', UInt64.toNat_shiftRight, hs,
    Nat.mod_eq_of_lt hk, Nat.shiftRight_eq_div_pow]

/-- The octets of a 64-bit word, as a loop over the shifts writes them. -/
theorem UInt64.map_toUInt8_shiftRight (v : UInt64) :
    ((List.range 8).map fun i => (v >>> UInt64.ofNat ((7 - i) * 8)).toUInt8) =
      beBytes 8 v.toNat := by
  rw [beBytes_eq_map]
  refine List.map_congr_left fun i _ => ?_
  have hshift : (UInt64.ofNat ((7 - i) * 8)).toNat = (7 - i) * 8 := by
    rw [UInt64.toNat_ofNat', Nat.mod_eq_of_lt (by omega)]
  have hmod : (7 - i) * 8 % 64 = 8 * (7 - i) := by omega
  apply UInt8.toNat_inj.mp
  rw [UInt64.toNat_toUInt8, UInt64.toNat_shiftRight, hshift, hmod, Nat.shiftRight_eq_div_pow,
    UInt8.toNat_ofNat', Nat.pow_mul]

/-- The octets of a 32-bit word, as a loop over the shifts writes them. -/
theorem UInt32.map_toUInt8_shiftRight (v : UInt32) :
    ((List.range 4).map fun i => (v >>> UInt32.ofNat ((3 - i) * 8)).toUInt8) =
      beBytes 4 v.toNat := by
  rw [beBytes_eq_map]
  refine List.map_congr_left fun i _ => ?_
  have hshift : (UInt32.ofNat ((3 - i) * 8)).toNat = (3 - i) * 8 := by
    rw [UInt32.toNat_ofNat', Nat.mod_eq_of_lt (by omega)]
  apply UInt8.toNat_inj.mp
  rw [UInt32.toNat_toUInt8, v.toNat_shiftRight_eq_div _ _ hshift (by omega), UInt8.toNat_ofNat',
    Nat.mul_comm, Nat.pow_mul]

/-- One step of a big-endian accumulator on 64-bit words, as long as the word has room. -/
theorem UInt64.toNat_shiftLeft_or (v : UInt64) (b : UInt8) (h : v.toNat < 2 ^ 56) :
    (v <<< 8 ||| b.toUInt64).toNat = v.toNat * 256 + b.toNat := by
  have hb := b.toNat_lt
  rw [UInt64.toNat_or, UInt64.toNat_shiftLeft, UInt8.toNat_toUInt64]
  simp only [UInt64.reduceToNat, Nat.reduceMod]
  rw [Nat.shiftLeft_eq, Nat.mod_eq_of_lt (by omega), Nat.or_eq_add_of_dvd 8 ⟨v.toNat, by ring⟩ hb]

/-- The 16-bit word of two octets. -/
theorem UInt16.toNat_shiftLeft_or (hi lo : UInt8) :
    (hi.toUInt16 <<< 8 ||| lo.toUInt16).toNat = beNat [hi, lo] := by
  have hhi := hi.toNat_lt
  have hlo := lo.toNat_lt
  rw [UInt16.toNat_or, UInt16.toNat_shiftLeft, UInt8.toNat_toUInt16, UInt8.toNat_toUInt16]
  simp only [UInt16.reduceToNat, Nat.reduceMod, beNat, List.foldl_cons, List.foldl_nil]
  rw [Nat.shiftLeft_eq, Nat.mod_eq_of_lt (by omega),
    Nat.or_eq_add_of_dvd 8 ⟨hi.toNat, by ring⟩ hlo]
  omega
