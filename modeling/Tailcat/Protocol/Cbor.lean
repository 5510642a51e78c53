import Tailcat.Base.Cursor
import Tailcat.Protocol.Types

/-!
# CBOR

The reader and the writer of the definite-length CBOR subset an address is spelled in. A writer
only appends, so each of its methods is the octets it appends.

## Main definitions

* `CborReader`: a position in the octets; its methods throw or move on
* `CborReader.skip`: one item of any shape
* `CborWriter`: the octets of heads, texts, keys, integers and booleans

## Main results

* `CborReader.reads_head`, `reads_text`, `reads_bytes`, `reads_integer`, `reads_boolean`: each
  method of the reader reads what the corresponding method of the writer appends
* `CborReader.skip_eq`: the recursive equation of `skip`
-/

namespace Tailcat

/-- The error of the address parser. -/
def parseError (message : String) : Exn := .runtimeError ("tailcat address: " ++ message)

/-- The octets of an address, and how far they are read. -/
abbrev CborReader := Cursor UInt8

/-- A method of the reader. -/
abbrev CborM (α : Type) := Reader Exn UInt8 α

namespace CborReader

/-- Whether everything is read. -/
def done (r : CborReader) : Bool := r.pos == r.data.length

/-- There are so many octets left. -/
def require (n : ℕ) : CborM Unit := do
  let r ← Reader.get
  if n > r.data.length - r.pos then Reader.fail (parseError "truncated CBOR")

/-- There are so many octets left, for a length that was read. -/
def requireLen (n : UInt64) : CborM Unit := do
  if n.toNat > 2 ^ 64 - 1 then Reader.fail (parseError "CBOR length overflow")
  require n.toNat

/-- `data_[pos_++]` -/
def next : CborM UInt8 := do
  let r ← Reader.get
  Reader.move 1
  return r.data.getD r.pos 0

/-- `require(1)` and the next octet. -/
def octet : CborM UInt8 := do
  require 1
  next

/-- `(value << 8U) | b` -/
def shiftIn (value : UInt64) (b : UInt8) : UInt64 := value <<< 8 ||| b.toUInt64

/-- `require(n)` and the next `n` octets, as one big-endian number. -/
def uint (n : ℕ) : CborM UInt64 := do
  require n
  Reader.times (fun value => return shiftIn value (← next)) n 0

/-- `require_len(len)` and the next `len` octets. -/
def span (len : UInt64) : CborM (Vec UInt8 (2 ^ 64 - 1)) := do
  requireLen len
  let r ← Reader.get
  Reader.move len.toNat
  return ⟨r.rest.take len.toNat, by have := len.toNat_lt; simp; omega⟩

/-- The octets behind a first octet with this additional information, 0 when it is reserved. -/
def valueWidth (ai : UInt8) : ℕ :=
  if ai = 24 then 1 else if ai = 25 then 2 else if ai = 26 then 4 else if ai = 27 then 8 else 0

/-- The major type and the value of an item's head. -/
def head : CborM (UInt8 × UInt64) := do
  let first ← octet
  let major := first >>> 5
  let ai := first &&& 31
  if ai < 24 then
    return (major, ai.toUInt64)
  if ai = 31 then
    Reader.fail (parseError "indefinite-length CBOR is not accepted")
  let n := valueWidth ai
  if n = 0 then
    Reader.fail (parseError "invalid CBOR additional information")
  let value ← uint n
  return (major, value)

/-- The argument of an item, which must be of this type. -/
def expectMajor (want : UInt8) : CborM UInt64 := do
  let (major, value) ← head
  if major ≠ want then
    Reader.fail (parseError "unexpected CBOR type")
  return value

/-- The number of entries of a map. -/
def mapSize : CborM UInt64 := expectMajor 5

/-- The number of items of an array. -/
def arraySize : CborM UInt64 := expectMajor 4

/-- A text string. -/
def text : CborM Text := do
  let len ← expectMajor 3
  span len

/-- A byte string. -/
def bytes : CborM (List UInt8) := do
  let len ← expectMajor 2
  return (← span len).toList

/-- An integer of either sign, when it fits 64 bits with a sign. -/
def integer : CborM Int64 := do
  let (major, value) ← head
  if major = 0 then
    if value > 0x7fffffffffffffff then
      Reader.fail (parseError "integer overflow")
    return value.toInt64
  if major = 1 then
    if value > 0x7fffffffffffffff then
      Reader.fail (parseError "negative integer overflow")
    return -1 - value.toInt64
  Reader.fail (parseError "expected integer")

/-- `false` or `true`. -/
def boolean : CborM Bool := do
  let b ← octet
  if b = 0xf4 then
    return false
  if b = 0xf5 then
    return true
  Reader.fail (parseError "expected boolean")

/-- `skip`, with `self` for its recursive calls. -/
def skipItem (self : CborM Unit) : CborM Unit := do
  let (major, value) ← head
  if major = 0 ∨ major = 1 ∨ major = 7 then
    return ()
  else if major = 2 ∨ major = 3 then
    requireLen value
    Reader.move value.toNat
  else if major = 4 then
    Reader.times (fun _ => self) value.toNat ()
  else if major = 5 then
    Reader.times (fun _ => do self; self) value.toNat ()
  else if major = 6 then
    self
  else
    Reader.fail (parseError "unsupported CBOR major type")

/-- `skip` with a bound on its depth. A call at depth 0 is in front of no octet, where the head of
an item is always truncated. -/
def skipWithin : ℕ → CborM Unit
  | 0 => Reader.fail (parseError "truncated CBOR")
  | depth + 1 => skipItem (skipWithin depth)

/-- One item of any shape. Every nested call has consumed a head, so the octets that are left
bound its depth. -/
def skip : CborM Unit := fun r => skipWithin r.rest.length r

end CborReader

namespace CborWriter

/-- The first octets of an item, which are as few as its argument allows. -/
def head (major : UInt8) (value : UInt64) : List UInt8 :=
  let pre := major <<< 5
  if value < 24 then
    [pre ||| value.toUInt8]
  else if value ≤ 0xff then
    [pre ||| 24, value.toUInt8]
  else if value ≤ 0xffff then
    [pre ||| 25, (value >>> 8 &&& 0xff).toUInt8, (value &&& 0xff).toUInt8]
  else if value ≤ 0xffffffff then
    (pre ||| 26) :: ([24, 16, 8, 0] : List UInt64).map fun shift =>
      (value >>> shift &&& 0xff).toUInt8
  else
    (pre ||| 27) :: ([56, 48, 40, 32, 24, 16, 8, 0] : List UInt64).map fun shift =>
      (value >>> shift &&& 0xff).toUInt8

/-- The head of a map with so many entries. -/
def map (n : UInt64) : List UInt8 := head 5 n

/-- The head of an array with so many items. -/
def array (n : UInt64) : List UInt8 := head 4 n

/-- A text string. -/
def text (s : Text) : List UInt8 := head 3 (UInt64.ofNat s.toList.length) ++ s.toList

/-- A key as a byte string. -/
def bytes (b : Key32) : List UInt8 := head 2 (UInt64.ofNat b.toList.length) ++ b.toList

/-- An integer of either sign. -/
def integer (value : Int64) : List UInt8 :=
  if value ≥ 0 then head 0 value.toUInt64 else head 1 (-(value + 1)).toUInt64

/-- `false` or `true`. -/
def boolean (value : Bool) : List UInt8 := [if value then 0xf5 else 0xf4]

end CborWriter

namespace CborReader

open Reader

/-! ## What the primitive methods do -/

theorem require_apply (n : ℕ) (r : CborReader) :
    require n r = if r.rest.length < n then .error (parseError "truncated CBOR") else .ok ((), r) := by
  rw [Cursor.length_rest]
  by_cases h : r.data.length - r.pos < n <;> simp [require, bind_apply, h]

theorem requireLen_apply (n : UInt64) (r : CborReader) : requireLen n r = require n.toNat r := by
  have h : ¬ n.toNat > 2 ^ 64 - 1 := by
    have := n.toNat_lt
    omega
  rw [requireLen, if_neg h]

theorem require_bind {α : Type} (n : ℕ) (p : CborM α) (r : CborReader) :
    (do require n; p) r =
      if r.rest.length < n then .error (parseError "truncated CBOR") else p r := by
  by_cases h : r.rest.length < n
  · rw [if_pos h, bind_of_error]
    rw [require_apply, if_pos h]
  · rw [if_neg h, bind_of_ok (a := ()) (d := r)]
    rw [require_apply, if_neg h]

theorem requireLen_bind {α : Type} (n : UInt64) (p : CborM α) (r : CborReader) :
    (do requireLen n; p) r =
      if r.rest.length < n.toNat then .error (parseError "truncated CBOR") else p r := by
  rw [← require_bind, bind_apply, bind_apply, requireLen_apply]

theorem next_apply {r : CborReader} {b : UInt8} {bs : List UInt8} (h : r.rest = b :: bs) :
    next r = .ok (b, r.advance 1) := by
  have hb : r.data[r.pos]? = some b := by
    rw [← List.head?_drop, show r.data.drop r.pos = b :: bs from h, List.head?_cons]
  rw [next, bind_of_ok (get_apply r), bind_of_ok (move_apply 1 r), pure_apply, List.getD, hb]
  rfl

theorem octet_nil {r : CborReader} (h : r.rest = []) :
    octet r = .error (parseError "truncated CBOR") := by
  rw [octet, bind_of_error]
  simp [require_apply, h]

theorem octet_cons {r : CborReader} {b : UInt8} {bs : List UInt8} (h : r.rest = b :: bs) :
    octet r = .ok (b, r.advance 1) := by
  rw [octet, bind_of_ok (a := ()) (d := r), next_apply h]
  simp [require_apply, h]

/-- The octets of a number, from the first. -/
theorem times_next {r : CborReader} {bs post : List UInt8} (value : UInt64)
    (h : r.rest = bs ++ post) :
    times (fun value => return shiftIn value (← next)) bs.length value r =
      .ok (bs.foldl shiftIn value, r.advance bs.length) := by
  induction bs generalizing r value with
  | nil => rfl
  | cons b bs ih =>
    rw [List.cons_append] at h
    rw [List.length_cons, times_succ, bind_of_ok (bind_of_ok (next_apply h)), ih]
    · simp [Nat.add_comm]
    · simp [h]

theorem uint_apply (n : ℕ) (r : CborReader) : uint n r =
    if r.rest.length < n then .error (parseError "truncated CBOR")
    else .ok ((r.rest.take n).foldl shiftIn 0, r.advance n) := by
  rw [uint, require_bind]
  split
  · rfl
  · rename_i hn
    have hlen : (r.rest.take n).length = n := List.length_take_of_le (Nat.not_lt.mp hn)
    have h := times_next 0 (List.take_append_drop n r.rest).symm
    rwa [hlen] at h

/-! ## Reading what was written -/

theorem reads_uint (bs : List UInt8) : Reads (uint bs.length) bs (bs.foldl shiftIn 0) := by
  intro c post h
  rw [uint_apply, if_neg (by simp [h]), h, List.take_left]

theorem reads_octet (b : UInt8) : Reads octet [b] b := fun _ _ h => octet_cons h

/-- The accumulator of at most eight octets does not overflow. -/
theorem toNat_foldl_shiftIn {bs : List UInt8} (h : bs.length ≤ 8) :
    (bs.foldl shiftIn 0).toNat = beNat bs := by
  induction bs using List.reverseRecOn with
  | nil => rfl
  | append_singleton bs b ih =>
    rw [List.length_append, List.length_singleton] at h
    have hb : beNat bs < 2 ^ 56 :=
      (beNat_lt bs).trans_le (Nat.pow_le_pow_right (by decide) (by omega : bs.length ≤ 7))
    rw [List.foldl_append, List.foldl_cons, List.foldl_nil, shiftIn,
      UInt64.toNat_shiftLeft_or _ _ (by rwa [ih (by omega)]), ih (by omega), beNat, beNat,
      List.foldl_append, List.foldl_cons, List.foldl_nil]

theorem foldl_shiftIn_beBytes {k : ℕ} {v : UInt64} (hk : k ≤ 8) (hv : v.toNat < 256 ^ k) :
    (beBytes k v.toNat).foldl shiftIn 0 = v := by
  apply UInt64.toNat_inj.mp
  rw [toNat_foldl_shiftIn (by simpa using hk), beNat_beBytes_of_lt hv]

/-- The first octet of a head gives back the major type and the additional information. -/
theorem firstOctet {major ai : UInt8} (hm : major < 8) (ha : ai < 32) :
    (major <<< 5 ||| ai) >>> 5 = major ∧ (major <<< 5 ||| ai) &&& 31 = ai := by
  have h : ∀ m : Fin 8, ∀ a : Fin 32,
      (UInt8.ofNat m.val <<< 5 ||| UInt8.ofNat a.val) >>> 5 = UInt8.ofNat m.val ∧
        (UInt8.ofNat m.val <<< 5 ||| UInt8.ofNat a.val) &&& 31 = UInt8.ofNat a.val := by
    decide +kernel
  simpa using h ⟨major.toNat, hm⟩ ⟨ai.toNat, ha⟩

/-- A head whose value is in its first octet. -/
theorem reads_head_immediate {major ai : UInt8} (hm : major < 8) (ha : ai < 24) :
    Reads head [major <<< 5 ||| ai] (major, ai.toUInt64) := by
  obtain ⟨h₁, h₂⟩ := firstOctet hm (UInt8.lt_trans ha (by decide : (24 : UInt8) < 32))
  refine (reads_octet _).bind_pure ?_
  simp only [h₁, h₂, if_pos ha]
  exact .pure _

/-- A head whose value follows its first octet. -/
theorem reads_head_following {major : UInt8} (ai : UInt8) (k : ℕ) {v : UInt64} (hm : major < 8)
    (hk : (ai, k) ∈ [((24 : UInt8), 1), (25, 2), (26, 4), (27, 8)]) (hv : v.toNat < 256 ^ k) :
    Reads head ((major <<< 5 ||| ai) :: beBytes k v.toNat) (major, v) := by
  have hai : ai < 32 ∧ ¬ ai < 24 ∧ ai ≠ 31 ∧ k ≠ 0 ∧ k ≤ 8 ∧ k = valueWidth ai := by
    simp only [List.mem_cons, Prod.mk.injEq, List.not_mem_nil, or_false] at hk
    rcases hk with ⟨rfl, rfl⟩ | ⟨rfl, rfl⟩ | ⟨rfl, rfl⟩ | ⟨rfl, rfl⟩ <;> decide
  obtain ⟨h32, h24, h31, hk0, hk8, hn⟩ := hai
  obtain ⟨h₁, h₂⟩ := firstOctet hm h32
  have hu : Reads (uint k) (beBytes k v.toNat) v := by
    have h := reads_uint (beBytes k v.toNat)
    rwa [length_beBytes, foldl_shiftIn_beBytes hk8 hv] at h
  rw [← List.singleton_append]
  refine (reads_octet _).bind ?_
  simp only [h₁, h₂, if_neg h24, if_neg h31, ← hn, if_neg hk0]
  exact hu.bind_pure (.pure _)

theorem reads_head {major : UInt8} (value : UInt64) (hm : major < 8) :
    Reads head (CborWriter.head major value) (major, value) := by
  have hv := value.toNat_lt
  have h8 : (value &&& 0xff).toUInt8 = UInt8.ofNat value.toNat := by
    simpa using value.toUInt8_shiftRight 0 0 rfl (by decide)
  rw [CborWriter.head]
  split
  · -- The value fits into the initial octet.
    rename_i h
    have hlt : value.toNat < 24 := h
    have hval : value.toUInt8.toUInt64 = value := by
      apply UInt64.toNat_inj.mp
      rw [UInt8.toNat_toUInt64, UInt64.toNat_toUInt8]
      omega
    have hai : value.toUInt8 < 24 := by
      rw [UInt8.lt_iff_toNat_lt, UInt64.toNat_toUInt8]
      exact (Nat.mod_le _ _).trans_lt hlt
    simpa [hval] using reads_head_immediate hm hai
  -- Otherwise it follows in one, two, four or eight octets.
  split
  · rename_i h
    have hle : value.toNat ≤ 0xff := h
    have := reads_head_following 24 1 (v := value) hm (by simp) (by omega)
    simpa [beBytes] using this
  split
  · rename_i h
    have hle : value.toNat ≤ 0xffff := h
    have := reads_head_following 25 2 (v := value) hm (by simp) (by omega)
    rw [h8, value.toUInt8_shiftRight 8 8 rfl (by decide)]
    simpa [beBytes] using this
  split
  · rename_i h
    have hle : value.toNat ≤ 0xffffffff := h
    have := reads_head_following 26 4 (v := value) hm (by simp) (by omega)
    simp only [List.map_cons, List.map_nil, value.toUInt8_shiftRight 24 24 rfl (by decide),
      value.toUInt8_shiftRight 16 16 rfl (by decide), value.toUInt8_shiftRight 8 8 rfl (by decide),
      value.toUInt8_shiftRight 0 0 rfl (by decide)]
    simpa [beBytes] using this
  · have := reads_head_following 27 8 (v := value) hm (by simp) (by omega)
    simp only [List.map_cons, List.map_nil, value.toUInt8_shiftRight 56 56 rfl (by decide),
      value.toUInt8_shiftRight 48 48 rfl (by decide), value.toUInt8_shiftRight 40 40 rfl (by decide),
      value.toUInt8_shiftRight 32 32 rfl (by decide), value.toUInt8_shiftRight 24 24 rfl (by decide),
      value.toUInt8_shiftRight 16 16 rfl (by decide), value.toUInt8_shiftRight 8 8 rfl (by decide),
      value.toUInt8_shiftRight 0 0 rfl (by decide)]
    simpa [beBytes] using this

theorem reads_expectMajor {want : UInt8} (value : UInt64) (hw : want < 8) :
    Reads (expectMajor want) (CborWriter.head want value) value := by
  refine (reads_head value hw).bind_pure ?_
  simp only [ne_eq, not_true_eq_false, if_false]
  exact .pure _

theorem reads_mapSize (n : UInt64) : Reads mapSize (CborWriter.map n) n :=
  reads_expectMajor n (by decide)

theorem reads_arraySize (n : UInt64) : Reads arraySize (CborWriter.array n) n :=
  reads_expectMajor n (by decide)

theorem span_apply (len : UInt64) {r : CborReader} (h : len.toNat ≤ r.rest.length) :
    ∃ v : Text, v.toList = r.rest.take len.toNat ∧ span len r = .ok (v, r.advance len.toNat) := by
  refine ⟨⟨r.rest.take len.toNat, ?_⟩, rfl, ?_⟩
  · have := len.toNat_lt
    simp
    omega
  · rw [span, requireLen_bind, if_neg (Nat.not_lt.mpr h)]
    rfl

theorem span_truncated {len : UInt64} {r : CborReader} (h : r.rest.length < len.toNat) :
    span len r = .error (parseError "truncated CBOR") := by
  rw [span, requireLen_bind, if_pos h]

theorem reads_span (s : Text) : Reads (span (UInt64.ofNat s.toList.length)) s.toList s := by
  intro c post h
  have hl : (UInt64.ofNat s.toList.length).toNat = s.toList.length := by
    rw [UInt64.toNat_ofNat', Nat.mod_eq_of_lt]
    have := s.length_le
    omega
  obtain ⟨v, hv, hs⟩ := span_apply (UInt64.ofNat s.toList.length) (r := c) (by simp [hl, h])
  rw [hs, hl, show v = s from Vec.ext (by rw [hv, hl, h, List.take_left])]

theorem reads_text (s : Text) : Reads text (CborWriter.text s) s :=
  (reads_expectMajor _ (by decide)).bind (reads_span s)

theorem reads_bytes (b : Key32) : Reads bytes (CborWriter.bytes b) b.toList := by
  have hb : b.toList.length ≤ 2 ^ 64 - 1 := by simp
  exact (reads_expectMajor _ (by decide)).bind ((reads_span ⟨b.toList, hb⟩).bind_pure (.pure _))

theorem toUInt64_le_of_nonneg {v : Int64} (h : 0 ≤ v) : v.toUInt64 ≤ 0x7fffffffffffffff := by
  have hv := v.toInt_lt
  have hn : v.toNatClampNeg = v.toInt.toNat := rfl
  rw [UInt64.le_iff_toNat_le, Int64.toNat_toUInt64_of_le h, hn]
  change v.toInt.toNat ≤ 0x7fffffffffffffff
  omega

/-- The magnitude that is written for a negative number is not negative. -/
theorem complement_nonneg {v : Int64} (h : ¬ 0 ≤ v) : 0 ≤ -(v + 1) := by
  have h₁ := v.le_toInt
  have h₂ := v.toInt_lt
  rw [Int64.le_iff_toInt_le] at *
  rw [Int64.toInt_neg, Int64.toInt_add]
  simp only [Int64.reduceToInt, Int.bmod] at *
  omega

theorem complement_complement (v : Int64) : -1 - (-(v + 1)).toUInt64.toInt64 = v := by
  simp only [Int64.toInt64_toUInt64]
  grind

theorem reads_integer (value : Int64) : Reads integer (CborWriter.integer value) value := by
  rw [CborWriter.integer]
  split
  · rename_i h
    have hle : ¬ value.toUInt64 > 0x7fffffffffffffff := UInt64.not_lt.mpr (toUInt64_le_of_nonneg h)
    refine (reads_head _ (by decide)).bind_pure ?_
    simp only [if_true, if_neg hle, Int64.toInt64_toUInt64]
    exact .pure _
  · rename_i h
    have hle : ¬ (-(value + 1)).toUInt64 > 0x7fffffffffffffff :=
      UInt64.not_lt.mpr (toUInt64_le_of_nonneg (complement_nonneg h))
    refine (reads_head _ (by decide)).bind_pure ?_
    simp only [show ¬ (1 : UInt8) = 0 by decide, if_false, if_true, if_neg hle,
      complement_complement]
    exact .pure _

theorem reads_boolean (value : Bool) : Reads boolean (CborWriter.boolean value) value := by
  cases value <;> exact (reads_octet _).bind_pure (.pure _)

/-! ## Moving within the octets -/

theorem consumes_octet : Consumes octet 1 := by
  intro c b c' h
  rcases hr : c.rest with - | ⟨b', bs⟩
  · rw [octet_nil hr] at h
    cases h
  · rw [octet_cons hr] at h
    obtain ⟨-, rfl⟩ := Prod.mk.inj (Except.ok.inj h)
    exact ⟨1, le_rfl, by simp, rfl⟩

theorem consumes_uint (n : ℕ) : Consumes (uint n) n := by
  intro c v c' h
  rw [uint_apply] at h
  split at h
  · cases h
  · rename_i hn
    obtain ⟨-, rfl⟩ := Prod.mk.inj (Except.ok.inj h)
    exact ⟨n, le_rfl, Nat.not_lt.mp hn, rfl⟩

theorem consumes_head : Consumes head 1 := by
  refine consumes_octet.bind (l := 0) fun first => ?_
  simp only [fail_bind]
  split
  · exact .pure _
  split
  · exact .fail _ _
  split
  · exact .fail _ _
  · exact ((consumes_uint _).mono (Nat.zero_le _)).bind fun _ => .pure _

theorem consumes_skipItem {self : CborM Unit} (h : Consumes self 0) : Consumes (skipItem self) 1 := by
  refine consumes_head.bind (l := 0) fun ⟨major, value⟩ => ?_
  dsimp only
  split
  · exact .pure _
  split
  · -- A string is skipped as a whole, when it is all there.
    intro c u c' h
    rw [requireLen_bind] at h
    split at h
    · cases h
    · rename_i hn
      obtain ⟨-, rfl⟩ := Prod.mk.inj (Except.ok.inj h)
      exact ⟨value.toNat, Nat.zero_le _, Nat.not_lt.mp hn, rfl⟩
  split
  · exact (Consumes.times (fun _ => h) _ _).mono (Nat.zero_le _)
  split
  · exact (Consumes.times (fun _ => h.bind fun _ => h) _ _).mono (Nat.zero_le _)
  split
  · exact h
  · exact .fail _ _

theorem consumes_skipWithin (depth : ℕ) : Consumes (skipWithin depth) 0 := by
  induction depth with
  | zero => exact .fail _ _
  | succ depth ih => exact (consumes_skipItem ih).mono (Nat.zero_le _)

/-! ## The recursion of `skip` -/

theorem skipItem_agreeWithin {self self' : CborM Unit} {k : ℕ} (h : AgreeWithin k self self')
    (hc : Consumes self 0) : AgreeWithin (k + 1) (skipItem self) (skipItem self') := by
  refine AgreeWithin.bind_left consumes_head fun ⟨major, value⟩ => ?_
  dsimp only
  split
  · exact .refl _ _
  split
  · exact .refl _ _
  split
  · exact .times (fun _ => h) (fun _ => hc) _ _
  split
  · exact .times (fun _ => h.bind hc fun _ => h) (fun _ => hc.bind fun _ => hc) _ _
  split
  · exact h
  · exact .refl _ _

theorem skipItem_nil (self : CborM Unit) {r : CborReader} (h : r.rest = []) :
    skipItem self r = .error (parseError "truncated CBOR") := by
  rw [skipItem, bind_of_error]
  rw [head, bind_of_error (octet_nil h)]

/-- A larger bound on the depth changes nothing once the octets that are left fit the bound. -/
theorem skipWithin_agreeWithin {k l : ℕ} (h : k ≤ l) :
    AgreeWithin k (skipWithin k) (skipWithin l) := by
  induction k generalizing l with
  | zero =>
    intro c hc
    have hr : c.rest = [] := List.length_eq_zero_iff.mp (Nat.le_zero.mp hc)
    cases l with
    | zero => rfl
    | succ l => exact (skipItem_nil _ hr).symm
  | succ k ih =>
    obtain ⟨l, rfl⟩ : ∃ l', l = l' + 1 := ⟨l - 1, by omega⟩
    exact skipItem_agreeWithin (ih (by omega)) (consumes_skipWithin k)

/-- **The recursion of the source**: `skip` is `skipItem` with `skip` for its recursive calls. -/
theorem skip_eq : skip = skipItem skip := by
  funext c
  cases hn : c.rest.length with
  | zero =>
    rw [skipItem_nil _ (List.length_eq_zero_iff.mp hn), skip, hn]
    rfl
  | succ n =>
    have h : AgreeWithin n (skipWithin n) skip := fun c' hc =>
      (skipWithin_agreeWithin hc c' le_rfl).symm
    rw [skip, hn]
    exact skipItem_agreeWithin h (consumes_skipWithin n) c hn.le

theorem skip_of_head {r r' : CborReader} {major : UInt8} {value : UInt64}
    (h : head r = .ok ((major, value), r')) : skip r =
      (if major = 0 ∨ major = 1 ∨ major = 7 then pure ()
        else if major = 2 ∨ major = 3 then do requireLen value; Reader.move value.toNat
        else if major = 4 then Reader.times (fun _ => skip) value.toNat ()
        else if major = 5 then Reader.times (fun _ => do skip; skip) value.toNat ()
        else if major = 6 then skip
        else Reader.fail (parseError "unsupported CBOR major type") : CborM Unit) r' := by
  conv_lhs => rw [skip_eq, skipItem, bind_of_ok h]

/-! ## Skipping what a method reads -/

theorem head_of_expectMajor {want : UInt8} {r r' : CborReader} {value : UInt64}
    (h : expectMajor want r = .ok (value, r')) : head r = .ok ((want, value), r') := by
  obtain ⟨⟨major, v⟩, c, hh, he⟩ := bind_eq_ok.mp h
  by_cases hm : major = want
  · simp only [hm, ne_eq, not_true_eq_false, if_false] at he
    obtain ⟨rfl, rfl⟩ := Prod.mk.inj (Except.ok.inj he)
    rw [hh, hm]
  · simp only [ne_eq, hm, not_false_eq_true, if_true, fail_bind, fail_apply, reduceCtorEq] at he

theorem span_eq_ok {len : UInt64} {r r' : CborReader} {v : Text}
    (h : span len r = .ok (v, r')) :
    len.toNat ≤ r.rest.length ∧ v.toList = r.rest.take len.toNat ∧ r' = r.advance len.toNat := by
  by_cases hn : r.rest.length < len.toNat
  · rw [span_truncated hn] at h
    cases h
  · obtain ⟨w, hw, hs⟩ := span_apply len (Nat.not_lt.mp hn)
    rw [hs] at h
    obtain ⟨rfl, rfl⟩ := Prod.mk.inj (Except.ok.inj h)
    exact ⟨Nat.not_lt.mp hn, hw, rfl⟩

theorem skip_of_span {want : UInt8} (hw : want = 2 ∨ want = 3) {r r₁ r' : CborReader}
    {len : UInt64} {v : Text} (hh : expectMajor want r = .ok (len, r₁))
    (hs : span len r₁ = .ok (v, r')) : skip r = .ok ((), r') := by
  obtain ⟨hl, -, rfl⟩ := span_eq_ok hs
  have hw₀ : ¬ (want = 0 ∨ want = 1 ∨ want = 7) := by
    rcases hw with rfl | rfl <;> decide
  rw [skip_of_head (head_of_expectMajor hh), if_neg hw₀, if_pos hw, requireLen_bind,
    if_neg (Nat.not_lt.mpr hl)]
  rfl

theorem text_skipsAs : SkipsAs text skip := by
  refine skipsAs_iff.mpr fun r v r' h => ?_
  obtain ⟨len, r₁, hh, hs⟩ := bind_eq_ok.mp h
  exact skip_of_span (.inr rfl) hh hs

theorem bytes_skipsAs : SkipsAs bytes skip := by
  refine skipsAs_iff.mpr fun r v r' h => ?_
  obtain ⟨len, r₁, hh, h⟩ := bind_eq_ok.mp h
  obtain ⟨w, r₂, hs, h⟩ := bind_eq_ok.mp h
  obtain ⟨-, rfl⟩ := Prod.mk.inj (Except.ok.inj h)
  exact skip_of_span (.inl rfl) hh hs

theorem integer_skipsAs : SkipsAs integer skip := by
  refine skipsAs_iff.mpr fun r v r' h => ?_
  obtain ⟨⟨major, value⟩, r₁, hh, h⟩ := bind_eq_ok.mp h
  -- Of both major types, an integer ends where its head does.
  have hm : (major = 0 ∨ major = 1) ∧ r₁ = r' := by
    simp only [fail_bind] at h
    split at h
    · split at h
      · cases h
      · exact ⟨.inl ‹_›, (Prod.mk.inj (Except.ok.inj h)).2⟩
    · split at h
      · split at h
        · cases h
        · exact ⟨.inr ‹_›, (Prod.mk.inj (Except.ok.inj h)).2⟩
      · cases h
  obtain ⟨hm, rfl⟩ := hm
  rw [skip_of_head hh, if_pos (hm.elim .inl fun h => .inr (.inl h))]
  rfl

theorem boolean_skipsAs : SkipsAs boolean skip := by
  refine skipsAs_iff.mpr fun r v r' h => ?_
  obtain ⟨b, r₁, ho, h⟩ := bind_eq_ok.mp h
  have hb : (b = 0xf4 ∨ b = 0xf5) ∧ r₁ = r' := by
    split at h
    · exact ⟨.inl ‹_›, (Prod.mk.inj (Except.ok.inj h)).2⟩
    · split at h
      · exact ⟨.inr ‹_›, (Prod.mk.inj (Except.ok.inj h)).2⟩
      · cases h
  obtain ⟨hb, rfl⟩ := hb
  -- The two octets are heads of simple values.
  have hh : ∃ value, head r = .ok ((7, value), r₁) := by
    rw [head, bind_of_ok ho]
    rcases hb with rfl | rfl
    · exact ⟨20, rfl⟩
    · exact ⟨21, rfl⟩
  obtain ⟨value, hh⟩ := hh
  rw [skip_of_head hh, if_pos (.inr (.inr rfl))]
  rfl

/-- An array of items that `skip` skips is skipped by `skip`. -/
theorem array_skipsAs {α : Type} {p : UInt64 → CborM α}
    (h : ∀ n, SkipsAs (p n) (Reader.times (fun _ => skip) n.toNat ())) :
    SkipsAs (arraySize >>= p) skip := by
  refine skipsAs_iff.mpr fun r v r' hr => ?_
  obtain ⟨n, r₁, hh, hp⟩ := bind_eq_ok.mp hr
  rw [skip_of_head (head_of_expectMajor hh)]
  exact skipsAs_iff.mp (h n) r₁ v r' hp

/-- A map whose keys and values `skip` skips is skipped by `skip`. -/
theorem map_skipsAs {α : Type} {p : UInt64 → CborM α}
    (h : ∀ n, SkipsAs (p n) (Reader.times (fun _ => do skip; skip) n.toNat ())) :
    SkipsAs (mapSize >>= p) skip := by
  refine skipsAs_iff.mpr fun r v r' hr => ?_
  obtain ⟨n, r₁, hh, hp⟩ := bind_eq_ok.mp hr
  rw [skip_of_head (head_of_expectMajor hh)]
  exact skipsAs_iff.mp (h n) r₁ v r' hp

end CborReader

end Tailcat
