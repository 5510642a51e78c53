import Tailcat.Base.Exceptions
import Tailcat.Base.Hex
import Tailcat.Protocol.Types

/-!
# Keys as text

The text of a key is the name of its type, a colon, and its octets in hexadecimal digits.

## Main definitions

* `hexKey`: writing a key
* `parseKey`: reading one

## Main results

* `parseKey_eq_ok_iff`: a key is read from its type and its digits, in either case, and from nothing
  else
* `parseKey_hexKey`: what is written is read
-/

namespace Tailcat

open Ctype

/-- The text of a key: its type, and the digits of its octets. -/
def hexKey (type : List UInt8) (key : Key32) : List UInt8 := type ++ Hex.encode key.toList

/-- The number of a digit, in either case. -/
def hexNibble (c : UInt8) : Except Exn UInt8 :=
  if isDigit c then
    .ok (c - 0x30)
  else
    let c := toLower c
    if 0x61 ≤ c ∧ c ≤ 0x66 then .ok (10 + (c - 0x61))
    else .error (.invalidArgument "invalid hexadecimal key text")

/-- The octet at an index, which two digits spell. -/
def keyOctet (digits : List UInt8) (i : ℕ) : Except Exn UInt8 := do
  let high ← hexNibble (digits.getD (2 * i) 0)
  let low ← hexNibble (digits.getD (2 * i + 1) 0)
  return high <<< 4 ||| low

/-- The key of a text of this type. -/
def parseKey (text type : List UInt8) : Except Exn Key32 :=
  if ¬ type <+: text then
    .error (.invalidArgument "key has wrong type prefix")
  else
    let digits := text.drop type.length
    if digits.length ≠ 64 then
      .error (.invalidArgument "key has wrong length")
    else
      List.Vector.mOfFn fun i : Fin 32 => keyOctet digits i

/-- The type of the public key of a node. -/
def nodeKeyType : List UInt8 := ascii "nodekey:"

/-- The text of the public key of a node. -/
def nodePublicText (key : Key32) : List UInt8 := hexKey nodeKeyType key

/-- The public key of a node that a text is. -/
def parseNodePublicText (text : List UInt8) : Except Exn Key32 := parseKey text nodeKeyType

/-- The text is the type and the digits of the key, up to the case of their letters. -/
def SpellsKey (type text : List UInt8) (key : Key32) : Prop :=
  ∃ digits, text = type ++ digits ∧ Hex.Spells digits key.toList

/-! ## Digits -/

/-- What is read is the number of the digit. -/
theorem hexNibble_digit {c n : UInt8} (h : hexNibble c = .ok n) :
    n < 16 ∧ toLower c = Hex.digit n := by
  have hall : (hexNibble c).toOption.all fun n => n < 16 ∧ toLower c = Hex.digit n :=
    UInt8.forall_of_ofNat (P := fun c => (hexNibble c).toOption.all fun n =>
      n < 16 ∧ toLower c = Hex.digit n) (by decide +kernel) c
  rw [h] at hall
  exact of_decide_eq_true hall

/-- A digit is read. -/
theorem exists_hexNibble {c n : UInt8} (hn : n < 16) (h : toLower c = Hex.digit n) :
    ∃ m, hexNibble c = .ok m := by
  have hsome : (hexNibble c).toOption.isSome := by
    refine UInt8.forall_of_ofNat (P := fun c => ∀ m < 16, toLower c = Hex.digit (UInt8.ofNat m) →
      (hexNibble c).toOption.isSome) (by decide +kernel) c n.toNat hn ?_
    rwa [UInt8.ofNat_toNat]
  cases hc : hexNibble c with
  | error e =>
    rw [hc] at hsome
    cases hsome
  | ok m => exact ⟨m, rfl⟩

theorem hexNibble_eq_ok_iff {c n : UInt8} :
    hexNibble c = .ok n ↔ n < 16 ∧ toLower c = Hex.digit n := by
  constructor
  · intro h
    exact hexNibble_digit h
  · rintro ⟨hn, hdigit⟩
    obtain ⟨m, hm⟩ := exists_hexNibble hn hdigit
    obtain ⟨hm', hdigit'⟩ := hexNibble_digit hm
    rw [hm, Hex.digit_inj hm' hn (hdigit'.symm.trans hdigit)]

theorem octet_eq_ok_iff {c d b : UInt8} :
    (do
        let high ← hexNibble c
        let low ← hexNibble d
        return high <<< 4 ||| low) = Except.ok b ↔
      toLower c = Hex.digit (b >>> 4) ∧ toLower d = Hex.digit (b &&& 0xf) := by
  constructor
  · intro h
    obtain ⟨high, hhigh, h⟩ := Except.bind_eq_ok_iff.mp h
    obtain ⟨low, hlow, h⟩ := Except.bind_eq_ok_iff.mp h
    cases h
    obtain ⟨hhigh, hc⟩ := hexNibble_eq_ok_iff.mp hhigh
    obtain ⟨hlow, hd⟩ := hexNibble_eq_ok_iff.mp hlow
    obtain ⟨hhigh', hlow'⟩ := Hex.halves_of_lt hhigh hlow
    rw [hhigh', hlow']
    exact ⟨hc, hd⟩
  · rintro ⟨hc, hd⟩
    rw [hexNibble_eq_ok_iff.mpr ⟨Hex.shiftRight_lt b, hc⟩,
      hexNibble_eq_ok_iff.mpr ⟨Hex.and_lt b, hd⟩]
    exact congrArg Except.ok (Hex.halves b)

theorem keyOctet_succ (c d : UInt8) (digits : List UInt8) (i : ℕ) :
    keyOctet (c :: d :: digits) (i + 1) = keyOctet digits i := by
  rw [keyOctet, keyOctet, show 2 * (i + 1) = 2 * i + 1 + 1 by omega, List.getD_cons_succ,
    List.getD_cons_succ, List.getD_cons_succ, List.getD_cons_succ]

/-- The loop over the digits reads the octets that they spell. -/
theorem mOfFn_keyOctet_eq_ok_iff {n : ℕ} {digits : List UInt8} {octets : Octets n}
    (h : digits.length = 2 * n) :
    (List.Vector.mOfFn fun i : Fin n => keyOctet digits i) = .ok octets ↔
      Hex.Spells digits octets.toList := by
  induction n generalizing digits with
  | zero =>
    obtain rfl : digits = [] := List.length_eq_zero_iff.mp h
    obtain rfl : octets = .nil := List.Vector.eq_nil octets
    exact iff_of_true rfl rfl
  | succ n ih =>
    match digits, h with
    | c :: d :: digits, h =>
      have hlength : digits.length = 2 * n := by
        simp only [List.length_cons] at h
        omega
      -- The loop reads the first octet, and then it is the loop over what is behind its digits.
      have hloop : (List.Vector.mOfFn fun i : Fin (n + 1) => keyOctet (c :: d :: digits) i) =
          (keyOctet (c :: d :: digits) 0).bind fun b =>
            (List.Vector.mOfFn fun i : Fin n => keyOctet digits i).bind fun v => .ok (b ::ᵥ v) := by
        simp only [List.Vector.mOfFn, Fin.val_succ, keyOctet_succ]
        rfl
      rw [hloop, ← List.Vector.cons_head_tail octets, List.Vector.toList_cons, Hex.spells_cons,
        ← octet_eq_ok_iff, ← ih hlength]
      constructor
      · intro h
        obtain ⟨b, hb, h⟩ := Except.bind_eq_ok_iff.mp h
        obtain ⟨v, hv, h⟩ := Except.bind_eq_ok_iff.mp h
        obtain ⟨hhead, htail⟩ := (List.Vector.eq_cons_iff _ _ _).mp (Except.ok.inj h).symm
        rw [List.Vector.head_cons] at hhead
        rw [List.Vector.tail_cons] at htail
        rw [hhead, htail]
        exact ⟨hb, hv⟩
      · rintro ⟨hb, hv⟩
        exact Except.bind_eq_ok_iff.mpr ⟨_, hb, Except.bind_eq_ok_iff.mpr ⟨_, hv, rfl⟩⟩

/-! ## Keys -/

theorem parseKey_eq_ok_iff {text type : List UInt8} {key : Key32} :
    parseKey text type = .ok key ↔ SpellsKey type text key := by
  constructor
  · intro h
    unfold parseKey at h
    split at h
    · cases h
    · rename_i htype
      obtain ⟨digits, rfl⟩ := not_not.mp htype
      dsimp only at h
      split at h
      · cases h
      · -- What is behind the type are the digits.
        rename_i hlength
        rw [List.drop_left] at h hlength
        exact ⟨digits, rfl, (mOfFn_keyOctet_eq_ok_iff (not_not.mp hlength)).mp h⟩
  · -- The length is checked before the digits; it is right when these are.
    rintro ⟨digits, rfl, hdigits⟩
    have hlength : digits.length = 64 := by
      rw [hdigits.length_eq, key.toList_length]
    rw [parseKey, if_neg (not_not.mpr (List.prefix_append type digits))]
    dsimp only
    rw [List.drop_left, if_neg (not_not.mpr hlength)]
    exact (mOfFn_keyOctet_eq_ok_iff hlength).mpr hdigits

theorem spellsKey_hexKey (type : List UInt8) (key : Key32) : SpellsKey type (hexKey type key) key :=
  ⟨_, rfl, Hex.spells_encode key.toList⟩

theorem parseKey_hexKey (type : List UInt8) (key : Key32) :
    parseKey (hexKey type key) type = .ok key :=
  parseKey_eq_ok_iff.mpr (spellsKey_hexKey type key)

/-- A text is the text of one key only. -/
theorem SpellsKey.unique {type text : List UInt8} {key other : Key32} (h : SpellsKey type text key)
    (h' : SpellsKey type text other) : key = other := by
  obtain ⟨digits, rfl, hdigits⟩ := h
  obtain ⟨digits', heq, hdigits'⟩ := h'
  obtain rfl := List.append_cancel_left heq
  exact List.Vector.toList_injective (hdigits.unique hdigits')

end Tailcat
