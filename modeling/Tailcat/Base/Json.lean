import Tailcat.Base.Exceptions

/-!
# JSON values

JSON values and what a library does with them: looking up the members of an object, taking the text
or the number of a value, adding a member. A library parses texts and prints values; what it prints
of an object tells its own end.

## Main definitions

* `Json`: a value
* `Json.find?`, `Json.contains`, `Json.member`: the members of an object
* `Json.getString`, `Json.getInt64`: the text and the number of a value
* `Json.insert`, `Json.insert?`: an object with one more member
* `JsonLibrary`, `JsonLibrary.Delimits`: a parser and a printer, and a value whose print ends itself

## Main results

* `Json.find?_insert`: the members of an object with one more member
* `JsonLibrary.Delimits.parse_beginning`: how the beginnings of a print are read
* `JsonLibrary.delimits_ofPrint`: a print that ends itself
-/

/-- A JSON value. Of a number there is what it is as a 64-bit integer. -/
inductive Json
  | null
  | boolean (b : Bool)
  | number (n : Int64)
  | string (text : List UInt8)
  | array (items : List Json)
  | object (members : List (List UInt8 × Json))

/-- The types of values. -/
inductive JsonKind
  | null | boolean | number | string | array | object
  deriving DecidableEq

/-- What a library throws. -/
inductive JsonError
  /-- The text is no value. -/
  | parse (what : String)
  /-- Only objects have members. -/
  | notObject (found : JsonKind)
  | missing (key : List UInt8)
  | mistyped (wanted found : JsonKind)
  deriving DecidableEq

namespace Json

/-- What the type checks of the library look at. -/
def kind : Json → JsonKind
  | null => .null
  | boolean _ => .boolean
  | number _ => .number
  | string _ => .string
  | array _ => .array
  | object _ => .object

/-- The members of an object, in the order in which they are kept. -/
def members : Json → List (List UInt8 × Json)
  | object members => members
  | _ => []

/-- The member with a key. -/
def find? (key : List UInt8) (value : Json) : Option Json :=
  value.members.lookup key

/-- Whether an object has a member of this name. -/
def contains (key : List UInt8) (value : Json) : Bool := (value.find? key).isSome

/-- The member with a key, which has to be there. -/
def member (key : List UInt8) (value : Json) : Except JsonError Json :=
  if value.kind = .object then
    match value.find? key with
    | none => .error (.missing key)
    | some member => .ok member
  else
    .error (.notObject value.kind)

/-- The octets of a string; no other value is converted to one. -/
def getString : Json → Except JsonError (List UInt8)
  | string text => .ok text
  | value => .error (.mistyped .string value.kind)

/-- The value of a number; no other value is converted to one. -/
def getInt64 : Json → Except JsonError Int64
  | number n => .ok n
  | value => .error (.mistyped .number value.kind)

/-- The members in the order of their keys, one of them added or replaced. -/
def insertMember (key : List UInt8) (value : Json) :
    List (List UInt8 × Json) → List (List UInt8 × Json)
  | [] => [(key, value)]
  | (k, v) :: rest =>
    if k = key then (key, value) :: rest
    else if key < k then (key, value) :: (k, v) :: rest
    else (k, v) :: insertMember key value rest

/-- The object with the member set, in place of what it was before if it was there. -/
def insert (object : Json) (key : List UInt8) (value : Json) : Json :=
  .object (insertMember key value object.members)

/-- An object with one more member, if there is one to add. -/
def insert? (object : Json) (key : List UInt8) : Option Json → Json
  | none => object
  | some value => object.insert key value

/-! ## Members -/

variable {key : List UInt8} {value found : Json}

theorem contains_iff : value.contains key ↔ ∃ found, value.find? key = some found :=
  Option.isSome_iff_exists

theorem not_contains_iff : ¬ value.contains key ↔ value.find? key = none := by
  rw [contains, Option.not_isSome_iff_eq_none]

theorem kind_of_find? (h : value.find? key = some found) : value.kind = .object := by
  cases value <;> first | rfl | simp [find?, members] at h

/-- A member is looked up where it is. -/
theorem member_eq_ok_iff : value.member key = .ok found ↔ value.find? key = some found := by
  constructor
  · intro h
    unfold Json.member at h
    split at h
    · split at h
      · cases h
      · rename_i hfound
        rw [hfound, Except.ok.inj h]
    · cases h
  · intro h
    rw [Json.member, if_pos (kind_of_find? h), h]

theorem getString_eq_ok_iff {text : List UInt8} :
    value.getString = .ok text ↔ value = .string text := by
  cases value <;> simp [getString]

theorem getInt64_eq_ok_iff {n : Int64} : value.getInt64 = .ok n ↔ value = .number n := by
  cases value <;> simp [getInt64]

theorem lookup_insertMember (key k : List UInt8) (value : Json) (ms : List (List UInt8 × Json)) :
    (insertMember key value ms).lookup k = if k = key then some value else ms.lookup k := by
  induction ms with
  | nil =>
    rw [insertMember, List.lookup_cons]
    by_cases hk : k = key
    · simp [hk]
    · simp [hk, beq_false_of_ne hk]
  | cons m ms ih =>
    obtain ⟨k', v'⟩ := m
    -- The member is replaced, put in front of this one, or goes on to the rest.
    unfold insertMember
    split
    · rename_i hkey
      rw [hkey, List.lookup_cons, List.lookup_cons]
      by_cases hk : k = key
      · simp [hk]
      · simp [hk, beq_false_of_ne hk]
    · rename_i hkey
      split
      · rw [List.lookup_cons]
        by_cases hk : k = key
        · simp [hk]
        · simp [hk, beq_false_of_ne hk]
      · rw [List.lookup_cons, List.lookup_cons, ih]
        by_cases hk : k = k'
        · simp [hk, hkey]
        · simp [beq_false_of_ne hk]

/-- Adding a member changes what is found under its key, and nothing else. -/
theorem find?_insert (object : Json) (key k : List UInt8) (value : Json) :
    (object.insert key value).find? k = if k = key then some value else object.find? k :=
  lookup_insertMember key k value object.members

variable {object : Json} {k : List UInt8} {added : Option Json}

theorem find?_insert_self : (object.insert key value).find? key = some value := by
  rw [find?_insert, if_pos rfl]

theorem find?_insert_of_ne (h : k ≠ key) : (object.insert key value).find? k = object.find? k := by
  rw [find?_insert, if_neg h]

theorem find?_insert?_of_ne (h : k ≠ key) : (object.insert? key added).find? k = object.find? k := by
  cases added with
  | none => rfl
  | some value => exact find?_insert_of_ne h

theorem find?_insert?_self (h : object.find? key = none) :
    (object.insert? key added).find? key = added := by
  cases added with
  | none => exact h
  | some value => exact find?_insert_self

end Json

/-! ## Libraries -/

/-- A parser and a printer. -/
structure JsonLibrary where
  parse : List UInt8 → Except JsonError Json
  dump : Json → List UInt8

namespace JsonLibrary

/-- The print of a value is read, whatever is behind it, and no beginning of it is. -/
structure Delimits (J : JsonLibrary) (value : Json) : Prop where
  whole : ∀ rest, J.parse (J.dump value ++ rest) = .ok value
  part : ∀ text, text <+: J.dump value → text ≠ J.dump value → ∃ e, J.parse text = .error e

variable {J : JsonLibrary} {value : Json}

/-- A beginning of a print with something behind it is read when the print is complete. -/
theorem Delimits.parse_beginning (h : J.Delimits value) {text rest : List UInt8}
    (htext : text <+: J.dump value ++ rest) :
    (J.dump value).length ≤ text.length ∧ J.parse text = .ok value ∨
      text.length < (J.dump value).length ∧ ∃ e, J.parse text = .error e := by
  rcases Nat.lt_or_ge text.length (J.dump value).length with hlt | hle
  · right
    have hprefix : text <+: J.dump value :=
      List.prefix_of_prefix_length_le htext (List.prefix_append _ _) hlt.le
    exact ⟨hlt, h.part text hprefix fun heq => by simp [heq] at hlt⟩
  · left
    obtain ⟨more, rfl⟩ := List.prefix_of_prefix_length_le (List.prefix_append _ _) htext hle
    exact ⟨hle, h.whole more⟩

/-- The library of one value, which knows how it is printed. -/
def ofPrint (print : List UInt8) (value : Json) : JsonLibrary where
  parse text := if print <+: text then .ok value else .error (.parse "unexpected end of input")
  dump _ := print

theorem delimits_ofPrint (print : List UInt8) (value : Json) :
    (ofPrint print value).Delimits value where
  whole rest := if_pos (List.prefix_append print rest)
  part text htext hne := by
    refine ⟨_, if_neg fun hprint => hne ?_⟩
    exact htext.eq_of_length_le hprint.length_le

end JsonLibrary
