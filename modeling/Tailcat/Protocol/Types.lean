import Tailcat.Base.Octets

/-!
# The values of the protocol

The exceptions the program throws, the containers whose size the language bounds, the 32-octet
keys, and the contents of a `tc...` address: a server's keys and the DERP regions it is reached
through.

## Main definitions

* `ascii`, `octetsText`: texts and the octets they consist of
* `Exn`: a thrown exception, with its text
* `Vec α cap`: a vector whose size never exceeds `cap`, with `reserve` and `pushBack`
* `Key32`: a key
* `DerpNode`, `DerpRegion`, `ConnInfo`: the contents of an address
-/

namespace Tailcat

/-- The octets of an ASCII string. -/
def ascii (s : String) : List UInt8 := s.toList.map Char.toUInt8

/-- Octets in a text, one character for each of them. -/
def octetsText (octets : List UInt8) : String :=
  String.ofList (octets.map fun c => Char.ofNat c.toNat)

/-- A thrown exception and its `what()`. -/
inductive Exn
  | runtimeError (what : String)
  | invalidArgument (what : String)
  | lengthError (what : String)
  deriving DecidableEq

/-- A `std::vector` or `std::string` of elements of `α`, whose `max_size()` is `cap`. -/
structure Vec (α : Type) (cap : ℕ) where
  toList : List α
  length_le : toList.length ≤ cap
  deriving DecidableEq

namespace Vec

variable {α : Type} {cap : ℕ}

theorem ext {xs ys : Vec α cap} (h : xs.toList = ys.toList) : xs = ys := by
  cases xs
  cases ys
  simpa using h

/-- The vector without elements. -/
def empty : Vec α cap := ⟨[], Nat.zero_le _⟩

instance : Inhabited (Vec α cap) := ⟨empty⟩

/-- `reserve(n)` throws when `n` exceeds `max_size()`; the allocation itself succeeds. -/
def reserve (_ : Vec α cap) (n : ℕ) : Except Exn Unit :=
  if n ≤ cap then .ok () else .error (.lengthError "vector::reserve")

/-- `push_back(x)` throws when the vector is full. -/
def pushBack (xs : Vec α cap) (x : α) : Except Exn (Vec α cap) :=
  if h : xs.toList.length + 1 ≤ cap then .ok ⟨xs.toList ++ [x], by simpa using h⟩
  else .error (.lengthError "vector::_M_realloc_append")

@[simp] theorem toList_empty : (empty : Vec α cap).toList = [] := rfl

theorem eq_empty_iff {xs : Vec α cap} : xs = empty ↔ xs.toList = [] :=
  ⟨fun h => h ▸ rfl, fun h => ext h⟩

/-- Every element, changed by `f`. -/
def map {β : Type} (f : α → β) (xs : Vec α cap) : Vec β cap :=
  ⟨xs.toList.map f, by simpa using xs.length_le⟩

@[simp] theorem toList_map {β : Type} (f : α → β) (xs : Vec α cap) :
    (xs.map f).toList = xs.toList.map f := rfl

theorem map_eq_self {f : α → α} {xs : Vec α cap} (h : ∀ x ∈ xs.toList, f x = x) :
    xs.map f = xs := by
  apply ext
  rw [toList_map, List.map_congr_left h, List.map_id']

theorem pushBack_eq_ok {xs ys : Vec α cap} {x : α} :
    xs.pushBack x = .ok ys ↔ ys.toList = xs.toList ++ [x] := by
  unfold pushBack
  split
  · rename_i h
    rw [Except.ok.injEq]
    exact ⟨fun he => he ▸ rfl, fun he => ext he.symm⟩
  · rename_i h
    simp only [reduceCtorEq, false_iff]
    intro he
    have hl := ys.length_le
    rw [he, List.length_append, List.length_singleton] at hl
    exact h hl

end Vec

/-- A `std::string`, or a view of one: any octets, as many as a `std::size_t` can count. -/
abbrev Text := Vec UInt8 (2 ^ 64 - 1)

/-- A Curve25519 key. -/
abbrev Key32 := Octets 32

/-- A DERP relay. -/
structure DerpNode where
  name : Text := .empty
  regionId : Int64 := 0
  hostName : Text := .empty
  certName : Text := .empty
  ipv4 : Text := .empty
  ipv6 : Text := .empty
  stunPort : Int64 := 0
  derpPort : Int64 := 0
  insecureForTests : Bool := false
  deriving DecidableEq

/-- `max_size()` of a vector of nodes: `PTRDIFF_MAX` over the 192 octets of a node. -/
abbrev DerpNode.maxSize : ℕ := (2 ^ 63 - 1) / 192

/-- A DERP region and its relays. -/
structure DerpRegion where
  regionId : Int64 := 0
  regionCode : Text := .empty
  regionName : Text := .empty
  nodes : Vec DerpNode DerpNode.maxSize := .empty
  deriving DecidableEq

/-- `max_size()` of a vector of regions: `PTRDIFF_MAX` over the 96 octets of a region. -/
abbrev DerpRegion.maxSize : ℕ := (2 ^ 63 - 1) / 96

/-- What a `tc...` address says about a server. -/
structure ConnInfo where
  serverPublic : Key32 := Octets.zero 32
  serverDiscoPublic : Option Key32 := none
  presharedKey : Option Key32 := none
  regions : Vec DerpRegion DerpRegion.maxSize := .empty
  regionId : Int64 := 0
  deriving DecidableEq

end Tailcat
