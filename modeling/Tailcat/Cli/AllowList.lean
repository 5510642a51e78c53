import Tailcat.Base.Pieces
import Tailcat.Keys.KeyText

/-!
# The allow list

`--allow` takes the public keys of the clients that a server admits, with commas between them, or
the word `none`. The keys become the access-control list of the server.

## Main definitions

* `parseAllowList`: the parser of the argument
* `SpellsKeys`: the texts of keys with commas between them

## Main results

* `parseAllowList_eq_ok_iff`: which arguments are read, and as which keys
* `allowList_denotes`: the keys that are written are read, and nothing else is
-/

namespace Tailcat

/-- The body of the loop over the items. -/
def allowItem (keys : List Key32) (item : List UInt8) : Except Exn (List Key32) :=
  if item = [] then
    .error (.invalidArgument "--allow contains an empty key")
  else
    (parseNodePublicText item).bind fun key => .ok (keys ++ [key])

/-- The keys of the argument of `--allow`, in order. -/
def parseAllowList (spec : List UInt8) : Except Exn (List Key32) :=
  if spec = [] then
    .error (.invalidArgument "--allow requires a value")
  else if spec = ascii "none" then
    .ok []
  else
    Pieces.each ','.toUInt8 allowItem spec 0 []

/-- The texts of keys, in the order of the keys, with commas between them. -/
def SpellsKeys (spec : List UInt8) (keys : List Key32) : Prop :=
  ∃ items, List.Forall₂ (SpellsKey nodeKeyType) items keys ∧ spec = [','.toUInt8].intercalate items

/-! ## One item -/

section Item

variable {item : List UInt8} {key : Key32}

theorem SpellsKey.ne_nil (h : SpellsKey nodeKeyType item key) : item ≠ [] := by
  obtain ⟨digits, rfl, -⟩ := h
  intro hnil
  exact absurd (List.append_eq_nil_iff.mp hnil).1 (by decide)

/-- No digit, and nothing in the type of a key, is a comma. -/
theorem SpellsKey.comma_notMem (h : SpellsKey nodeKeyType item key) : ','.toUInt8 ∉ item := by
  obtain ⟨digits, rfl, hspells⟩ := h
  intro hmem
  rcases List.mem_append.mp hmem with htype | hdigit
  · exact absurd htype (by decide)
  · have hcode : Ctype.toLower ','.toUInt8 ∈ Hex.encode key.toList := by
      rw [← hspells]
      exact List.mem_map_of_mem hdigit
    obtain ⟨b, -, hb⟩ := List.mem_flatMap.mp hcode
    have hno : Ctype.toLower ','.toUInt8 ∉ Hex.octet b :=
      UInt8.forall_of_ofNat (P := fun b => Ctype.toLower ','.toUInt8 ∉ Hex.octet b)
        (by decide +kernel) b
    exact hno hb

/-- An item is read as the key that it spells, behind those before it. -/
theorem allowItem_eq_ok_iff {keys keys' : List Key32} :
    allowItem keys item = .ok keys' ↔
      ∃ key, SpellsKey nodeKeyType item key ∧ keys' = keys ++ [key] := by
  unfold allowItem
  split_ifs with hnil
  · refine iff_of_false (by simp) ?_
    rintro ⟨key, hkey, -⟩
    exact hkey.ne_nil hnil
  · rw [Except.bind_eq_ok_iff]
    refine exists_congr fun key => and_congr parseKey_eq_ok_iff ?_
    rw [Except.ok.injEq, eq_comm]

end Item

/-! ## All items -/

/-- The loop reads one key for each of the items. -/
theorem foldlM_allowItem_eq_ok_iff {items : List (List UInt8)} {keys keys' : List Key32} :
    items.foldlM allowItem keys = .ok keys' ↔
      ∃ new, List.Forall₂ (SpellsKey nodeKeyType) items new ∧ keys' = keys ++ new := by
  -- By induction on the items that are left; the keys before them are kept.
  induction items generalizing keys with
  | nil =>
    rw [List.foldlM_nil]
    constructor
    · intro h
      exact ⟨[], .nil, by simpa using (Except.ok.inj h).symm⟩
    · rintro ⟨new, hnew, rfl⟩
      rw [List.forall₂_nil_left_iff.mp hnew, List.append_nil]
      rfl
  | cons item items ih =>
    rw [List.foldlM_cons]
    constructor
    · intro h
      obtain ⟨mid, hitem, hrest⟩ := Except.bind_eq_ok_iff.mp h
      obtain ⟨key, hkey, rfl⟩ := allowItem_eq_ok_iff.mp hitem
      obtain ⟨new, hnew, rfl⟩ := ih.mp hrest
      exact ⟨key :: new, .cons hkey hnew, by simp⟩
    · rintro ⟨new, hnew, rfl⟩
      obtain ⟨key, new, hkey, hitems, rfl⟩ := List.forall₂_cons_left_iff.mp hnew
      apply Except.bind_eq_ok_iff.mpr
      refine ⟨keys ++ [key], allowItem_eq_ok_iff.mpr ⟨key, hkey, rfl⟩, ?_⟩
      exact ih.mpr ⟨new, hitems, by simp⟩

theorem comma_notMem_items {items : List (List UInt8)} {keys : List Key32}
    (h : List.Forall₂ (SpellsKey nodeKeyType) items keys) : ∀ item ∈ items, ','.toUInt8 ∉ item := by
  induction h with
  | nil =>
    intro item hitem
    cases hitem
  | cons hkey _ ih =>
    intro item hitem
    rcases List.mem_cons.mp hitem with rfl | hmem
    · exact hkey.comma_notMem
    · exact ih item hmem

/-- The pieces of an argument are the items that it was joined from. -/
theorem spellsKeys_iff {spec : List UInt8} {keys : List Key32} (hne : keys ≠ []) :
    SpellsKeys spec keys ↔ List.Forall₂ (SpellsKey nodeKeyType) (spec.splitOn ','.toUInt8) keys := by
  constructor
  · rintro ⟨items, hitems, rfl⟩
    rwa [List.splitOn_intercalate]
    · exact comma_notMem_items hitems
    · rintro rfl
      exact hne (List.forall₂_nil_left_iff.mp hitems)
  · intro hitems
    exact ⟨_, hitems, (List.intercalate_splitOn _).symm⟩

theorem SpellsKeys.ne_ascii {spec : List UInt8} {keys : List Key32} (h : SpellsKeys spec keys)
    (hne : keys ≠ []) : spec ≠ [] ∧ spec ≠ ascii "none" := by
  have hbegin : nodeKeyType <+: spec := by
    obtain ⟨items, hitems, rfl⟩ := h
    cases hitems with
    | nil => exact absurd rfl hne
    | @cons item key items keys hitem _ =>
      obtain ⟨digits, rfl, -⟩ := hitem
      cases items with
      | nil => simp [List.intercalate]
      | cons other items =>
        rw [List.intercalate_cons_cons, List.append_assoc, List.append_assoc]
        exact List.prefix_append _ _
  constructor
  · rintro rfl
    exact absurd hbegin (by decide)
  · rintro rfl
    exact absurd hbegin (by decide)

/-- **The arguments that are read**: the word for no keys, and the texts of keys. -/
theorem parseAllowList_eq_ok_iff {spec : List UInt8} {keys : List Key32} :
    parseAllowList spec = .ok keys ↔
      (spec = ascii "none" ∧ keys = []) ∨ (keys ≠ [] ∧ SpellsKeys spec keys) := by
  unfold parseAllowList
  split_ifs with hnil hnone
  · subst hnil
    refine iff_of_false (by simp) ?_
    rintro (⟨h, -⟩ | ⟨hne, h⟩)
    · exact absurd h (by decide)
    · exact (h.ne_ascii hne).1 rfl
  · constructor
    · intro h
      exact .inl ⟨hnone, (Except.ok.inj h).symm⟩
    · rintro (⟨-, rfl⟩ | ⟨hne, h⟩)
      · rfl
      · exact absurd hnone (h.ne_ascii hne).2
  · rw [Pieces.each_eq _ _ _ _ (Nat.zero_le _), List.drop_zero, foldlM_allowItem_eq_ok_iff]
    simp only [hnone, false_and, false_or, List.nil_append]
    constructor
    · rintro ⟨new, hnew, rfl⟩
      -- There is always a first piece, hence a first key.
      have hne : keys ≠ [] := by
        rintro rfl
        exact List.splitOn_ne_nil _ _ (List.forall₂_nil_right_iff.mp hnew)
      exact ⟨hne, (spellsKeys_iff hne).mpr hnew⟩
    · rintro ⟨hne, h⟩
      exact ⟨keys, (spellsKeys_iff hne).mp h, rfl⟩

/-- **The allow list denotes exactly the keys written**: for at least one key, any texts of the keys
with commas between them, in either case of the digits, are read as these keys in order; `none` is
read as no keys; anything else throws. -/
theorem allowList_denotes :
    (∀ items keys, keys ≠ [] → List.Forall₂ (SpellsKey nodeKeyType) items keys →
      parseAllowList ([','.toUInt8].intercalate items) = .ok keys) ∧
    (∀ keys, keys ≠ [] →
      parseAllowList ([','.toUInt8].intercalate (keys.map nodePublicText)) = .ok keys) ∧
    parseAllowList (ascii "none") = .ok [] ∧
    ∀ spec, spec ≠ ascii "none" → (∀ keys, keys ≠ [] → ¬ SpellsKeys spec keys) →
      ∃ e, parseAllowList spec = .error e := by
  refine ⟨fun items keys hne hitems => ?_, fun keys hne => ?_, ?_, fun spec hnone hno => ?_⟩
  · exact parseAllowList_eq_ok_iff.mpr (.inr ⟨hne, items, hitems, rfl⟩)
  · refine parseAllowList_eq_ok_iff.mpr (.inr ⟨hne, _, ?_, rfl⟩)
    rw [List.forall₂_map_left_iff, List.forall₂_same]
    exact fun key _ => spellsKey_hexKey nodeKeyType key
  · exact parseAllowList_eq_ok_iff.mpr (.inl ⟨rfl, rfl⟩)
  · apply Except.error_of_ne_ok
    intro keys h
    rcases parseAllowList_eq_ok_iff.mp h with ⟨hspec, -⟩ | ⟨hne, hspells⟩
    · exact hnone hspec
    · exact hno keys hne hspells

/-- Two keys, of which the second one is in capitals, and a list that ends with a comma. -/
theorem allowList_denotes_example :
    let first : Key32 := List.Vector.replicate 32 1
    let second : Key32 := List.Vector.replicate 32 0xab
    let capitals := nodeKeyType ++ (List.replicate 32 (ascii "AB")).flatten
    parseAllowList ([','.toUInt8].intercalate [nodePublicText first, capitals]) =
        .ok [first, second] ∧
      ∃ e, parseAllowList (nodePublicText first ++ [','.toUInt8]) = .error e := by
  intro first second capitals
  obtain ⟨hkeys, -, -, herror⟩ := allowList_denotes
  have hfirst : SpellsKey nodeKeyType (nodePublicText first) first :=
    spellsKey_hexKey nodeKeyType first
  have hsecond : SpellsKey nodeKeyType capitals second := ⟨_, rfl, by decide +kernel⟩
  refine ⟨hkeys _ _ (List.cons_ne_nil _ _) (.cons hfirst (.cons hsecond .nil)),
    herror _ (by decide +kernel) fun keys hne hspells => ?_⟩
  -- What spells keys is read.
  have hread := parseAllowList_eq_ok_iff.mpr (.inr ⟨hne, hspells⟩)
  have hnone : (parseAllowList (nodePublicText first ++ [','.toUInt8])).isOk = false := by
    decide +kernel
  rw [hread] at hnone
  cases hnone

end Tailcat
