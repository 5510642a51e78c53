import Mathlib.Data.List.Sort
import Tailcat.Keys.Saving

/-!
# The files of saved keys

Saved keys are files, most of them in one directory, where each of them has the name of its key.
They are saved, deleted and listed.

## Main definitions

* `Files`: the files of a user
* `saveTailcatKey`, `deleteSavedTailcatKey`: saving a key, as a run of `saving`, and deleting it
* `Listing`, `listSavedTailcatKeys`: the entries of the directory, and the names of the keys

## Main results

* `saveTailcatKey_file`, `deleteSavedTailcatKey_file`: only the file of the key is touched
* `load_of_saveTailcatKey`: a key that has been saved is loaded
* `listed_iff`: the names that are listed are those under which there is a key
-/

namespace Tailcat

open Ssh (slash joinPath newline)
open Shell (backslash)

/-- The files that there are, and where something else is, such as a directory. -/
structure Files where
  file : List UInt8 → Option KeyFile
  other : List UInt8 → Bool
  file_of_other : ∀ path, other path = true → file path = none

namespace Files

/-- The octets of the file at a path. -/
def contents (F : Files) (path : List UInt8) : Option (List UInt8) :=
  (F.file path).map KeyFile.content

/-- Whether there is something at a path. -/
def present (F : Files) (path : List UInt8) : Bool := (F.file path).isSome || F.other path

/-- The files after one of them has changed. -/
def put (F : Files) (path : List UInt8) (file : Option KeyFile) (h : F.other path = false) :
    Files where
  file p := if p = path then file else F.file p
  other := F.other
  file_of_other p hp := by
    split
    · rename_i heq
      rw [heq, h] at hp
      cases hp
    · exact F.file_of_other p hp

/-- The files without what is at a path. -/
def erase (F : Files) (path : List UInt8) : Files where
  file p := if p = path then none else F.file p
  other p := if p = path then false else F.other p
  file_of_other p hp := by
    split
    · rfl
    · rename_i hne
      rw [if_neg hne] at hp
      exact F.file_of_other p hp

end Files

/-! ## Saving and deleting -/

section Saving

variable (env : ConfigEnv) (S : Sodium) (J : JsonLibrary)

/-- Whether there is something where the key of this name is saved. -/
def savedTailcatKeyExists (F : Files) (nameOrPath : List UInt8) : Except Exn Bool := do
  let path ← resolveTailcatKeyPath env nameOrPath
  return F.present path

/-- What saving has done when the answers of the system are `es`, if it is done by then. Nothing is
written where a directory is. -/
def saveTailcatKey (umask : UInt16) (es : List SaveEvent) (F : Files) (pathOrName : List UInt8)
    (key : SavedTailcatKey) : Option (Files × Except Exn Unit) :=
  match resolveTailcatKeyPath env pathOrName with
  | .error e => some (F, .error e)
  | .ok path =>
    if h : F.other path = false then
      match (saving (saveText env S J pathOrName key) umask (F.file path)).run es with
      | none => none
      | some (s, _) =>
        match s.stage with
        | .returned => some (F.put path s.file h, .ok ())
        | .thrown e => some (F.put path s.file h, .error e)
        | _ => none
    else
      some (F, .error (openFailed path))

/-- Deleting a key. The system may refuse it. -/
def deleteSavedTailcatKey (error : Option String) (F : Files) (nameOrPath : List UInt8) :
    Files × Except Exn Unit :=
  match resolveTailcatKeyPath env nameOrPath with
  | .error e => (F, .error e)
  | .ok path =>
    match error with
    | some message => (F, .error (.runtimeError ("failed to delete Tailcat key: " ++ message)))
    | none =>
      if F.present path then (F.erase path, .ok ())
      else (F, .error (.runtimeError ("Tailcat key does not exist: " ++ octetsText path)))

variable {env S J} {umask : UInt16} {es : List SaveEvent} {F F' : Files} {name path p : List UInt8}
  {key : SavedTailcatKey} {result : Except Exn Unit} {error : Option String}

/-- What saving does to the files: nothing, or a run of `saving` at the path of the key. -/
theorem saveTailcatKey_eq_some
    (h : saveTailcatKey env S J umask es F name key = some (F', result)) :
    (F' = F ∧ ∃ e, result = .error e) ∨ ∃ path hother s os,
      resolveTailcatKeyPath env name = .ok path ∧ F' = F.put path s.file hother ∧
      (saving (saveText env S J name key) umask (F.file path)).Runs es s os ∧
      (result = .ok () → s.stage = .returned) := by
  unfold saveTailcatKey at h
  split at h
  · obtain ⟨rfl, rfl⟩ := Prod.mk.inj (Option.some.inj h)
    exact .inl ⟨rfl, _, rfl⟩
  rename_i path hpath
  split at h
  · rename_i hother
    split at h
    · cases h
    rename_i s os hrun
    split at h
    · rename_i hstage
      obtain ⟨rfl, rfl⟩ := Prod.mk.inj (Option.some.inj h)
      exact .inr ⟨path, hother, s, os, hpath, rfl, hrun, fun _ => hstage⟩
    · obtain ⟨rfl, rfl⟩ := Prod.mk.inj (Option.some.inj h)
      exact .inr ⟨path, hother, s, os, hpath, rfl, hrun, nofun⟩
    · cases h
  · obtain ⟨rfl, rfl⟩ := Prod.mk.inj (Option.some.inj h)
    exact .inl ⟨rfl, _, rfl⟩

/-- Saving touches the file of the key only. -/
theorem saveTailcatKey_file
    (h : saveTailcatKey env S J umask es F name key = some (F', result))
    (hpath : resolveTailcatKeyPath env name = .ok path) (hne : p ≠ path) :
    F'.file p = F.file p ∧ F'.other p = F.other p := by
  rcases saveTailcatKey_eq_some h with ⟨rfl, -⟩ | ⟨path', hother, s, os, hpath', rfl, -⟩
  · exact ⟨rfl, rfl⟩
  · obtain rfl := Except.ok.inj (hpath.symm.trans hpath')
    exact ⟨if_neg hne, rfl⟩

/-- Deleting touches the file of the key only, and then there is none if it succeeds. -/
theorem deleteSavedTailcatKey_file
    (h : deleteSavedTailcatKey env error F name = (F', result)) :
    (F' = F ∧ ∃ e, result = .error e) ∨
      ∃ path, resolveTailcatKeyPath env name = .ok path ∧ F' = F.erase path ∧ result = .ok () := by
  unfold deleteSavedTailcatKey at h
  split at h
  · obtain ⟨rfl, rfl⟩ := Prod.mk.inj h
    exact .inl ⟨rfl, _, rfl⟩
  rename_i path hpath
  split at h
  · obtain ⟨rfl, rfl⟩ := Prod.mk.inj h
    exact .inl ⟨rfl, _, rfl⟩
  split at h
  · obtain ⟨rfl, rfl⟩ := Prod.mk.inj h
    exact .inr ⟨path, hpath, rfl, rfl⟩
  · obtain ⟨rfl, rfl⟩ := Prod.mk.inj h
    exact .inl ⟨rfl, _, rfl⟩

/-- **A key that has been saved is loaded**, when the JSON library reads what it prints. -/
theorem load_of_saveTailcatKey
    (hpublic : nodePublicFromPrivate S key.identity.privateKey = .ok key.identity.publicKey)
    (hjson : ∀ disco, deriveDiscoKey S key.identity.privateKey = .ok disco →
      J.parse (J.dump (keyDocument key disco) ++ [newline]) = .ok (keyDocument key disco))
    (h : saveTailcatKey env S J umask es F name key = some (F', .ok ())) :
    loadSavedTailcatKey env S J F'.contents name = .ok key := by
  rcases saveTailcatKey_eq_some h with ⟨-, e, he⟩ | ⟨path, hother, s, os, hpath, rfl, hrun, hdone⟩
  · cases he
  · refine load_of_returned hpublic hjson hrun (hdone rfl) fun path' hpath' => ?_
    obtain rfl := Except.ok.inj (hpath.symm.trans hpath')
    show ((if path = path then s.file else F.file path).map KeyFile.content) = _
    rw [if_pos rfl]

end Saving

/-! ## Listing -/

/-- The entries of a directory, in the order in which the system gives them. -/
structure Listing (F : Files) (dir : List UInt8) where
  names : List (List UInt8)
  nodup : names.Nodup
  mem_iff : ∀ name, name ∈ names ↔
    name ≠ [] ∧ slash ∉ name ∧ name ≠ ascii "." ∧ name ≠ ascii ".." ∧
      F.present (joinPath dir name) = true

/-- The entries of the files that may be keys have this at their end. -/
def keySuffix : List UInt8 := ascii ".private.json"

/-- A file with a name in front of the suffix. -/
def isKeyEntry (F : Files) (dir entry : List UInt8) : Bool :=
  (F.file (joinPath dir entry)).isSome ∧ keySuffix.length < entry.length ∧ keySuffix <:+ entry

/-- The names of the keys, when there is a directory. -/
def listSavedTailcatKeys (F : Files) (dir : List UInt8) (listing : Option (Listing F dir)) :
    List (List UInt8) :=
  match listing with
  | none => []
  | some entries =>
    ((entries.names.filter (isKeyEntry F dir)).map fun entry =>
      entry.take (entry.length - keySuffix.length)).insertionSort (· ≤ ·)

section Listing

variable {F : Files} {dir name entry : List UInt8} {entries : Listing F dir}

/-- An entry of a key is the name of the key with the suffix. -/
theorem isKeyEntry_iff : isKeyEntry F dir entry = true ↔
    ∃ name, entry = name ++ keySuffix ∧ name ≠ [] ∧
      (F.file (joinPath dir (name ++ keySuffix))).isSome := by
  unfold isKeyEntry
  rw [decide_eq_true_iff]
  constructor
  · rintro ⟨hfile, hlength, name, rfl⟩
    refine ⟨name, rfl, ?_, hfile⟩
    rintro rfl
    rw [List.nil_append] at hlength
    exact absurd hlength (lt_irrefl _)
  · rintro ⟨name, rfl, hne, hfile⟩
    refine ⟨hfile, ?_, List.suffix_append _ _⟩
    rw [List.length_append]
    exact Nat.lt_add_of_pos_left (List.length_pos_iff.mpr hne)

theorem take_keyEntry (name : List UInt8) :
    (name ++ keySuffix).take ((name ++ keySuffix).length - keySuffix.length) = name := by
  rw [List.length_append, Nat.add_sub_cancel, List.take_left]

/-- An entry that ends with the suffix is no special one. -/
theorem keyEntry_mem_iff : name ++ keySuffix ∈ entries.names ↔
    slash ∉ name ∧ F.present (joinPath dir (name ++ keySuffix)) = true := by
  have hlength : keySuffix.length = 13 := by decide
  have hshort (s : String) (hs : (ascii s).length < 13) : name ++ keySuffix ≠ ascii s := by
    intro h
    rw [← h, List.length_append, hlength] at hs
    omega
  have hslash : slash ∈ name ++ keySuffix ↔ slash ∈ name := by
    rw [List.mem_append]
    exact or_iff_left (by decide)
  rw [entries.mem_iff, hslash]
  constructor
  · rintro ⟨-, hname, -, -, hpresent⟩
    exact ⟨hname, hpresent⟩
  · rintro ⟨hname, hpresent⟩
    refine ⟨?_, hname, hshort _ (by decide), hshort _ (by decide), hpresent⟩
    exact fun h => absurd (List.append_eq_nil_iff.mp h).2 (by decide)

/-- The names that are listed are those with a file of their own in the directory. -/
theorem mem_listed_iff : name ∈ listSavedTailcatKeys F dir (some entries) ↔
    name ≠ [] ∧ slash ∉ name ∧ (F.file (joinPath dir (name ++ keySuffix))).isSome := by
  unfold listSavedTailcatKeys
  rw [List.mem_insertionSort, List.mem_map]
  constructor
  · rintro ⟨entry, hentry, rfl⟩
    obtain ⟨hmem, hkey⟩ := List.mem_filter.mp hentry
    obtain ⟨name, rfl, hne, hfile⟩ := isKeyEntry_iff.mp hkey
    rw [take_keyEntry]
    exact ⟨hne, (keyEntry_mem_iff.mp hmem).1, hfile⟩
  · rintro ⟨hne, hslash, hfile⟩
    refine ⟨name ++ keySuffix, List.mem_filter.mpr ⟨keyEntry_mem_iff.mpr ⟨hslash, ?_⟩, ?_⟩,
      take_keyEntry name⟩
    · unfold Files.present
      rw [hfile, Bool.true_or]
    · exact isKeyEntry_iff.mpr ⟨name, rfl, hne, hfile⟩

/-- Two keys have two names. -/
theorem nodup_listed : (listSavedTailcatKeys F dir (some entries)).Nodup := by
  unfold listSavedTailcatKeys
  rw [(List.perm_insertionSort _ _).nodup_iff]
  refine List.Nodup.map_on ?_ (entries.nodup.filter _)
  intro a ha b hb heq
  obtain ⟨name, rfl, -⟩ := isKeyEntry_iff.mp (List.mem_filter.mp ha).2
  obtain ⟨name', rfl, -⟩ := isKeyEntry_iff.mp (List.mem_filter.mp hb).2
  rw [take_keyEntry, take_keyEntry] at heq
  rw [heq]

theorem sorted_listed : (listSavedTailcatKeys F dir (some entries)).Pairwise (· ≤ ·) := by
  unfold listSavedTailcatKeys
  exact List.pairwise_insertionSort _ _

/-- A name that is no path is the name of a file in the directory. -/
theorem resolve_of_plain {env : ConfigEnv} (hdir : tailcatKeysDir env = .ok dir) (hne : name ≠ [])
    (hslash : slash ∉ name) (hback : backslash ∉ name) (hdot : name ≠ ascii ".")
    (hdots : name ≠ ascii "..") :
    resolveTailcatKeyPath env name = .ok (joinPath dir (name ++ keySuffix)) := by
  have hplain : explicitPath name = false := by
    unfold explicitPath
    rw [decide_eq_false_iff_not]
    exact not_or.mpr ⟨hslash, hback⟩
  unfold resolveTailcatKeyPath
  rw [if_neg hne, hplain, if_neg Bool.false_ne_true, if_neg (not_or.mpr ⟨hdot, hdots⟩), hdir]
  rfl

/-- **Listing the keys**: in whatever order the system gives the entries of the directory, the names
are listed in their order and each of them once; and a name that is not a path is listed just if the
key of that name is a file. -/
theorem listed_iff {env : ConfigEnv} (hdir : tailcatKeysDir env = .ok dir)
    (entries : Listing F dir) :
    (listSavedTailcatKeys F dir (some entries)).Pairwise (· < ·) ∧
      ∀ name, backslash ∉ name → name ≠ ascii "." → name ≠ ascii ".." →
        (name ∈ listSavedTailcatKeys F dir (some entries) ↔ explicitPath name = false ∧
          ∃ path, resolveTailcatKeyPath env name = .ok path ∧ (F.file path).isSome) := by
  refine ⟨?_, ?_⟩
  · have h : (listSavedTailcatKeys F dir (some entries)).Pairwise (· ≤ ·) := sorted_listed
    refine (h.and nodup_listed).imp fun ⟨hle, hne⟩ => ?_
    by_contra hlt
    exact hne (List.le_antisymm hle (List.not_lt.mp hlt))
  · intro name hback hdot hdots
    have hexplicit : explicitPath name = false ↔ slash ∉ name := by
      unfold explicitPath
      rw [decide_eq_false_iff_not, or_iff_left hback]
    rw [mem_listed_iff, hexplicit]
    constructor
    · rintro ⟨hne, hslash, hfile⟩
      exact ⟨hslash, _, resolve_of_plain hdir hne hslash hback hdot hdots, hfile⟩
    · rintro ⟨hslash, path, hpath, hfile⟩
      have hne : name ≠ [] := by
        rintro rfl
        cases hpath
      obtain rfl := Except.ok.inj
        ((resolve_of_plain hdir hne hslash hback hdot hdots).symm.trans hpath)
      exact ⟨hne, hslash, hfile⟩

/-- The directory of the keys, with one key in it. -/
def keysDir : List UInt8 := ascii "/c/tailcat/keys"

/-- A file system with one key, in the directory of the keys. -/
def homeKey : Files where
  file path :=
    if path = joinPath keysDir (ascii "home.private.json") then some ⟨[], 0o600⟩ else none
  other _ := false
  file_of_other _ h := by cases h

/-- Nothing else is in the directory. -/
theorem mem_homeKey_iff (name : List UInt8) : name ∈ [ascii "home.private.json"] ↔
    name ≠ [] ∧ slash ∉ name ∧ name ≠ ascii "." ∧ name ≠ ascii ".." ∧
      homeKey.present (joinPath keysDir name) = true := by
  rw [List.mem_singleton]
  constructor
  · rintro rfl
    decide
  · rintro ⟨-, hslash, -, -, hpresent⟩
    have hhead : name.head? ≠ some slash := fun h => hslash (List.mem_of_head? h)
    have hpath : joinPath keysDir name = joinPath keysDir (ascii "home.private.json") := by
      by_contra hne
      have hnone : homeKey.file (joinPath keysDir name) = none := if_neg hne
      rw [Files.present, hnone] at hpresent
      cases hpresent
    rw [joinPath, if_neg hhead, if_neg (by decide), joinPath, if_neg (by decide),
      if_neg (by decide)] at hpath
    exact (List.cons.inj (List.append_cancel_left hpath)).2

/-- The listing of this directory. -/
def homeListing : Listing homeKey keysDir :=
  ⟨[ascii "home.private.json"], List.nodup_singleton _, mem_homeKey_iff⟩

theorem listed_iff_example : ascii "home" ∈
    listSavedTailcatKeys homeKey keysDir (some homeListing) := by
  have hdir : tailcatKeysDir ⟨some (ascii "/c"), none⟩ = .ok keysDir := rfl
  refine ((listed_iff hdir homeListing).2 _ (by decide) (by decide) (by decide)).mpr ⟨rfl, ?_⟩
  exact ⟨joinPath keysDir (ascii "home.private.json"), rfl, rfl⟩

end Listing

end Tailcat
