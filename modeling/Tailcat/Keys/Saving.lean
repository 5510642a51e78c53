import Tailcat.Base.Machine
import Tailcat.Keys.SavedKey

/-!
# Saving a key

Saving a key is a sequence of calls to the system: creating the directory, opening the file, which
empties it, writing the text, closing the file and changing its mode. Each of them can fail, and the
process can end between any two of them.

The file is replaced in place. What is at its path in the meantime is a beginning of the new text,
which is no key until it is complete.

## Main definitions

* `KeyFile`: the file of a key
* `saving`: the machine that saves a key, one result of the system after the other
* `openedMode`: the mode of the file until it is changed

## Main results

* `saving_kept`: the file, whatever has happened
* `savedKey_checked`: what is saved is loaded, and what is loaded has been checked
* `savedKey_replaced`: what is loaded when saving has failed or has been interrupted
-/

namespace Tailcat

open Ssh (slash newline)

/-- A file: what is in it, and the bits of its mode. -/
structure KeyFile where
  content : List UInt8
  mode : UInt16
  deriving DecidableEq

/-- The path up to its last component, without the slashes at its end unless it is the root. -/
def parentPath (path : List UInt8) : List UInt8 :=
  let stem := path.rdropWhile (· ≠ slash)
  let parent := stem.rdropWhile (· = slash)
  if parent = [] then stem else parent

/-- Where saving is: the text that is still in the buffer while it is written. -/
inductive SaveStage
  | creating
  | opening
  | writing (rest : List UInt8)
  | failed
  | restricting
  | returned
  | thrown (e : Exn)
  deriving DecidableEq

/-- The file at the path, and how far saving has come. -/
structure SaveState where
  file : Option KeyFile
  stage : SaveStage
  deriving DecidableEq

/-- What the system answers. A write takes a number of octets. -/
inductive SaveEvent
  | createDirectories (error : Option String)
  | openFile (ok : Bool)
  | write (n : ℕ)
  | writeFailed
  | close (ok : Bool)
  | chmod (ok : Bool)
  deriving DecidableEq

/-- The mode of a file that is opened: the one it had, or what the mask leaves of a new one. -/
def openedMode (umask : UInt16) : Option KeyFile → UInt16
  | none => 0o666 &&& ~~~umask
  | some file => file.mode

/-- The bits that let the group or others read a file. -/
def sharedBits : UInt16 := 0o044

/-- The mode that `make_private` gives a file. -/
def privateMode : UInt16 := 0o600

/-- The exception when there is no directory. -/
def createFailed (message : String) : Exn :=
  .runtimeError ("failed to create Tailcat key directory: " ++ message)

/-- The exception when the file cannot be opened. -/
def openFailed (path : List UInt8) : Exn :=
  .runtimeError ("failed to create Tailcat key file: " ++ octetsText path)

/-- The exception when the text cannot be written. -/
def writeFailed (path : List UInt8) : Exn :=
  .runtimeError ("failed to write Tailcat key file: " ++ octetsText path)

/-- The exception when the mode cannot be changed. -/
def makePrivateFailed (path : List UInt8) : Exn :=
  .runtimeError ("failed to set private key permissions on " ++ octetsText path)

/-- What the program does with an answer of the system. The text is flushed when the stream is
closed; after a write that has failed nothing more of it is written. -/
def saveStep (path text : List UInt8) (umask : UInt16) (s : SaveState) :
    SaveEvent → Option SaveState
  | .createDirectories error =>
    if s.stage = .creating then
      match error with
      | none => some { s with stage := .opening }
      | some message => some { s with stage := .thrown (createFailed message) }
    else none
  | .openFile ok =>
    if s.stage = .opening then
      if ok then some ⟨some ⟨[], openedMode umask s.file⟩, .writing text⟩
      else some { s with stage := .thrown (openFailed path) }
    else none
  | .write n =>
    match s.stage, s.file with
    | .writing rest, some file =>
      if 0 < n ∧ n ≤ rest.length then
        some ⟨some { file with content := file.content ++ rest.take n }, .writing (rest.drop n)⟩
      else none
    | _, _ => none
  | .writeFailed =>
    match s.stage with
    | .writing rest => if rest ≠ [] then some { s with stage := .failed } else none
    | _ => none
  | .close ok =>
    match s.stage with
    | .writing [] =>
      if ok then some { s with stage := .restricting }
      else some { s with stage := .thrown (writeFailed path) }
    | .failed => some { s with stage := .thrown (writeFailed path) }
    | _ => none
  | .chmod ok =>
    match s.stage, s.file with
    | .restricting, some file =>
      if ok then some ⟨some { file with mode := privateMode }, .returned⟩
      else some { s with stage := .thrown (makePrivateFailed path) }
    | _, _ => none

/-- Saving to a path where there is a file, or none. The path and the text may be what is thrown
before anything is done. -/
def saving (plan : Except Exn (List UInt8 × List UInt8)) (umask : UInt16) (old : Option KeyFile) :
    Machine SaveState SaveEvent Empty :=
  match plan with
  | .error e => ⟨⟨old, .thrown e⟩, fun _ _ => none⟩
  | .ok (path, text) =>
    ⟨⟨old, if parentPath path = [] then .opening else .creating⟩,
      fun s event => (saveStep path text umask s event).map fun s => (s, [])⟩

/-! ## What is at the path -/

/-- What has happened to the file: nothing before it is opened; then it has a beginning of the text
and the mode it was opened with, until saving returns. -/
inductive Kept (text : List UInt8) (umask : UInt16) (old : Option KeyFile) :
    List SaveEvent → SaveState → Prop
  | untouched {es : List SaveEvent} {stage : SaveStage} (hes : .openFile true ∉ es)
      (hstage : stage = .creating ∨ stage = .opening ∨ ∃ e, stage = .thrown e) :
      Kept text umask old es ⟨old, stage⟩
  | begun {es : List SaveEvent} {stage : SaveStage} {written rest : List UInt8}
      (hes : .openFile true ∈ es) (htext : text = written ++ rest)
      (hstage : stage = .writing rest ∨ stage = .failed ∨ (stage = .restricting ∧ rest = []) ∨
        ∃ e, stage = .thrown e) :
      Kept text umask old es ⟨some ⟨written, openedMode umask old⟩, stage⟩
  | done {es : List SaveEvent} (hes : .openFile true ∈ es) :
      Kept text umask old es ⟨some ⟨text, privateMode⟩, .returned⟩

variable {path text : List UInt8} {umask : UInt16} {old : Option KeyFile} {es : List SaveEvent}
  {s s' : SaveState} {event : SaveEvent}

/-- Before the file is opened, an answer of the system leaves it as it is or opens it. -/
theorem Kept.step_untouched {stage : SaveStage} (hes : .openFile true ∉ es)
    (hstage : stage = .creating ∨ stage = .opening ∨ ∃ e, stage = .thrown e)
    (hs : saveStep path text umask ⟨old, stage⟩ event = some s') :
    Kept text umask old (es ++ [event]) s' := by
  rcases hstage with rfl | rfl | ⟨e, rfl⟩
  · cases event with
    | createDirectories error =>
      have hes' : .openFile true ∉ es ++ [.createDirectories error] := by simpa using hes
      cases error with
      | none =>
        obtain rfl := Option.some.inj hs
        exact .untouched hes' (.inr (.inl rfl))
      | some message =>
        obtain rfl := Option.some.inj hs
        exact .untouched hes' (.inr (.inr ⟨_, rfl⟩))
    | _ => cases hs
  · cases event with
    | openFile ok =>
      cases ok with
      | false =>
        obtain rfl := Option.some.inj hs
        exact .untouched (by simpa using hes) (.inr (.inr ⟨_, rfl⟩))
      | true =>
        -- The file is emptied: nothing of the text has been written.
        obtain rfl := Option.some.inj hs
        exact .begun (List.mem_append_right es (.head [])) (List.nil_append text).symm (.inl rfl)
    | _ => cases hs
  · cases event <;> cases hs

/-- While the text is written, an answer of the system moves some of it into the file. -/
theorem Kept.step_writing {written rest : List UInt8} (hes : .openFile true ∈ es)
    (htext : text = written ++ rest)
    (hs : saveStep path text umask ⟨some ⟨written, openedMode umask old⟩, .writing rest⟩ event =
      some s') :
    Kept text umask old (es ++ [event]) s' := by
  have hes' : .openFile true ∈ es ++ [event] := List.mem_append_left _ hes
  cases event with
  | write n =>
    obtain ⟨-, hs⟩ := Option.ite_none_right_eq_some.mp hs
    obtain rfl := Option.some.inj hs
    have hrest : text = written ++ rest.take n ++ rest.drop n := by
      rw [List.append_assoc, List.take_append_drop, htext]
    exact .begun hes' hrest (.inl rfl)
  | writeFailed =>
    obtain ⟨-, hs⟩ := Option.ite_none_right_eq_some.mp hs
    obtain rfl := Option.some.inj hs
    exact .begun hes' htext (.inr (.inl rfl))
  | close ok =>
    -- The stream is closed when nothing is left of the text.
    cases rest with
    | nil =>
      cases ok with
      | false =>
        obtain rfl := Option.some.inj hs
        exact .begun hes' htext (.inr (.inr (.inr ⟨_, rfl⟩)))
      | true =>
        obtain rfl := Option.some.inj hs
        exact .begun hes' htext (.inr (.inr (.inl ⟨rfl, rfl⟩)))
    | cons c rest => cases hs
  | _ => cases hs

/-- **What one answer of the system does to the file.** -/
theorem Kept.step (h : Kept text umask old es s)
    (hs : saveStep path text umask s event = some s') : Kept text umask old (es ++ [event]) s' := by
  cases h with
  | untouched hes hstage => exact .step_untouched hes hstage hs
  | begun hes htext hstage =>
    have hes' : .openFile true ∈ es ++ [event] := List.mem_append_left _ hes
    rcases hstage with rfl | rfl | ⟨rfl, rfl⟩ | ⟨e, rfl⟩
    · exact .step_writing hes htext hs
    · cases event with
      | close ok =>
        obtain rfl := Option.some.inj hs
        exact .begun hes' htext (.inr (.inr (.inr ⟨_, rfl⟩)))
      | _ => cases hs
    · cases event with
      | chmod ok =>
        cases ok with
        | false =>
          obtain rfl := Option.some.inj hs
          exact .begun hes' htext (.inr (.inr (.inr ⟨_, rfl⟩)))
        | true =>
          -- Everything has been written.
          obtain rfl := Option.some.inj hs
          rw [List.append_nil] at htext
          rw [← htext]
          exact .done hes'
      | _ => cases hs
    · cases event <;> cases hs
  | done _ => cases event <;> cases hs

theorem Kept.of_returned (h : Kept text umask old es s) (hstage : s.stage = .returned) :
    .openFile true ∈ es ∧ s.file = some ⟨text, privateMode⟩ := by
  cases h with
  | untouched _ h =>
    obtain rfl := hstage
    rcases h with h | h | ⟨e, h⟩ <;> cases h
  | begun _ _ h =>
    obtain rfl := hstage
    rcases h with h | h | ⟨h, -⟩ | ⟨e, h⟩ <;> cases h
  | done hes => exact ⟨hes, rfl⟩

/-- A file that has been opened has a beginning of the text. -/
theorem Kept.of_opened (h : Kept text umask old es s) (hes : .openFile true ∈ es) :
    ∃ file, s.file = some file ∧ file.content <+: text := by
  cases h with
  | untouched hnot _ => exact absurd hes hnot
  | begun _ htext _ => exact ⟨_, rfl, htext ▸ List.prefix_append _ _⟩
  | done _ => exact ⟨_, rfl, List.prefix_rfl⟩

theorem Kept.of_not_opened (h : Kept text umask old es s) (hes : .openFile true ∉ es) :
    s.file = old := by
  cases h with
  | untouched _ _ => rfl
  | begun hopened _ _ => exact absurd hopened hes
  | done hopened => exact absurd hopened hes

/-- Who could not read the file when it was opened cannot read it. -/
theorem Kept.mode_and (h : Kept text umask old es s)
    (hmode : openedMode umask old &&& sharedBits = 0) {file : KeyFile}
    (hfile : s.file = some file) : file.mode &&& sharedBits = 0 := by
  cases h with
  | untouched _ _ =>
    obtain rfl := hfile
    exact hmode
  | begun _ _ _ =>
    obtain rfl := Option.some.inj hfile
    exact hmode
  | done _ =>
    obtain rfl := Option.some.inj hfile
    have hprivate : privateMode &&& sharedBits = 0 := by decide
    exact hprivate

/-- The file, whatever has happened so far. -/
theorem saving_kept {os : List Empty} (h : (saving (.ok (path, text)) umask old).Runs es s os) :
    Kept text umask old es s := by
  refine h.trace_invariant (I := fun es s _ => Kept text umask old es s) ?_ ?_
  · refine .untouched List.not_mem_nil ?_
    split
    · exact .inr (.inl rfl)
    · exact .inl rfl
  · intro es s os event s' os' _ hkept hs
    obtain ⟨t, ht, heq⟩ := Option.map_eq_some_iff.mp hs
    obtain ⟨rfl, -⟩ := Prod.mk.inj heq
    exact hkept.step ht

/-- If there is nothing to be saved then nothing is done. -/
theorem saving_error {e : Exn} {os : List Empty} (h : (saving (.error e) umask old).Runs es s os) :
    es = [] ∧ s = ⟨old, .thrown e⟩ := by
  induction es using List.reverseRecOn generalizing s os with
  | nil => exact ⟨rfl, (Machine.runs_nil.mp h).1⟩
  | append_singleton es event ih =>
    obtain ⟨t, os₁, os₂, -, hs, -⟩ := Machine.runs_snoc.mp h
    cases hs

/-! ## What is loaded -/

section Load

variable (env : ConfigEnv) (S : Sodium) (J : JsonLibrary) (pathOrName : List UInt8)

/-- Loading a key whose path leads to a file, or to none. -/
def loadFile (file : Option KeyFile) : Except LoadError SavedTailcatKey :=
  loadSavedTailcatKey env S J (fun _ => file.map KeyFile.content) pathOrName

/-- A public key is in the file with other digits than those that the derived key has. The case of
their letters does not matter. -/
def Contradicts (value : Json) : Prop :=
  ∃ privateKey publicValue, SpellsMember value privateMember privateKeyType privateKey ∧
    value.find? publicMember = some publicValue ∧
    ((∃ publicKey digits, nodePublicFromPrivate S privateKey = .ok publicKey ∧
        publicValue.find? serverPublicMember = some (.string (nodeKeyType ++ digits)) ∧
        digits.map Ctype.toLower ≠ Hex.encode publicKey.toList) ∨
      ∃ disco digits, deriveDiscoKey S privateKey = .ok disco ∧
        publicValue.find? serverDiscoPublicMember = some (.string (discoKeyType ++ digits)) ∧
        digits.map Ctype.toLower ≠ Hex.encode disco.publicKey.toList)

variable {env S J pathOrName} {key k : SavedTailcatKey} {disco : NodeKeyPair} {value : Json}
  {file : KeyFile}

/-- A member whose digits are others spells no key with the digits. -/
theorem not_spellsMember {member type digits : List UInt8} {k : Key32}
    (hfound : value.find? member = some (.string (type ++ digits)))
    (hdigits : digits.map Ctype.toLower ≠ Hex.encode k.toList) :
    ¬ SpellsMember value member type k := by
  rintro ⟨text, htext, digits', rfl, hspells⟩
  obtain heq := Json.string.inj (Option.some.inj (hfound.symm.trans htext))
  obtain rfl := List.append_cancel_left heq
  exact hdigits hspells

theorem Contradicts.not_stores (h : Contradicts S value) : ¬ Stores S value k := by
  intro hstores
  obtain ⟨privateKey, publicValue, hprivate, hpublic, hother⟩ := h
  obtain ⟨publicValue', hpublic', hmembers⟩ := hstores.publicValue
  obtain rfl := Option.some.inj (hpublic.symm.trans hpublic')
  obtain rfl := hprivate.unique hstores.privateKey
  -- The derived key is one and the same, so its digits are not those in the file.
  rcases hother with ⟨publicKey, digits, hderived, hfound, hdigits⟩ |
    ⟨disco, digits, hderived, hfound, hdigits⟩
  · obtain rfl := Except.ok.inj (hderived.symm.trans hstores.publicKey)
    exact not_spellsMember hfound hdigits
      (hmembers.serverPublic (Json.contains_iff.mpr ⟨_, hfound⟩))
  · obtain ⟨disco', hderived', hspells⟩ :=
      hmembers.serverDiscoPublic (Json.contains_iff.mpr ⟨_, hfound⟩)
    obtain rfl := Except.ok.inj (hderived.symm.trans hderived')
    exact not_spellsMember hfound hdigits hspells

theorem saveText_eq_ok_iff :
    saveText env S J pathOrName key = .ok (path, text) ↔
      ∃ disco, resolveTailcatKeyPath env pathOrName = .ok path ∧
        deriveDiscoKey S key.identity.privateKey = .ok disco ∧
        text = J.dump (keyDocument key disco) ++ [newline] := by
  constructor
  · intro h
    obtain ⟨p, hp, h⟩ := Except.bind_eq_ok_iff.mp h
    obtain ⟨disco, hdisco, h⟩ := Except.bind_eq_ok_iff.mp h
    obtain ⟨rfl, rfl⟩ := Prod.mk.inj (Except.ok.inj h)
    exact ⟨disco, hp, hdisco, rfl⟩
  · rintro ⟨disco, hpath, hdisco, rfl⟩
    exact Except.bind_eq_ok_iff.mpr ⟨path, hpath, Except.bind_eq_ok_iff.mpr ⟨disco, hdisco, rfl⟩⟩

/-- What a run leaves: the file as it was, or what `Kept` says about the text. -/
theorem saving_cases {os : List Empty}
    (h : (saving (saveText env S J pathOrName key) umask old).Runs es s os) :
    (es = [] ∧ s.file = old ∧ ∃ e, s.stage = .thrown e) ∨
      ∃ path text, saveText env S J pathOrName key = .ok (path, text) ∧
        Kept text umask old es s := by
  cases hplan : saveText env S J pathOrName key with
  | error e =>
    rw [hplan] at h
    obtain ⟨rfl, rfl⟩ := saving_error h
    exact .inl ⟨rfl, rfl, e, rfl⟩
  | ok plan =>
    rw [hplan] at h
    exact .inr ⟨plan.1, plan.2, rfl, saving_kept h⟩

/-- A key that has been saved is loaded. -/
theorem load_of_returned {os : List Empty} {files : List UInt8 → Option (List UInt8)}
    (hpublic : nodePublicFromPrivate S key.identity.privateKey = .ok key.identity.publicKey)
    (hjson : ∀ disco, deriveDiscoKey S key.identity.privateKey = .ok disco →
      J.parse (J.dump (keyDocument key disco) ++ [newline]) = .ok (keyDocument key disco))
    (h : (saving (saveText env S J pathOrName key) umask old).Runs es s os)
    (hstage : s.stage = .returned)
    (hfiles : ∀ path, resolveTailcatKeyPath env pathOrName = .ok path →
      files path = s.file.map KeyFile.content) :
    loadSavedTailcatKey env S J files pathOrName = .ok key := by
  rcases saving_cases h with ⟨-, -, e, hthrown⟩ | ⟨path, text, hplan, hkept⟩
  · rw [hstage] at hthrown
    cases hthrown
  · obtain ⟨disco, hpath, hdisco, rfl⟩ := saveText_eq_ok_iff.mp hplan
    have hfile : s.file.map KeyFile.content =
        some (J.dump (keyDocument key disco) ++ [newline]) := by
      rw [(hkept.of_returned hstage).2, Option.map_some]
    exact loadSavedTailcatKey_eq_ok_iff.mpr ⟨path, _, _, hpath, (hfiles path hpath).trans hfile,
      hjson disco hdisco, stores_keyDocument hpublic hdisco⟩

/-- The beginning of a text is loaded as the key if only the newline is missing, and not at all if
something else is. -/
theorem loadFile_beginning (hjson : J.Delimits (keyDocument key disco))
    (hpath : resolveTailcatKeyPath env pathOrName = .ok path)
    (hbegin : file.content <+: J.dump (keyDocument key disco) ++ [newline]) :
    ((J.dump (keyDocument key disco)).length ≤ file.content.length ∧
        ∀ k, loadFile env S J pathOrName (some file) = .ok k ↔ Stores S (keyDocument key disco) k) ∨
      (file.content.length < (J.dump (keyDocument key disco)).length ∧
        ∃ e, loadFile env S J pathOrName (some file) = .error e) := by
  rcases hjson.parse_beginning hbegin with ⟨hle, hparse⟩ | ⟨hlt, e, hparse⟩
  · refine .inl ⟨hle, fun k => ?_⟩
    rw [loadFile, loadSavedTailcatKey_eq_ok_iff]
    constructor
    · rintro ⟨_, text, value, -, htext, hvalue, hstores⟩
      obtain rfl := Option.some.inj htext
      obtain rfl := Except.ok.inj (hparse.symm.trans hvalue)
      exact hstores
    · intro hstores
      exact ⟨path, _, _, hpath, rfl, hparse, hstores⟩
  · -- A print that is cut off is no value.
    refine .inr ⟨hlt, Except.error_of_ne_ok fun k hload => ?_⟩
    obtain ⟨_, text, value, -, htext, hvalue, -⟩ := loadSavedTailcatKey_eq_ok_iff.mp hload
    obtain rfl := Option.some.inj htext
    rw [hparse] at hvalue
    cases hvalue

/-! ## A key -/

/-- A private key with its public key. -/
def exampleKey : SavedTailcatKey where
  identity :=
    { privateKey := .ofList
        (beBytes 32 0x0800000000000000000000000000000000000000000000000000000000000040)
        (length_beBytes _ _)
      publicKey := .ofList
        (beBytes 32 0x422c8e7a6227d7bca1350b3e2bb7279f7897b87bb6854b783c60e80311ae3079)
        (length_beBytes _ _) }
  presharedKey := none
  regionId := 7

/-- The disco key that belongs to it. -/
def exampleDisco : NodeKeyPair where
  privateKey := .ofList
    (beBytes 32 0xeafaa8c6ccc69acfa055f417ce692654fac1cca13f125dfdce6c19b11c7fc568)
    (length_beBytes _ _)
  publicKey := .ofList
    (beBytes 32 0x3f4c7e77e5360ae626c5294b0dba086a3ac61c76cc71d5a1a9cca476e4c21d3c)
    (length_beBytes _ _)

/-- The values of the functions that the key needs. -/
def exampleSodium : Sodium where
  scalarmultBase k :=
    if k = exampleKey.identity.privateKey then some exampleKey.identity.publicKey
    else if k = exampleDisco.privateKey then some exampleDisco.publicKey
    else none
  authHmacSha256 message k :=
    if message = discoLabel ∧ k = exampleKey.identity.privateKey then some exampleDisco.privateKey
    else none

/-- The value that stores the key, with a public key that may be another one. -/
def exampleDocument (serverPublic : Key32) : Json :=
  keyDocument { exampleKey with identity.publicKey := serverPublic } exampleDisco

/-- How it is printed. -/
def examplePrint (serverPublic : Key32) : List UInt8 :=
  [newline].intercalate
    [ascii "\x7b",
      ascii "  \"Private\": \"" ++ hexKey privateKeyType exampleKey.identity.privateKey ++
        ascii "\",",
      ascii "  \"Public\": \x7b",
      ascii "    \"RegionID\": 7,",
      ascii "    \"ServerDiscoPublic\": \"" ++ hexKey discoKeyType exampleDisco.publicKey ++
        ascii "\",",
      ascii "    \"ServerPublic\": \"" ++ hexKey nodeKeyType serverPublic ++ ascii "\"",
      ascii "  \x7d",
      ascii "\x7d"]

/-- A library that reads and prints one document, that of a public key. -/
def libraryOf (serverPublic : Key32) : JsonLibrary :=
  .ofPrint (examplePrint serverPublic) (exampleDocument serverPublic)

/-- The contents of the file for a public key. -/
def textOf (serverPublic : Key32) : List UInt8 := examplePrint serverPublic ++ [newline]

/-- The library for the document of the example's key. -/
def exampleLibrary : JsonLibrary := libraryOf exampleKey.identity.publicKey

/-- The contents of the file of the example's key. -/
def exampleText : List UInt8 := textOf exampleKey.identity.publicKey

/-- An environment without variables. -/
def exampleEnv : ConfigEnv := ⟨none, none⟩

/-- A path that needs no directory of the configuration. -/
def examplePath : List UInt8 := ascii "/key"

/-- Saving the example's key over a file that may be there. -/
def exampleSaving (umask : UInt16) (old : Option KeyFile) : Machine SaveState SaveEvent Empty :=
  saving (saveText exampleEnv exampleSodium exampleLibrary examplePath exampleKey) umask old

/-- Loading the example's key from a file that may be there. -/
def exampleLoad (file : Option KeyFile) : Except LoadError SavedTailcatKey :=
  loadFile exampleEnv exampleSodium exampleLibrary examplePath file

theorem deriveDiscoKey_example :
    deriveDiscoKey exampleSodium exampleKey.identity.privateKey = .ok exampleDisco := by
  rfl

theorem nodePublic_example : nodePublicFromPrivate exampleSodium exampleKey.identity.privateKey =
    .ok exampleKey.identity.publicKey := by
  rfl

theorem saveText_example :
    saveText exampleEnv exampleSodium exampleLibrary examplePath exampleKey =
      .ok (examplePath, exampleText) :=
  saveText_eq_ok_iff.mpr ⟨exampleDisco, rfl, deriveDiscoKey_example, rfl⟩

theorem exampleSaving_eq : exampleSaving umask old =
    saving (.ok (examplePath, exampleText)) umask old := by
  rw [exampleSaving, saveText_example]

theorem delimits_example (disco : NodeKeyPair)
    (h : deriveDiscoKey exampleSodium exampleKey.identity.privateKey = .ok disco) :
    exampleLibrary.Delimits (keyDocument exampleKey disco) := by
  obtain rfl := Except.ok.inj (deriveDiscoKey_example.symm.trans h)
  exact JsonLibrary.delimits_ofPrint _ _

theorem exampleLoad_eq : exampleLoad (some ⟨exampleText, privateMode⟩) = .ok exampleKey := by
  rw [exampleLoad, loadFile, loadSavedTailcatKey_eq_ok_iff]
  exact ⟨examplePath, _, _, rfl, rfl, (JsonLibrary.delimits_ofPrint _ _).whole _,
    stores_keyDocument nodePublic_example deriveDiscoKey_example⟩

/-- No value is parsed from the empty text. -/
theorem exampleLoad_empty (mode : UInt16) : ∃ e, exampleLoad (some ⟨[], mode⟩) = .error e := by
  refine Except.error_of_ne_ok fun k hload => ?_
  rw [exampleLoad, loadFile, loadSavedTailcatKey_eq_ok_iff] at hload
  obtain ⟨_, text, value, -, htext, hvalue, -⟩ := hload
  obtain rfl := Option.some.inj htext
  cases hvalue

theorem exampleSaving_returns : (exampleSaving 0o022 none).Runs
    [.createDirectories none, .openFile true, .write 327, .close true, .chmod true]
    ⟨some ⟨exampleText, privateMode⟩, .returned⟩ [] := by
  rw [exampleSaving_eq]
  decide +kernel

/-! ## Saving and loading -/

/-- **What is saved is loaded, and what is loaded has been checked**: after a key has been saved, it
is loaded from there. Any file that is loaded stores a private key from which the public key is
derived, and no other public keys; where a digit of these differs, the file is rejected. -/
theorem savedKey_checked (env : ConfigEnv) (S : Sodium) (J : JsonLibrary)
    (files : List UInt8 → Option (List UInt8)) (pathOrName : List UInt8) :
    (∀ (key : SavedTailcatKey) (umask : UInt16) (old : Option KeyFile) (es : List SaveEvent)
      (s : SaveState) (os : List Empty),
      nodePublicFromPrivate S key.identity.privateKey = .ok key.identity.publicKey →
      (∀ disco, deriveDiscoKey S key.identity.privateKey = .ok disco →
        J.parse (J.dump (keyDocument key disco) ++ [newline]) = .ok (keyDocument key disco)) →
      (saving (saveText env S J pathOrName key) umask old).Runs es s os → s.stage = .returned →
      (∀ path, resolveTailcatKeyPath env pathOrName = .ok path →
        files path = s.file.map KeyFile.content) →
      loadSavedTailcatKey env S J files pathOrName = .ok key) ∧
    (∀ key, loadSavedTailcatKey env S J files pathOrName = .ok key →
      ∃ path text value, resolveTailcatKeyPath env pathOrName = .ok path ∧
        files path = some text ∧ J.parse text = .ok value ∧ Stores S value key) ∧
    ∀ path text value, resolveTailcatKeyPath env pathOrName = .ok path → files path = some text →
      J.parse text = .ok value → Contradicts S value →
      ∃ e, loadSavedTailcatKey env S J files pathOrName = .error e := by
  refine ⟨?_, fun key h => loadSavedTailcatKey_eq_ok_iff.mp h, ?_⟩
  · intro key umask old es s os hpublic hjson hrun hstage hfiles
    exact load_of_returned hpublic hjson hrun hstage hfiles
  · intro path text value hpath htext hvalue hcontradicts
    refine Except.error_of_ne_ok fun key hload => ?_
    obtain ⟨path', text', value', hpath', htext', hvalue', hstores⟩ :=
      loadSavedTailcatKey_eq_ok_iff.mp hload
    -- There is one path, one text at it and one value that it is read as.
    obtain rfl := Except.ok.inj (hpath.symm.trans hpath')
    obtain rfl := Option.some.inj (htext.symm.trans htext')
    obtain rfl := Except.ok.inj (hvalue.symm.trans hvalue')
    exact hcontradicts.not_stores hstores

/-- The key is saved and loaded; with the disco key in place of its public key it is rejected. -/
theorem savedKey_checked_example :
    loadSavedTailcatKey exampleEnv exampleSodium exampleLibrary (fun _ => some exampleText)
        examplePath = .ok exampleKey ∧
      (∃ path text value, resolveTailcatKeyPath exampleEnv examplePath = .ok path ∧
        some exampleText = some text ∧ exampleLibrary.parse text = .ok value ∧
        Stores exampleSodium value exampleKey) ∧
      ∃ e, loadSavedTailcatKey exampleEnv exampleSodium (libraryOf exampleDisco.publicKey)
        (fun _ => some (textOf exampleDisco.publicKey)) examplePath = .error e := by
  obtain ⟨hsaved, hloaded, -⟩ := savedKey_checked exampleEnv exampleSodium exampleLibrary
    (fun _ => some exampleText) examplePath
  obtain ⟨-, -, hrejected⟩ := savedKey_checked exampleEnv exampleSodium
    (libraryOf exampleDisco.publicKey) (fun _ => some (textOf exampleDisco.publicKey)) examplePath
  have hload := hsaved exampleKey 0o022 none _ _ _ nodePublic_example
    (fun disco hdisco => (delimits_example disco hdisco).whole _) exampleSaving_returns rfl
    fun _ _ => rfl
  have hcontradicts : Contradicts exampleSodium (exampleDocument exampleDisco.publicKey) := by
    refine ⟨exampleKey.identity.privateKey, _, ⟨_, find?_private, spellsKey_hexKey _ _⟩,
      Json.find?_insert_self, .inl ⟨exampleKey.identity.publicKey, _, nodePublic_example,
        find?_serverPublic, ?_⟩⟩
    decide +kernel
  exact ⟨hload, hloaded exampleKey hload, hrejected examplePath _ _ rfl rfl
    ((JsonLibrary.delimits_ofPrint _ _).whole _) hcontradicts⟩

/-! ## Failures and interruptions -/

/-- The key is saved where it is, and a write fails: it is lost. Or there was no file, and before
the mode is changed everybody can read the private key. -/
theorem savedKey_lost_or_shared :
    (∃ s, (exampleSaving 0o022 (some ⟨exampleText, privateMode⟩)).Runs
          [.createDirectories none, .openFile true, .writeFailed, .close true] s [] ∧
        s.stage = .thrown (writeFailed examplePath) ∧
        exampleLoad (some ⟨exampleText, privateMode⟩) = .ok exampleKey ∧
        ∃ e, exampleLoad s.file = .error e) ∧
      ∃ s file, (exampleSaving 0o022 none).Runs
          [.createDirectories none, .openFile true, .write 327, .close true] s [] ∧
        s.file = some file ∧ file.mode &&& sharedBits ≠ 0 ∧
        hexKey privateKeyType exampleKey.identity.privateKey <:+: file.content := by
  rw [exampleSaving_eq, exampleSaving_eq]
  constructor
  · exact ⟨⟨some ⟨[], privateMode⟩, .thrown (writeFailed examplePath)⟩, by decide +kernel, rfl,
      exampleLoad_eq, exampleLoad_empty privateMode⟩
  · exact ⟨⟨some ⟨exampleText, 0o644⟩, .restricting⟩, _, by decide +kernel, rfl, by decide,
      by decide +kernel⟩

/-- **A key is replaced in place**: until the file is opened it is as it was. After that the new key
is loaded from it when all but the newline has been written, and nothing before; no key is loaded
that is neither the old nor the new one. When saving returns, the file has the new key and only the
owner can read it; if only the owner could read the file when it was opened, nobody else can. -/
theorem savedKey_replaced {os : List Empty}
    (hjson : ∀ disco, deriveDiscoKey S key.identity.privateKey = .ok disco →
      J.Delimits (keyDocument key disco))
    (h : (saving (saveText env S J pathOrName key) umask old).Runs es s os) :
    (.openFile true ∉ es → s.file = old) ∧
    (.openFile true ∈ es → ∃ path text file, saveText env S J pathOrName key = .ok (path, text) ∧
      s.file = some file ∧ file.content <+: text ∧
      (text.length ≤ file.content.length + 1 →
        nodePublicFromPrivate S key.identity.privateKey = .ok key.identity.publicKey →
        loadFile env S J pathOrName s.file = .ok key) ∧
      (file.content.length + 1 < text.length →
        ∃ e, loadFile env S J pathOrName s.file = .error e)) ∧
    (∀ k, loadFile env S J pathOrName s.file = .ok k →
      loadFile env S J pathOrName old = .ok k ∨ k = key) ∧
    (s.stage = .returned → .openFile true ∈ es ∧ ∃ path text,
      saveText env S J pathOrName key = .ok (path, text) ∧ s.file = some ⟨text, privateMode⟩) ∧
    (openedMode umask old &&& sharedBits = 0 →
      ∀ file, s.file = some file → file.mode &&& sharedBits = 0) := by
  rcases saving_cases h with ⟨rfl, hfile, e, hthrown⟩ | ⟨path, text, hplan, hkept⟩
  · -- Nothing is done when there is nothing to be saved.
    refine ⟨fun _ => hfile, fun hes => absurd hes List.not_mem_nil, fun k hk => .inl (hfile ▸ hk),
      ?_, ?_⟩
    · intro hreturned
      rw [hreturned] at hthrown
      cases hthrown
    · intro hmode file hsome
      rw [hfile] at hsome
      subst hsome
      exact hmode
  · obtain ⟨disco, hpath, hdisco, rfl⟩ := saveText_eq_ok_iff.mp hplan
    have hdelimits := hjson disco hdisco
    have hlength : (J.dump (keyDocument key disco) ++ [newline]).length =
        (J.dump (keyDocument key disco)).length + 1 := List.length_append
    refine ⟨hkept.of_not_opened, fun hes => ?_, fun k hk => ?_, fun hreturned => ?_,
      fun hmode file hfile => hkept.mode_and hmode hfile⟩
    · obtain ⟨file, hfile, hbegin⟩ := hkept.of_opened hes
      rw [hfile]
      refine ⟨path, _, file, hplan, rfl, hbegin, ?_, ?_⟩
      · intro hle hpublic
        rcases loadFile_beginning hdelimits hpath hbegin with ⟨-, hload⟩ | ⟨hlt, -⟩
        · exact (hload key).mpr (stores_keyDocument hpublic hdisco)
        · omega
      · intro hlt
        rcases loadFile_beginning hdelimits hpath hbegin with ⟨hle, -⟩ | ⟨-, herror⟩
        · omega
        · exact herror
    · -- Either the file has not been touched, or it has a beginning of the new text.
      by_cases hes : .openFile true ∈ es
      · obtain ⟨file, hfile, hbegin⟩ := hkept.of_opened hes
        rw [hfile] at hk
        rcases loadFile_beginning hdelimits hpath hbegin with ⟨-, hload⟩ | ⟨-, e, hload⟩
        · exact .inr (eq_of_stores_keyDocument ((hload k).mp hk))
        · rw [hload] at hk
          cases hk
      · exact .inl (hkept.of_not_opened hes ▸ hk)
    · obtain ⟨hes, hfile⟩ := hkept.of_returned hreturned
      exact ⟨hes, path, _, hplan, hfile⟩

/-- A write fails after 100 octets, and nothing is loaded; after saving returns the key is. -/
theorem savedKey_replaced_example :
    (∃ e, exampleLoad (some ⟨exampleText.take 100, 0o600⟩) = .error e) ∧
      (0o600 : UInt16) &&& sharedBits = 0 ∧
      exampleLoad (some ⟨exampleText, privateMode⟩) = .ok exampleKey := by
  have hfails : (exampleSaving 0o077 none).Runs
      [.createDirectories none, .openFile true, .write 100, .writeFailed, .close true]
      ⟨some ⟨exampleText.take 100, 0o600⟩, .thrown (writeFailed examplePath)⟩ [] := by
    rw [exampleSaving_eq]
    decide +kernel
  obtain ⟨-, hbegun, -, -, hmode⟩ := savedKey_replaced delimits_example hfails
  obtain ⟨-, hdone, -, -, -⟩ := savedKey_replaced delimits_example exampleSaving_returns
  refine ⟨?_, hmode (by decide) _ rfl, ?_⟩
  · obtain ⟨path, text, file, hplan, hfile, -, -, herror⟩ := hbegun (by decide)
    obtain ⟨-, rfl⟩ := Prod.mk.inj (Except.ok.inj (saveText_example.symm.trans hplan))
    obtain rfl := Option.some.inj hfile
    exact herror (by decide +kernel)
  · obtain ⟨path, text, file, hplan, hfile, -, hload, -⟩ := hdone (by decide)
    obtain ⟨-, rfl⟩ := Prod.mk.inj (Except.ok.inj (saveText_example.symm.trans hplan))
    obtain rfl := Option.some.inj hfile
    exact hload (by dsimp only; omega) nodePublic_example

end Load

end Tailcat
