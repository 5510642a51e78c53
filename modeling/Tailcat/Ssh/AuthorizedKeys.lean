import Mathlib.Data.List.ReduceOption
import Tailcat.Base.Blanks
import Tailcat.Base.Ctype
import Tailcat.Base.Pieces
import Tailcat.Protocol.Types

/-!
# Authorized keys

A text in the format of `authorized_keys` has one key in a line: its type, its encoding and a
comment. Lines that are blank and lines that are comments are skipped, and any other line that is
not a key is refused, and with it the text. So is a line with options, since its first word is no
type.

Whether a word is a type, and whether another is the encoding of a key of this type, is up to
libssh. It sees no more of a word than what is before a null octet.

## Main definitions

* `Libssh`: the library
* `parseSshAuthorizedKeysText`: the keys of a text
* `SameKeys`: changes to a text that leave its keys as they are

## Main results

* `parse_toOption`: which texts are accepted, line by line
* `authorizedKeys_parsed`: what the keys of a text are, and what they do not depend on
-/

namespace Tailcat.Ssh

open Ctype

/-- libssh, with types `T` of keys and with keys `K`. An unknown type and a failure are `none`. -/
structure Libssh (T K : Type) where
  keyTypeFromName : List UInt8 → Option T
  importPubkeyBase64 : List UInt8 → T → Option K
  exportPubkeyBase64 : K → Option (List UInt8)

variable {T K : Type} (L : Libssh T K)

/-- The encoding that libssh gives the key of a type and an encoding. -/
def Libssh.canon (type encoded : List UInt8) : Option (List UInt8) := do
  let keyType ← L.keyTypeFromName (cStr type)
  let key ← L.importPubkeyBase64 (cStr encoded) keyType
  L.exportPubkeyBase64 key

/-! ## The parser -/

/-- `'\n'` -/
def newline : UInt8 := 0x0a

/-- `'\r'` -/
def carriageReturn : UInt8 := 0x0d

/-- `'#'` -/
def numberSign : UInt8 := 0x23

/-- A key goes behind those that are there, unless it is one of them. -/
def pushUnique (keys : List (List UInt8)) (blob : List UInt8) : List (List UInt8) :=
  if blob ∈ keys then keys else keys ++ [blob]

/-- A line without the carriage return at its end and without the blanks around it. -/
def cleaned (line : List UInt8) : List UInt8 :=
  Blanks.trim isSpace (if line.getLast? = some carriageReturn then line.dropLast else line)

/-- What the loop does with a line, after a number of lines that have given some keys. -/
def parseLine (s : ℕ × List (List UInt8)) (line : List UInt8) :
    Except Exn (ℕ × List (List UInt8)) :=
  let number := s.1 + 1
  let cleaned := cleaned line
  if cleaned = [] ∨ cleaned.head? = some numberSign then
    .ok (number, s.2)
  else
    let (type, rest) := Blanks.extract isSpace cleaned
    let encoded := (Blanks.extract isSpace rest).1
    let keyType := L.keyTypeFromName (cStr type)
    if type = [] ∨ encoded = [] ∨ keyType.isNone then
      .error (.invalidArgument ("authorized keys line " ++ toString number ++
        ": options are not supported or key type is invalid"))
    else
      match keyType.bind (L.importPubkeyBase64 (cStr encoded)) with
      | none =>
        .error (.invalidArgument ("authorized keys line " ++ toString number ++
          ": invalid public key"))
      | some key =>
        match L.exportPubkeyBase64 key with
        | none => .error (.runtimeError "failed to canonicalize SSH public key")
        | some blob => .ok (number, pushUnique s.2 blob)

/-- The keys of a text, in order of their first lines. -/
def parseSshAuthorizedKeysText (text : List UInt8) : Except Exn (List (List UInt8)) := do
  let (_, keys) ← Pieces.eachLine newline (parseLine L) text (0, [])
  if keys = [] then
    .error (.invalidArgument "no SSH public keys found")
  else
    return keys

/-! ## Lines -/

/-- A line is skipped if it is blank, or its first octet that is not blank is `#`. -/
def Skipped (line : List UInt8) : Prop :=
  (∀ x ∈ line, isSpace x) ∨ line.find? (fun x => ! isSpace x) = some numberSign

instance (line : List UInt8) : Decidable (Skipped line) := inferInstanceAs (Decidable (_ ∨ _))

/-- The key of a line, if the first two words are one. -/
def keyOfLine (line : List UInt8) : Option (List UInt8) :=
  match Blanks.words isSpace line with
  | type :: encoded :: _ => L.canon type encoded
  | _ => none

section Around

variable {before after : List UInt8} (line : List UInt8)

/-- Blanks around a line make no difference. -/
theorem skipped_around (hbefore : ∀ x ∈ before, isSpace x) (hafter : ∀ x ∈ after, isSpace x) :
    Skipped (before ++ line ++ after) ↔ Skipped line := by
  unfold Skipped
  rw [Blanks.find?_around hbefore hafter]
  apply or_congr_left
  constructor
  · intro h x hx
    exact h x (by simp [hx])
  · intro h x hx
    rcases List.mem_append.mp hx with hx | hx
    · exact (List.mem_append.mp hx).elim (hbefore x) (h x)
    · exact hafter x hx

theorem keyOfLine_around (hbefore : ∀ x ∈ before, isSpace x) (hafter : ∀ x ∈ after, isSpace x) :
    keyOfLine L (before ++ line ++ after) = keyOfLine L line := by
  unfold keyOfLine
  rw [Blanks.words_append_right hafter, Blanks.words_append_left hbefore]

/-- What is cut off a line is blank. The carriage return is, too. -/
theorem cleaned_spec : ∃ before after, line = before ++ cleaned line ++ after ∧
    (∀ x ∈ before, isSpace x) ∧ ∀ x ∈ after, isSpace x := by
  unfold cleaned
  split_ifs with hreturn
  · obtain ⟨before, after, hline, hbefore, hafter⟩ := Blanks.trim_spec isSpace line.dropLast
    refine ⟨before, after ++ [carriageReturn], ?_, hbefore, ?_⟩
    · obtain ⟨start, rfl⟩ := List.getLast?_eq_some_iff.mp hreturn
      rw [List.dropLast_concat] at hline ⊢
      conv_lhs => rw [hline]
      rw [List.append_assoc _ after]
    · intro x hx
      rcases List.mem_append.mp hx with hx | hx
      · exact hafter x hx
      · rw [List.mem_singleton.mp hx]
        rfl
  · exact Blanks.trim_spec isSpace line

theorem skipped_iff_cleaned :
    Skipped line ↔ cleaned line = [] ∨ (cleaned line).head? = some numberSign := by
  obtain ⟨before, after, hline, hbefore, hafter⟩ := cleaned_spec line
  have hskipped : Skipped line ↔ Skipped (cleaned line) := by
    conv_lhs => rw [hline]
    exact skipped_around _ hbefore hafter
  rw [hskipped]
  rcases hcleaned : cleaned line with _ | ⟨x, rest⟩
  · exact iff_of_true (.inl fun x hx => by cases hx) (.inl rfl)
  · have hx : isSpace x = false := Blanks.head_trim hcleaned
    have hfind : (x :: rest).find? (fun x => ! isSpace x) = some x := by simp [hx]
    unfold Skipped
    rw [hfind]
    constructor
    · rintro (hblank | hhead)
      · simp [hblank x (by simp)] at hx
      · exact .inr hhead
    · rintro (hnil | hhead)
      · cases hnil
      · exact .inr hhead

theorem keyOfLine_cleaned : keyOfLine L (cleaned line) = keyOfLine L line := by
  obtain ⟨before, after, hline, hbefore, hafter⟩ := cleaned_spec line
  conv_rhs => rw [hline]
  exact (keyOfLine_around L _ hbefore hafter).symm

end Around

section ParseLine

variable {L} {s : ℕ × List (List UInt8)} {line : List UInt8}

theorem parseLine_of_skipped (h : Skipped line) : parseLine L s line = .ok (s.1 + 1, s.2) :=
  if_pos ((skipped_iff_cleaned line).mp h)

/-- Any other line is a key or is refused. -/
theorem parseLine_of_not_skipped (h : ¬ Skipped line) : match keyOfLine L line with
    | some blob => parseLine L s line = .ok (s.1 + 1, pushUnique s.2 blob)
    | none => ∃ e, parseLine L s line = .error e := by
  have hline : ¬ (cleaned line = [] ∨ (cleaned line).head? = some numberSign) :=
    fun hc => h ((skipped_iff_cleaned line).mpr hc)
  have hwords := Blanks.words_of_extract isSpace (cleaned line)
  have hrest := Blanks.words_of_extract isSpace (Blanks.extract isSpace (cleaned line)).2
  rw [← keyOfLine_cleaned]
  unfold parseLine keyOfLine
  dsimp only
  rw [if_neg hline, hwords, hrest]
  generalize (Blanks.extract isSpace (cleaned line)).1 = type
  generalize Blanks.extract isSpace (Blanks.extract isSpace (cleaned line)).2 = second
  by_cases htype : type = []
  · rw [if_pos htype, if_pos (.inl htype)]
    exact ⟨_, rfl⟩
  rw [if_neg htype]
  by_cases hencoded : second.1 = []
  · rw [if_pos hencoded, if_pos (.inr (.inl hencoded))]
    exact ⟨_, rfl⟩
  rw [if_neg hencoded]
  dsimp only
  -- Both words are there, and the library decides.
  unfold Libssh.canon
  rcases L.keyTypeFromName (cStr type) with _ | keyType
  · exact ⟨_, if_pos (.inr (.inr rfl))⟩
  rw [if_neg (by simp [htype, hencoded])]
  dsimp only [Option.bind_eq_bind, Option.bind_some]
  rcases L.importPubkeyBase64 (cStr second.1) keyType with _ | key
  · exact ⟨_, rfl⟩
  dsimp only [Option.bind_some]
  rcases L.exportPubkeyBase64 key with _ | blob
  · exact ⟨_, rfl⟩
  · rfl

end ParseLine

/-! ## Texts -/

/-- What the lines that are not skipped are: keys, or none. -/
def keysOfLines (lines : List (List UInt8)) : List (Option (List UInt8)) :=
  (lines.filter fun line => ¬ Skipped line).map (keyOfLine L)

/-- The keys of a text, if there are any and nothing else, each of them once. -/
def acceptedKeys (keys : List (Option (List UInt8))) : Option (List (List UInt8)) :=
  if keys ≠ [] ∧ none ∉ keys then some keys.reduceOption.eraseDups else none

theorem foldl_pushUnique (blobs : List (List UInt8)) :
    blobs.foldl pushUnique [] = blobs.eraseDups := by
  induction blobs using List.reverseRecOn with
  | nil => rfl
  | append_singleton blobs blob ih =>
    rw [List.foldl_append, ih, List.eraseDups_append, List.foldl_cons, List.foldl_nil, pushUnique]
    by_cases h : blob ∈ blobs
    · simp [List.mem_eraseDups, List.removeAll, h]
    · simp [List.mem_eraseDups, List.removeAll, List.eraseDups_cons, h]

/-- **The loop over the lines**: it comes to the end if there are only keys. -/
theorem foldlM_parseLine (lines : List (List UInt8)) (s : ℕ × List (List UInt8)) :
    if none ∈ keysOfLines L lines then ∃ e, lines.foldlM (parseLine L) s = .error e
    else lines.foldlM (parseLine L) s =
      .ok (s.1 + lines.length, (keysOfLines L lines).reduceOption.foldl pushUnique s.2) := by
  induction lines generalizing s with
  | nil => rfl
  | cons line lines ih =>
    rw [List.foldlM_cons]
    -- A line that is skipped is still counted.
    by_cases hskipped : Skipped line
    · have hkeys : keysOfLines L (line :: lines) = keysOfLines L lines := by
        simp [keysOfLines, hskipped]
      rw [parseLine_of_skipped hskipped, hkeys, List.length_cons]
      have hrest := ih (s.1 + 1, s.2)
      rwa [Nat.add_right_comm] at hrest
    · have hkeys : keysOfLines L (line :: lines) = keyOfLine L line :: keysOfLines L lines := by
        simp [keysOfLines, hskipped]
      have hline := parseLine_of_not_skipped (L := L) (s := s) hskipped
      rw [hkeys]
      rcases hkey : keyOfLine L line with _ | blob
      · -- A line that is no key ends the loop.
        rw [hkey] at hline
        obtain ⟨e, he⟩ := hline
        rw [if_pos (by simp), he]
        exact ⟨e, rfl⟩
      · rw [hkey] at hline
        dsimp only at hline
        have hrest := ih (s.1 + 1, pushUnique s.2 blob)
        have hmem : none ∈ some blob :: keysOfLines L lines ↔ none ∈ keysOfLines L lines := by simp
        rw [hline]
        by_cases hnone : none ∈ keysOfLines L lines
        · rw [if_pos hnone] at hrest
          rw [if_pos (hmem.mpr hnone)]
          exact hrest
        · rw [if_neg hnone, Nat.add_right_comm] at hrest
          rw [if_neg fun h => hnone (hmem.mp h), List.reduceOption_cons_of_some]
          exact hrest

/-- The separator at the end of a text makes no difference. -/
theorem keysOfLines_lines (text : List UInt8) :
    keysOfLines L (Pieces.lines newline text) = keysOfLines L (text.splitOn newline) := by
  have hsnoc : ∀ ls : List (List UInt8), keysOfLines L (ls ++ [[]]) = keysOfLines L ls := by
    intro ls
    simp [keysOfLines, Skipped]
  unfold Pieces.lines
  split_ifs with hend
  · rcases hend with hlast | rfl
    · obtain ⟨start, rfl⟩ := List.getLast?_eq_some_iff.mp hlast
      rw [List.splitOn_append_cons_self, List.splitOn_nil, List.dropLast_concat, hsnoc]
    · rw [List.splitOn_nil]
      exact (hsnoc []).symm
  · rfl

/-- **Which texts are accepted**: those with keys in the lines that are not skipped, and nothing
else. -/
theorem parse_toOption (text : List UInt8) : (parseSshAuthorizedKeysText L text).toOption =
    acceptedKeys (keysOfLines L (text.splitOn newline)) := by
  have hloop := foldlM_parseLine L (Pieces.lines newline text) (0, [])
  unfold parseSshAuthorizedKeysText
  rw [keysOfLines_lines] at hloop
  rw [Pieces.eachLine_eq]
  generalize keysOfLines L (text.splitOn newline) = keys at *
  unfold acceptedKeys
  by_cases hnone : none ∈ keys
  · rw [if_pos hnone] at hloop
    obtain ⟨e, he⟩ := hloop
    rw [he, if_neg fun h => h.2 hnone]
    rfl
  rw [if_neg hnone] at hloop
  rw [hloop, foldl_pushUnique]
  rcases keys with _ | ⟨_ | blob, keys⟩
  · rfl
  · exact absurd List.mem_cons_self hnone
  · rw [if_pos ⟨List.cons_ne_nil _ _, hnone⟩, List.reduceOption_cons_of_some, List.eraseDups_cons]
    rfl

/-! ## Changes that leave the keys as they are -/

/-- A line may begin behind `before`. -/
def LineStart (before : List UInt8) : Prop := before = [] ∨ ∃ start, before = start ++ [newline]

/-- A line may end in front of `after`. -/
def LineEnd (after : List UInt8) : Prop := after = [] ∨ ∃ rest, after = newline :: rest

/-- Blanks within a line. -/
def BlankInLine (text : List UInt8) : Prop := ∀ x ∈ text, isSpace x ∧ x ≠ newline

/-- Changes to a text: how a line ends, the blanks around it, a newline at the end, a line that is
skipped, the comment of a key, and a line that is there already. -/
inductive SameKeys : List UInt8 → List UInt8 → Prop
  | crlf (before after : List UInt8) :
    SameKeys (before ++ newline :: after) (before ++ carriageReturn :: newline :: after)
  | blanks {before line left right after : List UInt8} (hbefore : LineStart before)
    (hafter : LineEnd after) (hline : newline ∉ line) (hleft : BlankInLine left)
    (hright : BlankInLine right) :
    SameKeys (before ++ (line ++ after)) (before ++ (left ++ line ++ right ++ after))
  | finalNewline (text : List UInt8) : SameKeys text (text ++ [newline])
  | skipped {before line : List UInt8} (after : List UInt8) (hbefore : LineStart before)
    (hline : newline ∉ line) (hskipped : Skipped line) :
    SameKeys (before ++ after) (before ++ (line ++ newline :: after))
  | comment {before line comment after : List UInt8} {x : UInt8} (hbefore : LineStart before)
    (hafter : LineEnd after) (hline : newline ∉ line) (hcomment : newline ∉ comment)
    (hx : isSpace x ∧ x ≠ newline) (hwords : 2 ≤ (Blanks.words isSpace line).length) :
    SameKeys (before ++ (line ++ after)) (before ++ (line ++ x :: comment ++ after))
  | repeated {before line between : List UInt8} (after : List UInt8) (hbefore : LineStart before)
    (hbetween : LineStart between) (hline : newline ∉ line) :
    SameKeys (before ++ (line ++ newline :: (between ++ after)))
      (before ++ (line ++ newline :: (between ++ (line ++ newline :: after))))

/-- What begins a line is split on its own. -/
theorem LineStart.splitOn {before : List UInt8} (h : LineStart before) :
    ∃ ls, ∀ rest, (before ++ rest).splitOn newline = ls ++ rest.splitOn newline := by
  rcases h with rfl | ⟨start, rfl⟩
  · exact ⟨[], fun rest => rfl⟩
  · refine ⟨start.splitOn newline, fun rest => ?_⟩
    rw [List.append_assoc, List.singleton_append, List.splitOn_append_cons_self]

theorem LineEnd.splitOn {after : List UInt8} (h : LineEnd after) :
    ∃ ls, ∀ line, newline ∉ line → (line ++ after).splitOn newline = line :: ls := by
  rcases h with rfl | ⟨rest, rfl⟩
  · refine ⟨[], fun line hline => ?_⟩
    rw [List.append_nil, List.splitOn_eq_singleton hline]
  · refine ⟨rest.splitOn newline, fun line hline => ?_⟩
    rw [List.splitOn_append_cons_self_of_not_mem hline]

/-- The line under way. -/
theorem exists_lineStart (text : List UInt8) :
    ∃ before line, text = before ++ line ∧ LineStart before ∧ newline ∉ line := by
  induction text using List.reverseRecOn with
  | nil => exact ⟨[], [], rfl, .inl rfl, by simp⟩
  | append_singleton text x ih =>
    by_cases hx : x = newline
    · exact ⟨text ++ [x], [], by simp, .inr ⟨text, by rw [hx]⟩, by simp⟩
    · obtain ⟨before, line, rfl, hbefore, hline⟩ := ih
      refine ⟨before, line ++ [x], by simp, hbefore, ?_⟩
      simp [hline, Ne.symm hx]

theorem keysOfLines_append (ls ls' : List (List UInt8)) :
    keysOfLines L (ls ++ ls') = keysOfLines L ls ++ keysOfLines L ls' := by
  simp [keysOfLines]

theorem keysOfLines_cons (line : List UInt8) (ls : List (List UInt8)) :
    keysOfLines L (line :: ls) = keysOfLines L [line] ++ keysOfLines L ls :=
  keysOfLines_append L [line] ls

/-- Lines that are the same but for one that means the same. -/
theorem keysOfLines_line {before after line line' : List UInt8} (hbefore : LineStart before)
    (hafter : LineEnd after) (hline : newline ∉ line) (hline' : newline ∉ line')
    (hsame : keysOfLines L [line'] = keysOfLines L [line]) :
    keysOfLines L ((before ++ (line' ++ after)).splitOn newline) =
      keysOfLines L ((before ++ (line ++ after)).splitOn newline) := by
  obtain ⟨start, hstart⟩ := hbefore.splitOn
  obtain ⟨rest, hrest⟩ := hafter.splitOn
  rw [hstart, hstart, hrest line hline, hrest line' hline', keysOfLines_append,
    keysOfLines_append, keysOfLines_cons, keysOfLines_cons L line, hsame]

theorem keysOfLines_singleton (line : List UInt8) :
    keysOfLines L [line] = if Skipped line then [] else [keyOfLine L line] := by
  by_cases h : Skipped line <;> simp [keysOfLines, h]

theorem keysOfLines_around {left right : List UInt8} (line : List UInt8)
    (hleft : BlankInLine left) (hright : BlankInLine right) :
    keysOfLines L [left ++ line ++ right] = keysOfLines L [line] := by
  have hskipped := skipped_around line (fun x hx => (hleft x hx).1) fun x hx => (hright x hx).1
  have hkey := keyOfLine_around L line (fun x hx => (hleft x hx).1) fun x hx => (hright x hx).1
  rw [keysOfLines_singleton, keysOfLines_singleton, hkey]
  exact if_congr hskipped rfl rfl

/-- What is behind the second word is a comment. -/
theorem keysOfLines_comment {line : List UInt8} (comment : List UInt8) {x : UInt8}
    (hx : isSpace x) (hwords : 2 ≤ (Blanks.words isSpace line).length) :
    keysOfLines L [line ++ x :: comment] = keysOfLines L [line] := by
  obtain ⟨type, encoded, rest, hline⟩ : ∃ type encoded rest,
      Blanks.words isSpace line = type :: encoded :: rest := by
    rcases hl : Blanks.words isSpace line with _ | ⟨type, _ | ⟨encoded, rest⟩⟩
    · simp [hl] at hwords
    · simp [hl] at hwords
    · exact ⟨type, encoded, rest, rfl⟩
  have hkey : keyOfLine L (line ++ x :: comment) = keyOfLine L line := by
    unfold keyOfLine
    rw [Blanks.words_append_cons hx, hline]
    rfl
  -- A line with words is not blank, so that what follows it does not begin it.
  have hnotBlank : ¬ ∀ y ∈ line, isSpace y := by
    intro hblank
    rw [Blanks.words_of_forall_blank hblank] at hline
    cases hline
  have hskipped : Skipped (line ++ x :: comment) ↔ Skipped line := by
    obtain ⟨y, hy, hnot⟩ := not_forall₂.mp hnotBlank
    have hfind : (line.find? fun y => ! isSpace y).isSome := by
      rw [List.find?_isSome]
      exact ⟨y, hy, by simpa using hnot⟩
    unfold Skipped
    rw [List.find?_append, Option.or_of_isSome hfind]
    apply or_congr_left
    refine iff_of_false (fun h => hnotBlank fun y hy => h y ?_) hnotBlank
    exact List.mem_append_left _ hy
  rw [keysOfLines_singleton, keysOfLines_singleton, hkey]
  exact if_congr hskipped rfl rfl

/-- A key that is there already makes no difference. -/
theorem acceptedKeys_repeated (a k b c : List (Option (List UInt8))) :
    acceptedKeys (a ++ k ++ b ++ (k ++ c)) = acceptedKeys (a ++ k ++ b ++ c) := by
  have hcond : (a ++ k ++ b ++ (k ++ c) ≠ [] ∧ none ∉ a ++ k ++ b ++ (k ++ c)) ↔
      (a ++ k ++ b ++ c ≠ [] ∧ none ∉ a ++ k ++ b ++ c) := by
    simp only [ne_eq, List.append_eq_nil_iff, List.mem_append]
    tauto
  have hkeys : (a ++ k ++ b ++ (k ++ c)).reduceOption.eraseDups =
      (a ++ k ++ b ++ c).reduceOption.eraseDups := by
    have hthere : k.reduceOption.removeAll (a ++ k ++ b).reduceOption = [] := by
      rw [List.removeAll, List.filter_eq_nil_iff]
      intro x hx
      simp [List.reduceOption_append, hx]
    rw [List.reduceOption_append, List.reduceOption_append (a ++ k ++ b) c, List.eraseDups_append,
      List.eraseDups_append, List.reduceOption_append k c, List.removeAll, List.filter_append]
    rw [List.removeAll] at hthere
    rw [hthere]
    rfl
  unfold acceptedKeys
  rw [hkeys]
  exact if_congr hcond rfl rfl

/-- **What the keys of a text do not depend on.** -/
theorem SameKeys.acceptedKeys_eq {text text' : List UInt8} (h : SameKeys text text') :
    acceptedKeys (keysOfLines L (text'.splitOn newline)) =
      acceptedKeys (keysOfLines L (text.splitOn newline)) := by
  cases h with
  | crlf before after =>
    -- The carriage return is a blank at the end of the line under way.
    obtain ⟨start, line, rfl, hstart, hline⟩ := exists_lineStart before
    have hline' : newline ∉ [] ++ line ++ [carriageReturn] := by
      have hne : newline ≠ carriageReturn := by decide
      simp [hline, hne]
    have hend : LineEnd (newline :: after) := .inr ⟨after, rfl⟩
    have hsame := keysOfLines_line L hstart hend hline hline'
      (keysOfLines_around L line (by simp [BlankInLine]) (by simp [BlankInLine]; decide))
    simp only [List.nil_append, List.append_assoc, List.singleton_append] at hsame ⊢
    rw [hsame]
  | @blanks before line left right after hbefore hafter hline hleft hright =>
    have hline' : newline ∉ left ++ line ++ right := by
      simp only [List.mem_append, hline, or_false, not_or]
      exact ⟨fun hm => (hleft _ hm).2 rfl, fun hm => (hright _ hm).2 rfl⟩
    rw [keysOfLines_line L hbefore hafter hline hline' (keysOfLines_around L line hleft hright)]
  | finalNewline =>
    rw [List.splitOn_append_cons_self, List.splitOn_nil, keysOfLines_append, keysOfLines_singleton,
      if_pos (.inl fun x hx => by cases hx), List.append_nil]
  | @skipped before line after hbefore hline hskipped =>
    obtain ⟨start, hstart⟩ := hbefore.splitOn
    rw [hstart, hstart, List.splitOn_append_cons_self_of_not_mem hline, keysOfLines_append,
      keysOfLines_append, keysOfLines_cons, keysOfLines_singleton, if_pos hskipped,
      List.nil_append]
  | @comment before line comment after x hbefore hafter hline hcomment hx hwords =>
    have hline' : newline ∉ line ++ x :: comment := by
      simp [hline, hcomment, Ne.symm hx.2]
    rw [keysOfLines_line L hbefore hafter hline hline'
      (keysOfLines_comment L comment hx.1 hwords)]
  | @repeated before line between after hbefore hbetween hline =>
    obtain ⟨start, hstart⟩ := hbefore.splitOn
    obtain ⟨middle, hmiddle⟩ := hbetween.splitOn
    rw [hstart, hstart, List.splitOn_append_cons_self_of_not_mem hline,
      List.splitOn_append_cons_self_of_not_mem hline, hmiddle, hmiddle,
      List.splitOn_append_cons_self_of_not_mem hline]
    have hrepeated := acceptedKeys_repeated (keysOfLines L start) (keysOfLines L [line])
      (keysOfLines L middle) (keysOfLines L (after.splitOn newline))
    simp only [← keysOfLines_append, List.append_assoc, List.singleton_append] at hrepeated
    exact hrepeated

theorem toOption_eq_of_sameKeys {text text' : List UInt8}
    (h : Relation.EqvGen SameKeys text text') :
    (parseSshAuthorizedKeysText L text').toOption =
      (parseSshAuthorizedKeysText L text).toOption := by
  rw [parse_toOption, parse_toOption]
  induction h with
  | rel _ _ h => exact h.acceptedKeys_eq L
  | refl _ => rfl
  | symm _ _ _ ih => exact ih.symm
  | trans _ _ _ _ _ ih ih' => exact ih'.trans ih

theorem toOption_eq_some {ε α : Type} {x : Except ε α} {a : α} : x.toOption = some a ↔ x = .ok a := by
  cases x <;> simp [Except.toOption]

theorem acceptedKeys_eq_some (lines : List (List UInt8)) (blobs : List (List UInt8)) :
    acceptedKeys (keysOfLines L lines) = some blobs ↔
      (∃ line ∈ lines, ¬ Skipped line) ∧
      (∀ line ∈ lines, ¬ Skipped line → (keyOfLine L line).isSome) ∧
      blobs = ((lines.filter fun line => ¬ Skipped line).filterMap (keyOfLine L)).eraseDups := by
  have hsome : keysOfLines L lines ≠ [] ↔ ∃ line ∈ lines, ¬ Skipped line := by
    simp [keysOfLines, List.filter_eq_nil_iff]
  have hnone : none ∉ keysOfLines L lines ↔
      ∀ line ∈ lines, ¬ Skipped line → (keyOfLine L line).isSome := by
    simp [keysOfLines, Option.isSome_iff_ne_none]
  have hblobs : (keysOfLines L lines).reduceOption =
      (lines.filter fun line => ¬ Skipped line).filterMap (keyOfLine L) := by
    rw [keysOfLines, List.reduceOption, List.filterMap_map]
    rfl
  rw [← hsome, ← hnone, ← hblobs]
  unfold acceptedKeys
  split_ifs with h
  · rw [Option.some_inj, eq_comm]
    exact ⟨fun hb => ⟨h.1, h.2, hb⟩, fun hb => hb.2.2⟩
  · exact iff_of_false (by simp) fun h' => h ⟨h'.1, h'.2.1⟩

/-- **Authorized keys**: a text is accepted if it has a line that is not skipped and all such lines
are keys, and then its keys are theirs, in order of their first lines. A line whose first word is no
type of a key is not accepted. Ends of lines, blanks around them, a newline at the end, blank lines,
comments and repeated lines make no difference. -/
theorem authorizedKeys_parsed :
    (∀ text blobs, parseSshAuthorizedKeysText L text = .ok blobs ↔
      (∃ line ∈ text.splitOn newline, ¬ Skipped line) ∧
      (∀ line ∈ text.splitOn newline, ¬ Skipped line → (keyOfLine L line).isSome) ∧
      blobs = (((text.splitOn newline).filter fun line => ¬ Skipped line).filterMap
        (keyOfLine L)).eraseDups) ∧
    (∀ text, ∀ line ∈ text.splitOn newline, ¬ Skipped line →
      (∀ type ∈ (Blanks.words isSpace line).head?, L.keyTypeFromName (cStr type) = none) →
      ∃ e, parseSshAuthorizedKeysText L text = .error e) ∧
    ∀ text text', Relation.EqvGen SameKeys text text' →
      (parseSshAuthorizedKeysText L text').toOption =
        (parseSshAuthorizedKeysText L text).toOption := by
  refine ⟨fun text blobs => ?_, fun text line hline hskipped htype => ?_, fun _ _ h =>
    toOption_eq_of_sameKeys L h⟩
  · rw [← toOption_eq_some, parse_toOption, acceptedKeys_eq_some]
  rcases hparse : parseSshAuthorizedKeysText L text with e | blobs
  · exact ⟨e, rfl⟩
  · rw [← toOption_eq_some, parse_toOption, acceptedKeys_eq_some] at hparse
    obtain ⟨-, hkeys, -⟩ := hparse
    -- The first word of a line that is accepted is the name of a type.
    have hkey := hkeys line hline hskipped
    unfold keyOfLine at hkey
    rcases hwords : Blanks.words isSpace line with _ | ⟨type, _ | ⟨encoded, rest⟩⟩
    · simp [hwords] at hkey
    · simp [hwords] at hkey
    · simp [hwords, Libssh.canon, htype type (by simp [hwords])] at hkey

/-! ## A text -/

/-- The encoding of a key. -/
def exampleKey : List UInt8 :=
  ascii "AAAAC3NzaC1lZDI1NTE5AAAAIIujq/HWVfplmh7TmVZOS7CslRk3RPyER6vlQX0o+E5W"

/-- A library, as far as this key goes. -/
def exampleLibssh : Libssh Unit (List UInt8) where
  keyTypeFromName name := if name = ascii "ssh-ed25519" then some () else none
  importPubkeyBase64 encoded _ := if encoded = exampleKey then some exampleKey else none
  exportPubkeyBase64 key := some key

/-- A line with the key and a comment. -/
def exampleLine (comment : String) : List UInt8 :=
  ascii "ssh-ed25519 " ++ exampleKey ++ ascii comment

/-- A line with a key, with the other kind of line end, and behind an option. -/
theorem authorizedKeys_parsed_example :
    let line := exampleLine " laptop"
    parseSshAuthorizedKeysText exampleLibssh (line ++ [newline]) = .ok [exampleKey] ∧
      (parseSshAuthorizedKeysText exampleLibssh (line ++ [carriageReturn, newline])).toOption =
        some [exampleKey] ∧
      ∃ e, parseSshAuthorizedKeysText exampleLibssh (ascii "restrict " ++ line) = .error e := by
  intro line
  obtain ⟨hkeys, hoption, hsame⟩ := authorizedKeys_parsed exampleLibssh
  have hsplit : (line ++ [newline]).splitOn newline = [line, []] := by decide +kernel
  have hread : parseSshAuthorizedKeysText exampleLibssh (line ++ [newline]) = .ok [exampleKey] := by
    rw [hkeys, hsplit]
    refine ⟨⟨line, List.mem_cons_self, by decide +kernel⟩, ?_, by decide +kernel⟩
    intro l hl hskipped
    rcases List.mem_cons.mp hl with rfl | hl
    · decide +kernel
    · obtain rfl := List.mem_singleton.mp hl
      exact absurd (.inl (List.forall_mem_nil _)) hskipped
  refine ⟨hread, ?_, hoption _ (ascii "restrict " ++ line) ?_ (by decide +kernel) ?_⟩
  · rw [hsame _ _ (.rel _ _ (.crlf line [])), hread]
    rfl
  · rw [List.splitOn_eq_singleton (by decide +kernel)]
    exact List.mem_singleton_self _
  · intro type htype
    have hhead : (Blanks.words isSpace (ascii "restrict " ++ line)).head? =
        some (ascii "restrict") := by
      decide +kernel
    obtain rfl := Option.some.inj (hhead.symm.trans htype)
    decide +kernel

end Tailcat.Ssh
