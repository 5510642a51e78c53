import Tailcat.Ssh.AuthorizedKeys

/-!
# Sources of authorized keys

`--ssh-authorized-keys` names sources of keys, with commas between them. A source is a name at
GitHub, or the text of a key, or the path of a file. Which one it is depends on how it ends and on
its first word.

A key with a comment is a source only as far as its comment allows: what is behind a comma is
another source, and a comment that ends with `@github` makes the text a name.

## Main definitions

* `SourceWorld`: what the sources are read from
* `loadSshAuthorizedKeyBlobs`: the keys of the sources, and what was read for them

## Main results

* `keyLine_loaded_iff`: which keys are sources of themselves
-/

namespace Tailcat.Ssh

open Ctype

/-- What is read for a source. -/
inductive SourceAction
  | fetched (url : List UInt8)
  | read (path : List UInt8)
  deriving DecidableEq

/-- The web, the files, and the home directory. -/
structure SourceWorld where
  fetchText : List UInt8 → Except Exn (List UInt8)
  readFile : List UInt8 → Except Exn (List UInt8)
  home : Option (List UInt8)

/-- `','` -/
def comma : UInt8 := 0x2c

/-- `'-'` -/
def hyphen : UInt8 := 0x2d

/-- `'/'` -/
def slash : UInt8 := 0x2f

/-- A path in a directory. A path from the root is not put into the directory. -/
def joinPath (directory path : List UInt8) : List UInt8 :=
  if path.head? = some slash then path
  else if directory.getLast? = some slash then directory ++ path
  else directory ++ slash :: path

/-- A path whose front stands for the home directory. -/
def expandHome (home : Option (List UInt8)) (source : List UInt8) : Except Exn (List UInt8) :=
  if ¬ (ascii "~/" <+: source ∨ ascii "~\\" <+: source) then
    .ok source
  else
    match home with
    | none => .error (.runtimeError "cannot expand ~ in SSH public key path")
    | some home =>
      if home = [] then .error (.runtimeError "cannot expand ~ in SSH public key path")
      else .ok (joinPath home (source.drop 2))

/-- What the name of a user of GitHub ends with. -/
def githubSuffix : List UInt8 := ascii "@github"

/-- The user name, if the source is a name at GitHub. -/
def githubName (source : List UInt8) : Except Exn (Option (List UInt8)) :=
  if ¬ githubSuffix <:+ source then
    .ok none
  else
    let username := source.take (source.length - githubSuffix.length)
    if username = [] ∨ 39 < username.length ∨ username.head? = some hyphen ∨
        username.getLast? = some hyphen then
      .error (.invalidArgument "invalid GitHub username in SSH public key source")
    else if username.any fun c => ! (isAlnum c || c == hyphen) then
      .error (.invalidArgument "invalid GitHub username in SSH public key source")
    else
      .ok (some username)

/-- What the loop over the pieces does with one of them. -/
def pushSource (out : List (List UInt8)) (piece : List UInt8) : Except Exn (List (List UInt8)) :=
  let item := Blanks.trim isSpace piece
  if item = [] then .error (.invalidArgument "empty SSH public key source") else .ok (out ++ [item])

/-- The pieces between commas, without the blanks around them. -/
def splitSources (sources : List UInt8) : Except Exn (List (List UInt8)) :=
  Pieces.each comma pushSource sources 0 []

/-- The keys that are not there yet, behind those that are. -/
def appendUnique (target keys : List (List UInt8)) : List (List UInt8) := keys.foldl pushUnique target

section Load

variable {T K : Type} (L : Libssh T K) (W : SourceWorld)

/-- Whether a source has more than one line, or begins with the name of a type. -/
def looksLikeLiteralKey (source : List UInt8) : Bool :=
  if newline ∈ source ∨ carriageReturn ∈ source then
    true
  else
    let type := (Blanks.extract isSpace source).1
    type ≠ [] ∧ (L.keyTypeFromName (cStr type)).isSome

/-- The text of a source, and what was read for it. -/
def sourceText (source : List UInt8) : Except Exn (List UInt8) × List SourceAction :=
  match githubName source with
  | .error e => (.error e, [])
  | .ok (some username) =>
    let url := ascii "https://github.com/" ++ username ++ ascii ".keys"
    (W.fetchText url, [.fetched url])
  | .ok none =>
    if looksLikeLiteralKey L source then
      (.ok source, [])
    else
      match expandHome W.home source with
      | .error e => (.error e, [])
      | .ok path => (W.readFile path, [.read path])

/-- What the loop over the sources does with one of them. An exception ends the loop. -/
def loadSource (s : Except Exn (List (List UInt8)) × List SourceAction) (source : List UInt8) :
    Except Exn (List (List UInt8)) × List SourceAction :=
  match s with
  | (.error e, actions) => (.error e, actions)
  | (.ok result, actions) =>
    let (text, more) := sourceText L W source
    (text.bind fun text => (parseSshAuthorizedKeysText L text).map (appendUnique result),
      actions ++ more)

/-- The keys of all sources, and what was read for them. -/
def loadSshAuthorizedKeyBlobs (sources : List UInt8) :
    Except Exn (List (List UInt8)) × List SourceAction :=
  if Blanks.trim isSpace sources = [] then
    (.error (.invalidArgument "--ssh-authorized-keys requires a value"), [])
  else
    match splitSources sources with
    | .error e => (.error e, [])
    | .ok list =>
      let (result, actions) := list.foldl (loadSource L W) (.ok [], [])
      (result.bind fun result =>
        if result = [] then .error (.invalidArgument "no SSH public keys found") else .ok result,
        actions)

/-! ## Keys as sources -/

section Sources

variable {L W} {line source blob : List UInt8} {pieces : List (List UInt8)}

/-- A text of one line is accepted if the line is a key. -/
theorem parse_line_iff (hline : newline ∉ line) {blobs : List (List UInt8)} :
    parseSshAuthorizedKeysText L line = .ok blobs ↔
      ¬ Skipped line ∧ ∃ blob, keyOfLine L line = some blob ∧ blobs = [blob] := by
  rw [← toOption_eq_some, parse_toOption, List.splitOn_eq_singleton hline,
    keysOfLines_singleton]
  by_cases hskipped : Skipped line
  · rw [if_pos hskipped]
    exact iff_of_false (by simp [acceptedKeys]) fun h => h.1 hskipped
  · rw [if_neg hskipped]
    rcases keyOfLine L line with _ | blob
    · exact iff_of_false (by simp [acceptedKeys]) (by simp)
    · simp [acceptedKeys, hskipped, List.eraseDups_cons, eq_comm]

theorem foldlM_pushSource (pieces out : List (List UInt8)) :
    if ∀ piece ∈ pieces, Blanks.trim isSpace piece ≠ [] then
      pieces.foldlM pushSource out = .ok (out ++ pieces.map (Blanks.trim isSpace))
    else ∃ e, pieces.foldlM pushSource out = .error e := by
  induction pieces generalizing out with
  | nil =>
    rw [if_pos (by simp), List.map_nil, List.append_nil]
    rfl
  | cons piece pieces ih =>
    rw [List.foldlM_cons]
    -- A piece of blanks ends the loop.
    by_cases hempty : Blanks.trim isSpace piece = []
    · have hpush : pushSource out piece = .error _ := if_pos hempty
      rw [if_neg (by simp [hempty]), hpush]
      exact ⟨_, rfl⟩
    · have hpush : pushSource out piece = .ok (out ++ [Blanks.trim isSpace piece]) := if_neg hempty
      have hrest := ih (out ++ [Blanks.trim isSpace piece])
      have hall : (∀ l ∈ piece :: pieces, Blanks.trim isSpace l ≠ []) ↔
          ∀ l ∈ pieces, Blanks.trim isSpace l ≠ [] := by
        simp [hempty]
      rw [hpush]
      split_ifs at hrest with h
      · rw [if_pos (hall.mpr h), List.map_cons]
        rw [List.append_assoc] at hrest
        exact hrest
      · rw [if_neg fun h' => h (hall.mp h')]
        exact hrest

/-- The sources are the pieces between commas, without the blanks around them, and none is empty. -/
theorem splitSources_eq (sources : List UInt8) :
    if ∀ piece ∈ sources.splitOn comma, Blanks.trim isSpace piece ≠ [] then
      splitSources sources = .ok ((sources.splitOn comma).map (Blanks.trim isSpace))
    else ∃ e, splitSources sources = .error e := by
  have hloop := foldlM_pushSource (sources.splitOn comma) []
  rwa [← List.drop_zero (l := sources), ← Pieces.each_eq comma pushSource sources [] (Nat.zero_le _),
    List.drop_zero] at hloop

/-- A source that is a key: it does not end as a name at GitHub does, and it is a line with a
key. -/
structure IsKeySource (L : Libssh T K) (source blob : List UInt8) : Prop where
  suffix : ¬ githubSuffix <:+ source
  skipped : ¬ Skipped source
  key : keyOfLine L source = some blob

theorem keyOfLine_words (h : keyOfLine L line = some blob) : ∃ type encoded rest,
    Blanks.words isSpace line = type :: encoded :: rest ∧ L.canon type encoded = some blob := by
  unfold keyOfLine at h
  rcases hwords : Blanks.words isSpace line with _ | ⟨type, _ | ⟨encoded, rest⟩⟩
  · rw [hwords] at h
    cases h
  · rw [hwords] at h
    cases h
  · rw [hwords] at h
    exact ⟨type, encoded, rest, rfl, h⟩

/-- The first word of a key is a type. -/
theorem looksLikeLiteralKey_of_key (h : keyOfLine L source = some blob) :
    looksLikeLiteralKey L source = true := by
  obtain ⟨type, encoded, rest, hwords, hcanon⟩ := keyOfLine_words h
  have hfirst := Blanks.words_of_extract isSpace source
  rw [hwords] at hfirst
  unfold looksLikeLiteralKey
  split_ifs with hline
  · rfl
  split_ifs at hfirst with hempty
  obtain ⟨htype, -⟩ := List.cons.inj hfirst
  have hknown : (L.keyTypeFromName (cStr type)).isSome := by
    unfold Libssh.canon at hcanon
    rcases hname : L.keyTypeFromName (cStr type) with _ | keyType
    · rw [hname] at hcanon
      cases hcanon
    · rfl
  rw [← htype] at hempty ⊢
  simp [hempty, hknown]

/-- For a source that is a key nothing is read. -/
theorem loadSource_of_key (hline : newline ∉ source) (h : IsKeySource L source blob)
    (result : List (List UInt8)) (actions : List SourceAction) :
    loadSource L W (.ok result, actions) source = (.ok (pushUnique result blob), actions) := by
  have htext : sourceText L W source = (.ok source, []) := by
    unfold sourceText githubName
    rw [if_pos h.suffix]
    exact if_pos (looksLikeLiteralKey_of_key h.key)
  have hparse : parseSshAuthorizedKeysText L source = .ok [blob] :=
    (parse_line_iff hline).mpr ⟨h.skipped, blob, h.key, rfl⟩
  unfold loadSource
  dsimp only
  rw [htext, List.append_nil]
  dsimp only [Except.bind]
  rw [hparse]
  rfl

/-- Only a literal key has a text without anything being read. -/
theorem sourceText_literal (hnothing : (sourceText L W source).2 = [])
    (hok : ∀ e, (sourceText L W source).1 ≠ .error e) :
    (sourceText L W source).1 = .ok source ∧ ¬ githubSuffix <:+ source := by
  unfold sourceText at hnothing hok ⊢
  -- With the suffix, the source is a name and something is fetched, or it is refused.
  by_cases hsuffix : githubSuffix <:+ source
  · rcases hname : githubName source with e | _ | username
    · rw [hname] at hok
      exact absurd rfl (hok e)
    · unfold githubName at hname
      rw [if_neg (not_not.mpr hsuffix)] at hname
      dsimp only at hname
      split_ifs at hname
      cases hname
    · rw [hname] at hnothing
      cases hnothing
  have hname : githubName source = .ok none := if_pos hsuffix
  rw [hname] at hnothing hok ⊢
  dsimp only at hnothing hok ⊢
  split_ifs at hnothing hok ⊢ with hliteral
  · exact ⟨rfl, hsuffix⟩
  · -- What is no text of a key is a path, and a file is read.
    rcases hpath : expandHome W.home source with e | path
    · rw [hpath] at hok
      exact absurd rfl (hok e)
    · rw [hpath] at hnothing
      cases hnothing

/-- A source for which nothing is read is a key. -/
theorem loadSource_eq_ok (hline : newline ∉ source)
    {s : Except Exn (List (List UInt8)) × List SourceAction} {result : List (List UInt8)}
    (h : loadSource L W s source = (.ok result, [])) :
    ∃ before blob, s = (.ok before, []) ∧ IsKeySource L source blob ∧
      result = pushUnique before blob := by
  rcases s with ⟨e | before, actions⟩
  · cases h
  unfold loadSource at h
  dsimp only at h
  obtain ⟨hresult, hactions⟩ := Prod.mk.inj h
  obtain ⟨rfl, hnothing⟩ := List.append_eq_nil_iff.mp hactions
  have htext : (sourceText L W source).1 = .ok source ∧ ¬ githubSuffix <:+ source :=
    sourceText_literal hnothing fun e he => by rw [he] at hresult; cases hresult
  rw [htext.1] at hresult
  dsimp only [Except.bind] at hresult
  rcases hparse : parseSshAuthorizedKeysText L source with e | keys
  · rw [hparse] at hresult
    cases hresult
  rw [hparse] at hresult
  obtain ⟨hskipped, blob, hkey, rfl⟩ := (parse_line_iff hline).mp hparse
  exact ⟨before, blob, rfl, ⟨htext.2, hskipped, hkey⟩, (Except.ok.inj hresult).symm⟩

/-- Sources that are all the same key. -/
theorem foldl_loadSource_of_key {sources : List (List UInt8)}
    (hline : ∀ source ∈ sources, newline ∉ source)
    (h : ∀ source ∈ sources, IsKeySource L source blob) (hne : sources ≠ []) :
    sources.foldl (loadSource L W) (.ok [], []) = (.ok [blob], []) := by
  have hrest : ∀ rest : List (List UInt8), (∀ source ∈ rest, newline ∉ source) →
      (∀ source ∈ rest, IsKeySource L source blob) →
      rest.foldl (loadSource L W) (.ok [blob], []) = (.ok [blob], []) := by
    intro rest hline h
    induction rest with
    | nil => rfl
    | cons source rest ih =>
      rw [List.foldl_cons, loadSource_of_key (hline _ (by simp)) (h _ (by simp)), pushUnique,
        if_pos (by simp)]
      exact ih (fun s hs => hline s (by simp [hs])) fun s hs => h s (by simp [hs])
  cases sources with
  | nil => exact absurd rfl hne
  | cons source rest =>
    rw [List.foldl_cons, loadSource_of_key (hline _ (by simp)) (h _ (by simp))]
    exact hrest rest (fun s hs => hline s (by simp [hs])) fun s hs => h s (by simp [hs])

/-- Sources for which nothing is read are keys, and these are what is returned. -/
theorem isKeySource_of_foldl {sources : List (List UInt8)}
    (hline : ∀ source ∈ sources, newline ∉ source) {result : List (List UInt8)}
    (h : sources.foldl (loadSource L W) (.ok [], []) = (.ok result, [])) :
    ∀ source ∈ sources, ∃ blob ∈ result, IsKeySource L source blob := by
  induction sources using List.reverseRecOn generalizing result with
  | nil => simp
  | append_singleton sources last ih =>
    rw [List.foldl_append, List.foldl_cons, List.foldl_nil] at h
    obtain ⟨before, blob, hbefore, hkey, rfl⟩ := loadSource_eq_ok (hline last (by simp)) h
    have hmem : ∀ b, b ∈ before ∨ b = blob → b ∈ pushUnique before blob := by
      intro b hb
      unfold pushUnique
      split_ifs with hthere
      · rcases hb with hb | rfl
        · exact hb
        · exact hthere
      · simpa using hb
    intro source hsource
    rcases List.mem_append.mp hsource with hsource | hsource
    · obtain ⟨b, hb, hkey'⟩ := ih (fun s hs => hline s (by simp [hs])) hbefore source hsource
      exact ⟨b, hmem b (.inl hb), hkey'⟩
    · rw [List.mem_singleton.mp hsource]
      exact ⟨blob, hmem blob (.inr rfl), hkey⟩

/-- Blanks around a source make no difference, except at its end. -/
theorem isKeySource_trim (piece : List UInt8) :
    IsKeySource L (Blanks.trim isSpace piece) blob ↔
      ¬ githubSuffix <:+ Blanks.trim isSpace piece ∧ ¬ Skipped piece ∧
        keyOfLine L piece = some blob := by
  obtain ⟨before, after, hpiece, hbefore, hafter⟩ := Blanks.trim_spec isSpace piece
  have hskipped := skipped_around (Blanks.trim isSpace piece) hbefore hafter
  have hkey := keyOfLine_around L (Blanks.trim isSpace piece) hbefore hafter
  rw [← hpiece] at hskipped hkey
  rw [hskipped, hkey]
  exact ⟨fun h => ⟨h.suffix, h.skipped, h.key⟩, fun h => ⟨h.1, h.2.1, h.2.2⟩⟩

end Sources

section Loaded

variable {L W} {line : List UInt8} {blobs : List (List UInt8)}

theorem newline_not_mem_sources (hline : newline ∉ line) :
    ∀ source ∈ (line.splitOn comma).map (Blanks.trim isSpace), newline ∉ source := by
  intro source hsource
  obtain ⟨piece, hpiece, rfl⟩ := List.mem_map.mp hsource
  obtain ⟨before, after, htext, -, -⟩ := Blanks.trim_spec isSpace piece
  have hnot : newline ∉ piece := fun hmem => hline (Pieces.mem_of_mem_splitOn hpiece hmem)
  rw [htext] at hnot
  simp only [List.mem_append, not_or] at hnot
  exact hnot.1.2

/-- If a line with a key is loaded as this key and nothing is read for it, every piece is this
key. -/
theorem pieces_of_loaded (hline : newline ∉ line)
    (hparse : parseSshAuthorizedKeysText L line = .ok blobs)
    (h : loadSshAuthorizedKeyBlobs L W line = (.ok blobs, [])) :
    ∀ piece ∈ line.splitOn comma, ¬ githubSuffix <:+ Blanks.trim isSpace piece ∧
      ¬ Skipped piece ∧ keyOfLine L piece = keyOfLine L line := by
  obtain ⟨hskipped, blob, hkey, rfl⟩ := (parse_line_iff hline).mp hparse
  have hnotBlank : Blanks.trim isSpace line ≠ [] := fun hnil =>
    hskipped (.inl (Blanks.trim_eq_nil.mp hnil))
  have hsplit := splitSources_eq line
  unfold loadSshAuthorizedKeyBlobs at h
  rw [if_neg hnotBlank] at h
  -- All pieces are sources, loaded from left to right, or splitting throws.
  split_ifs at hsplit with hpieces
  · rw [hsplit] at h
    dsimp only at h
    obtain ⟨hresult, hactions⟩ := Prod.mk.inj h
    have hfold : ((line.splitOn comma).map (Blanks.trim isSpace)).foldl (loadSource L W)
        (.ok [], []) = (.ok [blob], []) := by
      refine Prod.ext ?_ hactions
      rcases hfirst : (((line.splitOn comma).map (Blanks.trim isSpace)).foldl (loadSource L W)
        (.ok [], [])).1 with e | result
      · rw [hfirst] at hresult
        cases hresult
      · rw [hfirst] at hresult
        dsimp only [Except.bind] at hresult
        split_ifs at hresult
        exact hresult
    intro piece hpiece
    obtain ⟨b, hb, hsource⟩ := isKeySource_of_foldl (newline_not_mem_sources hline) hfold _
      (List.mem_map_of_mem hpiece)
    rw [List.mem_singleton.mp hb] at hsource
    rw [hkey]
    exact (isKeySource_trim piece).mp hsource
  · obtain ⟨e, he⟩ := hsplit
    rw [he] at h
    cases h

/-- If every piece of a line is a key, the line is loaded as this key. -/
theorem loaded_of_pieces (hline : newline ∉ line)
    (hparse : parseSshAuthorizedKeysText L line = .ok blobs)
    (h : ∀ piece ∈ line.splitOn comma, ¬ githubSuffix <:+ Blanks.trim isSpace piece ∧
      ¬ Skipped piece ∧ keyOfLine L piece = keyOfLine L line) :
    loadSshAuthorizedKeyBlobs L W line = (.ok blobs, []) := by
  obtain ⟨hskipped, blob, hkey, rfl⟩ := (parse_line_iff hline).mp hparse
  have hnotBlank : Blanks.trim isSpace line ≠ [] := fun hnil =>
    hskipped (.inl (Blanks.trim_eq_nil.mp hnil))
  have hpieces : ∀ piece ∈ line.splitOn comma, Blanks.trim isSpace piece ≠ [] :=
    fun piece hpiece hempty => (h piece hpiece).2.1 (.inl (Blanks.trim_eq_nil.mp hempty))
  have hsources : ∀ source ∈ (line.splitOn comma).map (Blanks.trim isSpace),
      IsKeySource L source blob := by
    intro source hsource
    obtain ⟨piece, hpiece, rfl⟩ := List.mem_map.mp hsource
    exact (isKeySource_trim piece).mpr (hkey ▸ h piece hpiece)
  have hsplit := splitSources_eq line
  rw [if_pos hpieces] at hsplit
  unfold loadSshAuthorizedKeyBlobs
  rw [if_neg hnotBlank, hsplit]
  dsimp only
  rw [foldl_loadSource_of_key (newline_not_mem_sources hline) hsources
    (by simp [List.splitOn_ne_nil])]
  rfl

end Loaded

/-- **Keys as sources**: a line with a key is loaded as this key, and nothing is read for it, just
if every piece between commas is a line with the same key and does not end as a name at GitHub
does. -/
theorem keyLine_loaded_iff {line : List UInt8} {blobs : List (List UInt8)}
    (hline : newline ∉ line) (hparse : parseSshAuthorizedKeysText L line = .ok blobs) :
    loadSshAuthorizedKeyBlobs L W line = (.ok blobs, []) ↔
      ∀ piece ∈ line.splitOn comma, ¬ githubSuffix <:+ Blanks.trim isSpace piece ∧
        ¬ Skipped piece ∧ keyOfLine L piece = keyOfLine L line :=
  ⟨pieces_of_loaded hline hparse, loaded_of_pieces hline hparse⟩

end Load

section Example

/-- Neither the web nor a file can be read. -/
def noSources : SourceWorld where
  fetchText _ := .error (.runtimeError "fetching SSH public keys: Could not resolve host name")
  readFile _ := .error (.runtimeError "failed to open SSH public key source")
  home := none

/-- A key with a plain comment is a source of itself. -/
theorem keyLine_loaded_iff_example :
    loadSshAuthorizedKeyBlobs exampleLibssh noSources (exampleLine " test@example") =
      (.ok [exampleKey], []) := by
  have hparse : parseSshAuthorizedKeysText exampleLibssh (exampleLine " test@example") =
      .ok [exampleKey] :=
    (parse_line_iff (by decide +kernel)).mpr ⟨by decide +kernel, exampleKey, by decide +kernel, rfl⟩
  exact (keyLine_loaded_iff exampleLibssh noSources (by decide +kernel) hparse).mpr
    (by decide +kernel)

/-- A key whose comment ends as a name at GitHub does, and one whose comment has a comma. -/
theorem keyLine_not_loaded :
    (parseSshAuthorizedKeysText exampleLibssh (exampleLine " me@github") = .ok [exampleKey] ∧
      ∀ W, loadSshAuthorizedKeyBlobs exampleLibssh W (exampleLine " me@github") ≠
        (.ok [exampleKey], [])) ∧
    parseSshAuthorizedKeysText exampleLibssh (exampleLine " laptop, work") = .ok [exampleKey] ∧
      ∀ W, loadSshAuthorizedKeyBlobs exampleLibssh W (exampleLine " laptop, work") ≠
        (.ok [exampleKey], []) := by
  have hgithub : parseSshAuthorizedKeysText exampleLibssh (exampleLine " me@github") =
      .ok [exampleKey] :=
    (parse_line_iff (by decide +kernel)).mpr ⟨by decide +kernel, exampleKey, by decide +kernel, rfl⟩
  have hcomma : parseSshAuthorizedKeysText exampleLibssh (exampleLine " laptop, work") =
      .ok [exampleKey] :=
    (parse_line_iff (by decide +kernel)).mpr ⟨by decide +kernel, exampleKey, by decide +kernel, rfl⟩
  refine ⟨⟨hgithub, fun W h => ?_⟩, hcomma, fun W h => ?_⟩
  · exact absurd (pieces_of_loaded (by decide +kernel) hgithub h) (by decide +kernel)
  · exact absurd (pieces_of_loaded (by decide +kernel) hcomma h) (by decide +kernel)

end Example

end Tailcat.Ssh
