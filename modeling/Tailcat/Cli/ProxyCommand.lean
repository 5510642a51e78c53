import Tailcat.Base.Shell
import Tailcat.Protocol.Types

/-!
# The proxy command

`tailcat ssh` and `tailcat cp` run `ssh` with a `ProxyCommand` that runs Tailcat again. `ssh`
expands its percent sequences and gives it to the shell, and Tailcat parses the words that the shell
makes of it. This is Tailcat on a POSIX system.

## Main definitions

* `unixShellQuote`, `sshProxyCommand`: the proxy command
* `CommandLine`, `parseCommandLine`: the command line of Tailcat

## Main results

* `parseArgs_command`: what comes after the command is not looked at
* `sshProxyCommand_eq`: the quoted parts, unless one of them has a control character
* `proxyCommand_runs`: the words of the proxy command, and what Tailcat makes of them
-/

namespace Tailcat

/-! ## The command that is built -/

/-- Characters that end a line or a string. -/
def hasControl (value : List UInt8) : Bool := value.any fun c => c = 0x00 ∨ c = 0x0d ∨ c = 0x0a

/-- What `unix_shell_quote` writes for one octet. -/
def quoteOctet (c : UInt8) : List UInt8 :=
  if c = Shell.percent then [Shell.percent, Shell.percent]
  else if c = Shell.apostrophe then
    [Shell.apostrophe, Shell.quote, Shell.apostrophe, Shell.quote, Shell.apostrophe]
  else [c]

/-- An argument as a shell reads it back. -/
def unixShellQuote (value : List UInt8) : Except Exn (List UInt8) :=
  if hasControl value then
    .error (.invalidArgument "ProxyCommand argument contains a control character")
  else
    .ok (Shell.apostrophe :: (value.flatMap quoteOctet ++ [Shell.apostrophe]))

/-- The words of the command, before they are quoted. -/
def proxyParts (executable address port : List UInt8) (verbose : Bool) (keyName : List UInt8) :
    List (List UInt8) :=
  let parts := [executable]
  let parts := if verbose then parts ++ [ascii "--verbose"] else parts
  let parts := if keyName ≠ [] then parts ++ [ascii "--key=" ++ keyName] else parts
  parts ++ [address] ++ [port]

/-- The value of `ProxyCommand`: the quoted words with spaces between them. -/
def sshProxyCommand (executable address port : List UInt8) (verbose : Bool)
    (keyName : List UInt8) : Except Exn (List UInt8) := do
  let quoted ← (proxyParts executable address port verbose keyName).mapM unixShellQuote
  return [Shell.space].intercalate quoted

/-! ## The command line -/

/-- `-h` and `--help` -/
def isHelp (arg : List UInt8) : Bool := arg = ascii "-h" ∨ arg = ascii "--help"

/-- `-V`, `--version` and the command `version` -/
def isVersion (arg : List UInt8) : Bool :=
  arg = ascii "-V" ∨ arg = ascii "--version" ∨ arg = ascii "version"

/-- What `parse_command_line` has found, the command and its arguments last. -/
structure CommandLine where
  showHelp : Bool := false
  showVersion : Bool := false
  verbose : Bool := false
  keyPath : List UInt8 := []
  command : List UInt8 := []
  args : List (List UInt8) := []
  deriving DecidableEq

/-- The exception for a `--key` without a value. -/
def keyRequired : Exn := .invalidArgument "--key requires a path, name, or 'new'"

/-- The loop of `parse_command_line`. -/
def parseArgs (out : CommandLine) : List (List UInt8) → Except Exn CommandLine
  | [] => .ok out
  | arg :: rest =>
    if out.command = [] then
      if isHelp arg then parseArgs { out with showHelp := true } rest
      else if isVersion arg then parseArgs { out with showVersion := true } rest
      else if arg = ascii "-v" ∨ arg = ascii "--verbose" then
        parseArgs { out with verbose := true } rest
      else if arg = ascii "--key" then
        match rest with
        | [] => .error keyRequired
        | value :: rest => parseArgs { out with keyPath := value } rest
      else if ascii "--key=" <+: arg then
        if arg.drop (ascii "--key=").length = [] then .error keyRequired
        else parseArgs { out with keyPath := arg.drop (ascii "--key=").length } rest
      else if arg ≠ [] ∧ ¬ ascii "-" <+: arg then parseArgs { out with command := arg } rest
      else parseArgs { out with args := out.args ++ [arg] } rest
    else
      parseArgs { out with args := out.args ++ [arg] } rest

/-- The first word is the name of the program. -/
def parseCommandLine (argv : List (List UInt8)) : Except Exn CommandLine := parseArgs {} argv.tail

/-! ### Where the parser goes -/

variable {out : CommandLine} {arg : List UInt8}

/-- What comes after the command is not looked at. -/
theorem parseArgs_command (h : out.command ≠ []) (rest : List (List UInt8)) :
    parseArgs out rest = .ok { out with args := out.args ++ rest } := by
  induction rest generalizing out with
  | nil => simp [parseArgs]
  | cons arg rest ih =>
    unfold parseArgs
    rw [if_neg h, ih (by exact h), List.append_assoc]
    rfl

theorem parseArgs_verbose (h : out.command = []) (rest : List (List UInt8)) :
    parseArgs out (ascii "--verbose" :: rest) = parseArgs { out with verbose := true } rest := by
  conv_lhs => unfold parseArgs
  rw [if_pos h, if_neg (by decide), if_neg (by decide), if_pos (by decide)]

/-- An argument that does not begin like a constant is another one. -/
theorem ne_ascii {start : List UInt8} {s : String} (harg : start <+: arg)
    (hs : ¬ start <+: ascii s) : arg ≠ ascii s := fun he => hs (he ▸ harg)

theorem parseArgs_key (h : out.command = []) {name : List UInt8} (hname : name ≠ [])
    (rest : List (List UInt8)) : parseArgs out ((ascii "--key=" ++ name) :: rest) =
    parseArgs { out with keyPath := name } rest := by
  have hstart : ascii "--key=" <+: ascii "--key=" ++ name := List.prefix_append _ _
  conv_lhs => unfold parseArgs
  rw [if_pos h, if_neg, if_neg, if_neg, if_neg, if_pos hstart, if_neg, List.drop_left]
  · rwa [List.drop_left]
  · exact ne_ascii hstart (by decide)
  · exact not_or.mpr ⟨ne_ascii hstart (by decide), ne_ascii hstart (by decide)⟩
  · simp only [isVersion, decide_eq_true_eq, not_or]
    exact ⟨ne_ascii hstart (by decide), ne_ascii hstart (by decide), ne_ascii hstart (by decide)⟩
  · simp only [isHelp, decide_eq_true_eq, not_or]
    exact ⟨ne_ascii hstart (by decide), ne_ascii hstart (by decide)⟩

/-- An address is a command. -/
theorem parseArgs_address (h : out.command = []) (harg : ascii "tc" <+: arg)
    (rest : List (List UInt8)) : parseArgs out (arg :: rest) = parseArgs { out with command := arg } rest := by
  have hstart : ∀ s, ¬ ascii "tc" <+: ascii s → arg ≠ ascii s := fun _ hs => ne_ascii harg hs
  have hdash : '-'.toUInt8 ≠ 't'.toUInt8 := by decide
  conv_lhs => unfold parseArgs
  rw [if_pos h, if_neg, if_neg, if_neg, if_neg, if_neg, if_pos]
  · obtain ⟨tail, rfl⟩ := harg
    exact ⟨by simp [ascii], by simp [ascii, hdash]⟩
  · obtain ⟨tail, rfl⟩ := harg
    simp [ascii, hdash]
  · exact hstart _ (by decide)
  · exact not_or.mpr ⟨hstart _ (by decide), hstart _ (by decide)⟩
  · simp only [isVersion, decide_eq_true_eq, not_or]
    exact ⟨hstart _ (by decide), hstart _ (by decide), hstart _ (by decide)⟩
  · simp only [isHelp, decide_eq_true_eq, not_or]
    exact ⟨hstart _ (by decide), hstart _ (by decide)⟩

/-- What the parser makes of the parts of a proxy command. -/
theorem parseCommandLine_proxyParts {address : List UInt8} (haddress : ascii "tc" <+: address)
    (executable port : List UInt8) (verbose : Bool) (keyName : List UInt8) :
    parseCommandLine (proxyParts executable address port verbose keyName) =
      .ok { verbose, keyPath := keyName, command := address, args := [port] } := by
  have hne : address ≠ [] := by
    rintro rfl
    exact absurd haddress (by decide)
  -- From the end: the address becomes the command, and what follows it is an argument.
  have hend : ∀ out : CommandLine, out.command = [] → parseArgs out [address, port] =
      .ok { out with command := address, args := out.args ++ [port] } := by
    intro out hout
    rw [parseArgs_address hout haddress [port]]
    exact parseArgs_command hne [port]
  have hkey : ∀ out : CommandLine, out.command = [] → keyName ≠ [] →
      parseArgs out [ascii "--key=" ++ keyName, address, port] =
        .ok { out with keyPath := keyName, command := address, args := out.args ++ [port] } := by
    intro out hout hname
    rw [parseArgs_key hout hname]
    exact hend { out with keyPath := keyName } hout
  have hverbose : ∀ rest, parseArgs {} (ascii "--verbose" :: rest) =
      parseArgs { verbose := true } rest := fun rest => parseArgs_verbose rfl rest
  unfold parseCommandLine proxyParts
  cases verbose with
  | false =>
    by_cases hname : keyName = []
    · simpa [hname] using hend {} rfl
    · simpa [hname] using hkey {} rfl hname
  | true =>
    by_cases hname : keyName = []
    · simpa [hname] using (hverbose _).trans (hend { verbose := true } rfl)
    · simpa [hname] using (hverbose _).trans (hkey { verbose := true } rfl hname)

/-! ## The words of the proxy command -/

/-- What the shell gets for one octet. -/
def shellOctet (c : UInt8) : List UInt8 :=
  if c = Shell.apostrophe then
    [Shell.apostrophe, Shell.quote, Shell.apostrophe, Shell.quote, Shell.apostrophe]
  else [c]

/-- The expansion undoes the doubling of percent signs, and nothing else. -/
theorem expands_quoteOctet (value : UInt8 → Option (List UInt8)) (c : UInt8) :
    Shell.Expands value (quoteOctet c) (shellOctet c) := by
  unfold quoteOctet shellOctet
  split_ifs with hpercent hapostrophe hapostrophe
  · exact absurd (hpercent.symm.trans hapostrophe) (by decide)
  · rw [hpercent]
    exact .percent
  · exact .refl (by decide)
  · exact .refl (by simpa using Ne.symm hpercent)

/-- An apostrophe ends the single quotes, comes in double quotes, and single quotes begin again. -/
theorem copies_shellOctet (c : UInt8) : Shell.Copies (shellOctet c) [c] := by
  unfold shellOctet
  split_ifs with hapostrophe
  · intro w ws
    rw [hapostrophe]
    rfl
  · exact .singleton hapostrophe

/-- A quoted argument, and what the shell gets for it. -/
def quoted (value : List UInt8) : List UInt8 :=
  Shell.apostrophe :: (value.flatMap quoteOctet ++ [Shell.apostrophe])

/-- The argument in apostrophes, of which those inside leave the quotation. -/
def shellQuoted (value : List UInt8) : List UInt8 :=
  Shell.apostrophe :: (value.flatMap shellOctet ++ [Shell.apostrophe])

theorem expands_quoted (value : UInt8 → Option (List UInt8)) (arg : List UInt8) :
    Shell.Expands value (quoted arg) (shellQuoted arg) := by
  have hmark : Shell.Expands value [Shell.apostrophe] [Shell.apostrophe] := .refl (by decide)
  exact hmark.append ((Shell.Expands.flatMap fun c _ => expands_quoteOctet value c).append hmark)

theorem spells_shellQuoted (arg : List UInt8) : Shell.Spells (shellQuoted arg) arg :=
  (Shell.Copies.flatMap fun c _ => copies_shellOctet c).spells

/-- Quoting all parts, or throwing at the first one with a control character. -/
theorem mapM_unixShellQuote (parts : List (List UInt8)) :
    parts.mapM unixShellQuote = if parts.any hasControl then
      .error (.invalidArgument "ProxyCommand argument contains a control character")
    else .ok (parts.map quoted) := by
  induction parts with
  | nil => rfl
  | cons part parts ih =>
    rw [List.mapM_cons, ih, List.any_cons]
    unfold unixShellQuote
    cases hasControl part with
    | true => rfl
    | false =>
      rw [Bool.false_or, if_neg Bool.false_ne_true]
      split_ifs <;> rfl

theorem any_proxyParts (executable address port : List UInt8) (verbose : Bool)
    (keyName : List UInt8) : (proxyParts executable address port verbose keyName).any hasControl =
      [executable, address, port, keyName].any hasControl := by
  have hverbose : hasControl (ascii "--verbose") = false := by decide
  have hkey : hasControl (ascii "--key=" ++ keyName) = hasControl keyName := by
    rw [hasControl, List.any_append, show (ascii "--key=").any _ = false by decide, Bool.false_or]
    rfl
  have hnil : hasControl [] = false := rfl
  unfold proxyParts
  by_cases hname : keyName = []
  · cases verbose <;> simp [hname, hverbose, hnil]
  · cases verbose
    · simp only [hname, ne_eq, not_false_eq_true, Bool.false_eq_true, if_true, if_false,
        List.cons_append, List.nil_append, List.any_cons, List.any_nil, hkey, Bool.or_false]
      ac_rfl
    · simp only [hname, ne_eq, not_false_eq_true, if_true, List.cons_append, List.nil_append,
        List.any_cons, List.any_nil, hkey, hverbose, Bool.or_false, Bool.false_or]
      ac_rfl

/-- **The proxy command**: its quoted parts, unless one of them has a control character. -/
theorem sshProxyCommand_eq (executable address port : List UInt8) (verbose : Bool)
    (keyName : List UInt8) : sshProxyCommand executable address port verbose keyName =
      if [executable, address, port, keyName].any hasControl then
        .error (.invalidArgument "ProxyCommand argument contains a control character")
      else .ok ([Shell.space].intercalate
        ((proxyParts executable address port verbose keyName).map quoted)) := by
  unfold sshProxyCommand
  rw [mapM_unixShellQuote, any_proxyParts]
  split_ifs <;> rfl

/-- The words that the shell makes of quoted parts, after percent expansion. -/
theorem words_quoted (value : UInt8 → Option (List UInt8)) (parts : List (List UInt8)) :
    (Shell.percentExpand value ([Shell.space].intercalate (parts.map quoted))).bind Shell.words =
      some (parts.map fun part => ⟨part, true⟩) := by
  have hexpands : List.Forall₂ (Shell.Expands value) (parts.map quoted) (parts.map shellQuoted) := by
    rw [List.forall₂_map_left_iff, List.forall₂_map_right_iff, List.forall₂_same]
    exact fun part _ => expands_quoted value part
  have hspells : List.Forall₂ Shell.Spells (parts.map shellQuoted) parts := by
    rw [List.forall₂_map_left_iff, List.forall₂_same]
    exact fun part _ => spells_shellQuoted part
  rw [(Shell.Expands.intercalate (.refl (by decide)) hexpands).eq, Option.bind_some,
    Shell.words_intercalate hspells]

/-- **Tailcat runs Tailcat with the arguments that it means.** Whatever the executable, the port and
the key are, the words of the proxy command are these, all of them quoted, and its command line is
parsed back; with a control character in one of them there is no proxy command. -/
theorem proxyCommand_runs (executable port keyName : List UInt8) {address : List UInt8}
    (haddress : ascii "tc" <+: address) (verbose : Bool) (value : UInt8 → Option (List UInt8)) :
    let words := [executable] ++ (if verbose then [ascii "--verbose"] else []) ++
      (if keyName = [] then [] else [ascii "--key=" ++ keyName]) ++ [address, port]
    ([executable, address, port, keyName].any hasControl = false →
      ∃ command, sshProxyCommand executable address port verbose keyName = .ok command ∧
        (Shell.percentExpand value command).bind Shell.words =
          some (words.map fun word => ⟨word, true⟩) ∧
        parseCommandLine words =
          .ok { verbose, keyPath := keyName, command := address, args := [port] }) ∧
    ([executable, address, port, keyName].any hasControl = true →
      sshProxyCommand executable address port verbose keyName =
        .error (.invalidArgument "ProxyCommand argument contains a control character")) := by
  intro words
  have hwords : words = proxyParts executable address port verbose keyName := by
    unfold words proxyParts
    cases verbose <;> by_cases hname : keyName = [] <;> simp [hname]
  rw [hwords, sshProxyCommand_eq]
  refine ⟨fun hplain => ?_, fun hcontrol => if_pos hcontrol⟩
  rw [if_neg (by simp [hplain])]
  exact ⟨_, rfl, words_quoted value _,
    parseCommandLine_proxyParts haddress executable port verbose keyName⟩

/-- A key whose name would end the quotes, be expanded and run a command. -/
theorem proxyCommand_runs_example :
    let keyName := ascii "a'%h$(id)"
    ∃ command, sshProxyCommand (ascii "/opt/tail cat") (ascii "tcAAAA") (ascii "22") false keyName =
        .ok command ∧
      (Shell.percentExpand (fun _ => none) command).bind Shell.words =
        some [⟨ascii "/opt/tail cat", true⟩, ⟨ascii "--key=a'%h$(id)", true⟩,
          ⟨ascii "tcAAAA", true⟩, ⟨ascii "22", true⟩] := by
  intro keyName
  have haddress : ascii "tc" <+: ascii "tcAAAA" := by decide
  obtain ⟨command, hcommand, hwords, -⟩ := (proxyCommand_runs (ascii "/opt/tail cat") (ascii "22")
    keyName haddress false fun _ => none).1 (by decide)
  exact ⟨command, hcommand, hwords⟩

end Tailcat
