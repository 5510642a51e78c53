import Tailcat.Base.Hex
import Tailcat.Base.Pieces
import Tailcat.Cli.Ports
import Tailcat.Cli.ProxyCommand
import Tailcat.Resolver.Txt

/-!
# Copying

`tailcat cp` runs `scp`. It takes the `-P` options out of its arguments, looks for the one operand
that is at a Tailcat address, and replaces the address by a host name that `scp` can take, which the
proxy command connects to. Every other argument is passed on, options of `scp` among them.

## Main definitions

* `parseTailcatRemote`, `sshDestinationHost`: an operand at an address, and the host name for it
* `runScpCommand`: the arguments with which `scp` is executed
* `withoutPort`, `IsRemote`: the arguments that are no `-P` options, and the operands at an address
* `OptionSafe`: one operand is rewritten, and what it becomes is no option

## Main results

* `parseTailcatRemote_eq_ok_iff`: which operands are at an address
* `runScpCommand_rewrites`: what `scp` is executed with
* `scp_optionSafe_iff`: the rewritten operand is no option unless the operand looks like one
-/

namespace Tailcat

/-- `':'` -/
def colon : UInt8 := ':'.toUInt8

/-- `'@'` -/
def atSign : UInt8 := '@'.toUInt8

/-! ## The command -/

/-- What the command throws. -/
inductive CommandError
  | exception (e : Exn)
  | port (e : PortError)
  deriving DecidableEq

/-- An operand `[user@]address:path` taken apart. -/
structure RemoteSpec where
  user : List UInt8
  address : List UInt8
  path : List UInt8
  deriving DecidableEq

/-- The user before the first `@`, if there is one, and the rest. -/
def splitUser (host : List UInt8) : List UInt8 × List UInt8 :=
  match Pieces.find atSign host 0 with
  | none => ([], host)
  | some i => (Pieces.substr host 0 i, host.drop (i + 1))

/-- An operand whose host is a Tailcat address, taken apart; others are left to `scp`. -/
def parseTailcatRemote (operand : List UInt8) : Except Exn (Option RemoteSpec) :=
  match Pieces.find colon operand 0 with
  | none => .ok none
  | some i =>
    let (user, address) := splitUser (Pieces.substr operand 0 i)
    if ¬ ascii "tc" <+: address then
      .ok none
    else
      (parseTailcatAddr address).map fun _ => some ⟨user, address, operand.drop (i + 1)⟩

/-- The options that `ssh` and `scp` are given in front of all others. -/
def sshTransportOptions (proxy : List UInt8) : List (List UInt8) :=
  [ascii "-o", ascii "UpdateHostKeys no",
    ascii "-o", ascii "StrictHostKeyChecking no",
    ascii "-o", ascii "UserKnownHostsFile /dev/null",
    ascii "-o", ascii "LogLevel ERROR",
    ascii "-o", ascii "ProxyCommand=" ++ proxy]

/-- What the command uses of the system: the path of its executable, which may not be found, and
`crypto_hash_sha256`, which may fail. -/
structure ScpContext where
  executable : Except Exn (List UInt8)
  sha256 : List UInt8 → Option (Octets 32)

/-- The host name that stands for an address: the front of its digest, since an address is a secret.
-/
def sshDestinationHost (sha256 : List UInt8 → Option (Octets 32)) (address : List UInt8) :
    Except Exn (List UInt8) :=
  match sha256 address with
  | none => .error (.runtimeError "SHA-256 failed")
  | some digest => .ok (ascii "tailcat-" ++ Hex.encode (digest.toList.take 8))

/-- `[user@]host:path` -/
def RemoteSpec.rewritten (r : RemoteSpec) (host : List UInt8) : List UInt8 :=
  (if r.user = [] then [] else r.user ++ [atSign]) ++ host ++ colon :: r.path

/-- What the loop over the arguments has found. -/
structure ScpArgs where
  port : List UInt8 := ascii "22"
  remote : Option RemoteSpec := none
  operands : List (List UInt8) := []

section Command

variable (ctx : ScpContext)

/-- An argument that is no `-P` option. -/
def scpOperand (s : ScpArgs) (arg : List UInt8) : Except CommandError ScpArgs :=
  ((parseTailcatRemote arg).mapError .exception).bind fun
    | none => .ok { s with operands := s.operands ++ [arg] }
    | some candidate =>
      if s.remote.isSome then
        .error (.exception (.invalidArgument
          "cp currently supports exactly one Tailcat remote operand"))
      else
        ((sshDestinationHost ctx.sha256 candidate.address).mapError .exception).bind fun host =>
          .ok { s with
            remote := some candidate
            operands := s.operands ++ [candidate.rewritten host] }

/-- The loop over the arguments. -/
def scpLoop (s : ScpArgs) : List (List UInt8) → Except CommandError ScpArgs
  | [] => .ok s
  | arg :: rest =>
    if arg = ascii "-P" then
      match rest with
      | [] => .error (.exception (.invalidArgument "-P requires a port"))
      | port :: rest =>
        ((parseSshPort port).mapError .port).bind fun _ => scpLoop { s with port } rest
    else if ascii "-P" <+: arg ∧ 2 < arg.length then
      ((parseSshPort (arg.drop 2)).mapError .port).bind fun _ =>
        scpLoop { s with port := arg.drop 2 } rest
    else
      (scpOperand ctx s arg).bind fun s => scpLoop s rest

/-- The arguments that `run_scp_command` gives to `exec_program`. -/
def runScpCommand (args : List (List UInt8)) (verbose : Bool) (keyName : List UInt8) :
    Except CommandError (List (List UInt8)) :=
  if args.length < 2 then
    .error (.exception (.invalidArgument "cp requires a source and destination"))
  else
    (scpLoop ctx {} args).bind fun s =>
      match s.remote with
      | none => .error (.exception (.invalidArgument
          "cp requires one remote operand of the form [user@]tc...:path"))
      | some remote =>
        (ctx.executable.mapError .exception).bind fun executable =>
          ((sshProxyCommand executable remote.address s.port verbose keyName).mapError
            .exception).bind fun proxy =>
              .ok ([ascii "scp"] ++ sshTransportOptions proxy ++ s.operands)

end Command

/-! ## What is asked of it -/

/-- The arguments that are no `-P` options, which come with a value or are joined to it. -/
def withoutPort : List (List UInt8) → List (List UInt8)
  | [] => []
  | arg :: rest =>
    if arg = ascii "-P" then
      match rest with
      | [] => []
      | _ :: rest => withoutPort rest
    else if ascii "-P" <+: arg then withoutPort rest
    else arg :: withoutPort rest

/-- The operand is `[user@]tcADDR:path`. -/
inductive IsRemote : List UInt8 → RemoteSpec → Prop
  | bare {address path : List UInt8} (haddress : IsTailcatAddress address)
      (hcolon : colon ∉ address) (hat : atSign ∉ address) :
      IsRemote (address ++ colon :: path) ⟨[], address, path⟩
  | user {user address path : List UInt8} (haddress : IsTailcatAddress address)
      (hcolon : colon ∉ user ++ atSign :: address) (hat : atSign ∉ user) :
      IsRemote ((user ++ atSign :: address) ++ colon :: path) ⟨user, address, path⟩

/-- The text begins like an option. -/
def LooksLikeOption (text : List UInt8) : Prop := ascii "-" <+: text

instance (text : List UInt8) : Decidable (LooksLikeOption text) :=
  inferInstanceAs (Decidable (_ <+: _))

/-- Of the arguments without `-P` options, one is at an address, and it alone is rewritten, to what
is not an option. -/
def OptionSafe (ctx : ScpContext) (args argv : List (List UInt8)) : Prop :=
  ∃ before operand after r host proxy, withoutPort args = before ++ operand :: after ∧
    IsRemote operand r ∧ (∀ other ∈ before ++ after, ∀ r, ¬ IsRemote other r) ∧
    sshDestinationHost ctx.sha256 r.address = .ok host ∧
    argv = [ascii "scp"] ++ sshTransportOptions proxy ++ (before ++ r.rewritten host :: after) ∧
    ¬ LooksLikeOption (r.rewritten host)

/-- What the loop has found in these operands: none is at an address, or one is. -/
inductive Collected (ctx : ScpContext) (ops : List (List UInt8)) (s : ScpArgs) : Prop
  | none (hremote : s.remote = none) (hops : s.operands = ops)
      (hno : ∀ op ∈ ops, ∀ r, ¬ IsRemote op r)
  | one {before after : List (List UInt8)} {operand host : List UInt8} {r : RemoteSpec}
      (hremote : s.remote = some r) (hops : s.operands = before ++ r.rewritten host :: after)
      (hsplit : ops = before ++ operand :: after) (hone : IsRemote operand r)
      (hno : ∀ other ∈ before ++ after, ∀ r, ¬ IsRemote other r)
      (hhost : sshDestinationHost ctx.sha256 r.address = .ok host)

/-! ## Operands at an address -/

theorem splitUser_of_notMem {host : List UInt8} (h : atSign ∉ host) :
    splitUser host = ([], host) := by
  rw [splitUser, Pieces.find_of_notMem h]

theorem splitUser_append {user : List UInt8} (h : atSign ∉ user) (address : List UInt8) :
    splitUser (user ++ atSign :: address) = (user, address) := by
  rw [splitUser, Pieces.find_append_cons h]
  simp [Pieces.substr]

/-- The parser, behind the first colon. -/
theorem parseTailcatRemote_append {host : List UInt8} (h : colon ∉ host) (path : List UInt8) :
    parseTailcatRemote (host ++ colon :: path) =
      if ¬ ascii "tc" <+: (splitUser host).2 then .ok none
      else (parseTailcatAddr (splitUser host).2).map fun _ =>
        some ⟨(splitUser host).1, (splitUser host).2, path⟩ := by
  rw [parseTailcatRemote, Pieces.find_append_cons h]
  simp [Pieces.substr]

/-- What the parser finds in a text that is `host:path`. -/
theorem parse_host_eq_ok_iff {host path : List UInt8} {r : RemoteSpec} (h : colon ∉ host) :
    parseTailcatRemote (host ++ colon :: path) = .ok (some r) ↔
      IsTailcatAddress (splitUser host).2 ∧ r = ⟨(splitUser host).1, (splitUser host).2, path⟩ := by
  rw [parseTailcatRemote_append h]
  by_cases htc : ascii "tc" <+: (splitUser host).2
  · rw [if_neg (not_not.mpr htc), IsTailcatAddress]
    cases parseTailcatAddr (splitUser host).2 with
    | error e => simp [Except.map]
    | ok info => simp [Except.map, eq_comm]
  · rw [if_pos htc]
    exact iff_of_false (by simp) fun hr => htc hr.1.tc

/-- **Which operands are at an address.** -/
theorem parseTailcatRemote_eq_ok_iff {operand : List UInt8} {r : RemoteSpec} :
    parseTailcatRemote operand = .ok (some r) ↔ IsRemote operand r := by
  constructor
  · intro h
    by_cases hcolon : colon ∈ operand
    · -- The first colon ends the host, and the first `@` in it ends the user.
      obtain ⟨host, path, rfl, hhost⟩ := List.eq_append_cons_of_mem hcolon
      obtain ⟨haddress, rfl⟩ := (parse_host_eq_ok_iff hhost).mp h
      by_cases hat : atSign ∈ host
      · obtain ⟨user, address, rfl, huser⟩ := List.eq_append_cons_of_mem hat
        rw [splitUser_append huser] at haddress ⊢
        exact .user haddress hhost huser
      · rw [splitUser_of_notMem hat] at haddress ⊢
        exact .bare haddress hhost hat
    · rw [parseTailcatRemote, Pieces.find_of_notMem hcolon] at h
      cases h
  · intro h
    cases h with
    | bare haddress hcolon hat =>
      apply (parse_host_eq_ok_iff hcolon).mpr
      rw [splitUser_of_notMem hat]
      exact ⟨haddress, rfl⟩
    | user haddress hcolon hat =>
      apply (parse_host_eq_ok_iff hcolon).mpr
      rw [splitUser_append hat]
      exact ⟨haddress, rfl⟩

theorem not_isRemote_of_parse {operand : List UInt8} (h : parseTailcatRemote operand = .ok none)
    (r : RemoteSpec) : ¬ IsRemote operand r := by
  intro hr
  cases h.symm.trans (parseTailcatRemote_eq_ok_iff.mpr hr)

/-- The host name for an address begins with a letter. -/
theorem sshDestinationHost_begins {sha256 : List UInt8 → Option (Octets 32)}
    {address host : List UInt8} (h : sshDestinationHost sha256 address = .ok host) :
    ascii "tailcat-" <+: host := by
  unfold sshDestinationHost at h
  split at h
  · cases h
  · exact Except.ok.inj h ▸ List.prefix_append _ _

/-- **What a rewritten operand begins with**: it looks like an option if the operand does, since the
user is left in front of it. -/
theorem IsRemote.rewritten_looksLikeOption_iff {operand host : List UInt8} {r : RemoteSpec}
    (h : IsRemote operand r) (hhost : ascii "tailcat-" <+: host) :
    LooksLikeOption (r.rewritten host) ↔ LooksLikeOption operand := by
  obtain ⟨digits, rfl⟩ := hhost
  cases h with
  | bare haddress hcolon hat =>
    -- Both begin with the letter of a name.
    obtain ⟨rest, rfl⟩ := haddress.tc
    have hdash : '-'.toUInt8 ≠ 't'.toUInt8 := by decide
    simp [LooksLikeOption, RemoteSpec.rewritten, ascii, hdash]
  | @user user address path haddress hcolon hat =>
    cases user with
    | nil =>
      have hdash : '-'.toUInt8 ≠ 't'.toUInt8 ∧ '-'.toUInt8 ≠ atSign := by decide
      simp [LooksLikeOption, RemoteSpec.rewritten, ascii, hdash.1, hdash.2]
    | cons c user => simp [LooksLikeOption, RemoteSpec.rewritten, ascii]

/-! ## The loop over the arguments -/

section WithoutPort

variable {arg : List UInt8} (rest : List (List UInt8)) (hne : arg ≠ ascii "-P")

include hne

theorem withoutPort_joined (hport : ascii "-P" <+: arg) :
    withoutPort (arg :: rest) = withoutPort rest := by
  conv_lhs => unfold withoutPort
  rw [if_neg hne, if_pos hport]

theorem withoutPort_operand (hport : ¬ ascii "-P" <+: arg) :
    withoutPort (arg :: rest) = arg :: withoutPort rest := by
  conv_lhs => unfold withoutPort
  rw [if_neg hne, if_neg hport]

end WithoutPort

section Loop

variable {ctx : ScpContext} {s t : ScpArgs} {ops args : List (List UInt8)}

theorem Collected.of_port (h : Collected ctx ops s) (port : List UInt8) :
    Collected ctx ops { s with port } := by
  cases h with
  | none hremote hops hno => exact .none hremote hops hno
  | one hremote hops hsplit hone hno hhost => exact .one hremote hops hsplit hone hno hhost

/-- An operand that is at no address is kept as it is. -/
theorem Collected.keep {arg : List UInt8} (h : Collected ctx ops s)
    (harg : ∀ r, ¬ IsRemote arg r) :
    Collected ctx (ops ++ [arg]) { s with operands := s.operands ++ [arg] } := by
  cases h with
  | none hremote hops hno =>
    refine .none hremote (by rw [hops]) fun op hop => ?_
    rcases List.mem_append.mp hop with hop | hop
    · exact hno op hop
    · exact List.mem_singleton.mp hop ▸ harg
  | @one before after operand host r hremote hops hsplit hone hno hhost =>
    have hsplit' : ops ++ [arg] = before ++ operand :: (after ++ [arg]) := by simp [hsplit]
    refine .one hremote (by simp [hops]) hsplit' hone ?_ hhost
    intro other hother
    rw [← List.append_assoc] at hother
    rcases List.mem_append.mp hother with hother | hother
    · exact hno other hother
    · exact List.mem_singleton.mp hother ▸ harg

/-- The step of the loop. A second operand at an address is refused. -/
theorem Collected.scpOperand {arg : List UInt8} (h : Collected ctx ops s)
    (hs : scpOperand ctx s arg = .ok t) : Collected ctx (ops ++ [arg]) t := by
  obtain ⟨found, hfound, hs⟩ := Except.bind_eq_ok_iff.mp hs
  rw [Except.mapError_eq_ok_iff] at hfound
  cases found with
  | none => exact Except.ok.inj hs ▸ h.keep (not_isRemote_of_parse hfound)
  | some candidate =>
    cases h with
    | one hremote hops hsplit hone hno hhost =>
      simp [hremote] at hs
    | none hremote hops hno =>
      rw [hremote] at hs
      obtain ⟨host, hhost, hs⟩ := Except.bind_eq_ok_iff.mp hs
      rw [Except.mapError_eq_ok_iff] at hhost
      obtain rfl := Except.ok.inj hs
      refine .one rfl (by rw [hops]) rfl (parseTailcatRemote_eq_ok_iff.mp hfound) ?_ hhost
      rwa [List.append_nil]

/-- The run of the loop, by induction on the arguments. -/
theorem Collected.scpLoop (h : Collected ctx ops s) (hs : scpLoop ctx s args = .ok t) :
    Collected ctx (ops ++ withoutPort args) t := by
  induction args using withoutPort.induct generalizing s ops with
  | case1 =>
    rw [withoutPort, List.append_nil]
    exact Except.ok.inj hs ▸ h
  | case2 => simp [Tailcat.scpLoop] at hs
  | case3 port rest ih =>
    -- The port is another argument.
    rw [Tailcat.scpLoop, if_pos rfl] at hs
    obtain ⟨_, -, hs⟩ := Except.bind_eq_ok_iff.mp hs
    rw [withoutPort, if_pos rfl]
    exact ih (h.of_port port) hs
  | case4 arg rest hne hport ih =>
    -- The port is what comes behind the letter.
    have hlong : 2 < arg.length := by
      rcases hport.length_le.lt_or_eq with hlt | heq
      · exact hlt
      · exact absurd (hport.eq_of_length heq).symm hne
    unfold Tailcat.scpLoop at hs
    rw [if_neg hne, if_pos ⟨hport, hlong⟩] at hs
    obtain ⟨_, -, hs⟩ := Except.bind_eq_ok_iff.mp hs
    rw [withoutPort_joined rest hne hport]
    exact ih (h.of_port _) hs
  | case5 arg rest hne hport ih =>
    unfold Tailcat.scpLoop at hs
    rw [if_neg hne, if_neg fun hp => hport hp.1] at hs
    obtain ⟨s', hstep, hs⟩ := Except.bind_eq_ok_iff.mp hs
    rw [withoutPort_operand rest hne hport]
    simpa using ih (h.scpOperand hstep) hs

end Loop

/-! ## What `scp` is executed with -/

section Argv

variable {ctx : ScpContext} {args argv : List (List UInt8)} {verbose : Bool} {keyName : List UInt8}

/-- **What `scp` is executed with**: the options of the transport, and the arguments in their order,
of which one operand is rewritten. -/
theorem runScpCommand_rewrites (h : runScpCommand ctx args verbose keyName = .ok argv) :
    ∃ before operand after r host proxy, withoutPort args = before ++ operand :: after ∧
      IsRemote operand r ∧ (∀ other ∈ before ++ after, ∀ r, ¬ IsRemote other r) ∧
      sshDestinationHost ctx.sha256 r.address = .ok host ∧
      argv = [ascii "scp"] ++ sshTransportOptions proxy ++
        (before ++ r.rewritten host :: after) := by
  unfold runScpCommand at h
  split at h
  · cases h
  obtain ⟨s, hloop, h⟩ := Except.bind_eq_ok_iff.mp h
  have hbegin : Collected ctx [] {} := .none rfl rfl (by simp)
  cases hbegin.scpLoop hloop with
  | none hremote hops hno =>
    rw [hremote] at h
    cases h
  | @one before after operand host r hremote hops hsplit hone hno hhost =>
    rw [hremote] at h
    obtain ⟨executable, -, h⟩ := Except.bind_eq_ok_iff.mp h
    obtain ⟨proxy, -, h⟩ := Except.bind_eq_ok_iff.mp h
    rw [hops] at h
    exact ⟨before, operand, after, r, host, proxy, hsplit, hone, hno, hhost,
      (Except.ok.inj h).symm⟩

/-- An operand that looks like an option is rewritten to what looks like one. -/
theorem OptionSafe.not_looksLikeOption (h : OptionSafe ctx args argv) {operand : List UInt8}
    {r : RemoteSpec} (hmem : operand ∈ withoutPort args) (hr : IsRemote operand r) :
    ¬ LooksLikeOption operand := by
  obtain ⟨before, op, after, r', host, proxy, hsplit, hone, hno, hhost, -, hsafe⟩ := h
  -- No other operand is at an address.
  have hop : operand = op := by
    rw [hsplit] at hmem
    rcases List.mem_append.mp hmem with hmem | hmem
    · exact absurd hr (hno operand (List.mem_append_left _ hmem) r)
    rcases List.mem_cons.mp hmem with rfl | hmem
    · rfl
    · exact absurd hr (hno operand (List.mem_append_right _ hmem) r)
  subst hop
  rwa [hone.rewritten_looksLikeOption_iff (sshDestinationHost_begins hhost)] at hsafe

/-- **Which copies are safe**: wherever `scp` is executed, one operand at an address is rewritten
and nothing else is changed. What it becomes is no option, unless the operand looks like one
itself. -/
theorem scp_optionSafe_iff (h : runScpCommand ctx args verbose keyName = .ok argv) :
    OptionSafe ctx args argv ↔
      ∀ operand ∈ withoutPort args, ∀ r, IsRemote operand r → ¬ LooksLikeOption operand := by
  constructor
  · intro hsafe operand hmem r hr
    exact hsafe.not_looksLikeOption hmem hr
  · intro hplain
    obtain ⟨before, operand, after, r, host, proxy, hsplit, hone, hno, hhost, hargv⟩ :=
      runScpCommand_rewrites h
    refine ⟨before, operand, after, r, host, proxy, hsplit, hone, hno, hhost, hargv, ?_⟩
    rw [hone.rewritten_looksLikeOption_iff (sshDestinationHost_begins hhost)]
    refine hplain operand ?_ r hone
    rw [hsplit]
    simp

end Argv

/-- A system with the digest of one address. -/
def exampleContext : ScpContext where
  executable := .ok (ascii "/usr/bin/tailcat")
  sha256 _ := some (.ofList [0xf4, 0x6f, 0xa3, 0x6a, 0x9f, 0x93, 0xbb, 0x56, 0x56, 0x09, 0xb8, 0x58,
    0x9f, 0x29, 0x02, 0x2b, 0xbb, 0x50, 0xe6, 0x27, 0x9c, 0xa8, 0x73, 0xeb, 0x2d, 0x9d, 0x51, 0x58,
    0x74, 0x26, 0xe0, 0xf2] rfl)

/-- The address whose digest it is. -/
def exampleAddress : List UInt8 := ascii "tcomFwWCAAAQIAAAAAAAAAAAAAAAAAAAAAAAAAAAAAAAAAAAAAH2FpCg"

/-- A copy for a user on another port. -/
theorem scp_optionSafe_example :
    let args := [ascii "-P", ascii "2222", ascii "-r",
      ascii "alice@" ++ exampleAddress ++ ascii ":notes", ascii "."]
    ∃ argv, runScpCommand exampleContext args false [] = .ok argv ∧
      OptionSafe exampleContext args argv := by
  intro args
  have hrun : (runScpCommand exampleContext args false []).isOk = true := by decide +kernel
  cases hargv : runScpCommand exampleContext args false [] with
  | error e =>
    rw [hargv] at hrun
    cases hrun
  | ok argv =>
    refine ⟨argv, rfl, (scp_optionSafe_iff hargv).mpr fun operand hmem r hr => ?_⟩
    -- The option has no colon, hence it is at no address.
    have hplain : ∀ operand ∈ withoutPort args, colon ∈ operand → ¬ LooksLikeOption operand := by
      decide +kernel
    refine hplain operand hmem ?_
    cases hr <;> simp

/-- A user whose name is an option of `scp`. -/
theorem scp_option :
    let args := [ascii "-oProxyCommand=reboot@" ++ exampleAddress ++ ascii ":notes", ascii "."]
    let argv := [ascii "scp"] ++
      sshTransportOptions (ascii "'/usr/bin/tailcat' '" ++ exampleAddress ++ ascii "' '22'") ++
      [ascii "-oProxyCommand=reboot@tailcat-f46fa36a9f93bb56:notes", ascii "."]
    runScpCommand exampleContext args false [] = .ok argv ∧ ¬ OptionSafe exampleContext args argv := by
  intro args argv
  refine ⟨by decide +kernel, fun hsafe => ?_⟩
  have hremote : parseTailcatRemote
      (ascii "-oProxyCommand=reboot@" ++ exampleAddress ++ ascii ":notes") =
        .ok (some ⟨ascii "-oProxyCommand=reboot", exampleAddress, ascii "notes"⟩) := by
    decide +kernel
  have hmem : ascii "-oProxyCommand=reboot@" ++ exampleAddress ++ ascii ":notes" ∈
      withoutPort args := by decide +kernel
  exact hsafe.not_looksLikeOption hmem (parseTailcatRemote_eq_ok_iff.mp hremote) (by decide +kernel)

end Tailcat
