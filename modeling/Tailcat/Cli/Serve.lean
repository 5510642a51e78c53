import Tailcat.Cli.AllowList
import Tailcat.Cli.Genkey
import Tailcat.Cli.Ports
import Tailcat.Cli.ProxyCommand
import Tailcat.Relay.ServedPorts
import Tailcat.Server.Policy
import Tailcat.Ssh.Authentication

/-!
# The command `serve`

`serve` takes ports and the word for one of two SSH services, with options between them. It refuses
combinations that contradict each other, and then starts: it prints its address, listens at port 22
for SSH and at the other ports, and admits the nodes of its allow list.

## Main definitions

* `ServeOptions`, `parseServe`: the arguments of `serve`
* `ServeWord.Spelled`, `SpelledWords`: the words that arguments consist of
* `setUpServe`: what `serve` starts

## Main results

* `parseServe_iff`: which arguments are read, and as what
* `serve_listens`: what a server listens at is what the words say
* `serve_sessions`: for whom processes are started
* `serve_reaches`: only nodes of the allow list are dealt with, and a stream is connected to the
  port at which it has arrived
* `printpub_admits`: the key that a client prints lets it in
-/

namespace Tailcat

open Ssh (EmbeddedSshOptions Libssh SourceWorld loadSshAuthorizedKeyBlobs)

/-- What `serve` throws: an error of its own or of loading, or that of a port. -/
inductive ServeError
  | load (e : LoadError)
  | port (e : PortError)

/-- An exception that `serve` throws itself. -/
def ServeError.exn (e : Exn) : ServeError := .load (.exn e)

/-! ## Arguments -/

/-- The arguments of `serve` as they were parsed. -/
structure ServeOptions where
  pskOverride : Option Bool := none
  allowKeys : Option (List Key32) := none
  sshAuthorizedKeySources : List UInt8 := []
  sshService : Bool := false
  noAuthSshService : Bool := false
  ports : List UInt16 := []

/-- The loop over the arguments. -/
def parseServe : List (List UInt8) → ServeOptions → Except ServeError ServeOptions
  | [], o => .ok o
  | arg :: args, o =>
    if arg = ascii "--psk=false" then
      parseServe args { o with pskOverride := some false }
    else if arg = ascii "--psk=true" then
      parseServe args { o with pskOverride := some true }
    else if arg = ascii "--allow" then
      match args with
      | [] => .error (.exn (.invalidArgument "--allow requires a value"))
      | value :: args =>
        ((parseAllowList value).mapError .exn).bind fun keys =>
          parseServe args { o with allowKeys := some keys }
    else if ascii "--allow=" <+: arg then
      ((parseAllowList (arg.drop 8)).mapError .exn).bind fun keys =>
        parseServe args { o with allowKeys := some keys }
    else if arg = ascii "--ssh-authorized-keys" then
      match args with
      | [] => .error (.exn (.invalidArgument "--ssh-authorized-keys requires a value"))
      | value :: args => parseServe args { o with sshAuthorizedKeySources := value }
    else if ascii "--ssh-authorized-keys=" <+: arg then
      if arg.drop 22 = [] then
        .error (.exn (.invalidArgument "--ssh-authorized-keys requires a value"))
      else
        parseServe args { o with sshAuthorizedKeySources := arg.drop 22 }
    else if arg = ascii "ssh" then
      parseServe args { o with sshService := true }
    else if arg = ascii "no-auth-ssh" then
      parseServe args { o with noAuthSshService := true }
    else if ascii "-" <+: arg then
      .error (.exn (.invalidArgument ("unsupported serve option: " ++ octetsText arg)))
    else
      ((Cli.parsePort arg).mapError .port).bind fun port =>
        parseServe args { o with ports := o.ports ++ [port] }

namespace ServeOptions

/-- Whether the server has an SSH server of its own. -/
def embeddedSshService (o : ServeOptions) : Bool := o.sshService || o.noAuthSshService

/-- The combinations that are refused. -/
def check (o : ServeOptions) : Except Exn Unit :=
  if ¬ o.sshService ∧ ¬ o.noAuthSshService ∧ o.ports = [] then
    .error (.invalidArgument "serve requires ssh, no-auth-ssh, or one or more TCP ports")
  else if o.sshService ∧ o.noAuthSshService then
    .error (.invalidArgument "the 'ssh' and 'no-auth-ssh' services cannot be served together")
  else if o.sshService ∧ o.sshAuthorizedKeySources = [] then
    .error (.invalidArgument "the 'ssh' service requires --ssh-authorized-keys")
  else if o.noAuthSshService ∧ o.sshAuthorizedKeySources ≠ [] then
    .error (.invalidArgument
      "--ssh-authorized-keys cannot be used with the 'no-auth-ssh' service; use 'ssh' instead")
  else if ¬ o.sshService ∧ o.sshAuthorizedKeySources ≠ [] then
    .error (.invalidArgument "--ssh-authorized-keys requires the 'ssh' service")
  else if o.embeddedSshService ∧ 22 ∈ o.ports then
    .error (.invalidArgument "cannot serve embedded SSH and forward TCP port 22 at the same time")
  else
    .ok ()

end ServeOptions

/-! ## The words of the arguments -/

/-- What an argument says, with its value. -/
inductive ServeWord
  | psk (value : Bool)
  | allow (keys : List Key32)
  | sources (sources : List UInt8)
  | ssh
  | noAuthSsh
  | port (port : UInt16)
  deriving DecidableEq

/-- How a word is spelled. -/
inductive ServeWord.Spelled : ServeWord → List (List UInt8) → Prop
  | pskFalse : Spelled (.psk false) [ascii "--psk=false"]
  | pskTrue : Spelled (.psk true) [ascii "--psk=true"]
  | allow {value : List UInt8} {keys : List Key32} (h : parseAllowList value = .ok keys) :
    Spelled (.allow keys) [ascii "--allow", value]
  | allowEq {value : List UInt8} {keys : List Key32} (h : parseAllowList value = .ok keys) :
    Spelled (.allow keys) [ascii "--allow=" ++ value]
  | sources (value : List UInt8) : Spelled (.sources value) [ascii "--ssh-authorized-keys", value]
  | sourcesEq {value : List UInt8} (h : value ≠ []) :
    Spelled (.sources value) [ascii "--ssh-authorized-keys=" ++ value]
  | ssh : Spelled .ssh [ascii "ssh"]
  | noAuthSsh : Spelled .noAuthSsh [ascii "no-auth-ssh"]
  | port {text : List UInt8} {port : UInt16} (hdash : ¬ ascii "-" <+: text)
    (h : Cli.parsePort text = .ok port) : Spelled (.port port) [text]

/-- The arguments consist of the words. -/
inductive SpelledWords : List ServeWord → List (List UInt8) → Prop
  | nil : SpelledWords [] []
  | cons {word : ServeWord} {words : List ServeWord} {used args : List (List UInt8)}
    (h : word.Spelled used) (hrest : SpelledWords words args) :
    SpelledWords (word :: words) (used ++ args)

namespace ServeWord

/-- The value of a `--psk`. -/
def pskOf : ServeWord → Option Bool
  | .psk value => some value
  | _ => none

/-- The keys of an `--allow`. -/
def allowOf : ServeWord → Option (List Key32)
  | .allow keys => some keys
  | _ => none

/-- The text of an `--ssh-authorized-keys`. -/
def sourcesOf : ServeWord → Option (List UInt8)
  | .sources text => some text
  | _ => none

/-- The number of a word that is a port. -/
def portOf : ServeWord → Option UInt16
  | .port number => some number
  | _ => none

/-- What words say together: the last one counts where an option is given several times. -/
def meaning (words : List ServeWord) : ServeOptions where
  pskOverride := (words.filterMap pskOf).getLast?
  allowKeys := (words.filterMap allowOf).getLast?
  sshAuthorizedKeySources := (words.filterMap sourcesOf).getLast?.getD []
  sshService := .ssh ∈ words
  noAuthSshService := .noAuthSsh ∈ words
  ports := words.filterMap portOf

end ServeWord

namespace ServeOptions

/-- The options with one more word. -/
def add (o : ServeOptions) : ServeWord → ServeOptions
  | .psk value => { o with pskOverride := some value }
  | .allow keys => { o with allowKeys := some keys }
  | .sources text => { o with sshAuthorizedKeySources := text }
  | .ssh => { o with sshService := true }
  | .noAuthSsh => { o with noAuthSshService := true }
  | .port number => { o with ports := o.ports ++ [number] }

theorem add_meaning (words : List ServeWord) (word : ServeWord) :
    (ServeWord.meaning words).add word = ServeWord.meaning (words ++ [word]) := by
  cases word <;> simp [add, ServeWord.meaning, ServeWord.pskOf, ServeWord.allowOf,
    ServeWord.sourcesOf, ServeWord.portOf]

theorem foldl_add (words : List ServeWord) :
    words.foldl add {} = ServeWord.meaning words := by
  induction words using List.reverseRecOn with
  | nil => rfl
  | append_singleton words word ih => rw [List.foldl_append, ih, List.foldl_cons, List.foldl_nil,
      add_meaning]

end ServeOptions

/-! ## Reading the words -/

section Reading

variable {args : List (List UInt8)} {o o' : ServeOptions}

/-- A turn of the loop that does not throw has read a word. -/
theorem exists_word_of_parseServe (h : parseServe args o = .ok o') : (args = [] ∧ o' = o) ∨
    ∃ (word : ServeWord) (used rest : List (List UInt8)), args = used ++ rest ∧
      word.Spelled used ∧ parseServe rest (o.add word) = .ok o' := by
  unfold parseServe at h
  split at h
  · exact .inl ⟨rfl, (Except.ok.inj h).symm⟩
  rename_i arg args
  have hone (word : ServeWord) (hword : word.Spelled [arg])
      (h : parseServe args (o.add word) = .ok o') : ∃ (word : ServeWord)
      (used rest : List (List UInt8)), arg :: args = used ++ rest ∧ word.Spelled used ∧
        parseServe rest (o.add word) = .ok o' := ⟨word, [arg], args, rfl, hword, h⟩
  -- The tests of the loop, in its order: only `--allow` and `--ssh-authorized-keys` take a second
  -- argument.
  refine .inr ?_
  split at h
  · rename_i he
    exact hone (.psk false) (he ▸ .pskFalse) h
  split at h
  · rename_i he
    exact hone (.psk true) (he ▸ .pskTrue) h
  split at h
  · rename_i he
    split at h
    · cases h
    · rename_i value rest
      obtain ⟨keys, hkeys, h⟩ := Except.bind_eq_ok_iff.mp h
      exact ⟨.allow keys, [arg, value], rest, rfl,
        he ▸ .allow (Except.mapError_eq_ok_iff.mp hkeys), h⟩
  split at h
  · rename_i hstart
    obtain ⟨value, rfl⟩ := hstart
    obtain ⟨keys, hkeys, h⟩ := Except.bind_eq_ok_iff.mp h
    exact hone (.allow keys) (.allowEq (Except.mapError_eq_ok_iff.mp hkeys)) h
  split at h
  · rename_i he
    split at h
    · cases h
    · rename_i value rest
      exact ⟨.sources value, [arg, value], rest, rfl, he ▸ .sources value, h⟩
  split at h
  · rename_i hstart
    obtain ⟨value, rfl⟩ := hstart
    split at h
    · cases h
    · rename_i hne
      exact hone (.sources value) (.sourcesEq hne) h
  split at h
  · rename_i he
    exact hone .ssh (he ▸ .ssh) h
  split at h
  · rename_i he
    exact hone .noAuthSsh (he ▸ .noAuthSsh) h
  split at h
  · cases h
  · rename_i hdash
    obtain ⟨port, hport, h⟩ := Except.bind_eq_ok_iff.mp h
    exact hone (.port port) (.port hdash (Except.mapError_eq_ok_iff.mp hport)) h

/-- A word that comes first is read. -/
theorem parseServe_of_word {word : ServeWord} {used rest : List (List UInt8)}
    (hword : word.Spelled used) (h : parseServe rest (o.add word) = .ok o') :
    parseServe (used ++ rest) o = .ok o' := by
  -- No argument is taken for another one.
  unfold parseServe
  cases hword with
  | pskFalse => exact h
  | pskTrue => exact h
  | allow hkeys =>
    dsimp only [List.cons_append, List.nil_append]
    rw [if_neg (by decide), if_neg (by decide), if_pos rfl, hkeys]
    exact h
  | @allowEq value keys hkeys =>
    have hstart : ascii "--allow=" <+: ascii "--allow=" ++ value := List.prefix_append _ _
    dsimp only [List.cons_append, List.nil_append]
    rw [if_neg (ne_ascii hstart (by decide)), if_neg (ne_ascii hstart (by decide)),
      if_neg (ne_ascii hstart (by decide)), if_pos hstart]
    show (((parseAllowList value).mapError ServeError.exn).bind _) = _
    rw [hkeys]
    exact h
  | sources value => exact h
  | @sourcesEq value hne =>
    have hstart : ascii "--ssh-authorized-keys=" <+: ascii "--ssh-authorized-keys=" ++ value :=
      List.prefix_append _ _
    dsimp only [List.cons_append, List.nil_append]
    rw [if_neg (ne_ascii hstart (by decide)), if_neg (ne_ascii hstart (by decide)),
      if_neg (ne_ascii hstart (by decide)), if_neg fun h => ?_,
      if_neg (ne_ascii hstart (by decide)), if_pos hstart]
    · exact (if_neg hne).trans h
    · exact absurd (List.prefix_of_prefix_length_le h hstart (by decide)) (by decide)
  | ssh => exact h
  | noAuthSsh => exact h
  | @port text port hdash hport =>
    have hno {option : List UInt8} (hoption : ascii "-" <+: option) : ¬ option <+: text :=
      fun h => hdash (hoption.trans h)
    have hne {s : String} (hs : ascii "-" <+: ascii s) : text ≠ ascii s :=
      fun h => hdash (h ▸ hs)
    dsimp only [List.cons_append, List.nil_append]
    rw [if_neg (hne (by decide)), if_neg (hne (by decide)), if_neg (hne (by decide)),
      if_neg (hno (by decide)), if_neg (hne (by decide)), if_neg (hno (by decide)), if_neg,
      if_neg, if_neg hdash, hport]
    · exact h
    · rintro rfl
      cases hport
    · rintro rfl
      cases hport

/-- **One turn of the loop** reads one word. -/
theorem parseServe_step : parseServe args o = .ok o' ↔ (args = [] ∧ o' = o) ∨
    ∃ (word : ServeWord) (used rest : List (List UInt8)), args = used ++ rest ∧
      word.Spelled used ∧ parseServe rest (o.add word) = .ok o' := by
  constructor
  · exact exists_word_of_parseServe
  · rintro (⟨rfl, rfl⟩ | ⟨word, used, rest, rfl, hword, h⟩)
    · simp [parseServe]
    · exact parseServe_of_word hword h

theorem ServeWord.Spelled.ne_nil {word : ServeWord} {used : List (List UInt8)}
    (h : word.Spelled used) : used ≠ [] := by
  cases h <;> exact List.cons_ne_nil _ _

/-- The loop reads the words one after the other. -/
theorem parseServe_foldl : parseServe args o = .ok o' ↔
    ∃ words, SpelledWords words args ∧ o' = words.foldl ServeOptions.add o := by
  constructor
  · -- By induction on the number of arguments that are left.
    intro h
    induction hn : args.length using Nat.strong_induction_on generalizing args o with
    | _ n ih =>
      rcases parseServe_step.mp h with ⟨rfl, rfl⟩ | ⟨word, used, rest, rfl, hword, h⟩
      · exact ⟨[], .nil, rfl⟩
      have hlt : rest.length < n := by
        have := List.length_pos_iff.mpr hword.ne_nil
        rw [← hn, List.length_append]
        omega
      obtain ⟨words, hwords, rfl⟩ := ih _ hlt h rfl
      exact ⟨word :: words, .cons hword hwords, rfl⟩
  · rintro ⟨words, hwords, rfl⟩
    induction hwords generalizing o with
    | nil => simp [parseServe]
    | cons hword _ ih => exact parseServe_step.mpr (.inr ⟨_, _, _, rfl, hword, ih⟩)

/-- **What the arguments say**: they are read if they consist of words, and then as what the words
say together. -/
theorem parseServe_iff (args : List (List UInt8)) (o : ServeOptions) :
    parseServe args {} = .ok o ↔
      ∃ words, SpelledWords words args ∧ o = ServeWord.meaning words := by
  simp only [parseServe_foldl, ServeOptions.foldl_add]

/-- Which combinations are served. -/
theorem check_eq_ok_iff : o.check = .ok () ↔
    ((o.sshService = true ∧ o.noAuthSshService = false ∧ o.sshAuthorizedKeySources ≠ []) ∨
      (o.sshService = false ∧ o.sshAuthorizedKeySources = [] ∧
        (o.noAuthSshService = true ∨ o.ports ≠ []))) ∧
    (22 ∈ o.ports → o.embeddedSshService = false) := by
  unfold ServeOptions.check ServeOptions.embeddedSshService
  grind

end Reading

/-! ## Starting -/

/-- Every port of the tunnel is served by the port of the host with the same number. -/
def samePortMappings (ports : List UInt16) : List ServedTcpMapping :=
  ports.map fun port => ⟨port, port⟩

/-- `EmbeddedSshServer`, where `listened` and `hostKey` are what listening at port 22 and
`ensure_ssh_host_key` return. -/
def newEmbeddedSsh (listened : Except Exn Unit) (hostKey : Except Exn (List UInt8))
    (o : EmbeddedSshOptions) : Except Exn EmbeddedSshOptions := do
  listened
  let _ ← hostKey
  if ¬ o.allowNone ∧ o.authorizedKeyBlobs = [] then
    .error (.invalidArgument
      "embedded SSH requires authorized keys unless no-auth-ssh is selected")
  else
    return o

/-- A call of `run_serve`, and what its calls return: the map, the connection to the relay and the
data plane, the listeners of the IP stack, and the host key. -/
structure ServeCall where
  args : List (List UInt8)
  keyName : List UInt8
  fetched : Except LoadError DerpMap
  connected : Except Exn Unit
  listen : UInt16 → Except Exn Unit
  hostKey : Except Exn (List UInt8)

/-- What `serve` has started when it begins to wait. -/
structure ServeServices (K : Type) where
  bootstrap : ServerBootstrap
  config : ServerConfig
  ssh : Option EmbeddedSshOptions
  forwarding : Option (ServedTcpPorts K)

/-- The ports that the server listens at, in the order in which it does. -/
def ServeServices.listened {K : Type} (s : ServeServices K) : List UInt16 :=
  (if s.ssh.isSome then [22] else []) ++ (s.forwarding.map ServedTcpPorts.ports).getD []

section Starting

variable {T K : Type} (env : ConfigEnv) (S : Sodium) (J : JsonLibrary) (F : Files) (R : RandomKeys)
  (L : Libssh T K) (W : SourceWorld) (sort : MappingSort)

/-- The keys of the SSH service. -/
def authorizedKeys (o : ServeOptions) : Except Exn (List (List UInt8)) :=
  if o.sshService then (loadSshAuthorizedKeyBlobs L W o.sshAuthorizedKeySources).1 else .ok []

/-- The SSH service. -/
def startSsh (o : ServeOptions) (c : ServeCall) : Except Exn (Option EmbeddedSshOptions) :=
  if o.embeddedSshService then do
    let authorizedKeyBlobs ← authorizedKeys L W o
    let ssh ← newEmbeddedSsh (c.listen 22) c.hostKey
      { allowNone := o.noAuthSshService, authorizedKeyBlobs }
    return some ssh
  else
    .ok none

/-- The ports. -/
def startForwarding (Q : Type) (o : ServeOptions) (c : ServeCall) :
    Except Exn (Option (ServedTcpPorts Q)) :=
  if o.ports = [] then
    .ok none
  else do
    let ports ← ServedTcpPorts.new sort c.listen (samePortMappings o.ports)
    return some ports

/-- `run_serve` up to its loop, for streams that are told apart by `Q`. -/
def setUpServe (Q : Type) (c : ServeCall) : Except ServeError (ServeServices Q) := do
  let o ← parseServe c.args {}
  o.check.mapError .exn
  let bootstrap ← (makeServerBootstrap env S J F R c.fetched o.pskOverride c.keyName).mapError .load
  c.connected.mapError .exn
  let allow := o.allowKeys.map fun configured peer => decide (peer ∈ configured)
  let config : ServerConfig := { identity := bootstrap.identity, psk := bootstrap.psk, allow }
  let ssh ← (startSsh L W o c).mapError .exn
  let forwarding ← (startForwarding sort Q o c).mapError .exn
  return { bootstrap, config, ssh, forwarding }

variable {env S J F R L W sort} {Q : Type} {c : ServeCall} {s : ServeServices Q}
  {words : List ServeWord}

/-- The steps of a start. -/
theorem setUpServe_eq_ok (h : setUpServe env S J F R L W sort Q c = .ok s)
    (hwords : SpelledWords words c.args) :
    (ServeWord.meaning words).check = .ok () ∧
    s.config.allow =
      (ServeWord.meaning words).allowKeys.map (fun configured peer => decide (peer ∈ configured)) ∧
    startSsh L W (ServeWord.meaning words) c = .ok s.ssh ∧
    startForwarding sort Q (ServeWord.meaning words) c = .ok s.forwarding := by
  obtain ⟨o, ho, h⟩ := Except.bind_eq_ok_iff.mp h
  obtain rfl := Except.ok.inj (ho.symm.trans ((parseServe_iff _ _).mpr ⟨words, hwords, rfl⟩))
  obtain ⟨u, hcheck, h⟩ := Except.bind_eq_ok_iff.mp h
  obtain ⟨bootstrap, -, h⟩ := Except.bind_eq_ok_iff.mp h
  obtain ⟨u', -, h⟩ := Except.bind_eq_ok_iff.mp h
  obtain ⟨ssh, hssh, h⟩ := Except.bind_eq_ok_iff.mp h
  obtain ⟨forwarding, hforwarding, h⟩ := Except.bind_eq_ok_iff.mp h
  obtain rfl := Except.ok.inj h
  exact ⟨Except.mapError_eq_ok_iff.mp hcheck, rfl, Except.mapError_eq_ok_iff.mp hssh,
    Except.mapError_eq_ok_iff.mp hforwarding⟩

/-- The SSH service that is started. -/
theorem startSsh_eq_ok {o : ServeOptions} {ssh : Option EmbeddedSshOptions}
    (h : startSsh L W o c = .ok ssh) :
    (o.embeddedSshService = false ∧ ssh = none) ∨
    (o.embeddedSshService = true ∧ c.listen 22 = .ok () ∧ ∃ blobs,
      ssh = some { allowNone := o.noAuthSshService, authorizedKeyBlobs := blobs } ∧
      (o.sshService = true →
        (loadSshAuthorizedKeyBlobs L W o.sshAuthorizedKeySources).1 = .ok blobs) ∧
      (o.sshService = false → blobs = [])) := by
  unfold startSsh at h
  split at h
  · rename_i hservice
    obtain ⟨blobs, hblobs, h⟩ := Except.bind_eq_ok_iff.mp h
    obtain ⟨new, hnew, h⟩ := Except.bind_eq_ok_iff.mp h
    obtain rfl := Except.ok.inj h
    obtain ⟨u, hlistened, hnew⟩ := Except.bind_eq_ok_iff.mp hnew
    obtain ⟨key, -, hnew⟩ := Except.bind_eq_ok_iff.mp hnew
    split at hnew
    · cases hnew
    obtain rfl := Except.ok.inj hnew
    unfold authorizedKeys at hblobs
    refine .inr ⟨hservice, hlistened, blobs, rfl, fun hssh => ?_, fun hssh => ?_⟩
    · rwa [if_pos hssh] at hblobs
    · rw [if_neg (by simp [hssh])] at hblobs
      exact (Except.ok.inj hblobs).symm
  · rename_i hservice
    exact .inl ⟨Bool.not_eq_true _ ▸ hservice, (Except.ok.inj h).symm⟩

/-- The ports that are served. -/
theorem startForwarding_eq_ok {o : ServeOptions} {forwarding : Option (ServedTcpPorts Q)}
    (h : startForwarding sort Q o c = .ok forwarding) :
    (o.ports = [] ∧ forwarding = none) ∨ ∃ p, forwarding = some p ∧
      ServedTcpPorts.new sort c.listen (samePortMappings o.ports) = .ok p := by
  unfold startForwarding at h
  split at h
  · rename_i hports
    exact .inl ⟨hports, (Except.ok.inj h).symm⟩
  · obtain ⟨p, hp, h⟩ := Except.bind_eq_ok_iff.mp h
    exact .inr ⟨p, (Except.ok.inj h).symm, hp⟩

/-- The ports of the arguments are served at themselves. -/
theorem ports_of_new {ports : List UInt16} {p : ServedTcpPorts Q}
    (h : ServedTcpPorts.new sort c.listen (samePortMappings ports) = .ok p) :
    p.ports.Nodup ∧ (∀ port, port ∈ p.ports ↔ port ∈ ports) ∧
      ∀ port ∈ ports, port ≠ 0 ∧ c.listen port = .ok () := by
  obtain ⟨-, -, hall, hnodup⟩ := new_served.mp h
  have hperm : p.ports.Perm ports := by
    unfold ServedTcpPorts.ports
    rw [mappings_of_new h]
    refine ((sort.perm _).map _).trans (List.Perm.of_eq ?_)
    rw [samePortMappings, List.map_map]
    exact List.map_id _
  have hports : (samePortMappings ports).map ServedTcpMapping.tailcatPort = ports := by
    rw [samePortMappings, List.map_map]
    exact List.map_id _
  refine ⟨hperm.nodup_iff.mpr (hports ▸ hnodup), fun port => hperm.mem_iff, fun port hport => ?_⟩
  obtain ⟨hne, -, hlisten⟩ := hall ⟨port, port⟩ (List.mem_map.mpr ⟨port, hport, rfl⟩)
  exact ⟨hne, hlisten⟩

theorem mem_meaning_ports {port : UInt16} :
    port ∈ (ServeWord.meaning words).ports ↔ .port port ∈ words := by
  refine List.mem_filterMap.trans ⟨?_, fun h => ⟨_, h, rfl⟩⟩
  rintro ⟨word, hword, h⟩
  cases word with
  | port number =>
    obtain rfl := Option.some.inj h
    exact hword
  | _ => cases h

theorem embedded_meaning : (ServeWord.meaning words).embeddedSshService = true ↔
    .ssh ∈ words ∨ .noAuthSsh ∈ words := by
  simp [ServeOptions.embeddedSshService, ServeWord.meaning]

/-- The text of the example's public key. -/
def exampleAllow : List UInt8 := nodePublicText exampleKey.identity.publicKey

/-- `serve --allow=… --ssh-authorized-keys=… ssh 8080` -/
def exampleServe : ServeCall where
  args := [ascii "--allow", exampleAllow, ascii "--ssh-authorized-keys",
    Ssh.exampleLine " test@example", ascii "ssh", ascii "8080"]
  keyName := newKeyName
  fetched := exampleFetch
  connected := .ok ()
  listen _ := .ok ()
  hostKey := .ok []

/-- What these arguments say. -/
def exampleWords : List ServeWord :=
  [.allow [exampleKey.identity.publicKey], .sources (Ssh.exampleLine " test@example"), .ssh,
    .port 8080]

theorem parseAllowList_example :
    parseAllowList exampleAllow = .ok [exampleKey.identity.publicKey] := by
  decide +kernel

theorem spelledWords_example : SpelledWords exampleWords exampleServe.args :=
  .cons (.allow parseAllowList_example) (.cons (.sources _) (.cons .ssh
    (.cons (.port (by decide) (by rfl)) .nil)))

/-- A server that starts. -/
def exampleSetUp : Except ServeError (ServeServices ℕ) :=
  setUpServe exampleEnv exampleSodium exampleLibrary .none exampleRandom Ssh.exampleLibssh
    Ssh.noSources .stable ℕ exampleServe

theorem exists_exampleSetUp : ∃ s o p, exampleSetUp = .ok s ∧ s.ssh = some o ∧
    s.forwarding = some p ∧ (o.allowNone, o.authorizedKeyBlobs) = (false, [Ssh.exampleKey]) := by
  have hok : (exampleSetUp.map fun s =>
      (s.ssh.map fun o => (o.allowNone, o.authorizedKeyBlobs), s.forwarding.isSome)).toOption =
      some (some (false, [Ssh.exampleKey]), true) := by decide +kernel
  obtain ⟨s, hs, heq⟩ := Except.map_eq_ok_iff.mp (Ssh.toOption_eq_some.mp hok)
  obtain ⟨hssh, hforwarding⟩ := Prod.mk.inj heq
  obtain ⟨o, ho, hkeys⟩ := Option.map_eq_some_iff.mp hssh
  obtain ⟨p, hp⟩ := Option.isSome_iff_exists.mp hforwarding
  exact ⟨s, o, p, hs, ho, hp, hkeys⟩

/-- **What a server listens at**: when `serve` starts, its arguments consist of words, and it
listens at the ports that are among them, and at port 22 just if one of the SSH services is, which
are never both; no port is listened at twice, and none of them is zero. -/
theorem serve_listens (h : setUpServe env S J F R L W sort Q c = .ok s) :
    (∃ words, SpelledWords words c.args) ∧ ∀ words, SpelledWords words c.args →
      ¬ (.ssh ∈ words ∧ .noAuthSsh ∈ words) ∧
      (s.ssh.isSome ↔ .ssh ∈ words ∨ .noAuthSsh ∈ words) ∧
      (∀ port, port ∈ s.listened ↔
        .port port ∈ words ∨ (port = 22 ∧ (.ssh ∈ words ∨ .noAuthSsh ∈ words))) ∧
      s.listened ≠ [] ∧ s.listened.Nodup ∧
      ∀ port ∈ s.listened, port ≠ 0 ∧ c.listen port = .ok () := by
  constructor
  · obtain ⟨o, ho, -⟩ := Except.bind_eq_ok_iff.mp h
    obtain ⟨words, hwords, -⟩ := (parseServe_iff _ _).mp ho
    exact ⟨words, hwords⟩
  intro words hwords
  obtain ⟨hcheck, -, hssh, hforwarding⟩ := setUpServe_eq_ok h hwords
  obtain ⟨hservices, h22⟩ := check_eq_ok_iff.mp hcheck
  have hboth : ¬ (.ssh ∈ words ∧ .noAuthSsh ∈ words) := by
    rintro ⟨hssh, hnone⟩
    have hssh' : (ServeWord.meaning words).sshService = true := decide_eq_true hssh
    have hnone' : (ServeWord.meaning words).noAuthSshService = true := decide_eq_true hnone
    simp [hssh', hnone'] at hservices
  -- Port 22 is listened at for SSH only if it is none of the others.
  have hsome : (s.ssh.isSome ↔ .ssh ∈ words ∨ .noAuthSsh ∈ words) ∧
      (s.ssh.isSome → c.listen 22 = .ok ()) := by
    rcases startSsh_eq_ok hssh with ⟨hno, hs⟩ | ⟨hyes, hlisten, blobs, hs, -⟩
    · refine ⟨?_, by simp [hs]⟩
      rw [← embedded_meaning, hno, hs]
      rfl
    · refine ⟨?_, fun _ => hlisten⟩
      rw [← embedded_meaning, hyes, hs]
      rfl
  have hforward : ((s.forwarding.map ServedTcpPorts.ports).getD []).Nodup ∧
      (∀ port, port ∈ (s.forwarding.map ServedTcpPorts.ports).getD [] ↔ .port port ∈ words) ∧
      ∀ port, .port port ∈ words → port ≠ 0 ∧ c.listen port = .ok () := by
    rcases startForwarding_eq_ok hforwarding with ⟨hports, hs⟩ | ⟨p, hs, hnew⟩
    · have hno (port : UInt16) : ¬ .port port ∈ words := by
        rw [← mem_meaning_ports, hports]
        exact List.not_mem_nil
      rw [hs]
      exact ⟨List.nodup_nil, fun port => by simp [hno port], fun port hport =>
        absurd hport (hno port)⟩
    · obtain ⟨hnodup, hmem, hall⟩ := ports_of_new hnew
      rw [hs]
      exact ⟨hnodup, fun port => (hmem port).trans mem_meaning_ports,
        fun port hport => hall port (mem_meaning_ports.mpr hport)⟩
  obtain ⟨hsome, hlisten⟩ := hsome
  obtain ⟨hnodup, hmem, hall⟩ := hforward
  have hlistened : ∀ port, port ∈ s.listened ↔
      .port port ∈ words ∨ (port = 22 ∧ (.ssh ∈ words ∨ .noAuthSsh ∈ words)) := by
    intro port
    rw [← hsome, ← hmem port, ServeServices.listened, List.mem_append, or_comm]
    cases s.ssh <;> simp
  refine ⟨hboth, hsome, hlistened, fun hnil => ?_, ?_, fun port hport => ?_⟩
  · -- Something is served.
    rw [hnil] at hlistened
    simp only [List.not_mem_nil, false_iff, not_or, not_and] at hlistened
    obtain ⟨hssh', hnone'⟩ := (hlistened 22).2 rfl
    have hno : (ServeWord.meaning words).sshService = false ∧
        (ServeWord.meaning words).noAuthSshService = false :=
      ⟨decide_eq_false hssh', decide_eq_false hnone'⟩
    have hports : (ServeWord.meaning words).ports = [] :=
      List.eq_nil_iff_forall_not_mem.mpr fun port hport =>
        (hlistened port).1 (mem_meaning_ports.mp hport)
    simp [hno.1, hno.2, hports] at hservices
  · refine List.nodup_append.mpr ⟨?_, hnodup, ?_⟩
    · split
      · exact List.nodup_singleton _
      · exact List.nodup_nil
    · rintro a ha b hb rfl
      split at ha
      · rename_i hs
        obtain rfl := List.mem_singleton.mp ha
        have hoff := h22 (mem_meaning_ports.mpr ((hmem 22).mp hb))
        have hon := embedded_meaning.mpr (hsome.mp hs)
        rw [hon] at hoff
        cases hoff
      · cases ha
  · rcases (hlistened port).mp hport with hport | ⟨rfl, hs⟩
    · exact hall port hport
    · exact ⟨by decide, hlisten (hsome.mpr hs)⟩

theorem serve_listens_example : ∃ s, exampleSetUp = .ok s ∧
    ∀ port, port ∈ s.listened ↔ port = 8080 ∨ port = 22 := by
  obtain ⟨s, -, -, hs, -⟩ := exists_exampleSetUp
  refine ⟨s, hs, fun port => ?_⟩
  obtain ⟨-, -, hlistened, -⟩ := (serve_listens hs).2 _ spelledWords_example
  rw [hlistened]
  simp [exampleWords]

/-! ## What clients can do -/

open Ssh in
/-- **Who gets a process**: with the service `no-auth-ssh` every client, and with the service `ssh`
whoever has signed with a key of the sources; nothing is done for a client before. Each key of the
sources lets its owner in. No session starts more than one process. -/
theorem serve_sessions (h : setUpServe env S J F R L W sort Q c = .ok s)
    (hwords : SpelledWords words c.args) {o : EmbeddedSshOptions} (ho : s.ssh = some o)
    {es : List (SshEvent K)} {context : RequestContext} {os : List (SshOutput K)}
    (hr : (sessionMachine L o).Runs es context os) (hgated : Gated os) :
    Machine.Throughout (fun before out => out.calls ≠ [] →
      (.noAuthSsh ∈ words ∧ .answered .none true ∈ before) ∨
      (.ssh ∈ words ∧ ∃ sources key blob,
        (words.filterMap ServeWord.sourcesOf).getLast? = some sources ∧
        .answered (.publickey (some key) .valid) true ∈ before ∧
        L.exportPubkeyBase64 key = some blob ∧ Listed L W sources blob)) os ∧
    (∀ sources key blob, .ssh ∈ words →
      (words.filterMap ServeWord.sourcesOf).getLast? = some sources →
      L.exportPubkeyBase64 key = some blob → Listed L W sources blob →
        authCallback L o (.publickey (some key) .valid) = true) ∧
    (os.flatMap SshOutput.spawned).length ≤ 1 := by
  obtain ⟨hcheck, -, hssh, -⟩ := setUpServe_eq_ok h hwords
  obtain ⟨hservices, -⟩ := check_eq_ok_iff.mp hcheck
  rcases startSsh_eq_ok hssh with ⟨-, hs⟩ | ⟨-, -, blobs, hs, hkeys, hnokeys⟩
  · rw [ho] at hs
    cases hs
  obtain rfl := Option.some.inj (ho.symm.trans hs)
  have hlisted : .ssh ∈ words → ∃ sources,
      (words.filterMap ServeWord.sourcesOf).getLast? = some sources ∧
      ∀ blob, blob ∈ blobs ↔ Listed L W sources blob := by
    intro hword
    have hssh' : (ServeWord.meaning words).sshService = true := decide_eq_true hword
    have hloaded := (mem_blobs_iff (hkeys hssh')).2
    have hne : (ServeWord.meaning words).sshAuthorizedKeySources ≠ [] := by
      rcases hservices with ⟨-, -, hne⟩ | ⟨hno, -⟩
      · exact hne
      · rw [hssh'] at hno
        cases hno
    cases hlast : (words.filterMap ServeWord.sourcesOf).getLast? with
    | none => exact absurd (congrArg (Option.getD · []) hlast) hne
    | some sources =>
      refine ⟨sources, rfl, fun blob => ?_⟩
      rw [hloaded, ServeWord.meaning, hlast]
      rfl
  refine ⟨fun before out after hos hcalls => ?_, ?_, session_spawned hr⟩
  · rcases calls_admitted hr hgated before out after hos hcalls with
      ⟨hnone, hmem⟩ | ⟨key, blob, hmem, hexport, hblob⟩
    · exact .inl ⟨of_decide_eq_true hnone, hmem⟩
    · by_cases hword : .ssh ∈ words
      · obtain ⟨sources, hlast, hall⟩ := hlisted hword
        exact .inr ⟨hword, sources, key, blob, hlast, hmem, hexport, (hall blob).mp hblob⟩
      · rw [hnokeys (decide_eq_false hword)] at hblob
        cases hblob
  · intro sources key blob hword hlast hexport hlist
    obtain ⟨sources', hlast', hall⟩ := hlisted hword
    obtain rfl := Option.some.inj (hlast.symm.trans hlast')
    have hproves : (AuthRequest.publickey (some key) .valid).Proves := rfl
    exact (authCallback_eq_true_iff hproves).mpr
      (.inr ⟨key, blob, rfl, hexport, (hall blob).mpr hlist⟩)

open Ssh in
/-- A client asks whether its key would do, signs with it, and gets a shell. -/
theorem serve_sessions_example :
    let key : List UInt8 := Ssh.exampleKey
    ∃ s o context, exampleSetUp = .ok s ∧ s.ssh = some o ∧
      (sessionMachine exampleLibssh o).Runs
        [.authenticate (.publickey (some key) .none), .authenticate (.publickey (some key) .valid),
          .session (.openChannel true true), .session (.request .shell none)] context
        [.answered (.publickey (some key) .none) true,
          .answered (.publickey (some key) .valid) true, .session .channelOpened,
          .session (.handled .shell [.spawn [] []] true)] ∧
      Listed exampleLibssh noSources (exampleLine " test@example") key := by
  intro key
  obtain ⟨s, ⟨allowNone, blobs⟩, -, hs, ho, -, hkeys⟩ := exists_exampleSetUp
  obtain ⟨rfl, rfl⟩ := Prod.mk.inj hkeys
  obtain ⟨context, hr⟩ : ∃ context,
      (sessionMachine exampleLibssh ⟨false, [Ssh.exampleKey]⟩).Runs
        [.authenticate (.publickey (some key) .none), .authenticate (.publickey (some key) .valid),
          .session (.openChannel true true), .session (.request .shell none)] context
        [.answered (.publickey (some key) .none) true,
          .answered (.publickey (some key) .valid) true, .session .channelOpened,
          .session (.handled .shell [.spawn [] []] true)] := ⟨_, rfl⟩
  refine ⟨s, _, context, hs, ho, hr, ?_⟩
  have hgated := gated_of_accepted (r := AuthRequest.publickey (some key) .valid) rfl
    [.answered (.publickey (some key) .none) true] [.session .channelOpened,
      .session (.handled .shell [.spawn [] []] true)] (by decide)
  have hadmitted := (serve_sessions hs spelledWords_example ho hr hgated).1
    [.answered (.publickey (some key) .none) true, .answered (.publickey (some key) .valid) true,
      .session .channelOpened] _ [] rfl (by decide)
  rcases hadmitted with ⟨hword, -⟩ | ⟨-, sources, key', blob, hlast, hmem, hexport, hlist⟩
  · exact absurd hword (by decide)
  · obtain rfl := Option.some.inj hlast
    obtain rfl : key' = key := by simpa using hmem
    obtain rfl := Option.some.inj hexport
    exact hlist

/-- **What clients reach**: with an allow list, only nodes of the last one are sent anything, or get
packets into the IP stack, and a stream is connected to a port of the host only if it has arrived at
the same port, which is one of the arguments. -/
theorem serve_reaches (h : setUpServe env S J F R L W sort Q c = .ok s)
    (hwords : SpelledWords words c.args) :
    (∀ keys, (words.filterMap ServeWord.allowOf).getLast? = some keys →
      ∀ (H P : Type) (library : WireguardLwip H P) es t os,
        (serverMachine library s.config).Runs es t os →
        (∀ node packet, .send (.packet node packet) ∈ os → node ∈ keys) ∧
          ∀ node packet, .inputIp node packet ∈ os → node ∈ keys) ∧
    ∀ [DecidableEq Q] p, s.forwarding = some p → ∀ es t os, (servedPortsMachine p).Runs es t os →
      ∀ i stream port, .connected i stream port ∈ os →
        .port port ∈ words ∧ .arrived i stream port ∈ os := by
  obtain ⟨-, hallow, -, hforwarding⟩ := setUpServe_eq_ok h hwords
  constructor
  · intro keys hkeys H P library es t os hr
    have hconfig {node : Key32} (hnode : s.config.Allows node) : node ∈ keys := by
      refine of_decide_eq_true (hnode (fun peer => decide (peer ∈ keys)) ?_)
      rw [hallow, ServeWord.meaning, hkeys]
      rfl
    have hallowed := serverMachine_allowed hr
    exact ⟨fun node packet hmem => hconfig (hallowed _ hmem),
      fun node packet hmem => hconfig (hallowed _ hmem)⟩
  · intro _ p hp es t os hr i stream port hconnected
    rcases startForwarding_eq_ok hforwarding with ⟨-, hnone⟩ | ⟨p', hsome, hnew⟩
    · rw [hp] at hnone
      cases hnone
    obtain rfl := Option.some.inj (hp.symm.trans hsome)
    obtain ⟨m, hm, -, hhost, harrived⟩ := served_source hnew hr hconnected
    obtain ⟨number, hnumber, rfl⟩ := List.mem_map.mp hm
    obtain rfl : number = port := hhost
    exact ⟨mem_meaning_ports.mp hnumber, harrived⟩

theorem serve_reaches_example : ∃ s p, exampleSetUp = .ok s ∧ s.forwarding = some p ∧
    ∀ es t os, (servedPortsMachine p).Runs es t os → ∀ i stream port,
      .connected i stream port ∈ os → .port port ∈ exampleWords ∧ .arrived i stream port ∈ os := by
  obtain ⟨s, -, p, hs, -, hp, -⟩ := exists_exampleSetUp
  exact ⟨s, p, hs, hp, (serve_reaches hs spelledWords_example).2 p hp⟩

/-! ## Keys of clients -/

/-- `run_printpub`, which takes the key that a client takes. -/
def runPrintpub (env : ConfigEnv) (S : Sodium) (J : JsonLibrary) (F : Files) (R : RandomKeys)
    (keyName : List UInt8) : Except LoadError (List UInt8) :=
  (runtimeIdentity env S J F R keyName).map fun identity => nodePublicText identity.publicKey

/-- The client has a saved key. -/
def HasSavedKey (env : ConfigEnv) (F : Files) (keyName : List UInt8) : Prop :=
  keyName ≠ newKeyName ∧
    (keyName = [] → savedTailcatKeyExists env F (ascii "client-default") = .ok true)

/-- A saved key is the same whatever the random source gives. -/
theorem runtimeIdentity_saved {keyName : List UInt8} (hsaved : HasSavedKey env F keyName)
    (R' : RandomKeys) :
    runtimeIdentity env S J F R keyName = runtimeIdentity env S J F R' keyName := by
  unfold runtimeIdentity
  rw [if_neg hsaved.1, if_neg hsaved.1]
  split
  · rfl
  · rename_i hempty
    rw [hsaved.2 (not_not.mp hempty)]

/-- A key that is printed is read among others. -/
theorem mem_of_parseAllowList {items : List (List UInt8)} {keys : List Key32} {key : Key32}
    (hkeys : parseAllowList ([','.toUInt8].intercalate items) = .ok keys)
    (hitems : ∀ item ∈ items, ','.toUInt8 ∉ item) (hkey : nodePublicText key ∈ items) :
    key ∈ keys ∧ (items = [nodePublicText key] → keys = [key]) := by
  have hprinted := spellsKey_hexKey nodeKeyType key
  have hsplit : ([','.toUInt8].intercalate items).splitOn ','.toUInt8 = items :=
    List.splitOn_intercalate _ hitems (List.ne_nil_of_mem hkey)
  rcases parseAllowList_eq_ok_iff.mp hkeys with ⟨hnone, -⟩ | ⟨hne, hspells⟩
  · -- The word for no keys is one item, and no key.
    rw [hnone] at hsplit
    obtain rfl : items = [ascii "none"] := hsplit.symm.trans (by decide)
    have hword : nodePublicText key = ascii "none" := List.mem_singleton.mp hkey
    obtain ⟨digits, hdigits, -⟩ := hprinted
    have hstart : nodeKeyType <+: ascii "none" := ⟨digits, hdigits.symm.trans hword⟩
    exact absurd hstart (by decide)
  · have hall := (spellsKeys_iff hne).mp hspells
    rw [hsplit] at hall
    obtain ⟨i, hi, hitem⟩ := List.getElem_of_mem hkey
    have hread := hall.get hi (hall.length_eq ▸ hi)
    constructor
    · rw [List.get_eq_getElem, hitem] at hread
      rw [SpellsKey.unique hprinted hread]
      exact List.getElem_mem _
    · rintro rfl
      obtain ⟨key', rest, hfirst, hrest, rfl⟩ := List.forall₂_cons_left_iff.mp hall
      rw [SpellsKey.unique hprinted hfirst, List.forall₂_nil_left_iff.mp hrest]

/-- **The key that a client prints lets it in**: a server that is started with the line that a
client with a saved key has printed, among others with commas between them, admits the client in
every later call, and with this line alone it sends nothing to others and takes no packets from
them. -/
theorem printpub_admits {clientEnv : ConfigEnv} {clientFiles : Files} {keyName text : List UInt8}
    {R₁ R₂ : RandomKeys} {identity : NodeKeyPair} {items : List (List UInt8)} {keys : List Key32}
    (hsaved : HasSavedKey clientEnv clientFiles keyName)
    (hprint : runPrintpub clientEnv S J clientFiles R₁ keyName = .ok text)
    (hidentity : runtimeIdentity clientEnv S J clientFiles R₂ keyName = .ok identity)
    (hitems : ∀ item ∈ items, ','.toUInt8 ∉ item) (hmem : text ∈ items)
    (hallow : parseAllowList ([','.toUInt8].intercalate items) = .ok keys)
    (h : setUpServe env S J F R L W sort Q c = .ok s) (hwords : SpelledWords words c.args)
    (hlast : (words.filterMap ServeWord.allowOf).getLast? = some keys) :
    s.config.Allows identity.publicKey ∧
    (items = [text] → ∀ (H P : Type) (library : WireguardLwip H P) es t os,
      (serverMachine library s.config).Runs es t os →
        (∀ node packet, .send (.packet node packet) ∈ os → node = identity.publicKey) ∧
          ∀ node packet, .inputIp node packet ∈ os → node = identity.publicKey) := by
  rw [runPrintpub, runtimeIdentity_saved hsaved R₂, hidentity] at hprint
  obtain rfl := Except.ok.inj hprint
  obtain ⟨hkey, honly⟩ := mem_of_parseAllowList hallow hitems hmem
  obtain ⟨-, hconfig, -, -⟩ := setUpServe_eq_ok h hwords
  rw [ServeWord.meaning, hlast] at hconfig
  have hallows (node : Key32) : s.config.Allows node ↔ node ∈ keys := by
    rw [ServerConfig.Allows, hconfig]
    simp
  refine ⟨(hallows _).mpr hkey, fun hitem H P library es t os hr => ?_⟩
  have hone {node : Key32} (hnode : s.config.Allows node) : node = identity.publicKey := by
    have hnode := (hallows node).mp hnode
    rw [honly hitem] at hnode
    exact List.mem_singleton.mp hnode
  have hallowed := serverMachine_allowed hr
  exact ⟨fun _ _ hsent => hone (hallowed _ hsent), fun _ _ hinput => hone (hallowed _ hinput)⟩

/-- A client with a key of its own. -/
theorem printpub_admits_example : ∃ s identity, exampleSetUp = .ok s ∧
    runtimeIdentity exampleEnv exampleSodium exampleLibrary exampleFiles exampleRandom examplePath =
      .ok identity ∧ s.config.Allows identity.publicKey := by
  obtain ⟨s, -, -, hs, -⟩ := exists_exampleSetUp
  have hprint : runPrintpub exampleEnv exampleSodium exampleLibrary exampleFiles exampleRandom
      examplePath = .ok exampleAllow := Ssh.toOption_eq_some.mp (by decide +kernel)
  obtain ⟨identity, hidentity, -⟩ := Except.map_eq_ok_iff.mp hprint
  refine ⟨s, identity, hs, hidentity, ?_⟩
  exact (printpub_admits ⟨by decide, fun h => absurd h (by decide)⟩ hprint hidentity (by decide)
    (List.mem_singleton_self _) parseAllowList_example hs spelledWords_example rfl).1

end Starting

end Tailcat
