import Tailcat.Cli.Bootstrap
import Tailcat.Protocol.Republish
import Tailcat.Socks.Handshake

/-!
# Making keys

`genkey` lists keys, deletes one, or makes one and saves it: for a client, whose public key it
prints, or for a server, whose address it prints. `resolve` puts into an address the region that has
its id.

## Main definitions

* `GenkeyOptions`, `parseGenkey`: the arguments of `genkey`
* `resolveRegionArgument`: the region that an argument asks for
* `runGenkey`, `genkeyMachine`: the command, and one command after the other
* `runResolve`: the command `resolve`

## Main results

* `genkey_keeps`: over any sequence of commands, a file is left as it is unless a command names it
  and forces or deletes it
* `genkey_serves`: the address that is printed is that of a server with the saved key
* `resolve_embeds`: a resolved address says the same, and needs no map
-/

namespace Tailcat

open Ssh (newline)

/-- What `genkey` throws: an error of its own or of loading, or that of `std::stoll`. -/
inductive GenkeyError
  | load (e : LoadError)
  | outOfRange (what : String)

/-- An exception that `genkey` throws itself. -/
def GenkeyError.exn (e : Exn) : GenkeyError := .load (.exn e)

/-! ## Arguments -/

/-- The flags of `genkey` as they were parsed. -/
structure GenkeyOptions where
  keyName : List UInt8 := []
  regionArg : List UInt8 := []
  usePsk : Bool := true
  pskWasSet : Bool := false
  force : Bool := false
  client : Bool := false
  list : Bool := false
  remove : Bool := false
  fixedRegion : Bool := false
  embedDerpMap : Bool := false

/-- The arguments, read one after the other. -/
def parseGenkey : List (List UInt8) → GenkeyOptions → Except Exn GenkeyOptions
  | [], o => .ok o
  | arg :: args, o =>
    if arg = ascii "--key" then
      match args with
      | [] => .error (.invalidArgument "--key requires a path or name")
      | value :: args => parseGenkey args { o with keyName := value }
    else if ascii "--key=" <+: arg then
      parseGenkey args { o with keyName := arg.drop 6 }
    else if arg = ascii "--region" then
      match args with
      | [] => .error (.invalidArgument "--region requires a value")
      | value :: args => parseGenkey args { o with regionArg := value }
    else if ascii "--region=" <+: arg then
      parseGenkey args { o with regionArg := arg.drop 9 }
    else if arg = ascii "--psk=false" then
      parseGenkey args { o with usePsk := false, pskWasSet := true }
    else if arg = ascii "--psk=true" then
      parseGenkey args { o with usePsk := true, pskWasSet := true }
    else if arg = ascii "--client" then
      parseGenkey args { o with client := true }
    else if arg = ascii "--list" then
      parseGenkey args { o with list := true }
    else if arg = ascii "--delete" then
      parseGenkey args { o with remove := true }
    else if arg = ascii "--fixed-region" then
      parseGenkey args { o with fixedRegion := true }
    else if arg = ascii "--embed-derp-map" then
      parseGenkey args { o with embedDerpMap := true }
    else if arg = ascii "--force" then
      parseGenkey args { o with force := true }
    else
      .error (.invalidArgument ("unsupported genkey option: " ++ octetsText arg))

namespace GenkeyOptions

/-- `--list` goes with no other flag. -/
def checkList (o : GenkeyOptions) : Except Exn Unit :=
  if o.remove ∨ o.client ∨ o.keyName ≠ [] ∨ o.regionArg ≠ [] ∨ o.pskWasSet ∨ o.fixedRegion ∨
      o.embedDerpMap then
    .error (.invalidArgument "genkey --list cannot be combined with generation options")
  else
    .ok ()

/-- `--delete` needs the name of a key that can be saved, and goes with no flag of generation. -/
def checkRemove (o : GenkeyOptions) : Except Exn Unit :=
  if o.keyName = [] ∨ o.keyName = newKeyName then
    .error (.invalidArgument "genkey --delete requires --key=<name-or-path>")
  else if o.client ∨ o.regionArg ≠ [] ∨ o.pskWasSet ∨ o.fixedRegion ∨ o.embedDerpMap then
    .error (.invalidArgument "genkey --delete cannot be combined with generation options")
  else
    .ok ()

/-- Which flags go together when a key is made. -/
def checkNew (o : GenkeyOptions) : Except Exn Unit :=
  if o.keyName = [] ∨ o.keyName = newKeyName then
    .error (.invalidArgument "genkey requires --key=<name-or-path>")
  else if o.client ∧ o.keyName = ascii "default" then
    .error (.invalidArgument
      "genkey --client --key=default is ambiguous; use --key=client-default")
  else if o.client ∧ (o.regionArg ≠ [] ∨ o.fixedRegion ∨ o.embedDerpMap ∨ o.pskWasSet) then
    .error (.invalidArgument
      "client keys do not take --region, --fixed-region, --embed-derp-map, or --psk")
  else
    .ok ()

end GenkeyOptions

/-- The region of `--region`: the best one, one by its number, or one by its code. -/
def resolveRegionArgument (value : List UInt8) (map : DerpMap) : Except GenkeyError Int64 :=
  if value = [] ∨ value = ascii "auto" then
    ((selectDerpRegion map).map DerpRegion.regionId).mapError .exn
  else if value.all Ctype.isDigit then
    match stoll value with
    | none => .error (.outOfRange "stoll")
    | some id => ((regionById map id).map fun _ => id).mapError .exn
  else
    match map.regions.find? fun region => lowerAscii region.regionCode.toList = lowerAscii value ∨
        lowerAscii region.regionName.toList = lowerAscii value with
    | none => .error (.exn (.invalidArgument ("unknown DERP region: " ++ octetsText value)))
    | some region => .ok region.regionId

/-! ## The commands -/

/-- The arguments of a command, and what its calls return or do. -/
structure GenkeyCall where
  args : List (List UInt8)
  random : RandomKeys
  fetched : Except LoadError DerpMap
  umask : UInt16
  saveEvents : List SaveEvent
  removeError : Option String
  listed : Except Exn (List (List UInt8))

section Commands

variable (env : ConfigEnv) (S : Sodium) (J : JsonLibrary)

/-- The address of a key that has been saved. -/
def keyAddress (key : SavedTailcatKey) (map : DerpMap) (regionId : Int64) (embed : Bool) :
    Except Exn (List UInt8) := do
  let disco ← deriveDiscoKey S key.identity.privateKey
  let info := addressInfo key disco regionId
  if embed then
    let region ← regionById map regionId
    let regions ← Vec.empty.pushBack region
    encodeTailcatAddr { info with regions }
  else
    encodeTailcatAddr info

/-- The key that is to be saved, and what is printed when it has been. -/
def genkeyPlan (o : GenkeyOptions) (c : GenkeyCall) :
    Except GenkeyError (SavedTailcatKey × Except Exn (List UInt8)) :=
  if o.client then do
    let key ← (newSavedTailcatKey S c.random false 0).mapError .exn
    return (key, .ok (nodePublicText key.identity.publicKey))
  else do
    let map ← c.fetched.mapError .load
    let selected ← resolveRegionArgument o.regionArg map
    let isExplicit := o.regionArg ≠ [] ∧ o.regionArg ≠ ascii "auto"
    let persisted := if isExplicit ∨ o.fixedRegion ∨ o.embedDerpMap then selected else 0
    let key ← (newSavedTailcatKey S c.random o.usePsk persisted).mapError .exn
    return (key, keyAddress S key map selected o.embedDerpMap)

/-- A new key, unless there is one already. -/
def runNewKey (o : GenkeyOptions) (c : GenkeyCall) (F : Files) :
    Option (Files × Except GenkeyError (List (List UInt8))) :=
  match o.checkNew, resolveTailcatKeyPath env o.keyName with
  | .error e, _ => some (F, .error (.exn e))
  | .ok (), .error e => some (F, .error (.exn e))
  | .ok (), .ok path =>
    if F.present path ∧ ¬ o.force then
      some (F, .error (.exn (.runtimeError
        ("key file already exists; use --force to replace it: " ++ octetsText path))))
    else
      match genkeyPlan S o c with
      | .error e => some (F, .error e)
      | .ok (key, line) =>
        (saveTailcatKey env S J c.umask c.saveEvents F o.keyName key).map fun (F, saved) =>
          (F, (saved.bind fun _ => line.map fun line => [line]).mapError .exn)

/-- `run_genkey`, unless the answers of the system do not suffice: the files afterwards, and the
lines that are printed. -/
def runGenkey (c : GenkeyCall) (F : Files) :
    Option (Files × Except GenkeyError (List (List UInt8))) :=
  match parseGenkey c.args {} with
  | .error e => some (F, .error (.exn e))
  | .ok o =>
    if o.list then
      some (F, (o.checkList.bind fun _ => c.listed).mapError .exn)
    else if o.remove then
      match o.checkRemove with
      | .error e => some (F, .error (.exn e))
      | .ok () =>
        let (F, removed) := deleteSavedTailcatKey env c.removeError F o.keyName
        some (F, (removed.map fun _ => []).mapError .exn)
    else
      runNewKey env S J o c F

/-- One command after the other. -/
def genkeyMachine (F : Files) :
    Machine Files GenkeyCall (Except GenkeyError (List (List UInt8))) where
  init := F
  step F c := (runGenkey env S J c F).map fun (F, printed) => (F, [printed])

end Commands

/-- `run_resolve`. -/
def runResolve (args : List (List UInt8)) (fetched : Except LoadError DerpMap) :
    Except LoadError (List UInt8) :=
  match args with
  | [address] => do
    let info ← (parseTailcatAddr address).mapError .exn
    if info.regions = .empty then
      if info.regionId = 0 then
        .error (.exn (.runtimeError "tailcat address contains no DERP region"))
      else
        let map ← fetched
        let region ← (regionById map info.regionId).mapError .exn
        let regions ← (info.regions.pushBack region).mapError .exn
        (encodeTailcatAddr { info with regions }).mapError .exn
    else
      (encodeTailcatAddr info).mapError .exn
  | _ => .error (.exn (.invalidArgument "resolve requires one <tc-address>"))

/-! ## No key is lost -/

section Keeping

variable {env : ConfigEnv} {S : Sodium} {J : JsonLibrary} {c : GenkeyCall} {F F' : Files}
  {printed : Except GenkeyError (List (List UInt8))} {o : GenkeyOptions} {path : List UInt8}

/-- A command that may change or remove the file at a path that has one. -/
def Threatens (env : ConfigEnv) (path : List UInt8) (c : GenkeyCall) : Prop :=
  ∃ o, parseGenkey c.args {} = .ok o ∧ resolveTailcatKeyPath env o.keyName = .ok path ∧
    o.list = false ∧ (o.remove = true ∨ o.force = true)

/-- A flag that is set is among the arguments. -/
theorem flag_of_parse {args : List (List UInt8)} {o₀ o : GenkeyOptions}
    (h : parseGenkey args o₀ = .ok o) :
    (o.force = true → o₀.force = true ∨ ascii "--force" ∈ args) ∧
      (o.remove = true → o₀.remove = true ∨ ascii "--delete" ∈ args) := by
  -- An argument sets one flag at most, and what is read later is behind it.
  fun_induction parseGenkey args o₀ <;> grind

/-- Only a command with one of the two flags is a threat. -/
theorem Threatens.mem_args (h : Threatens env path c) :
    ascii "--force" ∈ c.args ∨ ascii "--delete" ∈ c.args := by
  obtain ⟨o, hparse, -, -, hremove | hforce⟩ := h
  · exact .inr (((flag_of_parse hparse).2 hremove).resolve_left nofun)
  · exact .inl (((flag_of_parse hparse).1 hforce).resolve_left nofun)

/-- The same thing is at a path. -/
def SameAt (path : List UInt8) (F F' : Files) : Prop :=
  F'.file path = F.file path ∧ F'.other path = F.other path

theorem SameAt.present (h : SameAt path F F') : F'.present path = F.present path := by
  unfold Files.present
  rw [h.1, h.2]

/-- A new key does not replace what there is, unless it is forced to. -/
theorem runNewKey_keeps (h : runNewKey env S J o c F = some (F', printed))
    (hsafe : resolveTailcatKeyPath env o.keyName = .ok path → o.force = false)
    (hpresent : F.present path = true) : SameAt path F F' := by
  unfold runNewKey at h
  split at h
  · obtain ⟨rfl, -⟩ := Prod.mk.inj (Option.some.inj h)
    exact ⟨rfl, rfl⟩
  · obtain ⟨rfl, -⟩ := Prod.mk.inj (Option.some.inj h)
    exact ⟨rfl, rfl⟩
  rename_i path' hcheck hpath
  split at h
  · obtain ⟨rfl, -⟩ := Prod.mk.inj (Option.some.inj h)
    exact ⟨rfl, rfl⟩
  rename_i hfree
  split at h
  · obtain ⟨rfl, -⟩ := Prod.mk.inj (Option.some.inj h)
    exact ⟨rfl, rfl⟩
  obtain ⟨⟨F₁, saved⟩, hsave, h⟩ := Option.map_eq_some_iff.mp h
  obtain ⟨rfl, -⟩ := Prod.mk.inj h
  apply saveTailcatKey_file hsave hpath
  -- The path of the new key was free, or the command would have had to be forced.
  rintro rfl
  exact hfree ⟨hpresent, by rw [hsafe hpath]; exact Bool.false_ne_true⟩

theorem runGenkey_keeps (h : runGenkey env S J c F = some (F', printed))
    (hsafe : ¬ Threatens env path c) (hpresent : F.present path = true) : SameAt path F F' := by
  unfold runGenkey at h
  split at h
  · obtain ⟨rfl, -⟩ := Prod.mk.inj (Option.some.inj h)
    exact ⟨rfl, rfl⟩
  rename_i o hparse
  split at h
  · obtain ⟨rfl, -⟩ := Prod.mk.inj (Option.some.inj h)
    exact ⟨rfl, rfl⟩
  rename_i hlist
  split at h
  · rename_i hremove
    split at h
    · obtain ⟨rfl, -⟩ := Prod.mk.inj (Option.some.inj h)
      exact ⟨rfl, rfl⟩
    generalize hdeleted : deleteSavedTailcatKey env c.removeError F o.keyName = deleted at h
    obtain ⟨F₁, removed⟩ := deleted
    obtain ⟨rfl, -⟩ := Prod.mk.inj (Option.some.inj h)
    rcases deleteSavedTailcatKey_file hdeleted with ⟨rfl, -⟩ | ⟨path', hpath', he, -⟩
    · exact ⟨rfl, rfl⟩
    · have hne : path ≠ path' := by
        rintro rfl
        exact hsafe ⟨o, hparse, hpath', Bool.not_eq_true _ ▸ hlist, .inl hremove⟩
      rw [he]
      exact ⟨if_neg hne, if_neg hne⟩
  · refine runNewKey_keeps h (fun hpath => ?_) hpresent
    by_contra hforce
    exact hsafe ⟨o, hparse, hpath, Bool.not_eq_true _ ▸ hlist, .inr (Bool.not_eq_false _ ▸ hforce)⟩

/-- **No key is lost**: over any sequence of `genkey` commands, whatever the system answers, what is
at a path stays as it is unless one of them names the path and deletes or forces it; and such a
command has one of the two flags among its arguments. -/
theorem genkey_keeps {calls : List GenkeyCall}
    {os : List (Except GenkeyError (List (List UInt8)))}
    (h : (genkeyMachine env S J F).Runs calls F' os) (hpresent : F.present path = true) :
    ((∀ c ∈ calls, ¬ Threatens env path c) → SameAt path F F') ∧
      ∀ c ∈ calls, Threatens env path c → ascii "--force" ∈ c.args ∨ ascii "--delete" ∈ c.args := by
  refine ⟨fun hsafe => ?_, fun c _ hthreat => hthreat.mem_args⟩
  refine h.trace_invariant (I := fun calls F' _ =>
    (∀ c ∈ calls, ¬ Threatens env path c) → SameAt path F F') (fun _ => ⟨rfl, rfl⟩) ?_ hsafe
  intro calls F₁ os c F₂ os' _ hI hs hsafe
  obtain ⟨⟨F₃, printed⟩, hrun, he⟩ := Option.map_eq_some_iff.mp hs
  obtain ⟨rfl, -⟩ := Prod.mk.inj he
  have hsame := hI fun c hc => hsafe c (List.mem_append_left _ hc)
  have hnext := runGenkey_keeps hrun (hsafe c (by simp)) (hsame.present.trans hpresent)
  exact ⟨hnext.1.trans hsame.1, hnext.2.trans hsame.2⟩

/-- The files after a command that prints one line, and the line. -/
def printedLine : Option (Files × Except GenkeyError (List (List UInt8))) →
    Option (Files × List UInt8)
  | some (F, .ok [line]) => some (F, line)
  | _ => none

theorem printedLine_eq_some {r : Option (Files × Except GenkeyError (List (List UInt8)))}
    {printed : Files × List UInt8} (h : printedLine r = some printed) :
    r = some (printed.1, .ok [printed.2]) := by
  unfold printedLine at h
  split at h
  · cases h
    rfl
  · cases h

/-- A command that makes a key for region 7. -/
def exampleCall : GenkeyCall where
  args := [ascii "--key=/key", ascii "--psk=false", ascii "--region=7"]
  random := exampleRandom
  fetched := exampleFetch
  umask := 0o022
  saveEvents := [.createDirectories none, .openFile true, .write 327, .close true, .chmod true]
  removeError := none
  listed := .ok []

/-- `genkey --key=/key --psk=false --region=7` -/
def exampleOptions : GenkeyOptions where
  keyName := ascii "/key"
  usePsk := false
  pskWasSet := true
  regionArg := ascii "7"

/-- A file system in which this key was saved. -/
def exampleFiles : Files :=
  .put .none examplePath (some ⟨exampleText, privateMode⟩) rfl

/-- The command fails when there is a key already. -/
theorem genkey_keeps_example : ∃ F' os,
    (genkeyMachine exampleEnv exampleSodium exampleLibrary exampleFiles).Runs [exampleCall] F' os ∧
      SameAt examplePath exampleFiles F' := by
  obtain ⟨F', os, h⟩ : ∃ F' os, (genkeyMachine exampleEnv exampleSodium exampleLibrary
      exampleFiles).Runs [exampleCall] F' os := ⟨_, _, rfl⟩
  have hpresent : exampleFiles.present examplePath = true := rfl
  refine ⟨F', os, h, (genkey_keeps h hpresent).1 ?_⟩
  intro c hc hthreat
  obtain rfl := List.mem_singleton.mp hc
  rcases hthreat.mem_args with hforce | hdelete
  · exact absurd hforce (by decide)
  · exact absurd hdelete (by decide)

end Keeping

/-! ## The address of a saved key -/

section Serving

variable {env : ConfigEnv} {S : Sodium} {J : JsonLibrary} {c : GenkeyCall} {F F' : Files}
  {o : GenkeyOptions} {address : List UInt8} {map : DerpMap} {selected : Int64}

/-- A region that is asked for is in the map. -/
theorem resolveRegionArgument_eq_ok {value : List UInt8}
    (h : resolveRegionArgument value map = .ok selected) :
    ∃ region, regionById map selected = .ok region ∧
      (value = [] ∨ value = ascii "auto" → selectDerpRegion map = .ok region) := by
  unfold resolveRegionArgument at h
  split at h
  · obtain ⟨region, hregion, rfl⟩ :=
      Except.map_eq_ok_iff.mp (Except.mapError_eq_ok_iff.mp h)
    exact ⟨region, regionById_select hregion, fun _ => hregion⟩
  rename_i hauto
  split at h
  · split at h
    · cases h
    · obtain ⟨region, hregion, rfl⟩ :=
        Except.map_eq_ok_iff.mp (Except.mapError_eq_ok_iff.mp h)
      exact ⟨region, hregion, fun hv => absurd hv hauto⟩
  · split at h
    · cases h
    · rename_i region hfound
      obtain rfl := Except.ok.inj h
      obtain ⟨found, hfound⟩ := exists_regionById (List.mem_of_find?_eq_some hfound)
      exact ⟨found, hfound, fun hv => absurd hv hauto⟩

theorem newSavedTailcatKey_eq_ok {usePsk : Bool} {regionId : Int64} {key : SavedTailcatKey}
    (h : newSavedTailcatKey S c.random usePsk regionId = .ok key) :
    key.regionId = regionId ∧
      nodePublicFromPrivate S key.identity.privateKey = .ok key.identity.publicKey := by
  obtain ⟨identity, hidentity, h⟩ := Except.bind_eq_ok_iff.mp h
  obtain ⟨publicKey, hpublic, hpair⟩ := Except.bind_eq_ok_iff.mp hidentity
  obtain rfl := Except.ok.inj hpair
  obtain rfl := Except.ok.inj h
  exact ⟨rfl, hpublic⟩

/-- A command that makes a key and prints a line has saved the key that was planned. -/
theorem runGenkey_new {line : List UInt8} (hparse : parseGenkey c.args {} = .ok o)
    (hlist : o.list = false) (hremove : o.remove = false)
    (h : runGenkey env S J c F = some (F', .ok [line])) :
    ∃ key printed, genkeyPlan S o c = .ok (key, printed) ∧
      (o.keyName ≠ [] ∧ o.keyName ≠ newKeyName) ∧
      saveTailcatKey env S J c.umask c.saveEvents F o.keyName key = some (F', .ok ()) ∧
      printed = .ok line := by
  unfold runGenkey at h
  rw [hparse] at h
  dsimp only at h
  rw [hlist, if_neg Bool.false_ne_true, hremove, if_neg Bool.false_ne_true] at h
  unfold runNewKey at h
  split at h
  · cases h
  · cases h
  rename_i path hcheck hpath
  have hname : o.keyName ≠ [] ∧ o.keyName ≠ newKeyName := by
    unfold GenkeyOptions.checkNew at hcheck
    split at hcheck
    · cases hcheck
    · rename_i hname
      exact not_or.mp hname
  split at h
  · cases h
  split at h
  · cases h
  rename_i key printed hplan
  obtain ⟨⟨F₁, saved⟩, hsave, h⟩ := Option.map_eq_some_iff.mp h
  obtain ⟨rfl, hprinted⟩ := Prod.mk.inj h
  obtain ⟨⟨⟩, rfl, hlines⟩ := Except.bind_eq_ok_iff.mp (Except.mapError_eq_ok_iff.mp hprinted)
  obtain ⟨text, hline, hsingle⟩ := Except.map_eq_ok_iff.mp hlines
  obtain rfl := List.singleton_inj.mp hsingle
  exact ⟨key, printed, hplan, hname, hsave, hline⟩

/-- Which key is planned for a server, and what is printed of it. -/
theorem genkeyPlan_server {key : SavedTailcatKey} {line : Except Exn (List UInt8)}
    (hclient : o.client = false) (h : genkeyPlan S o c = .ok (key, line)) :
    ∃ map selected region, c.fetched = .ok map ∧ regionById map selected = .ok region ∧
      newSavedTailcatKey S c.random o.usePsk key.regionId = .ok key ∧
      line = keyAddress S key map selected o.embedDerpMap ∧
      (key.regionId = selected ∨ key.regionId = 0 ∧ selectDerpRegion map = .ok region) := by
  unfold genkeyPlan at h
  rw [hclient, if_neg Bool.false_ne_true] at h
  obtain ⟨map, hmap, h⟩ := Except.bind_eq_ok_iff.mp h
  obtain ⟨selected, hselected, h⟩ := Except.bind_eq_ok_iff.mp h
  obtain ⟨key', hkey, h⟩ := Except.bind_eq_ok_iff.mp h
  obtain ⟨rfl, rfl⟩ := Prod.mk.inj (Except.ok.inj h)
  have hnew := Except.mapError_eq_ok_iff.mp hkey
  obtain ⟨region, hregion, hauto⟩ := resolveRegionArgument_eq_ok hselected
  have hid := (newSavedTailcatKey_eq_ok hnew).1
  refine ⟨map, selected, region, Except.mapError_eq_ok_iff.mp hmap, hregion, hid ▸ hnew, rfl, ?_⟩
  rw [hid]
  split
  · exact .inl rfl
  · rename_i hfree
    refine .inr ⟨rfl, hauto ?_⟩
    by_contra hasked
    exact hfree (.inl (not_or.mp hasked))

/-- The key that a server finds under the name that it was saved under. -/
theorem serverKey_of_load {R : RandomKeys} {key : SavedTailcatKey} {name : List UInt8}
    (hne : name ≠ []) (hnew : name ≠ newKeyName)
    (hload : loadSavedTailcatKey env S J F.contents name = .ok key) :
    serverKey env S J F R none name = .ok (key, name) := by
  unfold serverKey serverKeyName
  rw [if_neg hne]
  refine Except.bind_eq_ok_iff.mpr ⟨name, rfl, ?_⟩
  rw [if_pos ⟨hne, hnew⟩]
  refine Except.bind_eq_ok_iff.mpr ⟨key, hload, ?_⟩
  rw [if_neg nofun]
  rfl

/-- What the address of a key says, once it is read: with the region in it, or with its id. -/
theorem parse_keyAddress {key : SavedTailcatKey} {embed : Bool} {region : DerpRegion}
    (h : keyAddress S key map selected embed = .ok address)
    (hregion : regionById map selected = .ok region) (hid : selected ≠ 0) :
    ∃ disco info, deriveDiscoKey S key.identity.privateKey = .ok disco ∧
      parseTailcatAddr address = .ok info ∧ info.serverPublic = key.identity.publicKey ∧
      info.serverDiscoPublic = some disco.publicKey ∧ info.presharedKey = key.presharedKey ∧
      (∃ address', encodeTailcatAddr (addressInfo key disco selected) = .ok address') ∧
      (info.regions = .empty ∧ info.regionId = selected ∨
        info.regions.toList = [region.adoptNodes]) := by
  obtain ⟨disco, hdisco, h⟩ := Except.bind_eq_ok_iff.mp h
  cases embed with
  | false =>
    have hparse := parse_of_encode h (by simp [addressInfo]) (.inl hid)
    rw [settle_of_regions_eq rfl] at hparse
    exact ⟨disco, _, hdisco, hparse, rfl, rfl, rfl, ⟨_, h⟩, .inl ⟨rfl, rfl⟩⟩
  | true =>
    obtain ⟨found, hfound, h⟩ := Except.bind_eq_ok_iff.mp h
    obtain rfl := Except.ok.inj (hregion.symm.trans hfound)
    obtain ⟨regions, hpush, h⟩ := Except.bind_eq_ok_iff.mp h
    have hregions : regions.toList = [region] := Vec.pushBack_eq_ok.mp hpush
    have hparse := parse_of_encode h (by simp [hregions]) (.inl hid)
    obtain ⟨id, hsettle, -⟩ := inheritRegionId_eq
      { addressInfo key disco selected with regions := regions.map DerpRegion.adoptNodes }
    refine ⟨disco, _, hdisco, hparse, ?_, ?_, ?_, encode_of_keys_eq h rfl rfl, .inr ?_⟩
    · rw [ConnInfo.settle, hsettle]
      rfl
    · rw [ConnInfo.settle, hsettle]
      rfl
    · rw [ConnInfo.settle, hsettle]
      rfl
    · rw [regions_settle, Vec.toList_map, hregions]
      rfl

variable {sort : RegionSort} {parse : List UInt8 → Except String JsonTree} {fetch : Fetch}

/-- **The printed address is the server's**: when `genkey` has made a key for a server and printed
an address, a server that is started with the key later on finds it in the files; the address has
the keys of that server, and, as long as the map is the same, a client that has the address comes
to the relay where the server listens. -/
theorem genkey_serves (hparse : parseGenkey c.args {} = .ok o)
    (hserver : o.client = false ∧ o.list = false ∧ o.remove = false)
    (hfetched : c.fetched = fetchDerpMap sort parse fetch)
    (hjson : ∀ key line disco, genkeyPlan S o c = .ok (key, line) →
      deriveDiscoKey S key.identity.privateKey = .ok disco →
      J.parse (J.dump (keyDocument key disco) ++ [newline]) = .ok (keyDocument key disco))
    (h : runGenkey env S J c F = some (F', .ok [address])) (R : RandomKeys) :
    ∃ out info region node,
      makeServerBootstrap env S J F' R (fetchDerpMap sort parse fetch) none o.keyName = .ok out ∧
      parseTailcatAddr address = .ok info ∧ info.serverPublic = out.identity.publicKey ∧
      info.serverDiscoPublic = some out.disco.publicKey ∧ info.presharedKey = out.psk ∧
      resolveRegion info (fetchDerpMap sort parse fetch) = .ok region ∧
      region.regionId = out.region.regionId ∧ primaryDerpNode region = .ok node ∧
      { node with regionId := out.node.regionId } = out.node := by
  obtain ⟨hclient, hlist, hremove⟩ := hserver
  obtain ⟨key, line, hplan, hname, hsave, hline⟩ := runGenkey_new hparse hlist hremove h
  obtain ⟨map, selected, region, hmap, hregion, hkey, rfl, hchosen⟩ :=
    genkeyPlan_server hclient hplan
  have hmap' : fetchDerpMap sort parse fetch = .ok map := hfetched ▸ hmap
  have husable := usable_of_fetch hmap'
  obtain ⟨hmem, rfl⟩ := regionById_eq_ok hregion
  have hid : region.regionId ≠ 0 := (husable.usable region hmem).1
  obtain ⟨disco, info, hdisco, hinfo, hpublic, hdiscoPublic, hpsk, ⟨address', haddress'⟩,
    hregions⟩ := parse_keyAddress hline hregion hid
  -- The server finds the key, and chooses the region that the address was printed for.
  have hload := load_of_saveTailcatKey (newSavedTailcatKey_eq_ok hkey).2
    (fun disco hdisco => hjson key _ disco hplan hdisco) hsave
  have hchoice : serverRegion map key.regionId = .ok region := by
    unfold serverRegion
    rcases hchosen with he | ⟨he, hselect⟩
    · rw [he, if_pos hid]
      exact hregion
    · rw [he, if_neg (not_not.mpr rfl)]
      exact hselect
  obtain ⟨node, hnode, -⟩ := husable.choices.2 region hmem
  have hstart := makeServerBootstrap_ok (R := R)
    (serverKey_of_load hname.1 hname.2 hload) hdisco hmap' hchoice hnode haddress'
  rcases hregions with ⟨hnone, hregionId⟩ | hone
  · refine ⟨_, info, region, node, hstart, hinfo, hpublic, hdiscoPublic, hpsk, ?_, rfl, hnode, rfl⟩
    rw [hmap']
    exact resolveRegion_of_map hnone (hregionId ▸ hid) (hregionId ▸ hregion)
  · exact ⟨_, info, region.adoptNodes, region.adopt node, hstart, hinfo, hpublic, hdiscoPublic,
      hpsk, resolveRegion_of_embedded _ hone, rfl, primaryDerpNode_adoptNodes hnode,
      adopt_regionId region node⟩

theorem genkey_serves_example : ∃ F' address out info,
    runGenkey exampleEnv exampleSodium exampleLibrary exampleCall .none =
        some (F', .ok [address]) ∧
      makeServerBootstrap exampleEnv exampleSodium exampleLibrary F' exampleRandom exampleFetch none
        (ascii "/key") = .ok out ∧
      parseTailcatAddr address = .ok info ∧ info.serverPublic = out.identity.publicKey := by
  have hprints : (printedLine (runGenkey exampleEnv exampleSodium exampleLibrary exampleCall
      .none)).isSome := by decide +kernel
  obtain ⟨⟨F', address⟩, hprinted⟩ := Option.isSome_iff_exists.mp hprints
  have h := printedLine_eq_some hprinted
  have hargs : parseGenkey exampleCall.args {} = .ok exampleOptions := by rfl
  have hjson : ∀ key line disco,
      genkeyPlan exampleSodium exampleOptions exampleCall = .ok (key, line) →
      deriveDiscoKey exampleSodium key.identity.privateKey = .ok disco →
      exampleLibrary.parse (exampleLibrary.dump (keyDocument key disco) ++ [newline]) =
        .ok (keyDocument key disco) := by
    intro key line disco hplan hdisco
    obtain ⟨printed, hplan'⟩ : ∃ printed, genkeyPlan exampleSodium exampleOptions exampleCall =
        .ok (exampleKey, printed) := ⟨_, rfl⟩
    obtain ⟨rfl, -⟩ := Prod.mk.inj (Except.ok.inj (hplan'.symm.trans hplan))
    exact (delimits_example disco hdisco).whole _
  obtain ⟨out, info, -, -, hstart, hparse, hpublic, -⟩ :=
    genkey_serves hargs ⟨rfl, rfl, rfl⟩ rfl hjson h exampleRandom
  exact ⟨F', address, out, info, h, hstart, hparse, hpublic⟩

end Serving

/-! ## Resolved addresses -/

section Resolving

variable {sort : RegionSort} {parse : List UInt8 → Except String JsonTree} {fetch : Fetch}
  {info : ConnInfo} {addr line : List UInt8} {fetched : Except LoadError DerpMap}

/-- An address that was encoded with one region is read with it, and encoded again with the same
meaning. -/
theorem resolve_encoded (h : encodeTailcatAddr info = .ok line) {region : DerpRegion}
    (hregions : info.regions.toList = [region]) :
    ∃ info', parseTailcatAddr line = .ok info' ∧ info'.serverPublic = info.serverPublic ∧
      info'.serverDiscoPublic = info.serverDiscoPublic ∧
      info'.presharedKey = info.presharedKey ∧
      info'.regions.toList = [region.adoptNodes] ∧
      ∀ fetched, ∃ line', runResolve [line] fetched = .ok line' ∧
        parseTailcatAddr line' = .ok info' := by
  have hne : info.regions ≠ .empty := by
    intro he
    rw [he] at hregions
    cases hregions
  have hparse := parse_of_encode h (by simp [hregions]) (.inr hne)
  have hlist : info.settle.regions.toList = [region.adoptNodes] := by
    rw [regions_settle, Vec.toList_map, hregions]
    rfl
  have hne' : info.settle.regions ≠ .empty := by
    intro he
    rw [he] at hlist
    cases hlist
  obtain ⟨id, hsettle, -⟩ :=
    inheritRegionId_eq { info with regions := info.regions.map DerpRegion.adoptNodes }
  have hkeys : info.settle.serverPublic = info.serverPublic ∧
      info.settle.serverDiscoPublic = info.serverDiscoPublic ∧
      info.settle.presharedKey = info.presharedKey := by
    rw [ConnInfo.settle, hsettle]
    exact ⟨rfl, rfl, rfl⟩
  refine ⟨info.settle, hparse, hkeys.1, hkeys.2.1, hkeys.2.2, hlist, fun fetched => ?_⟩
  obtain ⟨line', hline'⟩ := encode_of_keys_eq h hkeys.1 hkeys.2.1
  refine ⟨line', ?_, ?_⟩
  · refine Except.bind_eq_ok_iff.mpr ⟨_, Except.mapError_eq_ok_iff.mpr hparse, ?_⟩
    rw [if_neg hne']
    exact Except.mapError_eq_ok_iff.mpr hline'
  · rw [parse_of_encode hline' (by simp [hlist]) (.inr hne'), settle_eq_self (accepted hparse).2.1]

/-- **A resolved address says the same and needs no map**: of an address whose `r` entries announce
one region at most, `resolve` keeps the keys, and puts into it the region that a client would have
looked up. A client that has the resolved address comes to this region whatever map there is, if
any; and resolving once more changes nothing of what the address says. -/
theorem resolve_embeds (hannounced : announcedRegions addr ≤ 1)
    (h : runResolve [addr] (fetchDerpMap sort parse fetch) = .ok line) :
    ∃ info info' region, parseTailcatAddr addr = .ok info ∧ parseTailcatAddr line = .ok info' ∧
      info'.serverPublic = info.serverPublic ∧
      info'.serverDiscoPublic = info.serverDiscoPublic ∧
      info'.presharedKey = info.presharedKey ∧
      resolveRegion info (fetchDerpMap sort parse fetch) = .ok region ∧
      (∀ fetched, resolveRegion info' fetched = .ok region.adoptNodes) ∧
      ∀ fetched, ∃ line', runResolve [line] fetched = .ok line' ∧
        parseTailcatAddr line' = .ok info' := by
  obtain ⟨info, hparse, h⟩ := Except.bind_eq_ok_iff.mp h
  have hparse := Except.mapError_eq_ok_iff.mp hparse
  obtain ⟨hlength, hsettled, -, -, -⟩ := accepted hparse
  split at h
  · -- The region is looked up in the map.
    rename_i hnone
    split at h
    · cases h
    rename_i hid
    obtain ⟨map, hmap, h⟩ := Except.bind_eq_ok_iff.mp h
    obtain ⟨region, hregion, h⟩ := Except.bind_eq_ok_iff.mp h
    obtain ⟨regions, hpush, h⟩ := Except.bind_eq_ok_iff.mp h
    have hregions : regions.toList = [region] := by
      rw [Vec.pushBack_eq_ok.mp (Except.mapError_eq_ok_iff.mp hpush), hnone]
      rfl
    obtain ⟨info', hinfo', hpublic, hdisco, hpsk, hlist, hagain⟩ :=
      resolve_encoded (Except.mapError_eq_ok_iff.mp h) hregions
    refine ⟨info, info', region, hparse, hinfo', hpublic, hdisco, hpsk, ?_, fun fetched => ?_,
      hagain⟩
    · rw [hmap]
      exact resolveRegion_of_map hnone hid (Except.mapError_eq_ok_iff.mp hregion)
    · exact resolveRegion_of_embedded fetched hlist
  · -- The region is there already, and its relays have its id.
    rename_i hsome
    obtain ⟨region, hregions⟩ : ∃ region, info.regions.toList = [region] := by
      apply List.length_eq_one_iff.mp
      have hpos : info.regions.toList.length ≠ 0 :=
        fun h => hsome (Vec.eq_empty_iff.mpr (List.length_eq_zero_iff.mp h))
      omega
    obtain ⟨info', hinfo', hpublic, hdisco, hpsk, hlist, hagain⟩ :=
      resolve_encoded (Except.mapError_eq_ok_iff.mp h) hregions
    exact ⟨info, info', region, hparse, hinfo', hpublic, hdisco, hpsk,
      resolveRegion_of_embedded _ hregions, fun fetched => resolveRegion_of_embedded fetched hlist,
      hagain⟩

/-- An address that names its region by the number. -/
def exampleShortAddress : List UInt8 :=
  ['t'.toUInt8, 'c'.toUInt8] ++ base64urlEncode
    (writeInfo { serverPublic := exampleKey.identity.publicKey, regionId := 7 })

theorem resolve_embeds_example : ∃ line info region,
    runResolve [exampleShortAddress] exampleFetch = .ok line ∧ parseTailcatAddr line = .ok info ∧
      resolveRegion info (.error (.exn (.runtimeError "offline"))) = .ok region := by
  have hok : (runResolve [exampleShortAddress] exampleFetch).isOk = true := by decide +kernel
  obtain ⟨line, h⟩ := Except.exists_of_isOk hok
  obtain ⟨-, info, region, -, hparse, -, -, -, -, hregion, -⟩ :=
    resolve_embeds (by decide +kernel) h
  exact ⟨line, info, _, h, hparse, hregion _⟩

end Resolving

end Tailcat
