import Tailcat.Base.Json
import Tailcat.Base.Shell
import Tailcat.Keys.KeyText
import Tailcat.Ssh.KeySources
import Tailcat.Wireguard.Engine

/-!
# Saved keys

A saved key is a file with a JSON object: the private key of a node, and in a member of its own what
is public. The public keys can be derived from the private one, and those that are in the file are
checked against it.

## Main definitions

* `resolveTailcatKeyPath`: the path of a key that has a name
* `loadSavedTailcatKey`: reading the file
* `keyDocument`, `saveText`: what is written to it
* `Stores`: a JSON value stores a key

## Main results

* `readSavedKey_eq_ok_iff`: a key is read from the values that store it, and from no others
* `stores_keyDocument`, `eq_of_stores_keyDocument`: what is written stores the key, and no other
-/

namespace Tailcat

open Ssh (slash joinPath newline)
open Shell (backslash)

/-- What is saved under the name of a key. -/
structure SavedTailcatKey where
  identity : NodeKeyPair
  presharedKey : Option Key32
  regionId : Int64

/-! ## Paths -/

/-- The environment of the process, as far as it says where the configuration is. -/
structure ConfigEnv where
  xdgConfigHome : Option (List UInt8)
  home : Option (List UInt8)

/-- Where the configuration of programs is, by the environment. -/
def userConfigRoot (env : ConfigEnv) : Except Exn (List UInt8) :=
  let xdg := env.xdgConfigHome.getD []
  let home := env.home.getD []
  if xdg ≠ [] then .ok xdg
  else if home ≠ [] then .ok (joinPath home (ascii ".config"))
  else .error (.runtimeError "cannot determine the user configuration directory")

/-- The directory of the saved keys. -/
def tailcatKeysDir (env : ConfigEnv) : Except Exn (List UInt8) := do
  let root ← userConfigRoot env
  return joinPath (joinPath root (ascii "tailcat")) (ascii "keys")

/-- Whether the name of a key is a path. -/
def explicitPath (value : List UInt8) : Bool := slash ∈ value ∨ backslash ∈ value

/-- The path of the file with the key of a name. -/
def resolveTailcatKeyPath (env : ConfigEnv) (nameOrPath : List UInt8) : Except Exn (List UInt8) :=
  if nameOrPath = [] then
    .error (.invalidArgument "Tailcat key name is empty")
  else if explicitPath nameOrPath then
    .ok nameOrPath
  else if nameOrPath = ascii "." ∨ nameOrPath = ascii ".." then
    .error (.invalidArgument "invalid Tailcat key name")
  else do
    let dir ← tailcatKeysDir env
    return joinPath dir (nameOrPath ++ ascii ".private.json")

/-! ## Derived keys -/

/-- The functions of libsodium: the product with the base point of the curve, and a MAC. -/
structure Sodium where
  scalarmultBase : Key32 → Option Key32
  authHmacSha256 : List UInt8 → Key32 → Option Key32

section Derive

variable (S : Sodium)

/-- The public key of a private one. -/
def nodePublicFromPrivate (privateKey : Key32) : Except Exn Key32 :=
  match S.scalarmultBase privateKey with
  | none => .error (.runtimeError "failed to derive X25519 public key")
  | some out => .ok out

/-- What is authenticated to derive a disco key. -/
def discoLabel : List UInt8 := ascii "github.com/tailscale/tailcat disco key v1"

/-- The disco key that belongs to a node key. -/
def deriveDiscoKey (nodePrivateKey : Key32) : Except Exn NodeKeyPair :=
  match S.authHmacSha256 discoLabel nodePrivateKey with
  | none => .error (.runtimeError "failed to derive Tailcat disco key")
  | some privateKey => do
    let publicKey ← nodePublicFromPrivate S privateKey
    return ⟨privateKey, publicKey⟩

end Derive

/-! ## The file -/

/-- The member with the private key. -/
def privateMember : List UInt8 := ascii "Private"

/-- The member with all that is public. -/
def publicMember : List UInt8 := ascii "Public"

/-- The member with the public key, in `Public`. -/
def serverPublicMember : List UInt8 := ascii "ServerPublic"

/-- The member with the public disco key, in `Public`. -/
def serverDiscoPublicMember : List UInt8 := ascii "ServerDiscoPublic"

/-- The member with the preshared key, in `Public`. -/
def presharedKeyMember : List UInt8 := ascii "PresharedKey"

/-- The member with the id of the region, in `Public`. -/
def regionIdMember : List UInt8 := ascii "RegionID"

/-- What the text of a private key begins with. -/
def privateKeyType : List UInt8 := ascii "privkey:"

/-- What the text of a public disco key begins with. -/
def discoKeyType : List UInt8 := ascii "discokey:"

/-- What the text of a preshared key begins with. -/
def presharedKeyType : List UInt8 := ascii "psk:"

/-- What loading a key throws: an exception of the program, or one of the JSON library. -/
inductive LoadError
  | exn (e : Exn)
  | json (e : JsonError)
  deriving DecidableEq

/-- The key that a member spells. -/
def keyMember (value : Json) (member type : List UInt8) : Except LoadError Key32 := do
  let text ← ((value.member member).bind Json.getString).mapError .json
  (parseKey text type).mapError .exn

/-- The key that a member spells, if it is there. -/
def keyMember? (value : Json) (member type : List UInt8) : Except LoadError (Option Key32) :=
  if value.contains member then (keyMember value member type).map some else .ok none

/-- A saved public key has to be the one that is derived. -/
def checkServerPublic (publicValue : Json) (publicKey : Key32) : Except LoadError Unit := do
  let saved ← keyMember? publicValue serverPublicMember nodeKeyType
  match saved with
  | none => return ()
  | some saved =>
    if saved ≠ publicKey then
      .error (.exn (.runtimeError "saved Tailcat public key does not match private key"))
    else
      return ()

/-- A saved disco key has to be the one that is derived. -/
def checkServerDiscoPublic (S : Sodium) (publicValue : Json) (privateKey : Key32) :
    Except LoadError Unit := do
  let saved ← keyMember? publicValue serverDiscoPublicMember discoKeyType
  match saved with
  | none => return ()
  | some saved =>
    let derived ← (deriveDiscoKey S privateKey).mapError .exn
    if saved ≠ derived.publicKey then
      .error (.exn (.runtimeError "saved Tailcat disco key does not match private key"))
    else
      return ()

/-- The id of the region, which is zero when it is not saved. -/
def regionIdOf (publicValue : Json) : Except LoadError Int64 :=
  if publicValue.contains regionIdMember then
    ((publicValue.member regionIdMember).bind Json.getInt64).mapError .json
  else
    .ok 0

/-- The key in a file whose JSON value has been parsed. -/
def readSavedKey (S : Sodium) (value : Json) : Except LoadError SavedTailcatKey := do
  let privateKey ← keyMember value privateMember privateKeyType
  let publicKey ← (nodePublicFromPrivate S privateKey).mapError .exn
  let publicValue ← (value.member publicMember).mapError .json
  checkServerPublic publicValue publicKey
  checkServerDiscoPublic S publicValue privateKey
  let presharedKey ← keyMember? publicValue presharedKeyMember presharedKeyType
  let regionId ← regionIdOf publicValue
  return ⟨⟨privateKey, publicKey⟩, presharedKey, regionId⟩

/-- The files that can be read are given by their contents. -/
def loadSavedTailcatKey (env : ConfigEnv) (S : Sodium) (J : JsonLibrary)
    (files : List UInt8 → Option (List UInt8)) (pathOrName : List UInt8) :
    Except LoadError SavedTailcatKey := do
  let path ← (resolveTailcatKeyPath env pathOrName).mapError .exn
  match files path with
  | none => .error (.exn (.runtimeError ("failed to open Tailcat key file: " ++ octetsText path)))
  | some text =>
    let value ← (J.parse text).mapError .json
    readSavedKey S value

/-- What is public about a key. There is no region in it if it is zero. -/
def publicDocument (key : SavedTailcatKey) (disco : NodeKeyPair) : Json :=
  let keys := ((Json.object []).insert serverPublicMember
      (.string (hexKey nodeKeyType key.identity.publicKey))).insert serverDiscoPublicMember
        (.string (hexKey discoKeyType disco.publicKey))
  let presharedKey := key.presharedKey.map fun psk => .string (hexKey presharedKeyType psk)
  let regionId := if key.regionId ≠ 0 then some (.number key.regionId) else none
  (keys.insert? presharedKeyMember presharedKey).insert? regionIdMember regionId

/-- The document of a key: `Private` and `Public`. -/
def keyDocument (key : SavedTailcatKey) (disco : NodeKeyPair) : Json :=
  ((Json.object []).insert privateMember
      (.string (hexKey privateKeyType key.identity.privateKey))).insert publicMember
        (publicDocument key disco)

/-- The path of the file that a key is saved to, and what is written there. -/
def saveText (env : ConfigEnv) (S : Sodium) (J : JsonLibrary) (pathOrName : List UInt8)
    (key : SavedTailcatKey) : Except Exn (List UInt8 × List UInt8) := do
  let path ← resolveTailcatKeyPath env pathOrName
  let disco ← deriveDiscoKey S key.identity.privateKey
  return (path, J.dump (keyDocument key disco) ++ [newline])

/-! ## Values that store a key -/

/-- A member, if it is there, is the text of the key. -/
def SpellsMember (value : Json) (member type : List UInt8) (key : Key32) : Prop :=
  ∃ text, value.find? member = some (.string text) ∧ SpellsKey type text key

/-- What is public about a key. -/
structure StoresPublic (S : Sodium) (value : Json) (key : SavedTailcatKey) : Prop where
  serverPublic : value.contains serverPublicMember →
    SpellsMember value serverPublicMember nodeKeyType key.identity.publicKey
  serverDiscoPublic : value.contains serverDiscoPublicMember →
    ∃ disco, deriveDiscoKey S key.identity.privateKey = .ok disco ∧
      SpellsMember value serverDiscoPublicMember discoKeyType disco.publicKey
  presharedKey : (key.presharedKey = none ∧ value.find? presharedKeyMember = none) ∨
    ∃ psk, key.presharedKey = some psk ∧ SpellsMember value presharedKeyMember presharedKeyType psk
  regionId : (key.regionId = 0 ∧ value.find? regionIdMember = none) ∨
    value.find? regionIdMember = some (.number key.regionId)

/-- The value stores a private key; the public key is derived from it, and what else there is agrees
with it. -/
structure Stores (S : Sodium) (value : Json) (key : SavedTailcatKey) : Prop where
  privateKey : SpellsMember value privateMember privateKeyType key.identity.privateKey
  publicKey : nodePublicFromPrivate S key.identity.privateKey = .ok key.identity.publicKey
  publicValue : ∃ publicValue, value.find? publicMember = some publicValue ∧
    StoresPublic S publicValue key

section Load

variable {S : Sodium} {value : Json} {member type : List UInt8} {key : Key32}

theorem keyMember_eq_ok_iff :
    keyMember value member type = .ok key ↔ SpellsMember value member type key := by
  constructor
  · intro h
    obtain ⟨text, htext, h⟩ := Except.bind_eq_ok_iff.mp h
    obtain ⟨found, hfound, htext⟩ :=
      Except.bind_eq_ok_iff.mp (Except.mapError_eq_ok_iff.mp htext)
    obtain rfl := Json.getString_eq_ok_iff.mp htext
    exact ⟨text, Json.member_eq_ok_iff.mp hfound,
      parseKey_eq_ok_iff.mp (Except.mapError_eq_ok_iff.mp h)⟩
  · rintro ⟨text, hfound, htext⟩
    refine Except.bind_eq_ok_iff.mpr ⟨text, Except.mapError_eq_ok_iff.mpr ?_,
      Except.mapError_eq_ok_iff.mpr (parseKey_eq_ok_iff.mpr htext)⟩
    exact Except.bind_eq_ok_iff.mpr ⟨_, Json.member_eq_ok_iff.mpr hfound, rfl⟩

theorem SpellsMember.contains (h : SpellsMember value member type key) : value.contains member :=
  let ⟨text, hfound, _⟩ := h
  Json.contains_iff.mpr ⟨.string text, hfound⟩

theorem SpellsMember.unique {other : Key32} (h : SpellsMember value member type key)
    (h' : SpellsMember value member type other) : key = other := by
  obtain ⟨text, hfound, htext⟩ := h
  obtain ⟨text', hfound', htext'⟩ := h'
  cases hfound.symm.trans hfound'
  exact htext.unique htext'

theorem keyMember?_eq_ok_iff {found : Option Key32} :
    keyMember? value member type = .ok found ↔
      (found = none ∧ value.find? member = none) ∨
        ∃ key, found = some key ∧ SpellsMember value member type key := by
  unfold keyMember?
  split
  · -- The member is there, and it has to be a key.
    rename_i hcontains
    obtain ⟨v, hv⟩ := Json.contains_iff.mp hcontains
    constructor
    · intro h
      cases hkey : keyMember value member type with
      | error e =>
        rw [hkey] at h
        cases h
      | ok key =>
        rw [hkey] at h
        exact .inr ⟨key, (Except.ok.inj h).symm, keyMember_eq_ok_iff.mp hkey⟩
    · rintro (⟨-, hnone⟩ | ⟨key, rfl, hkey⟩)
      · rw [hv] at hnone
        cases hnone
      · rw [keyMember_eq_ok_iff.mpr hkey]
        rfl
  · rename_i hcontains
    constructor
    · intro h
      exact .inl ⟨(Except.ok.inj h).symm, Json.not_contains_iff.mp hcontains⟩
    · rintro (⟨rfl, -⟩ | ⟨key, -, hkey⟩)
      · rfl
      · exact absurd hkey.contains hcontains

theorem checkServerPublic_eq_ok_iff :
    checkServerPublic value key = .ok () ↔
      (value.contains serverPublicMember →
        SpellsMember value serverPublicMember nodeKeyType key) := by
  constructor
  · intro h hcontains
    obtain ⟨saved, hsaved, h⟩ := Except.bind_eq_ok_iff.mp h
    rcases keyMember?_eq_ok_iff.mp hsaved with ⟨-, hnone⟩ | ⟨k, rfl, hk⟩
    · exact absurd hcontains (Json.not_contains_iff.mpr hnone)
    · dsimp only at h
      split at h
      · cases h
      · rename_i heq
        rwa [← not_not.mp heq]
  · intro h
    by_cases hcontains : value.contains serverPublicMember
    · have hsaved := keyMember?_eq_ok_iff.mpr (.inr ⟨key, rfl, h hcontains⟩)
      exact Except.bind_eq_ok_iff.mpr ⟨some key, hsaved, if_neg (not_not.mpr rfl)⟩
    · exact Except.bind_eq_ok_iff.mpr ⟨none, if_neg hcontains, rfl⟩

theorem checkServerDiscoPublic_eq_ok_iff :
    checkServerDiscoPublic S value key = .ok () ↔
      (value.contains serverDiscoPublicMember → ∃ disco, deriveDiscoKey S key = .ok disco ∧
        SpellsMember value serverDiscoPublicMember discoKeyType disco.publicKey) := by
  constructor
  · intro h hcontains
    obtain ⟨saved, hsaved, h⟩ := Except.bind_eq_ok_iff.mp h
    rcases keyMember?_eq_ok_iff.mp hsaved with ⟨-, hnone⟩ | ⟨k, rfl, hk⟩
    · exact absurd hcontains (Json.not_contains_iff.mpr hnone)
    · -- The derived key is only asked for when there is one to compare it with.
      obtain ⟨disco, hdisco, h⟩ := Except.bind_eq_ok_iff.mp h
      split at h
      · cases h
      · rename_i heq
        refine ⟨disco, Except.mapError_eq_ok_iff.mp hdisco, ?_⟩
        rwa [← not_not.mp heq]
  · intro h
    by_cases hcontains : value.contains serverDiscoPublicMember
    · obtain ⟨disco, hdisco, hspells⟩ := h hcontains
      have hsaved := keyMember?_eq_ok_iff.mpr (.inr ⟨disco.publicKey, rfl, hspells⟩)
      exact Except.bind_eq_ok_iff.mpr ⟨_, hsaved, Except.bind_eq_ok_iff.mpr
        ⟨disco, Except.mapError_eq_ok_iff.mpr hdisco, if_neg (not_not.mpr rfl)⟩⟩
    · exact Except.bind_eq_ok_iff.mpr ⟨none, if_neg hcontains, rfl⟩

theorem regionIdOf_eq_ok_iff {n : Int64} :
    regionIdOf value = .ok n ↔
      (n = 0 ∧ value.find? regionIdMember = none) ∨
        value.find? regionIdMember = some (.number n) := by
  unfold regionIdOf
  split
  · rename_i hcontains
    rw [Except.mapError_eq_ok_iff]
    constructor
    · intro h
      obtain ⟨found, hfound, hn⟩ := Except.bind_eq_ok_iff.mp h
      obtain rfl := Json.getInt64_eq_ok_iff.mp hn
      exact .inr (Json.member_eq_ok_iff.mp hfound)
    · rintro (⟨-, hnone⟩ | hfound)
      · exact absurd hcontains (Json.not_contains_iff.mpr hnone)
      · exact Except.bind_eq_ok_iff.mpr ⟨_, Json.member_eq_ok_iff.mpr hfound, rfl⟩
  · rename_i hcontains
    constructor
    · intro h
      exact .inl ⟨(Except.ok.inj h).symm, Json.not_contains_iff.mp hcontains⟩
    · rintro (⟨rfl, -⟩ | hfound)
      · rfl
      · exact absurd (Json.contains_iff.mpr ⟨_, hfound⟩) hcontains

/-- A key is read from the values that store it. -/
theorem readSavedKey_eq_ok_iff {key : SavedTailcatKey} :
    readSavedKey S value = .ok key ↔ Stores S value key := by
  constructor
  · -- The steps of the function, one after the other.
    intro h
    obtain ⟨privateKey, hprivate, h⟩ := Except.bind_eq_ok_iff.mp h
    obtain ⟨publicKey, hpublic, h⟩ := Except.bind_eq_ok_iff.mp h
    obtain ⟨publicValue, hvalue, h⟩ := Except.bind_eq_ok_iff.mp h
    obtain ⟨⟨⟩, hserver, h⟩ := Except.bind_eq_ok_iff.mp h
    obtain ⟨⟨⟩, hdisco, h⟩ := Except.bind_eq_ok_iff.mp h
    obtain ⟨presharedKey, hpsk, h⟩ := Except.bind_eq_ok_iff.mp h
    obtain ⟨regionId, hregion, h⟩ := Except.bind_eq_ok_iff.mp h
    obtain rfl := Except.ok.inj h
    exact {
      privateKey := keyMember_eq_ok_iff.mp hprivate
      publicKey := Except.mapError_eq_ok_iff.mp hpublic
      publicValue := ⟨publicValue, Json.member_eq_ok_iff.mp (Except.mapError_eq_ok_iff.mp hvalue), {
        serverPublic := checkServerPublic_eq_ok_iff.mp hserver
        serverDiscoPublic := checkServerDiscoPublic_eq_ok_iff.mp hdisco
        presharedKey := keyMember?_eq_ok_iff.mp hpsk
        regionId := regionIdOf_eq_ok_iff.mp hregion }⟩ }
  · rintro ⟨hprivate, hpublic, publicValue, hvalue, hstores⟩
    refine Except.bind_eq_ok_iff.mpr ⟨_, keyMember_eq_ok_iff.mpr hprivate, ?_⟩
    refine Except.bind_eq_ok_iff.mpr ⟨_, Except.mapError_eq_ok_iff.mpr hpublic, ?_⟩
    refine Except.bind_eq_ok_iff.mpr
      ⟨_, Except.mapError_eq_ok_iff.mpr (Json.member_eq_ok_iff.mpr hvalue), ?_⟩
    refine Except.bind_eq_ok_iff.mpr ⟨(), checkServerPublic_eq_ok_iff.mpr hstores.serverPublic, ?_⟩
    refine Except.bind_eq_ok_iff.mpr
      ⟨(), checkServerDiscoPublic_eq_ok_iff.mpr hstores.serverDiscoPublic, ?_⟩
    refine Except.bind_eq_ok_iff.mpr ⟨_, keyMember?_eq_ok_iff.mpr hstores.presharedKey, ?_⟩
    exact Except.bind_eq_ok_iff.mpr ⟨_, regionIdOf_eq_ok_iff.mpr hstores.regionId, rfl⟩

theorem loadSavedTailcatKey_eq_ok_iff {env : ConfigEnv} {J : JsonLibrary}
    {files : List UInt8 → Option (List UInt8)} {pathOrName : List UInt8} {key : SavedTailcatKey} :
    loadSavedTailcatKey env S J files pathOrName = .ok key ↔
      ∃ path text value, resolveTailcatKeyPath env pathOrName = .ok path ∧
        files path = some text ∧ J.parse text = .ok value ∧ Stores S value key := by
  constructor
  · intro h
    obtain ⟨path, hpath, h⟩ := Except.bind_eq_ok_iff.mp h
    split at h
    · cases h
    · rename_i text htext
      obtain ⟨value, hvalue, h⟩ := Except.bind_eq_ok_iff.mp h
      exact ⟨path, text, value, Except.mapError_eq_ok_iff.mp hpath, htext,
        Except.mapError_eq_ok_iff.mp hvalue, readSavedKey_eq_ok_iff.mp h⟩
  · rintro ⟨path, text, value, hpath, htext, hvalue, hstores⟩
    refine Except.bind_eq_ok_iff.mpr ⟨path, Except.mapError_eq_ok_iff.mpr hpath, ?_⟩
    rw [htext]
    exact Except.bind_eq_ok_iff.mpr
      ⟨value, Except.mapError_eq_ok_iff.mpr hvalue, readSavedKey_eq_ok_iff.mpr hstores⟩

/-! ## The value that is written -/

variable {key : SavedTailcatKey} {disco : NodeKeyPair} {key' : Key32}

theorem find?_serverPublic : (publicDocument key disco).find? serverPublicMember =
    some (.string (hexKey nodeKeyType key.identity.publicKey)) := by
  rw [publicDocument, Json.find?_insert?_of_ne (by decide), Json.find?_insert?_of_ne (by decide),
    Json.find?_insert_of_ne (by decide), Json.find?_insert_self]

theorem find?_serverDiscoPublic : (publicDocument key disco).find? serverDiscoPublicMember =
    some (.string (hexKey discoKeyType disco.publicKey)) := by
  rw [publicDocument, Json.find?_insert?_of_ne (by decide), Json.find?_insert?_of_ne (by decide),
    Json.find?_insert_self]

theorem find?_presharedKey : (publicDocument key disco).find? presharedKeyMember =
    key.presharedKey.map fun psk => .string (hexKey presharedKeyType psk) := by
  rw [publicDocument, Json.find?_insert?_of_ne (by decide), Json.find?_insert?_self]
  rw [Json.find?_insert_of_ne (by decide), Json.find?_insert_of_ne (by decide)]
  rfl

theorem find?_regionId : (publicDocument key disco).find? regionIdMember =
    if key.regionId ≠ 0 then some (.number key.regionId) else none := by
  rw [publicDocument, Json.find?_insert?_self]
  rw [Json.find?_insert?_of_ne (by decide), Json.find?_insert_of_ne (by decide),
    Json.find?_insert_of_ne (by decide)]
  rfl

theorem find?_private : (keyDocument key disco).find? privateMember =
    some (.string (hexKey privateKeyType key.identity.privateKey)) := by
  rw [keyDocument, Json.find?_insert_of_ne (by decide), Json.find?_insert_self]

theorem storesPublic_publicDocument
    (hdisco : deriveDiscoKey S key.identity.privateKey = .ok disco) :
    StoresPublic S (publicDocument key disco) key where
  serverPublic _ := ⟨_, find?_serverPublic, spellsKey_hexKey _ _⟩
  serverDiscoPublic _ := ⟨disco, hdisco, _, find?_serverDiscoPublic, spellsKey_hexKey _ _⟩
  presharedKey := by
    cases hpsk : key.presharedKey with
    | none => exact .inl ⟨rfl, by rw [find?_presharedKey, hpsk, Option.map_none]⟩
    | some psk =>
      refine .inr ⟨psk, rfl, _, ?_, spellsKey_hexKey presharedKeyType psk⟩
      rw [find?_presharedKey, hpsk, Option.map_some]
  regionId := by
    by_cases hregion : key.regionId = 0
    · exact .inl ⟨hregion, by rw [find?_regionId, if_neg (not_not.mpr hregion)]⟩
    · exact .inr (by rw [find?_regionId, if_pos hregion])

/-- The value that is written stores the key, if its public key is the derived one. -/
theorem stores_keyDocument
    (hpublic : nodePublicFromPrivate S key.identity.privateKey = .ok key.identity.publicKey)
    (hdisco : deriveDiscoKey S key.identity.privateKey = .ok disco) :
    Stores S (keyDocument key disco) key where
  privateKey := ⟨_, find?_private, spellsKey_hexKey _ _⟩
  publicKey := hpublic
  publicValue := ⟨_, Json.find?_insert_self, storesPublic_publicDocument hdisco⟩

/-- A member that is written spells the key that is written there. -/
theorem SpellsMember.eq_of_find? {k : Key32} (h : SpellsMember value member type key')
    (hfound : value.find? member = some (.string (hexKey type k))) : key' = k :=
  h.unique ⟨_, hfound, spellsKey_hexKey type k⟩

/-- The value that is written stores no other key. -/
theorem eq_of_stores_keyDocument {k : SavedTailcatKey} (h : Stores S (keyDocument key disco) k) :
    k = key := by
  obtain ⟨publicValue, hvalue, hstores⟩ := h.publicValue
  obtain rfl : publicDocument key disco = publicValue :=
    Option.some.inj (Json.find?_insert_self.symm.trans hvalue)
  have hprivate : k.identity.privateKey = key.identity.privateKey :=
    h.privateKey.eq_of_find? find?_private
  have hpublic : k.identity.publicKey = key.identity.publicKey :=
    (hstores.serverPublic (Json.contains_iff.mpr ⟨_, find?_serverPublic⟩)).eq_of_find?
      find?_serverPublic
  -- A member that is optional is in both keys or in neither.
  have hpsk : k.presharedKey = key.presharedKey := by
    rcases hstores.presharedKey with ⟨hk, hnone⟩ | ⟨psk, hk, hspells⟩
    · rw [find?_presharedKey, Option.map_eq_none_iff] at hnone
      rw [hk, hnone]
    · obtain ⟨v, hv⟩ := Json.contains_iff.mp hspells.contains
      rw [find?_presharedKey] at hv
      obtain ⟨psk', hpsk', -⟩ := Option.map_eq_some_iff.mp hv
      rw [hk, hpsk', hspells.eq_of_find? (by rw [find?_presharedKey, hpsk', Option.map_some])]
  have hregion : k.regionId = key.regionId := by
    rcases hstores.regionId with ⟨hk, hnone⟩ | hfound
    · -- There is no region in the value: it is zero in the key that was written, too.
      rw [find?_regionId] at hnone
      rw [hk]
      by_contra hne
      rw [if_pos (Ne.symm hne)] at hnone
      cases hnone
    · rw [find?_regionId] at hfound
      obtain ⟨-, hfound⟩ := Option.ite_none_right_eq_some.mp hfound
      exact (Json.number.inj (Option.some.inj hfound)).symm
  obtain ⟨⟨privateKey, publicKey⟩, presharedKey, regionId⟩ := k
  dsimp only at hprivate hpublic hpsk hregion
  rw [hprivate, hpublic, hpsk, hregion]

end Load

end Tailcat
