import Tailcat.Derp.Map
import Tailcat.Keys.Files
import Tailcat.Protocol.RoundTrip

/-!
# Where server and client meet

A server takes a saved key or makes a new one, chooses a region of the DERP map, listens at the
first relay of it, and prints an address. A client parses the address and looks for the region in
it, or in the map if the address has only the id of it.

## Main definitions

* `RandomKeys`, `generateNodeKey`: what the random source gives, and a new key
* `makeServerBootstrap`: how a server starts
* `runtimeIdentity`, `resolveRegion`: the identity of a client, and the region it connects to

## Main results

* `makeServerBootstrap_eq_ok`: the steps of a start
* `bootstrap_meets`: a client with the printed address comes to the relay of the server
-/

namespace Tailcat

/-! ## Keys -/

/-- What the random source gives: octets for a private key, and the first secret that is not
zero. -/
structure RandomKeys where
  node : Key32
  secret : Key32
  secret_ne : ¬ secret.allZero

/-- A private key as Curve25519 wants it. -/
def clampKey (key : Key32) : Key32 :=
  (key.set 0 (key.get 0 &&& 248)).set 31 (key.get 31 &&& 127 ||| 64)

section Keys

variable (env : ConfigEnv) (S : Sodium) (J : JsonLibrary) (F : Files) (R : RandomKeys)

/-- A clamped random key and its public key. -/
def generateNodeKey : Except Exn NodeKeyPair := do
  let publicKey ← nodePublicFromPrivate S (clampKey R.node)
  return ⟨clampKey R.node, publicKey⟩

/-- A key that is made for a new server, and not saved yet. -/
def newSavedTailcatKey (usePsk : Bool) (regionId : Int64) : Except Exn SavedTailcatKey := do
  let identity ← generateNodeKey S R
  return ⟨identity, if usePsk then some R.secret else none, regionId⟩

/-- The name that asks for a key that is not saved. -/
def newKeyName : List UInt8 := ascii "new"

/-- The identity of a client. -/
def runtimeIdentity (keyName : List UInt8) : Except LoadError NodeKeyPair :=
  if keyName = newKeyName then
    (generateNodeKey S R).mapError .exn
  else if keyName ≠ [] then
    (loadSavedTailcatKey env S J F.contents keyName).map SavedTailcatKey.identity
  else
    match savedTailcatKeyExists env F (ascii "client-default") with
    | .error e => .error (.exn e)
    | .ok true =>
      (loadSavedTailcatKey env S J F.contents (ascii "client-default")).map SavedTailcatKey.identity
    | .ok false => (generateNodeKey S R).mapError .exn

/-- The name of the key that a server takes: `default` if no other is asked for and there is one. -/
def serverKeyName (requestedKey : List UInt8) : Except Exn (List UInt8) :=
  if requestedKey = [] then do
    let found ← savedTailcatKeyExists env F (ascii "default")
    return if found then ascii "default" else []
  else
    .ok requestedKey

/-- The key of a server, and the name that it is saved under. -/
def serverKey (pskOverride : Option Bool) (requestedKey : List UInt8) :
    Except LoadError (SavedTailcatKey × List UInt8) := do
  let keyName ← (serverKeyName env F requestedKey).mapError .exn
  if keyName ≠ [] ∧ keyName ≠ newKeyName then
    let saved ← loadSavedTailcatKey env S J F.contents keyName
    let psk := if pskOverride = some false then none else saved.presharedKey
    if pskOverride = some true ∧ psk = none then
      .error (.exn (.runtimeError
        "saved key has no WireGuard PSK; regenerate it with PSK enabled"))
    else
      return ({ saved with presharedKey := psk }, keyName)
  else
    let key ← (newSavedTailcatKey S R (pskOverride.getD true) 0).mapError .exn
    return (key, [])

end Keys

/-! ## Regions -/

/-- `resolve_region`, and the same function under the name `resolve_forward_region`. `fetched` is
the map, if it can be fetched. -/
def resolveRegion (info : ConnInfo) (fetched : Except LoadError DerpMap) :
    Except LoadError DerpRegion :=
  match info.regions.toList with
  | front :: rest =>
    if info.regionId ≠ 0 then
      .ok (((front :: rest).find? fun region => region.regionId = info.regionId).getD front)
    else
      .ok front
  | [] =>
    if info.regionId = 0 then
      .error (.exn (.runtimeError "tailcat address contains no DERP region"))
    else do
      let map ← fetched
      (regionById map info.regionId).mapError .exn

/-- The region that a server chooses. -/
def serverRegion (map : DerpMap) (savedRegion : Int64) : Except Exn DerpRegion :=
  if savedRegion ≠ 0 then regionById map savedRegion else selectDerpRegion map

/-- What a server starts with: its keys, where it is reached, and what its address says. -/
structure ServerBootstrap where
  identity : NodeKeyPair
  disco : NodeKeyPair
  psk : Option Key32
  region : DerpRegion
  node : DerpNode
  info : ConnInfo
  address : List UInt8
  savedKeyName : List UInt8

/-- What the address of a key says. -/
def addressInfo (key : SavedTailcatKey) (disco : NodeKeyPair) (regionId : Int64) : ConnInfo where
  serverPublic := key.identity.publicKey
  serverDiscoPublic := some disco.publicKey
  presharedKey := key.presharedKey
  regionId := regionId

section Bootstrap

variable (env : ConfigEnv) (S : Sodium) (J : JsonLibrary) (F : Files) (R : RandomKeys)

/-- The keys of a server, the region and the relay it uses, and the contents of its address. -/
def makeServerBootstrap (fetched : Except LoadError DerpMap) (pskOverride : Option Bool)
    (requestedKey : List UInt8) : Except LoadError ServerBootstrap := do
  let (key, savedKeyName) ← serverKey env S J F R pskOverride requestedKey
  let disco ← (deriveDiscoKey S key.identity.privateKey).mapError .exn
  let map ← fetched
  let region ← (serverRegion map key.regionId).mapError .exn
  let node ← (primaryDerpNode region).mapError .exn
  let info := addressInfo key disco region.regionId
  let address ← (encodeTailcatAddr info).mapError .exn
  return { identity := key.identity, disco, psk := key.presharedKey, region, node, info, address,
           savedKeyName }

variable {env S J F R} {fetched : Except LoadError DerpMap} {pskOverride : Option Bool}
  {requestedKey : List UInt8} {out : ServerBootstrap}

/-- The steps of a start. -/
theorem makeServerBootstrap_eq_ok
    (h : makeServerBootstrap env S J F R fetched pskOverride requestedKey = .ok out) :
    ∃ key map, serverKey env S J F R pskOverride requestedKey = .ok (key, out.savedKeyName) ∧
      deriveDiscoKey S key.identity.privateKey = .ok out.disco ∧ fetched = .ok map ∧
      serverRegion map key.regionId = .ok out.region ∧ primaryDerpNode out.region = .ok out.node ∧
      out.info = addressInfo key out.disco out.region.regionId ∧
      encodeTailcatAddr out.info = .ok out.address ∧ out.identity = key.identity ∧
      out.psk = key.presharedKey := by
  obtain ⟨⟨key, name⟩, hkey, h⟩ := Except.bind_eq_ok_iff.mp h
  obtain ⟨disco, hdisco, h⟩ := Except.bind_eq_ok_iff.mp h
  obtain ⟨map, hmap, h⟩ := Except.bind_eq_ok_iff.mp h
  obtain ⟨region, hregion, h⟩ := Except.bind_eq_ok_iff.mp h
  obtain ⟨node, hnode, h⟩ := Except.bind_eq_ok_iff.mp h
  obtain ⟨address, haddress, h⟩ := Except.bind_eq_ok_iff.mp h
  obtain rfl := Except.ok.inj h
  exact ⟨key, map, hkey, Except.mapError_eq_ok_iff.mp hdisco, hmap,
    Except.mapError_eq_ok_iff.mp hregion, Except.mapError_eq_ok_iff.mp hnode, rfl,
    Except.mapError_eq_ok_iff.mp haddress, rfl, rfl⟩

/-- A start whose steps succeed. -/
theorem makeServerBootstrap_ok {key : SavedTailcatKey} {name address : List UInt8}
    {disco : NodeKeyPair} {map : DerpMap} {region : DerpRegion} {node : DerpNode}
    (hkey : serverKey env S J F R pskOverride requestedKey = .ok (key, name))
    (hdisco : deriveDiscoKey S key.identity.privateKey = .ok disco) (hmap : fetched = .ok map)
    (hregion : serverRegion map key.regionId = .ok region)
    (hnode : primaryDerpNode region = .ok node)
    (haddress : encodeTailcatAddr (addressInfo key disco region.regionId) = .ok address) :
    makeServerBootstrap env S J F R fetched pskOverride requestedKey =
      .ok { identity := key.identity, disco, psk := key.presharedKey, region, node,
            info := addressInfo key disco region.regionId, address, savedKeyName := name } :=
  Except.bind_eq_ok_iff.mpr ⟨_, hkey,
    Except.bind_eq_ok_iff.mpr ⟨_, Except.mapError_eq_ok_iff.mpr hdisco,
    Except.bind_eq_ok_iff.mpr ⟨_, hmap,
    Except.bind_eq_ok_iff.mpr ⟨_, Except.mapError_eq_ok_iff.mpr hregion,
    Except.bind_eq_ok_iff.mpr ⟨_, Except.mapError_eq_ok_iff.mpr hnode,
    Except.bind_eq_ok_iff.mpr ⟨_, Except.mapError_eq_ok_iff.mpr haddress, rfl⟩⟩⟩⟩⟩⟩

/-- A server's region is in the map, and it is the one that its id leads to. -/
theorem serverRegion_eq_ok {map : DerpMap} {savedRegion : Int64} {region : DerpRegion}
    (h : serverRegion map savedRegion = .ok region) :
    region ∈ map.regions ∧ regionById map region.regionId = .ok region := by
  unfold serverRegion at h
  split at h
  · obtain ⟨hmem, hid⟩ := regionById_eq_ok h
    exact ⟨hmem, hid ▸ h⟩
  · exact ⟨mem_of_select h, regionById_select h⟩

end Bootstrap

/-! ## Meeting -/

section Meeting

variable {info : ConnInfo} {address : List UInt8} {fetched : Except LoadError DerpMap}

/-- An address that was encoded is read as what it says, with the region ids filled in. -/
theorem parse_of_encode (h : encodeTailcatAddr info = .ok address)
    (hregions : info.regions.toList.length ≤ 1)
    (hreachable : info.regionId ≠ 0 ∨ info.regions ≠ .empty) :
    parseTailcatAddr address = .ok info.settle := by
  have hvalid : info.Valid := by
    unfold encodeTailcatAddr at h
    split_ifs at h with hpublic hdisco
    exact ⟨hpublic, hdisco, hregions, hreachable⟩
  obtain rfl := Except.ok.inj ((encode_of_valid hvalid).symm.trans h)
  exact parse_writeInfo hvalid

/-- Whether an address can be encoded depends on its keys only. -/
theorem encode_of_keys_eq {info' : ConnInfo} (h : encodeTailcatAddr info = .ok address)
    (hpublic : info'.serverPublic = info.serverPublic)
    (hdisco : info'.serverDiscoPublic = info.serverDiscoPublic) :
    ∃ address', encodeTailcatAddr info' = .ok address' := by
  unfold encodeTailcatAddr at h ⊢
  split_ifs at h with hzero hzero'
  rw [hpublic, hdisco, if_neg hzero, if_neg hzero']
  exact ⟨_, rfl⟩

theorem settle_of_regions_eq (h : info.regions = .empty) : info.settle = info :=
  settle_eq_self ⟨by simp [h], by simp [h]⟩

/-- The region of an address without regions is the one of the map that has its id. -/
theorem resolveRegion_of_map {map : DerpMap} {region : DerpRegion}
    (hregions : info.regions = .empty) (hid : info.regionId ≠ 0)
    (hregion : regionById map info.regionId = .ok region) :
    resolveRegion info (.ok map) = .ok region := by
  unfold resolveRegion
  rw [hregions, Vec.toList_empty]
  dsimp only
  rw [if_neg hid]
  exact Except.mapError_eq_ok_iff.mpr hregion

/-- The region of an address with one region is that one. -/
theorem resolveRegion_of_embedded {region : DerpRegion} (fetched : Except LoadError DerpMap)
    (hregions : info.regions.toList = [region]) : resolveRegion info fetched = .ok region := by
  unfold resolveRegion
  rw [hregions]
  dsimp only
  split
  · rw [List.find?_singleton]
    split <;> rfl
  · rfl

/-- The first relay of a region, with the region id that it takes if it has none. -/
theorem primaryDerpNode_adoptNodes {region : DerpRegion} {node : DerpNode}
    (h : primaryDerpNode region = .ok node) :
    primaryDerpNode region.adoptNodes = .ok (region.adopt node) := by
  unfold primaryDerpNode at h ⊢
  unfold DerpRegion.adoptNodes
  cases hnodes : region.nodes.toList with
  | nil =>
    rw [hnodes] at h
    cases h
  | cons first rest =>
    rw [hnodes] at h
    obtain rfl := Except.ok.inj h
    rw [Vec.toList_map, hnodes]
    rfl

theorem adopt_regionId (region : DerpRegion) (node : DerpNode) :
    { region.adopt node with regionId := node.regionId } = node := by
  unfold DerpRegion.adopt
  split <;> rfl

variable {S : RegionSort} {parse : List UInt8 → Except String JsonTree} {fetch : Fetch}

/-- **Server and client meet**: the address that a server prints is read as its own keys, and a
client that fetches the same map comes to the region of the server and to the relay where the server
listens, whichever key the server has taken. -/
theorem bootstrap_meets (env : ConfigEnv) (sodium : Sodium) (J : JsonLibrary) (F : Files)
    (R : RandomKeys) (pskOverride : Option Bool) (requestedKey : List UInt8)
    {out : ServerBootstrap}
    (h : makeServerBootstrap env sodium J F R (fetchDerpMap S parse fetch) pskOverride
      requestedKey = .ok out) :
    ∃ info, parseTailcatAddr out.address = .ok info ∧
      info.serverPublic = out.identity.publicKey ∧
      info.serverDiscoPublic = some out.disco.publicKey ∧ info.presharedKey = out.psk ∧
      resolveRegion info (fetchDerpMap S parse fetch) = .ok out.region ∧
      primaryDerpNode out.region = .ok out.node ∧ out.node.hostName ≠ .empty := by
  obtain ⟨key, map, -, -, hmap, hregion, hnode, hinfo, haddress, hidentity, hpsk⟩ :=
    makeServerBootstrap_eq_ok h
  have husable := usable_of_fetch hmap
  obtain ⟨hmem, hfound⟩ := serverRegion_eq_ok hregion
  have hid : out.region.regionId ≠ 0 := (husable.usable _ hmem).1
  have hparse : parseTailcatAddr out.address = .ok out.info := by
    rw [parse_of_encode haddress (by simp [hinfo, addressInfo]) (.inl (hinfo ▸ hid)),
      settle_of_regions_eq (by rw [hinfo]; rfl)]
  refine ⟨out.info, hparse, ?_, ?_, ?_, ?_, hnode, ?_⟩
  · rw [hinfo, hidentity]
    rfl
  · rw [hinfo]
    rfl
  · rw [hinfo, hpsk]
    rfl
  · rw [hmap]
    exact resolveRegion_of_map (by rw [hinfo]; rfl) (hinfo ▸ hid) (hinfo ▸ hfound)
  · obtain ⟨node, hprimary, -, hhost⟩ := husable.choices.2 _ hmem
    obtain rfl := Except.ok.inj (hprimary.symm.trans hnode)
    exact hhost

/-- A file system without files. -/
def Files.none : Files := ⟨fun _ => Option.none, fun _ => false, fun _ _ => rfl⟩

/-- Random numbers that make the example's key. -/
def exampleRandom : RandomKeys where
  node := exampleKey.identity.privateKey
  secret := exampleKey.identity.privateKey
  secret_ne := by decide

/-- The download of the example's map. -/
def exampleFetch : Except LoadError DerpMap :=
  fetchDerpMap .stable (fun _ => .ok exampleMapDocument) (.response 200 [])

/-- A server with a new key. -/
theorem bootstrap_meets_example : ∃ out info,
    makeServerBootstrap exampleEnv exampleSodium exampleLibrary .none exampleRandom exampleFetch
        none newKeyName = .ok out ∧
      parseTailcatAddr out.address = .ok info ∧
      resolveRegion info exampleFetch = .ok out.region := by
  have hok : (makeServerBootstrap exampleEnv exampleSodium exampleLibrary .none exampleRandom
      exampleFetch none newKeyName).isOk = true := by decide +kernel
  obtain ⟨out, h⟩ := Except.exists_of_isOk hok
  obtain ⟨info, hparse, -, -, -, hregion, -⟩ :=
    bootstrap_meets exampleEnv exampleSodium exampleLibrary .none exampleRandom none newKeyName h
  exact ⟨out, info, h, hparse, hregion⟩

end Meeting

end Tailcat
