import Tailcat.Base.Ctype
import Tailcat.Keys.SavedKey
import Tailcat.Protocol.Types

/-!
# The DERP map

The relays of the network are listed in a JSON document that is fetched over HTTP. A region of it is
usable when it has an id and a relay that has a host name and is not for STUN only; the others are
left out. Commands choose the first region, or one by its id, and the first relay of it.

## Main definitions

* `JsonTree`: a JSON value with the kinds of numbers that the reader of the map tells apart
* `stoll`: `std::stoll`
* `parseRegion`, `fetchDerpMap`: the regions of the document
* `selectDerpRegion`, `regionById`, `primaryDerpNode`: the choice of a relay
* `DerpMap.Usable`: what holds of every map that was fetched

## Main results

* `mem_regions_iff`: the regions of the map are the usable ones of the document
* `derpMap_usable`: a fetched map is usable, and choosing from it never fails
* `regionById_select`: a region that was chosen is found by its id
-/

namespace Tailcat

/-! ## The document -/

/-- A parsed JSON value. An integer is what it is in 64 bits; the members of an object are in the
order in which they are visited. -/
inductive JsonTree
  | null
  | boolean (b : Bool)
  | integer (n : Int64)
  | float
  | string (text : Text)
  | array (items : List JsonTree)
  | object (members : List (List UInt8 × JsonTree))

namespace JsonTree

/-- The members of an object, in order; other values have none. -/
def members : JsonTree → List (List UInt8 × JsonTree)
  | object members => members
  | _ => []

/-- Whether a value is an object. -/
def isObject : JsonTree → Bool
  | object _ => true
  | _ => false

/-- Only an object has members that can be found. -/
def find? (j : JsonTree) (key : String) : Option JsonTree := j.members.lookup (ascii key)

/-- The member of this name, when it is an integer. -/
def integerOr (j : JsonTree) (key : String) (fallback : Int64) : Int64 :=
  match j.find? key with
  | some (integer n) => n
  | _ => fallback

/-- The member of this name, when it is a string. -/
def stringOr (j : JsonTree) (key : String) : Text :=
  match j.find? key with
  | some (string text) => text
  | _ => .empty

/-- The member of this name, when it is a boolean. -/
def boolOr (j : JsonTree) (key : String) : Bool :=
  match j.find? key with
  | some (boolean b) => b
  | _ => false

end JsonTree

/-- A decimal number behind blanks and a sign, whatever comes after its digits, unless there is none
or it has no place in 64 bits. -/
def stoll (text : List UInt8) : Option Int64 :=
  let digits := Ctype.digitsOf text
  let n : ℤ := Ctype.decimal digits
  let value := if Ctype.signOf text = [Ctype.minusSign] then -n else n
  if digits = [] then none
  else if -2 ^ 63 ≤ value ∧ value < 2 ^ 63 then some (.ofInt value)
  else none

/-- The relay that an item describes. -/
def parseNode (j : JsonTree) (regionId : Int64) : DerpNode where
  name := j.stringOr "Name"
  regionId := j.integerOr "RegionID" regionId
  hostName := j.stringOr "HostName"
  certName := j.stringOr "CertName"
  ipv4 := j.stringOr "IPv4"
  ipv6 := j.stringOr "IPv6"
  stunPort := j.integerOr "STUNPort" 0
  derpPort := j.integerOr "DERPPort" 0
  insecureForTests := j.boolOr "InsecureForTests"

/-- The items that describe a relay which can be used. -/
def isRelay (regionId : Int64) (j : JsonTree) : Bool :=
  j.isObject ∧ ¬ j.boolOr "STUNOnly" ∧ (parseNode j regionId).hostName ≠ .empty

/-- What the loop over the nodes does with one of them. -/
def pushNode (regionId : Int64) (nodes : Vec DerpNode DerpNode.maxSize) (j : JsonTree) :
    Except Exn (Vec DerpNode DerpNode.maxSize) :=
  if isRelay regionId j then nodes.pushBack (parseNode j regionId) else .ok nodes

/-- The relays among the nodes of a region. -/
def parseNodes (j : JsonTree) (regionId : Int64) : Except Exn (Vec DerpNode DerpNode.maxSize) :=
  match j.find? "Nodes" with
  | some (.array items) => items.foldlM (pushNode regionId) .empty
  | _ => .ok .empty

/-- A region, whose id its nodes get. -/
def parseRegion (j : JsonTree) (fallbackId : Int64) : Except Exn DerpRegion := do
  let nodes ← parseNodes j (j.integerOr "RegionID" fallbackId)
  return { regionId := j.integerOr "RegionID" fallbackId
           regionCode := j.stringOr "RegionCode"
           regionName := j.stringOr "RegionName"
           nodes }

/-! ## The map -/

/-- The regions that can be used, in the order in which they are preferred. -/
structure DerpMap where
  regions : List DerpRegion

/-- A region without an id or without relays is of no use. -/
def DerpRegion.Usable (region : DerpRegion) : Prop :=
  region.regionId ≠ 0 ∧ region.nodes ≠ .empty

instance (region : DerpRegion) : Decidable region.Usable :=
  inferInstanceAs (Decidable (_ ∧ _))

/-- The regions of the document, and one more if the member describes a usable one. -/
def pushRegion (regions : List DerpRegion) (member : List UInt8 × JsonTree) :
    Except Exn (List DerpRegion) :=
  match stoll member.1 with
  | none => .ok regions
  | some fallbackId =>
    if member.2.isObject then do
      let region ← parseRegion member.2 fallbackId
      return if region.Usable then regions ++ [region] else regions
    else
      .ok regions

/-- `std::sort` by the ids. It does not say how regions with the same id are ordered. -/
structure RegionSort where
  sort : List DerpRegion → List DerpRegion
  perm : ∀ regions, (sort regions).Perm regions
  sorted : ∀ regions, (sort regions).Pairwise fun a b => a.regionId ≤ b.regionId

instance : Std.Total fun a b : DerpRegion => a.regionId ≤ b.regionId :=
  ⟨fun a b => Int64.le_total a.regionId b.regionId⟩

instance : IsTrans DerpRegion fun a b => a.regionId ≤ b.regionId :=
  ⟨fun _ _ _ hab hbc => Int64.le_trans hab hbc⟩

/-- A sort that leaves regions with the same id in their order. -/
def RegionSort.stable : RegionSort where
  sort := List.insertionSort fun a b => a.regionId ≤ b.regionId
  perm := List.perm_insertionSort _
  sorted := List.pairwise_insertionSort _

/-- How the HTTP library fetches the document. -/
inductive Fetch
  | initFails
  | noHandle
  | fails (strerror : String)
  | response (status : ℤ) (body : List UInt8)

/-- The text of the map, or the exception of the download. -/
def Fetch.body : Fetch → Except Exn (List UInt8)
  | .initFails => .error (.runtimeError "curl_global_init failed")
  | .noHandle => .error (.runtimeError "curl_easy_init failed fetching DERP map")
  | .fails strerror => .error (.runtimeError ("fetching DERP map: " ++ strerror))
  | .response status body =>
    if status ≠ 200 then .error (.runtimeError s!"DERP map HTTP status {status}") else .ok body

/-- The map in a document. -/
def readDerpMap (S : RegionSort) (root : JsonTree) : Except Exn DerpMap :=
  match root.find? "Regions" with
  | some (.object members) => do
    let regions ← members.foldlM pushRegion []
    if regions = [] then .error (.runtimeError "DERP map contains no usable relay regions")
    else return ⟨S.sort regions⟩
  | _ => .error (.runtimeError "DERP map has no Regions object")

/-- `fetch_derp_map`, with the parser of the JSON library. -/
def fetchDerpMap (S : RegionSort) (parse : List UInt8 → Except String JsonTree) (fetch : Fetch) :
    Except LoadError DerpMap := do
  let body ← fetch.body.mapError .exn
  let root ← (parse body).mapError fun what => .json (.parse what)
  (readDerpMap S root).mapError .exn

/-- The region that is preferred. -/
def selectDerpRegion (map : DerpMap) : Except Exn DerpRegion :=
  match map.regions with
  | [] => .error (.runtimeError "cannot select from an empty DERP map")
  | region :: _ => .ok region

/-- The region with an id. -/
def regionById (map : DerpMap) (regionId : Int64) : Except Exn DerpRegion :=
  match map.regions.find? fun r => r.regionId = regionId with
  | none => .error (.runtimeError s!"DERP region {regionId} is not in map")
  | some region => .ok region

/-- The relay of a region that is used. -/
def primaryDerpNode (region : DerpRegion) : Except Exn DerpNode :=
  match region.nodes.toList with
  | [] => .error (.runtimeError "DERP region has no relay nodes")
  | node :: _ => .ok node

/-! ## The regions of a document -/

section Regions

variable {regionId fallbackId : Int64} {items : List JsonTree}
  {nodes nodes' : Vec DerpNode DerpNode.maxSize} {j : JsonTree} {region : DerpRegion}
  {regions regions' : List DerpRegion} {member : List UInt8 × JsonTree}

/-- The relays of a region are those of its items that can be used, in their order. -/
theorem toList_of_pushNodes (h : items.foldlM (pushNode regionId) nodes = .ok nodes') :
    nodes'.toList =
      nodes.toList ++ (items.filter (isRelay regionId)).map (parseNode · regionId) := by
  induction items generalizing nodes with
  | nil =>
    obtain rfl := Except.ok.inj h
    simp
  | cons j items ih =>
    rw [List.foldlM_cons] at h
    obtain ⟨next, hpush, hrest⟩ := Except.bind_eq_ok_iff.mp h
    rw [ih hrest]
    unfold pushNode at hpush
    split at hpush
    · rename_i hrelay
      rw [Vec.pushBack_eq_ok.mp hpush, List.filter_cons_of_pos hrelay, List.append_assoc]
      rfl
    · rename_i hrelay
      obtain rfl := Except.ok.inj hpush
      rw [List.filter_cons_of_neg hrelay]

theorem parseRegion_regionId (h : parseRegion j fallbackId = .ok region) :
    region.regionId = j.integerOr "RegionID" fallbackId := by
  obtain ⟨nodes, -, h⟩ := Except.bind_eq_ok_iff.mp h
  obtain rfl := Except.ok.inj h
  rfl

/-- What the relays of a region are. -/
theorem mem_nodes_of_parseRegion (h : parseRegion j fallbackId = .ok region) {node : DerpNode}
    (hnode : node ∈ region.nodes.toList) :
    ∃ items item, j.find? "Nodes" = some (.array items) ∧ item ∈ items ∧
      isRelay region.regionId item = true ∧ node = parseNode item region.regionId := by
  have hid := parseRegion_regionId h
  obtain ⟨nodes, hnodes, h⟩ := Except.bind_eq_ok_iff.mp h
  obtain rfl := Except.ok.inj h
  unfold parseNodes at hnodes
  split at hnodes
  · rename_i items hitems
    have hlist := toList_of_pushNodes hnodes
    rw [Vec.toList_empty, List.nil_append] at hlist
    rw [hlist] at hnode
    obtain ⟨item, hitem, rfl⟩ := List.mem_map.mp hnode
    obtain ⟨hmem, hrelay⟩ := List.mem_filter.mp hitem
    exact ⟨items, item, hitems, hmem, hrelay, rfl⟩
  · obtain rfl := Except.ok.inj hnodes
    cases hnode

/-- A member of the document describes a usable region. -/
def Describes (member : List UInt8 × JsonTree) (region : DerpRegion) : Prop :=
  ∃ fallbackId, stoll member.1 = some fallbackId ∧ member.2.isObject = true ∧
    parseRegion member.2 fallbackId = .ok region ∧ region.Usable

/-- One more member: its region, if it describes one. -/
theorem pushRegion_eq_ok (h : pushRegion regions member = .ok regions') :
    (∃ region, regions' = regions ++ [region] ∧ ∀ r, Describes member r ↔ r = region) ∨
      (regions' = regions ∧ ∀ r, ¬ Describes member r) := by
  unfold pushRegion at h
  split at h
  · rename_i hnone
    refine .inr ⟨(Except.ok.inj h).symm, ?_⟩
    rintro r ⟨fallbackId, hsome, -⟩
    exact Option.some_ne_none _ (hsome.symm.trans hnone)
  rename_i fallbackId hsome
  split at h
  · rename_i hobject
    obtain ⟨region, hregion, h⟩ := Except.bind_eq_ok_iff.mp h
    obtain rfl := Except.ok.inj h
    have hdescribes (r : DerpRegion) : Describes member r ↔ r = region ∧ region.Usable := by
      constructor
      · rintro ⟨id, hid, -, hr, husable⟩
        obtain rfl := Option.some.inj (hsome.symm.trans hid)
        obtain rfl := Except.ok.inj (hregion.symm.trans hr)
        exact ⟨rfl, husable⟩
      · rintro ⟨rfl, husable⟩
        exact ⟨fallbackId, hsome, hobject, hregion, husable⟩
    split
    · rename_i husable
      exact .inl ⟨region, rfl, fun r => (hdescribes r).trans (and_iff_left husable)⟩
    · rename_i huseless
      exact .inr ⟨rfl, fun r hr => huseless ((hdescribes r).mp hr).2⟩
  · rename_i hother
    refine .inr ⟨(Except.ok.inj h).symm, ?_⟩
    rintro r ⟨-, -, hobject, -⟩
    exact hother hobject

/-- The members that describe usable regions, no others and all of them. -/
theorem mem_of_pushRegions {members : List (List UInt8 × JsonTree)}
    (h : members.foldlM pushRegion regions = .ok regions') (r : DerpRegion) :
    r ∈ regions' ↔ r ∈ regions ∨ ∃ member ∈ members, Describes member r := by
  induction members generalizing regions with
  | nil =>
    obtain rfl := Except.ok.inj h
    simp
  | cons member members ih =>
    rw [List.foldlM_cons] at h
    obtain ⟨next, hpush, hrest⟩ := Except.bind_eq_ok_iff.mp h
    rw [ih hrest, List.exists_mem_cons_iff, ← or_assoc]
    apply or_congr_left
    rcases pushRegion_eq_ok hpush with ⟨region, rfl, hregion⟩ | ⟨rfl, hnone⟩
    · rw [List.mem_append, List.mem_singleton, hregion]
    · exact (or_iff_left (hnone r)).symm

end Regions

/-! ## Fetched maps -/

/-- What holds of every map that was fetched: there are regions, in the order of their ids; each of
them has an id and relays, all of which have a host name. -/
structure DerpMap.Usable (map : DerpMap) : Prop where
  regions_ne : map.regions ≠ []
  sorted : map.regions.Pairwise fun a b => a.regionId ≤ b.regionId
  usable : ∀ region ∈ map.regions, region.Usable
  hostName : ∀ region ∈ map.regions, ∀ node ∈ region.nodes.toList, node.hostName ≠ .empty

section Fetched

variable {S : RegionSort} {root : JsonTree} {map : DerpMap} {region : DerpRegion}

theorem readDerpMap_eq_ok (h : readDerpMap S root = .ok map) :
    ∃ members regions, root.find? "Regions" = some (.object members) ∧
      members.foldlM pushRegion [] = .ok regions ∧ regions ≠ [] ∧ map = ⟨S.sort regions⟩ := by
  unfold readDerpMap at h
  split at h
  · rename_i members hmembers
    obtain ⟨regions, hregions, h⟩ := Except.bind_eq_ok_iff.mp h
    split at h
    · cases h
    · rename_i hne
      exact ⟨members, regions, hmembers, hregions, hne, (Except.ok.inj h).symm⟩
  · cases h

/-- The regions of a map are the usable ones of its document. -/
theorem mem_regions_iff (h : readDerpMap S root = .ok map) :
    region ∈ map.regions ↔ ∃ members, root.find? "Regions" = some (.object members) ∧
      ∃ member ∈ members, Describes member region := by
  obtain ⟨members, regions, hmembers, hregions, -, rfl⟩ := readDerpMap_eq_ok h
  rw [(S.perm regions).mem_iff, mem_of_pushRegions hregions]
  constructor
  · rintro (hnil | hdescribes)
    · cases hnil
    · exact ⟨members, hmembers, hdescribes⟩
  · rintro ⟨members', hmembers', hdescribes⟩
    obtain rfl := JsonTree.object.inj (Option.some.inj (hmembers.symm.trans hmembers'))
    exact .inr hdescribes

theorem usable_of_readDerpMap (h : readDerpMap S root = .ok map) : map.Usable := by
  obtain ⟨members, regions, -, -, hne, hmap⟩ := readDerpMap_eq_ok h
  refine ⟨?_, ?_, ?_, ?_⟩
  · intro hnil
    rw [hmap] at hnil
    have hperm := S.perm regions
    rw [show S.sort regions = [] from hnil] at hperm
    exact hne hperm.nil_eq.symm
  · rw [hmap]
    exact S.sorted regions
  · intro region hregion
    obtain ⟨-, -, member, -, fallbackId, -, -, -, husable⟩ := (mem_regions_iff h).mp hregion
    exact husable
  · intro region hregion node hnode
    obtain ⟨-, -, member, -, fallbackId, -, -, hparse, -⟩ := (mem_regions_iff h).mp hregion
    obtain ⟨items, item, -, -, hrelay, rfl⟩ := mem_nodes_of_parseRegion hparse hnode
    exact (of_decide_eq_true hrelay).2.2

theorem usable_of_fetch {parse : List UInt8 → Except String JsonTree} {fetch : Fetch}
    (h : fetchDerpMap S parse fetch = .ok map) : map.Usable := by
  obtain ⟨body, -, h⟩ := Except.bind_eq_ok_iff.mp h
  obtain ⟨root, -, h⟩ := Except.bind_eq_ok_iff.mp h
  exact usable_of_readDerpMap (Except.mapError_eq_ok_iff.mp h)

end Fetched

/-! ## Choices -/

section Choices

variable {map : DerpMap} {region : DerpRegion} {regionId : Int64}

theorem regionById_eq_ok (h : regionById map regionId = .ok region) :
    region ∈ map.regions ∧ region.regionId = regionId := by
  unfold regionById at h
  split at h
  · cases h
  · rename_i found hfound
    obtain rfl := Except.ok.inj h
    exact ⟨List.mem_of_find?_eq_some hfound, by simpa using List.find?_some hfound⟩

/-- A region that is in the map is found by its id, or another one with the same id. -/
theorem exists_regionById (h : region ∈ map.regions) :
    ∃ found, regionById map region.regionId = .ok found := by
  unfold regionById
  split
  · rename_i hnone
    exact absurd (decide_eq_true rfl) (List.find?_eq_none.mp hnone region h)
  · exact ⟨_, rfl⟩

theorem mem_of_select (h : selectDerpRegion map = .ok region) : region ∈ map.regions := by
  unfold selectDerpRegion at h
  split at h
  · cases h
  · rename_i first rest hregions
    obtain rfl := Except.ok.inj h
    rw [hregions]
    exact List.mem_cons_self

/-- The first region is the first one with its id. -/
theorem regionById_select (h : selectDerpRegion map = .ok region) :
    regionById map region.regionId = .ok region := by
  unfold selectDerpRegion at h
  split at h
  · cases h
  · rename_i first rest hregions
    obtain rfl := Except.ok.inj h
    unfold regionById
    rw [hregions, List.find?_cons_of_pos (by simp)]

/-- Which regions are chosen from a usable map. -/
theorem DerpMap.Usable.choices (h : map.Usable) :
    (∃ region, selectDerpRegion map = .ok region ∧
        ∀ r ∈ map.regions, region.regionId ≤ r.regionId) ∧
      ∀ region ∈ map.regions, ∃ node, primaryDerpNode region = .ok node ∧
        node ∈ region.nodes.toList ∧ node.hostName ≠ .empty := by
  constructor
  · unfold selectDerpRegion
    cases hregions : map.regions with
    | nil => exact absurd hregions h.regions_ne
    | cons region rest =>
      refine ⟨region, rfl, fun r hr => ?_⟩
      have hsorted := h.sorted
      rw [hregions, List.pairwise_cons] at hsorted
      rcases List.mem_cons.mp hr with rfl | hr
      · exact Int64.le_refl _
      · exact hsorted.1 r hr
  · intro region hregion
    unfold primaryDerpNode
    cases hnodes : region.nodes.toList with
    | nil => exact absurd (Vec.eq_empty_iff.mpr hnodes) (h.usable region hregion).2
    | cons node rest =>
      refine ⟨node, rfl, List.mem_cons_self, h.hostName region hregion node ?_⟩
      rw [hnodes]
      exact List.mem_cons_self

/-- **Fetching the map**: whatever the document is, a map that is fetched has the usable regions of
the document and no others, in the order of their ids. Choosing a region of it never fails and gives
one with the least id, and every region has a first relay, with a host name. -/
theorem derpMap_usable (S : RegionSort) (parse : List UInt8 → Except String JsonTree)
    {fetch : Fetch} (h : fetchDerpMap S parse fetch = .ok map) :
    (∃ body root members, fetch = .response 200 body ∧ parse body = .ok root ∧
      root.find? "Regions" = some (.object members) ∧
      ∀ region, region ∈ map.regions ↔ ∃ member ∈ members, Describes member region) ∧
    (map.regions.Pairwise fun a b => a.regionId ≤ b.regionId) ∧
    (∃ region, selectDerpRegion map = .ok region ∧
      ∀ r ∈ map.regions, region.regionId ≤ r.regionId) ∧
    ∀ region ∈ map.regions, ∃ node, primaryDerpNode region = .ok node ∧
      node ∈ region.nodes.toList ∧ node.hostName ≠ .empty := by
  have husable := usable_of_fetch h
  refine ⟨?_, husable.sorted, husable.choices⟩
  obtain ⟨body, hbody, h⟩ := Except.bind_eq_ok_iff.mp h
  obtain ⟨root, hroot, h⟩ := Except.bind_eq_ok_iff.mp h
  have hread := Except.mapError_eq_ok_iff.mp h
  obtain ⟨members, regions, hmembers, -⟩ := readDerpMap_eq_ok hread
  refine ⟨body, root, members, ?_, ?_, hmembers, fun region => ?_⟩
  · cases fetch with
    | response status octets =>
      have hstatus := Except.mapError_eq_ok_iff.mp hbody
      dsimp only [Fetch.body] at hstatus
      split at hstatus
      · cases hstatus
      · rename_i hok
        rw [not_not.mp hok, Except.ok.inj hstatus]
    | _ => cases hbody
  · exact Except.mapError_eq_ok_iff.mp hroot
  · rw [mem_regions_iff hread]
    constructor
    · rintro ⟨members', hmembers', hdescribes⟩
      obtain rfl := JsonTree.object.inj (Option.some.inj (hmembers.symm.trans hmembers'))
      exact hdescribes
    · exact fun hdescribes => ⟨members, hmembers, hdescribes⟩

/-- A document with a region of one relay, one without relays, and a member that is no number. -/
def exampleMapDocument : JsonTree :=
  let relay : JsonTree := .object [(ascii "HostName", .string ⟨[100], by decide⟩)]
  .object [(ascii "Regions", .object
    [(ascii " 7x", .object [(ascii "Nodes", .array [.null, relay])]), (ascii "8", .object []),
      (ascii "x", .object [(ascii "Nodes", .array [relay])])])]

/-- A region with one relay. -/
def exampleMapRegion : DerpRegion where
  regionId := 7
  nodes := ⟨[{ regionId := 7, hostName := ⟨[100], by decide⟩ }], by decide⟩

theorem derpMap_usable_example : ∃ map region,
    fetchDerpMap .stable (fun _ => .ok exampleMapDocument) (.response 200 []) = .ok map ∧
      selectDerpRegion map = .ok region := by
  obtain ⟨map, h⟩ : ∃ map,
      fetchDerpMap .stable (fun _ => .ok exampleMapDocument) (.response 200 []) = .ok map :=
    ⟨⟨RegionSort.stable.sort [exampleMapRegion]⟩, rfl⟩
  obtain ⟨-, -, ⟨region, hregion, -⟩, -⟩ := derpMap_usable .stable _ h
  exact ⟨map, region, h, hregion⟩

end Choices

end Tailcat
