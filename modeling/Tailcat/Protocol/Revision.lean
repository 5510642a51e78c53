import Tailcat.Protocol.Items
import Tailcat.Protocol.RoundTrip

/-!
# Revised addresses

The order of the entries in the maps of an address does not matter, nor do further entries with
keys that the parser does not know, whatever their values. A revision of an address may change any
of its maps in this way: its own, those of its regions and those of their nodes. The parser fills
in region ids only after its loops, so that a revision cannot change which ids are filled in.

## Main definitions

* `AddressRevised`: a revision of an address, at all its levels
* `nodeFields`, `regionFields`, `infoFields`: the fields of the three maps

## Main results

* `readNodeEntry_eq`, `readRegionEntry_eq`, `readInfoEntry_eq`: the entries are read by looking up
  their fields
* `parse_revised`: revised addresses are accepted alike, with the same contents
-/

namespace Tailcat

open Reader CborReader

/-! ## The maps of an address -/

/-- The keys of a node's map. -/
def nodeKeys : List Text := ['n', 'i', 'h', 't', '4', '6', 's', 'd', 'x'].map literal

/-- The keys of a region's map. -/
def regionKeys : List Text := ['i', 'c', 'm', 'N'].map literal

/-- The keys of an address's map. -/
def infoKeys : List Text := ['p', 'k', 'q', 'r', 'i'].map literal

/-- A node, revised or left as it is. -/
def NodeRevised (v v' : List UInt8) : Prop := v = v' ∨ MapRevised nodeKeys (fun _ => Eq) v v'

/-- A list of nodes, some of them revised. -/
def NodesRevised (v v' : List UInt8) : Prop := v = v' ∨ ArrayRevised NodeRevised v v'

/-- A region, revised or left as it is; its nodes may be revised. -/
def RegionRevised (v v' : List UInt8) : Prop :=
  v = v' ∨ MapRevised regionKeys (fun key => if key = literal 'N' then NodesRevised else Eq) v v'

/-- A list of regions, some of them revised. -/
def RegionsRevised (v v' : List UInt8) : Prop := v = v' ∨ ArrayRevised RegionRevised v v'

/-- A revised address; its regions and their nodes may be revised. -/
def AddressRevised (v v' : List UInt8) : Prop :=
  MapRevised infoKeys (fun key => if key = literal 'r' then RegionsRevised else Eq) v v'

/-! ## The fields of the maps -/

/-- The entries of a relay, each with its key, what it sets and how it is read. -/
def nodeFields : List (CborField DerpNode) :=
  [⟨literal 'n', Text, DerpNode.name, fun v n => { n with name := v }, fun _ => text⟩,
   ⟨literal 'i', Int64, DerpNode.regionId, fun v n => { n with regionId := v }, fun _ => integer⟩,
   ⟨literal 'h', Text, DerpNode.hostName, fun v n => { n with hostName := v }, fun _ => text⟩,
   ⟨literal 't', Text, DerpNode.certName, fun v n => { n with certName := v }, fun _ => text⟩,
   ⟨literal '4', Text, DerpNode.ipv4, fun v n => { n with ipv4 := v }, fun _ => text⟩,
   ⟨literal '6', Text, DerpNode.ipv6, fun v n => { n with ipv6 := v }, fun _ => text⟩,
   ⟨literal 's', Int64, DerpNode.stunPort, fun v n => { n with stunPort := v }, fun _ => integer⟩,
   ⟨literal 'd', Int64, DerpNode.derpPort, fun v n => { n with derpPort := v }, fun _ => integer⟩,
   ⟨literal 'x', Bool, DerpNode.insecureForTests, fun v n => { n with insecureForTests := v },
    fun _ => boolean⟩]

/-- The nodes of an `N` entry, behind those that are already there. -/
def readNodes (nodes : Vec DerpNode DerpNode.maxSize) : CborM (Vec DerpNode DerpNode.maxSize) := do
  let n ← arraySize
  readItems readNode n.toNat nodes

/-- The entries of a region, of which the relays depend on the region. -/
def regionFields : List (CborField DerpRegion) :=
  [⟨literal 'i', Int64, DerpRegion.regionId, fun v r => { r with regionId := v },
    fun _ => integer⟩,
   ⟨literal 'c', Text, DerpRegion.regionCode, fun v r => { r with regionCode := v },
    fun _ => text⟩,
   ⟨literal 'm', Text, DerpRegion.regionName, fun v r => { r with regionName := v },
    fun _ => text⟩,
   ⟨literal 'N', Vec DerpNode DerpNode.maxSize, DerpRegion.nodes, fun v r => { r with nodes := v },
    readNodes⟩]

/-- An optional key, when there is an entry for it. -/
def readOptionalKey (field : String) : CborM (Option Key32) := do
  let k ← key32 field
  return some k

/-- The regions of an `r` entry, behind those that are already there. -/
def appendRegions (regions : Vec DerpRegion DerpRegion.maxSize) :
    CborM (Vec DerpRegion DerpRegion.maxSize) := do
  let n ← arraySize
  if n > 1 then
    Reader.fail (parseError "more than one embedded DERP region")
  readItems readRegion n.toNat regions

/-- The entries of an address. -/
def infoFields : List (CborField InfoState) :=
  [⟨literal 'p', Key32, fun s => s.info.serverPublic,
    fun v s => { s with info.serverPublic := v, havePublic := true },
    fun _ => key32 "ServerPublic"⟩,
   ⟨literal 'k', Option Key32, fun s => s.info.serverDiscoPublic,
    fun v s => { s with info.serverDiscoPublic := v },
    fun _ => readOptionalKey "ServerDiscoPublic"⟩,
   ⟨literal 'q', Option Key32, fun s => s.info.presharedKey,
    fun v s => { s with info.presharedKey := v }, fun _ => readOptionalKey "PresharedKey"⟩,
   ⟨literal 'r', Vec DerpRegion DerpRegion.maxSize, fun s => s.info.regions,
    fun v s => { s with info.regions := v }, appendRegions⟩,
   ⟨literal 'i', Int64, fun s => s.info.regionId, fun v s => { s with info.regionId := v },
    fun _ => integer⟩]

/-- **The entries of a node** are read by looking up their fields. -/
theorem readNodeEntry_eq : readNodeEntry = readEntry text skip nodeFields := rfl

theorem readRegionEntry_eq : readRegionEntry = readEntry text skip regionFields := by
  funext region
  refine congrArg (text >>= ·) (funext fun key => ?_)
  simp only [regionFields, readField, RecordField.update, readNodes, bind_assoc]

theorem readRegions_eq (s : InfoState) : readRegions s = (do
    let regions ← appendRegions s.info.regions
    return { s with info.regions := regions }) := by
  rw [appendRegions, bind_assoc]
  refine congrArg (arraySize >>= ·) (funext fun n => ?_)
  by_cases hn : n > 1
  · simp only [if_pos hn, fail_bind]
  · simp only [if_neg hn]

theorem readInfoEntry_eq : readInfoEntry = readEntry text skip infoFields := by
  funext s
  refine congrArg (text >>= ·) (funext fun key => ?_)
  simp only [infoFields, readField, RecordField.update, readOptionalKey, bind_assoc, pure_bind,
    readRegions_eq]

theorem nodeKeys_eq : nodeFields.map RecordField.key = nodeKeys := rfl

theorem regionKeys_eq : regionFields.map RecordField.key = regionKeys := rfl

theorem infoKeys_eq : infoFields.map RecordField.key = infoKeys := rfl

theorem nodeFields_independent : nodeFields.Pairwise RecordField.Independent := by
  simp only [nodeFields, List.pairwise_cons, List.forall_mem_cons, List.not_mem_nil,
    false_implies, implies_true, List.Pairwise.nil, and_true]
  repeat' apply And.intro
  all_goals exact ⟨fun _ _ => rfl, fun _ _ => rfl, fun _ _ _ => rfl⟩

theorem regionFields_independent : regionFields.Pairwise RecordField.Independent := by
  simp only [regionFields, List.pairwise_cons, List.forall_mem_cons, List.not_mem_nil,
    false_implies, implies_true, List.Pairwise.nil, and_true]
  repeat' apply And.intro
  all_goals exact ⟨fun _ _ => rfl, fun _ _ => rfl, fun _ _ _ => rfl⟩

theorem infoFields_independent : infoFields.Pairwise RecordField.Independent := by
  simp only [infoFields, List.pairwise_cons, List.forall_mem_cons, List.not_mem_nil,
    false_implies, implies_true, List.Pairwise.nil, and_true]
  repeat' apply And.intro
  all_goals exact ⟨fun _ _ => rfl, fun _ _ => rfl, fun _ _ _ => rfl⟩

theorem readNode_eq : readNode = readRecord nodeFields {} := by
  rw [readRecord, ← readNodeEntry_eq]
  rfl

theorem readRegion_eq : readRegion = (do
    let region ← readRecord regionFields {}
    return { region with nodes := region.nodes.map region.adopt }) := by
  rw [readRecord, bind_assoc, ← readRegionEntry_eq]
  rfl

theorem readInfo_eq : readInfo = readRecord infoFields {} := by
  rw [readRecord, ← readInfoEntry_eq]
  rfl

/-! ## The readers take items as a whole -/

theorem delimitsItems_key32 (field : String) : DelimitsItems (key32 field) := by
  intro v hv
  refine (delimitsItems_bytes v hv).bind_nil fun raw => ?_
  split
  · exact (Reads.pure _).delimits
  · exact (Refuses.fail _ _).delimits

theorem delimitsItems_readOptionalKey (field : String) :
    DelimitsItems (readOptionalKey field) := fun v hv => (delimitsItems_key32 field v hv).map _

theorem delimitsItems_nodeFields : ∀ f ∈ nodeFields, ∀ v, DelimitsItems (f.read v) := by
  simp only [nodeFields, List.forall_mem_cons]
  exact ⟨fun _ => delimitsItems_text, fun _ => delimitsItems_integer, fun _ => delimitsItems_text,
    fun _ => delimitsItems_text, fun _ => delimitsItems_text, fun _ => delimitsItems_text,
    fun _ => delimitsItems_integer, fun _ => delimitsItems_integer,
    fun _ => delimitsItems_boolean, by simp⟩

theorem delimitsItems_readNode : DelimitsItems readNode :=
  readNode_eq ▸ delimitsItems_readRecord delimitsItems_nodeFields {}

theorem delimitsItems_readNodes (nodes : Vec DerpNode DerpNode.maxSize) :
    DelimitsItems (readNodes nodes) :=
  delimitsItems_arraySize fun _ _ hn hi => hn ▸ delimits_readItems delimitsItems_readNode hi nodes

theorem delimitsItems_regionFields : ∀ f ∈ regionFields, ∀ v, DelimitsItems (f.read v) := by
  simp only [regionFields, List.forall_mem_cons]
  exact ⟨fun _ => delimitsItems_integer, fun _ => delimitsItems_text, fun _ => delimitsItems_text,
    delimitsItems_readNodes, by simp⟩

theorem delimitsItems_readRegion : DelimitsItems readRegion := by
  intro v hv
  rw [readRegion_eq]
  exact (delimitsItems_readRecord delimitsItems_regionFields {} v hv).map _

theorem delimits_regionItems {n : UInt64} {items : List (List UInt8)} (hn : items.length = n.toNat)
    (hi : ∀ x ∈ items, Item x) (regions : Vec DerpRegion DerpRegion.maxSize) :
    Delimits (if n > 1 then do
        Reader.fail (parseError "more than one embedded DERP region")
        readItems readRegion n.toNat regions
      else readItems readRegion n.toNat regions) items.flatten := by
  split
  · exact (Refuses.fail _ _).delimits
  · exact hn ▸ delimits_readItems delimitsItems_readRegion hi regions

theorem delimitsItems_appendRegions (regions : Vec DerpRegion DerpRegion.maxSize) :
    DelimitsItems (appendRegions regions) :=
  delimitsItems_arraySize fun _ _ hn hi => delimits_regionItems hn hi regions

theorem delimitsItems_infoFields : ∀ f ∈ infoFields, ∀ v, DelimitsItems (f.read v) := by
  simp only [infoFields, List.forall_mem_cons]
  exact ⟨fun _ => delimitsItems_key32 _, fun _ => delimitsItems_readOptionalKey _,
    fun _ => delimitsItems_readOptionalKey _, delimitsItems_appendRegions,
    fun _ => delimitsItems_integer, by simp⟩

theorem delimitsItems_readInfo : DelimitsItems readInfo :=
  readInfo_eq ▸ delimitsItems_readRecord delimitsItems_infoFields {}

/-! ## Revisions are read alike -/

section Alike

variable {v v' : List UInt8}

theorem value_nodeRevised (h : NodeRevised v v') : readNode.value v = readNode.value v' := by
  rcases h with rfl | h
  · rfl
  · rw [readNode_eq]
    exact value_mapRevised delimitsItems_nodeFields nodeFields_independent
      (fun f _ v v' hv old => congrArg _ hv) (nodeKeys_eq ▸ h) {}

theorem value_nodesRevised (h : NodesRevised v v') (nodes : Vec DerpNode DerpNode.maxSize) :
    (readNodes nodes).value v = (readNodes nodes).value v' := by
  rcases h with rfl | h
  · rfl
  · refine value_arrayRevised
      (fun n items hn hi => hn ▸ delimits_readItems delimitsItems_readNode hi nodes)
      (fun n items items' hn hi hi' hr => ?_) h
    have halike := value_readItems_congr delimitsItems_readNode hi hi'
      (hr.imp fun _ _ hx => value_nodeRevised hx) nodes
    rwa [← hr.length_eq, hn] at halike

/-- Only the field with the key `k` reads values that have changed. -/
theorem value_eq_of_key {σ : Type} {fields : List (CborField σ)} {k : Text}
    {S : List UInt8 → List UInt8 → Prop}
    (hS : ∀ f ∈ fields, f.key = k → ∀ v v', S v v' → ∀ old,
      (f.read old).value v = (f.read old).value v') :
    ∀ f ∈ fields, ∀ v v', (if f.key = k then S else Eq) v v' → ∀ old,
      (f.read old).value v = (f.read old).value v' := by
  intro f hf v v' hv old
  by_cases hk : f.key = k
  · rw [if_pos hk] at hv
    exact hS f hf hk v v' hv old
  · rw [if_neg hk] at hv
    rw [hv]

theorem value_regionRevised (h : RegionRevised v v') :
    readRegion.value v = readRegion.value v' := by
  rcases h with rfl | h
  · rfl
  · have hnodes : ∀ f ∈ regionFields, f.key = literal 'N' → ∀ v v', NodesRevised v v' → ∀ old,
        (f.read old).value v = (f.read old).value v' := by
      simp only [regionFields, List.forall_mem_cons]
      exact ⟨fun hk => absurd hk (by decide), fun hk => absurd hk (by decide),
        fun hk => absurd hk (by decide), fun _ _ _ hv nodes => value_nodesRevised hv nodes, by simp⟩
    rw [readRegion_eq, value_map, value_map]
    exact congrArg _ (value_mapRevised delimitsItems_regionFields regionFields_independent
      (value_eq_of_key hnodes) (regionKeys_eq ▸ h) {})

theorem value_regionsRevised (h : RegionsRevised v v')
    (regions : Vec DerpRegion DerpRegion.maxSize) :
    (appendRegions regions).value v = (appendRegions regions).value v' := by
  rcases h with rfl | h
  · rfl
  · refine value_arrayRevised (fun n items hn hi => delimits_regionItems hn hi regions)
      (fun n items items' hn hi hi' hr => ?_) h
    split
    · rw [fail_bind, (Refuses.fail _ _).value_eq, (Refuses.fail _ _).value_eq]
    · have halike := value_readItems_congr delimitsItems_readRegion hi hi'
        (hr.imp fun _ _ hx => value_regionRevised hx) regions
      rwa [← hr.length_eq, hn] at halike

/-- Revised addresses are read alike. -/
theorem value_addressRevised (h : AddressRevised v v') : readInfo.value v = readInfo.value v' := by
  have hregions : ∀ f ∈ infoFields, f.key = literal 'r' → ∀ v v', RegionsRevised v v' → ∀ old,
      (f.read old).value v = (f.read old).value v' := by
    simp only [infoFields, List.forall_mem_cons]
    exact ⟨fun hk => absurd hk (by decide), fun hk => absurd hk (by decide),
      fun hk => absurd hk (by decide), fun _ _ _ hv regions => value_regionsRevised hv regions,
      fun hk => absurd hk (by decide), by simp⟩
  rw [AddressRevised, ← infoKeys_eq] at h
  rw [readInfo_eq]
  exact value_mapRevised delimitsItems_infoFields infoFields_independent
    (value_eq_of_key hregions) h {}

end Alike

/-! ## Parsing -/

/-- What follows the loop over the entries looks at the cursor only to see whether it is at the
end. -/
theorem finishInfo_congr (s : InfoState) {r r' : CborReader}
    (h : CborReader.done r = CborReader.done r') : finishInfo s r = finishInfo s r' := by
  simp only [finishInfo, h]

/-- What the parser makes of one item: nothing trails it. -/
theorem parse_item {v : List UInt8} (hv : Item v) {info : ConnInfo} :
    parseTailcatAddr (['t'.toUInt8, 'c'.toUInt8] ++ base64urlEncode v) = .ok info ↔
      ∃ s, readInfo.value v = some s ∧ finishInfo s (Cursor.start []) = .ok info := by
  have hdrop : (['t'.toUInt8, 'c'.toUInt8] ++ base64urlEncode v).drop 2 = base64urlEncode v := rfl
  have hdone : CborReader.done ((Cursor.start v).advance v.length) =
      CborReader.done (Cursor.start []) := by
    simp [CborReader.done, Cursor.start]
  have hread : ∀ {s}, readInfo.value v = some s →
      readInfo (Cursor.start v) = .ok (s, (Cursor.start v).advance v.length) :=
    fun hs => (delimitsItems_readInfo v hv).reads hs _ [] (by simp)
  rw [parse_eq_ok, hdrop, base64urlDecode_encode hv.ne_nil]
  constructor
  · rintro ⟨-, raw, s, r, hraw, hr, hf⟩
    obtain rfl := Except.ok.inj hraw
    have hs : readInfo.value v = some s := by rw [value, hr]
    obtain ⟨-, rfl⟩ := Prod.mk.inj (Except.ok.inj (hr.symm.trans (hread hs)))
    exact ⟨s, hs, finishInfo_congr s hdone ▸ hf⟩
  · rintro ⟨s, hs, hf⟩
    exact ⟨List.prefix_append _ _, v, s, _, rfl, hread hs, (finishInfo_congr s hdone).trans hf⟩

/-- **Order and unknown fields do not matter**: revised addresses are accepted alike, and read as
the same contents. -/
theorem parse_revised {v v' : List UInt8} (h : AddressRevised v v') (info : ConnInfo) :
    parseTailcatAddr (['t'.toUInt8, 'c'.toUInt8] ++ base64urlEncode v) = .ok info ↔
      parseTailcatAddr (['t'.toUInt8, 'c'.toUInt8] ++ base64urlEncode v') = .ok info := by
  obtain ⟨es, es', hes, hes', -⟩ := id h
  rw [parse_item hes.item, parse_item hes'.item, value_addressRevised h]

/-- An entry whose key is one character, with the narrowest head. -/
def Entry.short (c : Char) (value : List UInt8) (h : Item value) : Entry :=
  ⟨[0x61], literal c, value, @IsHead.immediate 3 1 (by decide), h⟩

/-- A node gains a float, its region is turned around, and its address gains a tagged array with a
map and comes in another order. -/
theorem parse_revised_example :
    let node : List UInt8 := [0xa1, 0x61, 0x6e, 0x61, 0x61]
    let node' : List UInt8 := [0xa2, 0x61, 0x7a, 0xf9, 0x3c, 0x00, 0x61, 0x6e, 0x61, 0x61]
    let region := [0xa2, 0x61, 0x69, 0x07, 0x61, 0x4e, 0x81] ++ node
    let region' := [0xa2, 0x61, 0x4e, 0x81] ++ node' ++ [0x61, 0x69, 0x07]
    let key : List UInt8 := [0x58, 0x20] ++ List.replicate 32 1
    let addr := [0xa2, 0x61, 0x70] ++ key ++ [0x61, 0x72, 0x81] ++ region
    let addr' := [0xa3, 0x61, 0x72, 0x81] ++ region' ++
      [0x61, 0x7a, 0xc1, 0x82, 0xa1, 0x01, 0x40, 0x20] ++ [0x61, 0x70] ++ key
    (parseTailcatAddr (['t'.toUInt8, 'c'.toUInt8] ++ base64urlEncode addr)).isOk = true ∧
    ∀ info, parseTailcatAddr (['t'.toUInt8, 'c'.toUInt8] ++ base64urlEncode addr) = .ok info ↔
      parseTailcatAddr (['t'.toUInt8, 'c'.toUInt8] ++ base64urlEncode addr') = .ok info := by
  intro node node' region region' key addr addr'
  refine ⟨by decide +kernel, ?_⟩
  have hname : Item [0x61, 0x61] :=
    .string (h := [0x61]) (s := [0x61]) (.inr rfl) (@IsHead.immediate 3 1 (by decide)) rfl
  have hfloat : Item [0xf9, 0x3c, 0x00] :=
    .scalar (.inr (.inr rfl)) (@IsHead.following 7 25 2 0x3c00 (by decide) (by decide))
  have hid : Item [0x07] := .scalar (.inl rfl) (@IsHead.immediate 0 7 (by decide))
  have hkey : Item key :=
    .string (h := [0x58, 0x20]) (s := List.replicate 32 1) (.inl rfl)
      (@IsHead.following 2 24 1 32 (by decide) (by decide)) rfl
  have hnode : IsMap [.short 'n' _ hname] node :=
    ⟨1, [0xa1], @IsHead.immediate 5 1 (by decide), rfl, rfl⟩
  have hnode' : IsMap [.short 'z' _ hfloat, .short 'n' _ hname] node' :=
    ⟨2, [0xa2], @IsHead.immediate 5 2 (by decide), rfl, rfl⟩
  have hnodes : IsArray [node] ([0x81] ++ node) :=
    ⟨1, [0x81], @IsHead.immediate 4 1 (by decide), rfl, by simp [hnode.item], rfl⟩
  have hnodes' : IsArray [node'] ([0x81] ++ node') :=
    ⟨1, [0x81], @IsHead.immediate 4 1 (by decide), rfl, by simp [hnode'.item], rfl⟩
  have hregion : IsMap [.short 'i' _ hid, .short 'N' _ hnodes.item] region :=
    ⟨2, [0xa2], @IsHead.immediate 5 2 (by decide), rfl, rfl⟩
  have hregion' : IsMap [.short 'N' _ hnodes'.item, .short 'i' _ hid] region' :=
    ⟨2, [0xa2], @IsHead.immediate 5 2 (by decide), rfl, rfl⟩
  have hregions : IsArray [region] ([0x81] ++ region) :=
    ⟨1, [0x81], @IsHead.immediate 4 1 (by decide), rfl, by simp [hregion.item], rfl⟩
  have hregions' : IsArray [region'] ([0x81] ++ region') :=
    ⟨1, [0x81], @IsHead.immediate 4 1 (by decide), rfl, by simp [hregion'.item], rfl⟩
  have htagged : Item [0xc1, 0x82, 0xa1, 0x01, 0x40, 0x20] := by
    have hone : Item [0x01] := .scalar (.inl rfl) (@IsHead.immediate 0 1 (by decide))
    have hempty : Item [0x40] :=
      .string (h := [0x40]) (s := []) (.inl rfl) (@IsHead.immediate 2 0 (by decide)) rfl
    have hmap : Item [0xa1, 0x01, 0x40] :=
      @Item.map 1 [0xa1] [([0x01], [0x40])] (@IsHead.immediate 5 1 (by decide)) rfl
        (by simp [hone]) (by simp [hempty])
    have hminus : Item [0x20] := .scalar (.inr (.inl rfl)) (@IsHead.immediate 1 0 (by decide))
    have harray : Item [0x82, 0xa1, 0x01, 0x40, 0x20] :=
      @Item.array 2 [0x82] [[0xa1, 0x01, 0x40], [0x20]] (@IsHead.immediate 4 2 (by decide)) rfl
        (by simp [hmap, hminus])
    exact .tag (h := [0xc1]) (@IsHead.immediate 6 1 (by decide)) harray
  have haddr : IsMap [.short 'p' _ hkey, .short 'r' _ hregions.item] addr :=
    ⟨2, [0xa2], @IsHead.immediate 5 2 (by decide), rfl, rfl⟩
  have haddr' :
      IsMap [.short 'r' _ hregions'.item, .short 'z' _ htagged, .short 'p' _ hkey] addr' :=
    ⟨3, [0xa3], @IsHead.immediate 5 3 (by decide), rfl, rfl⟩
  -- Level by level, from the node.
  have hz : literal 'z' ∉ nodeKeys ∧ literal 'z' ∉ infoKeys := by decide
  have hn : NodeRevised node node' :=
    .inr ⟨_, _, hnode, hnode', (by decide : [literal 'n'].Nodup),
      [.short 'n' _ hname], [.short 'z' _ hfloat], .cons ⟨rfl, rfl⟩ .nil,
      List.forall_mem_singleton.mpr hz.1, .swap _ _ _⟩
  have hr : RegionRevised region region' :=
    .inr ⟨_, _, hregion, hregion', (by decide : [literal 'i', literal 'N'].Nodup),
      [.short 'i' _ hid, .short 'N' _ hnodes'.item], [],
      .cons ⟨rfl, rfl⟩ (.cons ⟨rfl, .inr ⟨_, _, hnodes, hnodes', .cons hn .nil⟩⟩ .nil),
      List.forall_mem_nil _, .swap _ _ _⟩
  exact parse_revised ⟨_, _, haddr, haddr', (by decide : [literal 'p', literal 'r'].Nodup),
    [.short 'p' _ hkey, .short 'r' _ hregions'.item], [.short 'z' _ htagged],
    .cons ⟨rfl, rfl⟩ (.cons ⟨rfl, .inr ⟨_, _, hregions, hregions', .cons hr .nil⟩⟩ .nil),
    List.forall_mem_singleton.mpr hz.2, .trans (.cons _ (.swap _ _ _)) (.swap _ _ _)⟩

end Tailcat
