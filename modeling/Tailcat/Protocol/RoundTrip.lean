import Tailcat.Protocol.Address

/-!
# Reading back an encoded address

The readers of the three maps read what their writers write. Reading changes two things: a node
without a region takes the region it is listed in, and an address without a region id takes the
one of its region.

## Main definitions

* `ConnInfo.Valid`: the rules of the format
* `ConnInfo.Settled`: nothing is left for the parser to fill in
* `ConnInfo.settle`: what the parser fills in

## Main results

* `parse_encode`: parsing the encoding of valid contents gives the settled contents back
* `settle_eq_self`: the parser leaves settled contents as they are
-/

namespace Tailcat

open Reader

/-- The contents an address may have. -/
structure ConnInfo.Valid (info : ConnInfo) : Prop where
  serverPublic : ¬ info.serverPublic.allZero
  serverDiscoPublic : ¬ info.serverDiscoPublic.any Octets.allZero
  regions : info.regions.toList.length ≤ 1
  reachable : info.regionId ≠ 0 ∨ info.regions ≠ .empty

/-- No node is left without a region id where its region has one. -/
def DerpRegion.Adopted (r : DerpRegion) : Prop :=
  ∀ n ∈ r.nodes.toList, n.regionId = 0 → r.regionId = 0

/-- Every node without a region id has taken that of its region, and so has the address. -/
structure ConnInfo.Settled (info : ConnInfo) : Prop where
  regions : ∀ r ∈ info.regions.toList, r.Adopted
  regionId : info.regionId = 0 → ∀ r ∈ info.regions.toList.head?, r.regionId = 0

/-- A region whose nodes have taken its region id where they had none. -/
def DerpRegion.adoptNodes (r : DerpRegion) : DerpRegion := { r with nodes := r.nodes.map r.adopt }

/-- The contents with the region ids that the parser fills in. -/
def ConnInfo.settle (info : ConnInfo) : ConnInfo :=
  { info with regions := info.regions.map DerpRegion.adoptNodes }.inheritRegionId

/-! ## Entries -/

theorem toNat_countPresent {count : UInt64} {present : List Bool}
    (h : count.toNat + present.length < 2 ^ 64) :
    (countPresent count present).toNat = count.toNat + (present.map Bool.toNat).sum := by
  induction present generalizing count with
  | nil => rfl
  | cons p present ih =>
    rw [List.length_cons] at h
    rw [countPresent, List.foldl_cons, ← countPresent, List.map_cons, List.sum_cons]
    cases p with
    | false => rw [if_neg (by decide), ih (by omega), Bool.toNat_false, Nat.zero_add]
    | true =>
      have hc : (count + 1).toNat = count.toNat + 1 := by
        rw [UInt64.toNat_add, UInt64.toNat_one, Nat.mod_eq_of_lt (by omega)]
      rw [if_pos rfl, ih (by omega), hc, Bool.toNat_true, Nat.add_assoc]

/-- An optional entry is read in as many steps as it is counted for. -/
theorem reads_entry {σ : Type} {body : σ → CborM σ} {s t : σ} {present : Bool}
    {key : Char} {value : List UInt8}
    (hp : present = true → Reads (body s) (CborWriter.text (literal key) ++ value) t)
    (hn : present = false → t = s) :
    Reads (times body present.toNat s) (entry present key value) t := by
  cases present with
  | true => exact (hp rfl).bind_pure (.pure t)
  | false =>
    rw [hn rfl]
    exact .pure s

/-- The entry of a field that is left out at its default value `d`: the body reads the key, finds
that it is this field's and sets it to what `p` reads. -/
theorem reads_field {σ α : Type} [DecidableEq α] {body : σ → CborM σ} {s : σ} {f : Text → CborM σ}
    {p : CborM α} {enc : α → List UInt8} (henc : ∀ a, Reads p (enc a) a) {set : α → σ} {v d : α}
    {key : Char} (hbody : body s = CborReader.text >>= f)
    (hkey : f (literal key) = p >>= fun a => pure (set a)) (hd : set d = s) :
    Reads (times body (decide (v ≠ d)).toNat s) (entry (v ≠ d) key (enc v)) (set v) := by
  refine reads_entry (fun _ => ?_) fun h => ?_
  · rw [hbody]
    refine (CborReader.reads_text _).bind ?_
    rw [hkey]
    exact (henc v).bind_pure (.pure _)
  · rw [not_not.mp (of_decide_eq_false h), hd]

/-! ## Nodes -/

theorem reads_writeNode (n : DerpNode) : Reads readNode (writeNode n) n := by
  simp only [writeNode, List.append_assoc]
  refine (CborReader.reads_mapSize _).bind ?_
  rw [toNat_countPresent (by simp)]
  simp only [List.map_cons, List.map_nil, List.sum_cons, List.sum_nil, Nat.add_zero,
    UInt64.toNat_zero, Nat.zero_add]
  -- The records that the entries fill are reduced as they grow.
  refine Reads.times_add (reads_field CborReader.reads_text rfl rfl rfl) ?_
  refine Reads.times_add (reads_field CborReader.reads_integer rfl rfl rfl) ?_
  dsimp only
  refine Reads.times_add (reads_field CborReader.reads_text rfl rfl rfl) ?_
  dsimp only
  refine Reads.times_add (reads_field CborReader.reads_text rfl rfl rfl) ?_
  dsimp only
  refine Reads.times_add (reads_field CborReader.reads_text rfl rfl rfl) ?_
  dsimp only
  refine Reads.times_add (reads_field CborReader.reads_text rfl rfl rfl) ?_
  dsimp only
  refine Reads.times_add (reads_field CborReader.reads_integer rfl rfl rfl) ?_
  dsimp only
  refine Reads.times_add (reads_field CborReader.reads_integer rfl rfl rfl) ?_
  dsimp only
  refine reads_entry (fun h => (CborReader.reads_text _).bind ?_) fun h => ?_
  · have hb : Reads CborReader.boolean (CborWriter.boolean true) n.insecureForTests :=
      h ▸ CborReader.reads_boolean true
    exact hb.bind_pure (.pure _)
  · rw [← h]

/-! ## Regions -/

/-- The loop over an array reads back the items that were written one after another. -/
theorem reads_pushBack {α : Type} {cap : ℕ} {item : CborM α} {write : α → List UInt8} {f : α → α}
    {items : List α} (h : ∀ x ∈ items, Reads item (write x) (f x)) (xs ys : Vec α cap)
    (hys : ys.toList = xs.toList ++ items.map f) :
    Reads (times (fun xs => do Reader.lift (xs.pushBack (← item))) items.length xs)
      (items.flatMap write) ys := by
  induction items generalizing xs with
  | nil =>
    obtain rfl : ys = xs := Vec.ext (by simpa using hys)
    exact .pure _
  | cons x items ih =>
    -- There is room for this item, since there is for all of them.
    have hl : (xs.toList ++ [f x]).length ≤ cap := by
      have := ys.length_le
      simp only [hys, List.map_cons, List.length_append, List.length_cons, List.length_nil] at this ⊢
      omega
    rw [List.length_cons, times_succ, List.flatMap_cons]
    refine Reads.bind (?_ : Reads _ _ ⟨xs.toList ++ [f x], hl⟩)
      (ih (fun y hy => h y (by simp [hy])) _ ?_)
    · refine (h x (by simp)).bind_pure ?_
      rw [Vec.pushBack_eq_ok.mpr (rfl : (⟨xs.toList ++ [f x], hl⟩ : Vec α cap).toList = _)]
      exact .pure _
    · simp [hys]

theorem reads_readItems {α : Type} {cap : ℕ} {item : CborM α} {write : α → List UInt8} {f : α → α}
    {xs : Vec α cap} (h : ∀ x ∈ xs.toList, Reads item (write x) (f x)) :
    Reads (readItems item xs.toList.length .empty) (xs.toList.flatMap write) (xs.map f) := by
  rw [readItems, Vec.reserve, if_pos xs.length_le]
  exact reads_pushBack h _ _ rfl

/-- The size of a vector fits the word it is written in. -/
theorem toNat_size {α : Type} {cap : ℕ} (hcap : cap < 2 ^ 64) (xs : Vec α cap) :
    (UInt64.ofNat xs.toList.length).toNat = xs.toList.length := by
  rw [UInt64.toNat_ofNat', Nat.mod_eq_of_lt (xs.length_le.trans_lt hcap)]

theorem reads_writeRegion (r : DerpRegion) : Reads readRegion (writeRegion r) r.adoptNodes := by
  simp only [writeRegion, List.append_assoc]
  refine (CborReader.reads_mapSize _).bind (Reads.bind_pure (?_ : Reads _ _ r) (.pure _))
  rw [toNat_countPresent (by simp)]
  simp only [List.map_cons, List.map_nil, List.sum_cons, List.sum_nil, Nat.add_zero,
    UInt64.toNat_zero, Nat.zero_add]
  refine Reads.times_add (reads_field CborReader.reads_integer rfl rfl rfl) ?_
  refine Reads.times_add (reads_field CborReader.reads_text rfl rfl rfl) ?_
  dsimp only
  refine Reads.times_add (reads_field CborReader.reads_text rfl rfl rfl) ?_
  dsimp only
  refine reads_entry (fun _ => (CborReader.reads_text _).bind ?_) fun h => ?_
  · -- The nodes, when there are any.
    have hn : Reads (readItems readNode r.nodes.toList.length .empty)
        (r.nodes.toList.flatMap writeNode) (r.nodes.map id) :=
      reads_readItems fun n _ => reads_writeNode n
    have hid : r.nodes.map id = r.nodes := Vec.ext (by simp)
    rw [hid] at hn
    refine (CborReader.reads_arraySize _).bind ?_
    rw [toNat_size (by decide)]
    exact hn.bind_pure (.pure _)
  · rw [← not_not.mp (of_decide_eq_false h)]

/-! ## Addresses -/

theorem reads_key32 (field : String) (k : Key32) : Reads (key32 field) (CborWriter.bytes k) k := by
  refine (CborReader.reads_bytes k).bind_pure ?_
  rw [dif_pos k.toList_length]
  exact .pure _

/-- The entry of an optional key, which the body sets with `set`. -/
theorem reads_keyEntry {body : InfoState → CborM InfoState} {s : InfoState}
    {f : Text → CborM InfoState} {field : String} (set : Option Key32 → InfoState) {key : Char}
    {k : Option Key32} (hbody : body s = CborReader.text >>= f)
    (hkey : f (literal key) = key32 field >>= fun k => pure (set (some k))) (hd : set none = s) :
    Reads (times body k.isSome.toNat s) (keyEntry key k) (set k) := by
  cases k with
  | none =>
    rw [hd]
    exact .pure s
  | some k =>
    rw [keyEntry, Option.isSome_some, Bool.toNat_true, times_succ, hbody]
    refine Reads.bind_pure ((CborReader.reads_text _).bind ?_) (.pure _)
    rw [hkey]
    exact (reads_key32 field k).bind_pure (.pure _)

/-- The entries in front of the regions: the keys. -/
theorem reads_writeKeys (info : ConnInfo) :
    Reads (times readInfoEntry
        (1 + (info.serverDiscoPublic.isSome.toNat + info.presharedKey.isSome.toNat)) {})
      ((CborWriter.text (literal 'p') ++ CborWriter.bytes info.serverPublic) ++
        (keyEntry 'k' info.serverDiscoPublic ++ keyEntry 'q' info.presharedKey))
      ⟨{ serverPublic := info.serverPublic, serverDiscoPublic := info.serverDiscoPublic,
         presharedKey := info.presharedKey }, true⟩ := by
  -- Entry by entry: what is read so far is what was written so far.
  refine Reads.times_add (t := ⟨{ serverPublic := info.serverPublic }, true⟩) ?_ ?_
  · refine Reads.bind_pure ((CborReader.reads_text _).bind ?_) (.pure _)
    exact (reads_key32 _ info.serverPublic).bind_pure (.pure _)
  refine Reads.times_add (reads_keyEntry (fun k =>
    ⟨{ serverPublic := info.serverPublic, serverDiscoPublic := k }, true⟩) rfl rfl rfl) ?_
  exact reads_keyEntry (fun k =>
    ⟨{ serverPublic := info.serverPublic, serverDiscoPublic := info.serverDiscoPublic,
       presharedKey := k }, true⟩) rfl rfl rfl

/-- The number of entries that `writeInfo` announces. -/
theorem toNat_countInfo (info : ConnInfo) :
    (countPresent 1 [info.serverDiscoPublic.isSome, info.presharedKey.isSome,
        info.regions ≠ .empty, info.regionId ≠ 0]).toNat =
      (1 + (info.serverDiscoPublic.isSome.toNat + info.presharedKey.isSome.toNat)) +
        ((decide (info.regions ≠ .empty)).toNat + (decide (info.regionId ≠ 0)).toNat) := by
  rw [toNat_countPresent (by simp)]
  simp only [List.map_cons, List.map_nil, List.sum_cons, List.sum_nil, UInt64.toNat_one]
  omega

theorem reads_writeInfo {info : ConnInfo} (h : info.regions.toList.length ≤ 1) :
    Reads readInfo (writeInfo info)
      ⟨{ info with regions := info.regions.map DerpRegion.adoptNodes }, true⟩ := by
  simp only [writeInfo, List.append_assoc]
  refine (CborReader.reads_mapSize _).bind ?_
  -- The keys first, then the region, if there is one, and the region id.
  rw [toNat_countInfo, ← List.append_assoc (CborWriter.text _),
    ← List.append_assoc (keyEntry 'k' _), ← List.append_assoc (CborWriter.text _ ++ _)]
  refine Reads.times_add (reads_writeKeys info) ?_
  refine Reads.times_add (reads_entry (t :=
    ⟨{ serverPublic := info.serverPublic, serverDiscoPublic := info.serverDiscoPublic,
       presharedKey := info.presharedKey,
       regions := info.regions.map DerpRegion.adoptNodes }, true⟩)
    (fun _ => (CborReader.reads_text _).bind ?_) fun h => ?_) ?_
  · have hr : Reads (readItems readRegion info.regions.toList.length .empty)
        (info.regions.toList.flatMap writeRegion) (info.regions.map DerpRegion.adoptNodes) :=
      reads_readItems fun r _ => reads_writeRegion r
    have hn : ¬ UInt64.ofNat info.regions.toList.length > 1 := by
      rw [gt_iff_lt, UInt64.lt_iff_toNat_lt, toNat_size (by decide), UInt64.toNat_one]
      omega
    refine (CborReader.reads_arraySize _).bind ?_
    rw [if_neg hn, toNat_size (by decide)]
    exact hr.bind_pure (.pure _)
  · rw [not_not.mp (of_decide_eq_false h)]
    rfl
  · refine reads_entry (fun _ => (CborReader.reads_text _).bind ?_) fun h => ?_
    · exact (CborReader.reads_integer _).bind_pure (.pure _)
    · rw [← not_not.mp (of_decide_eq_false h)]

/-! ## The round trip -/

theorem encode_of_valid {info : ConnInfo} (h : info.Valid) :
    encodeTailcatAddr info =
      .ok (['t'.toUInt8, 'c'.toUInt8] ++ base64urlEncode (writeInfo info)) := by
  rw [encodeTailcatAddr, if_neg h.serverPublic, if_neg h.serverDiscoPublic]

theorem readInfo_writeInfo {info : ConnInfo} (h : info.regions.toList.length ≤ 1) :
    readInfo (Cursor.start (writeInfo info)) =
      .ok (⟨{ info with regions := info.regions.map DerpRegion.adoptNodes }, true⟩,
        (Cursor.start (writeInfo info)).advance (writeInfo info).length) :=
  reads_writeInfo h _ [] (by simp)

theorem writeInfo_ne_nil (info : ConnInfo) : writeInfo info ≠ [] := by
  simp [writeInfo, CborWriter.text, literal]

/-- The region id is all that changes, and afterwards it is 0 only where the region's is. -/
theorem inheritRegionId_eq (info : ConnInfo) :
    ∃ i, info.inheritRegionId = { info with regionId := i } ∧
      (i = 0 → ∀ r ∈ info.regions.toList.head?, r.regionId = 0) := by
  rw [ConnInfo.inheritRegionId]
  split
  · rename_i hr
    exact ⟨info.regionId, rfl, by simp [hr]⟩
  · rename_i front _ hr
    split
    · exact ⟨front.regionId, rfl, by simp [hr]⟩
    · rename_i hi
      exact ⟨info.regionId, rfl, fun h => absurd h hi⟩

theorem regions_settle (info : ConnInfo) :
    info.settle.regions = info.regions.map DerpRegion.adoptNodes := by
  obtain ⟨i, he, -⟩ :=
    inheritRegionId_eq { info with regions := info.regions.map DerpRegion.adoptNodes }
  rw [ConnInfo.settle, he]

/-- Filling in the region ids keeps the address reachable. -/
theorem reachable_settle {info : ConnInfo} (h : info.regionId ≠ 0 ∨ info.regions ≠ .empty) :
    info.settle.regionId ≠ 0 ∨ info.settle.regions ≠ .empty := by
  rw [regions_settle]
  by_cases he : info.regions = .empty
  · left
    have hs : info.settle = info := by
      rcases info with ⟨_, _, _, regions, _⟩
      obtain rfl : regions = .empty := he
      rfl
    rw [hs]
    exact h.resolve_right (not_not.mpr he)
  · right
    intro hm
    rw [Vec.eq_empty_iff, Vec.toList_map, List.map_eq_nil_iff] at hm
    exact he (Vec.eq_empty_iff.mpr hm)

theorem parse_writeInfo {info : ConnInfo} (h : info.Valid) :
    parseTailcatAddr (['t'.toUInt8, 'c'.toUInt8] ++ base64urlEncode (writeInfo info)) =
      .ok info.settle := by
  refine parse_eq_ok.mpr ⟨List.prefix_append _ _, writeInfo info, _, _, ?_,
    readInfo_writeInfo h.regions, finishInfo_eq_ok.mpr ?_⟩
  · have hd : ∀ s : List UInt8, (['t'.toUInt8, 'c'.toUInt8] ++ s).drop 2 = s := fun _ => rfl
    rw [hd, base64urlDecode_encode (writeInfo_ne_nil info)]
  · refine ⟨?_, rfl, h.serverPublic, h.serverDiscoPublic, rfl, reachable_settle h.reachable⟩
    simp [CborReader.done, Cursor.start]

theorem adopt_eq_self {r : DerpRegion} {n : DerpNode} (h : n.regionId = 0 → r.regionId = 0) :
    r.adopt n = n := by
  rw [DerpRegion.adopt]
  split
  · rename_i hn
    rw [h hn, ← hn]
  · rfl

theorem adoptNodes_eq_self {r : DerpRegion} (h : r.Adopted) : r.adoptNodes = r := by
  have hn : r.nodes.map r.adopt = r.nodes :=
    Vec.map_eq_self fun n hm => adopt_eq_self (h n hm)
  rw [DerpRegion.adoptNodes, hn]

theorem inheritRegionId_eq_self {info : ConnInfo}
    (h : info.regionId = 0 → ∀ r ∈ info.regions.toList.head?, r.regionId = 0) :
    info.inheritRegionId = info := by
  rw [ConnInfo.inheritRegionId]
  split
  · rfl
  · rename_i front _ hr
    split
    · rename_i hi
      rw [h hi front (by simp [hr]), ← hi]
    · rfl

/-- The parser leaves settled contents as they are. -/
theorem settle_eq_self {info : ConnInfo} (h : info.Settled) : info.settle = info := by
  have hr : info.regions.map DerpRegion.adoptNodes = info.regions :=
    Vec.map_eq_self fun r hm => adoptNodes_eq_self (h.regions r hm)
  rw [ConnInfo.settle, hr]
  exact inheritRegionId_eq_self h.regionId

/-- **The round trip**: an encoding of valid contents is accepted, and read as the contents with
their region ids filled in. Settled contents are encoded the same way again. -/
theorem parse_encode (info : ConnInfo) (h : info.Valid) :
    ∃ s, encodeTailcatAddr info = .ok s ∧ parseTailcatAddr s = .ok info.settle ∧
      (info.Settled → ∀ parsed, parseTailcatAddr s = .ok parsed →
        parsed = info ∧ encodeTailcatAddr parsed = .ok s) := by
  refine ⟨_, encode_of_valid h, parse_writeInfo h, fun hs parsed hp => ?_⟩
  obtain rfl := Except.ok.inj (hp.symm.trans (parse_writeInfo h))
  rw [settle_eq_self hs]
  exact ⟨rfl, encode_of_valid h⟩

/-- A region and a node without a region id, a negative port and octets that are not text. -/
theorem parse_encode_example :
    let node : DerpNode := { name := ⟨[0, 255], by decide⟩, stunPort := -9223372036854775808 }
    let region : DerpRegion := { regionId := 7, nodes := ⟨[node], Nat.le_of_ble_eq_true rfl⟩ }
    let info : ConnInfo :=
      { serverPublic := List.Vector.replicate 32 1, regions := ⟨[region], Nat.le_of_ble_eq_true rfl⟩ }
    ∃ s, encodeTailcatAddr info = .ok s ∧ parseTailcatAddr s = .ok info.settle ∧
      (info.Settled → ∀ parsed, parseTailcatAddr s = .ok parsed →
        parsed = info ∧ encodeTailcatAddr parsed = .ok s) :=
  parse_encode _ ⟨by decide, by decide, by decide, by decide⟩

end Tailcat
