import Tailcat.Protocol.RoundTrip

/-!
# Publishing an accepted address again

An address that the parser accepts can be encoded and parsed again with the same contents exactly
when its `r` entries announce at most one region in total. The parser checks each `r` entry by
itself, so two of them are accepted and their regions accumulate; the encoding of the result is
then refused. The encoder refuses zero keys, as the parser does, but neither the regions it may not
embed nor the lack of any.

## Main definitions

* `announcedRegions`: the sizes of the `r` entries of an address, added up by skipping over it

## Main results

* `announcedRegions_eq`: an accepted address has as many regions as it announces
* `republish_iff`: which accepted addresses can be published again
* `parse_encode_iff`: whose encodings, when there are any, are accepted
-/

namespace Tailcat

open Reader CborReader

/-! ## What is announced -/

/-- One entry of an address's map, skipped; the size of an `r` entry is added. -/
def announcedEntry (n : ℕ) : CborM ℕ := do
  let key ← text
  if key = literal 'r' then
    let size ← peek arraySize
    skip
    return n + (size.getD 0).toNat
  else
    skip
    return n

/-- The sum of the sizes of the `r` entries. -/
def announced : CborM ℕ := do
  let count ← mapSize
  times announcedEntry count.toNat 0

/-- How many regions the `r` entries of an address announce. -/
def announcedRegions (addr : List UInt8) : ℕ :=
  match base64urlDecode (addr.drop 2) with
  | .ok raw =>
    match announced (Cursor.start raw) with
    | .ok (n, _) => n
    | .error _ => 0
  | .error _ => 0

/-! ## Skipping over what is read -/

theorem key32_skipsAs (field : String) : SkipsAs (key32 field) skip := by
  refine bytes_skipsAs.bind_pure fun raw _ _ => ?_
  split
  · exact .pure trivial
  · exact .fail _ _

theorem readItems_skipsAs {α : Type} {cap : ℕ} {item : CborM α} (h : SkipsAs item skip) (n : ℕ)
    (xs : Vec α cap) : SkipsAs (readItems item n xs) (times (fun _ => skip) n ()) :=
  (SkipsAs.lift _).bind fun _ _ _ =>
    .times (fun _ _ _ => h.bind_pure fun _ _ _ => SkipsAs.lift _) n trivial

theorem readNodeEntry_skipsAs (n : DerpNode) : SkipsAs (readNodeEntry n) (do skip; skip) := by
  refine text_skipsAs.bind fun key _ _ => ?_
  exact .ite (text_skipsAs.value _) <| .ite (integer_skipsAs.value _) <|
    .ite (text_skipsAs.value _) <| .ite (text_skipsAs.value _) <| .ite (text_skipsAs.value _) <|
    .ite (text_skipsAs.value _) <| .ite (integer_skipsAs.value _) <|
    .ite (integer_skipsAs.value _) <| .ite (boolean_skipsAs.value _) <| (SkipsAs.refl skip).value _

theorem readNode_skipsAs : SkipsAs readNode skip :=
  map_skipsAs fun n => .times (fun _ _ _ => readNodeEntry_skipsAs _) n.toNat trivial

theorem readRegionEntry_skipsAs (r : DerpRegion) : SkipsAs (readRegionEntry r) (do skip; skip) := by
  refine text_skipsAs.bind fun key _ _ => ?_
  refine .ite (integer_skipsAs.value _) <| .ite (text_skipsAs.value _) <|
    .ite (text_skipsAs.value _) <| .ite ?_ <| (SkipsAs.refl skip).value _
  exact array_skipsAs fun n => (readItems_skipsAs readNode_skipsAs _ _).value _

theorem readRegion_skipsAs : SkipsAs readRegion skip :=
  map_skipsAs fun n => Shadows.bind_pure
    (.times (R := fun _ _ => True) (fun _ _ _ => readRegionEntry_skipsAs _) n.toNat trivial)
    fun _ _ _ => .pure trivial

/-! ## The regions that are read -/

/-- A loop of `push_back`s appends one item after another. -/
theorem pushBack_loop {α : Type} {cap n : ℕ} {item : CborM α} {xs ys : Vec α cap}
    {r r' : CborReader}
    (h : times (fun xs => do Reader.lift (xs.pushBack (← item))) n xs r = .ok (ys, r')) :
    ∃ items, ys.toList = xs.toList ++ items ∧ items.length = n ∧
      ∀ x ∈ items, ∃ c c', item c = .ok (x, c') := by
  induction n generalizing xs r with
  | zero =>
    obtain ⟨rfl, -⟩ := Prod.mk.inj (Except.ok.inj h)
    exact ⟨[], by simp, rfl, by simp⟩
  | succ n ih =>
    rw [times_succ] at h
    obtain ⟨zs, r₁, hz, h⟩ := bind_eq_ok.mp h
    obtain ⟨x, r₂, hx, hp⟩ := bind_eq_ok.mp hz
    obtain ⟨items, hys, hl, hi⟩ := ih h
    refine ⟨x :: items, ?_, by simp [hl], ?_⟩
    · rw [hys, Vec.pushBack_eq_ok.mp (lift_eq_ok.mp hp).1, List.append_assoc, List.singleton_append]
    · rintro y (- | ⟨_, hy⟩)
      · exact ⟨r, r₂, hx⟩
      · exact hi y hy

theorem readItems_eq_ok {α : Type} {cap n : ℕ} {item : CborM α} {xs ys : Vec α cap}
    {r r' : CborReader} (h : readItems item n xs r = .ok (ys, r')) :
    ∃ items, ys.toList = xs.toList ++ items ∧ items.length = n ∧
      ∀ x ∈ items, ∃ c c', item c = .ok (x, c') := by
  obtain ⟨_, r₁, -, h⟩ := bind_eq_ok.mp h
  exact pushBack_loop h

theorem adopted_adoptNodes (r : DerpRegion) : r.adoptNodes.Adopted := by
  intro n hn h
  obtain ⟨m, -, rfl⟩ := List.mem_map.mp hn
  rw [DerpRegion.adopt] at h
  split at h
  · exact h
  · contradiction

theorem adopted_of_readRegion {r : DerpRegion} {c c' : CborReader}
    (h : readRegion c = .ok (r, c')) : r.Adopted := by
  obtain ⟨_, c₁, -, h⟩ := bind_eq_ok.mp h
  obtain ⟨s, c₂, -, h⟩ := bind_eq_ok.mp h
  obtain ⟨rfl, -⟩ := Prod.mk.inj (Except.ok.inj h)
  exact adopted_adoptNodes s

/-- The parser's state against the count of announced regions. -/
def Tracks (s : InfoState) (n : ℕ) : Prop :=
  s.info.regions.toList.length = n ∧ ∀ r ∈ s.info.regions.toList, r.Adopted

theorem readRegions_skipsAs (s : InfoState) : SkipsAs (readRegions s) skip := by
  refine array_skipsAs fun size => ?_
  split
  · exact .fail _ _
  · exact (readItems_skipsAs readRegion_skipsAs _ _).value _

/-- An `r` entry adds as many regions as it announces. -/
theorem readRegions_eq_ok {s t : InfoState} {c c' : CborReader} {n : ℕ} (hs : Tracks s n)
    (h : readRegions s c = .ok (t, c')) :
    ∃ size c₁, arraySize c = .ok (size, c₁) ∧ Tracks t (n + size.toNat) := by
  obtain ⟨size, c₁, ha, h⟩ := bind_eq_ok.mp h
  refine ⟨size, c₁, ha, ?_⟩
  split at h
  · cases h
  · obtain ⟨regions, c₂, hi, h⟩ := bind_eq_ok.mp h
    obtain ⟨rfl, -⟩ := Prod.mk.inj (Except.ok.inj h)
    obtain ⟨items, hr, hl, hi⟩ := readItems_eq_ok hi
    refine ⟨by simp [hr, hs.1, hl], fun r hm => ?_⟩
    rcases List.mem_append.mp (hr ▸ hm) with hm | hm
    · exact hs.2 r hm
    · obtain ⟨d, d', hd⟩ := hi r hm
      exact adopted_of_readRegion hd

theorem readInfoEntry_shadows {s : InfoState} {n : ℕ} (hs : Tracks s n) :
    Shadows Tracks (readInfoEntry s) (announcedEntry n) := by
  refine (Shadows.refl text).bind fun key key' hk => ?_
  subst hk
  by_cases hr : key = literal 'r'
  · subst hr
    intro c t c' h
    obtain ⟨size, c₁, ha, ht⟩ := readRegions_eq_ok hs h
    refine ⟨n + size.toNat, ?_, ht⟩
    rw [if_pos rfl, bind_of_ok (peek_of_ok ha),
      bind_of_ok (skipsAs_iff.mp (readRegions_skipsAs s) c t c' h)]
    rfl
  · -- The other entries leave the regions as they are.
    have ht : ∀ t : InfoState, t.info.regions = s.info.regions → Tracks t n := fun t h => by
      rwa [Tracks, h]
    rw [if_neg hr]
    split_ifs
    all_goals first
      | exact (key32_skipsAs _).bind fun _ _ _ => .pure (ht _ rfl)
      | exact integer_skipsAs.bind fun _ _ _ => .pure (ht _ rfl)
      | exact (SkipsAs.refl skip).bind fun _ _ _ => .pure hs

theorem readInfo_shadows : Shadows Tracks readInfo announced :=
  (Shadows.refl mapSize).bind fun count count' hc => by
    subst hc
    exact .times (fun _ _ => readInfoEntry_shadows) count.toNat ⟨rfl, by simp⟩

/-! ## Publishing again -/

/-- An accepted address has as many regions as it announces, and nothing left to fill in. -/
theorem accepted {addr : List UInt8} {info : ConnInfo} (h : parseTailcatAddr addr = .ok info) :
    info.regions.toList.length = announcedRegions addr ∧ info.Settled ∧
      ¬ info.serverPublic.allZero ∧ ¬ info.serverDiscoPublic.any Octets.allZero ∧
      (info.regionId ≠ 0 ∨ info.regions ≠ .empty) := by
  obtain ⟨-, raw, s, r, hd, hr, hf⟩ := parse_eq_ok.mp h
  obtain ⟨-, -, hp, hk, rfl, hi⟩ := finishInfo_eq_ok.mp hf
  obtain ⟨n, hn, hl, ha⟩ := readInfo_shadows _ _ _ hr
  obtain ⟨i, he, hf⟩ := inheritRegionId_eq s.info
  have hann : announcedRegions addr = n := by
    rw [announcedRegions, hd]
    dsimp only
    rw [hn]
  rw [he] at hi ⊢
  exact ⟨by rw [hl, hann], ⟨ha, hf⟩, hp, hk, hi⟩

/-- **Publishing again**: an accepted address has valid contents, which can be encoded and read
back unchanged, if and only if its `r` entries announce at most one region. -/
theorem republish_iff (addr : List UInt8) (info : ConnInfo) (h : parseTailcatAddr addr = .ok info) :
    (info.Valid ∧ ∃ s, encodeTailcatAddr info = .ok s ∧ parseTailcatAddr s = .ok info) ↔
      announcedRegions addr ≤ 1 := by
  obtain ⟨hl, hs, hp, hk, hi⟩ := accepted h
  constructor
  · rintro ⟨hv, -⟩
    exact hl ▸ hv.regions
  · intro ha
    have hv : info.Valid := ⟨hp, hk, hl ▸ ha, hi⟩
    refine ⟨hv, _, encode_of_valid hv, ?_⟩
    rw [parse_writeInfo hv, settle_eq_self hs]

/-- An address with two `r` entries of one region each. -/
def twoRegions : List UInt8 :=
  "tco2FwWCABAgMEBQYHCAkKCwwNDg8QERITFBUWFxgZGhscHR4fIGFygaFhaQdhcoGhYWkI".toList.map Char.toUInt8

/-- **Two `r` entries** are accepted, but the encoding of what was read is refused. -/
theorem republish_twoRegions : ∃ info, parseTailcatAddr twoRegions = .ok info ∧ ¬ info.Valid ∧
    ∃ s, encodeTailcatAddr info = .ok s ∧
      parseTailcatAddr s = .error (parseError "more than one embedded DERP region") := by
  let key : Key32 := Octets.ofList ((List.range 32).map fun i => UInt8.ofNat (i + 1)) (by simp)
  let info : ConnInfo :=
    { serverPublic := key, regions := ⟨[{ regionId := 7 }, { regionId := 8 }], by decide⟩,
      regionId := 7 }
  refine ⟨info, by decide +kernel, fun hv => absurd hv.regions (by decide), ?_⟩
  exact ⟨['t'.toUInt8, 'c'.toUInt8] ++ base64urlEncode (writeInfo info), by decide +kernel,
    by decide +kernel⟩

/-- An address with one embedded region, of an id alone, can be published again. -/
theorem republish_iff_example :
    let addr := "tcomFwWCABAgMEBQYHCAkKCwwNDg8QERITFBUWFxgZGhscHR4fIGFygaFhaQc".toList.map
      Char.toUInt8
    let key : Key32 := Octets.ofList ((List.range 32).map fun i => UInt8.ofNat (i + 1)) (by simp)
    let info : ConnInfo :=
      { serverPublic := key, regions := ⟨[{ regionId := 7 }], by decide⟩, regionId := 7 }
    announcedRegions addr = 1 ∧ info.Valid ∧
      ∃ s, encodeTailcatAddr info = .ok s ∧ parseTailcatAddr s = .ok info := by
  intro addr key info
  have hannounced : announcedRegions addr = 1 := by decide +kernel
  exact ⟨hannounced, (republish_iff addr info (by decide +kernel)).mpr hannounced.le⟩

/-! ## What the encoder emits -/

/-- More than one region is written, and refused by the reader. -/
theorem refuses_writeInfo {info : ConnInfo} (h : 1 < info.regions.toList.length) :
    Refuses readInfo (writeInfo info) := by
  have hp : info.regions ≠ .empty := by
    intro he
    rw [he, Vec.toList_empty, List.length_nil] at h
    exact absurd h (by decide)
  have hn : UInt64.ofNat info.regions.toList.length > 1 := by
    rw [gt_iff_lt, UInt64.lt_iff_toNat_lt, toNat_size (by decide), UInt64.toNat_one]
    exact h
  simp only [writeInfo, List.append_assoc]
  refine (reads_mapSize _).bind_refuses ?_
  rw [toNat_countInfo, times_add, ← List.append_assoc (CborWriter.text _),
    ← List.append_assoc (keyEntry 'k' _), ← List.append_assoc (CborWriter.text _ ++ _)]
  refine (reads_writeKeys info).bind_refuses ?_
  -- The entry of the regions comes next; its size is enough to refuse it.
  rw [decide_eq_true hp, Bool.toNat_true, Nat.add_comm 1, times_succ, entry, if_pos rfl]
  refine Refuses.bind ((reads_text _).bind_refuses ((reads_arraySize _).bind_refuses ?_)) _
  rw [if_pos hn]
  exact .fail _ _

/-- What is written of a server without a region is refused. -/
theorem finishInfo_unreachable {info : ConnInfo} {r : CborReader} (hi : info.regionId = 0)
    (hr : info.regions = .empty) (parsed : ConnInfo) :
    finishInfo ⟨{ info with regions := info.regions.map DerpRegion.adoptNodes }, true⟩ r ≠
      .ok parsed := by
  intro h
  obtain ⟨-, -, -, -, rfl, h⟩ := finishInfo_eq_ok.mp h
  have hm : info.regions.map DerpRegion.adoptNodes = .empty := by
    rw [hr]
    rfl
  rw [hm] at h
  exact h.elim (fun h => h hi) fun h => h rfl

/-- The parser reads what the encoder wrote. -/
theorem parse_emitted {info : ConnInfo} {s : List UInt8} (h : encodeTailcatAddr info = .ok s) :
    parseTailcatAddr s = match readInfo (Cursor.start (writeInfo info)) with
      | .error e => .error e
      | .ok (t, r) => finishInfo t r := by
  rw [encodeTailcatAddr] at h
  split_ifs at h
  obtain rfl := Except.ok.inj h
  have hd : ∀ s : List UInt8, (['t'.toUInt8, 'c'.toUInt8] ++ s).drop 2 = s := fun _ => rfl
  have htc : ¬ ¬ ['t'.toUInt8, 'c'.toUInt8] <+:
      ['t'.toUInt8, 'c'.toUInt8] ++ base64urlEncode (writeInfo info) :=
    not_not.mpr (List.prefix_append _ _)
  unfold parseTailcatAddr
  cases hread : readInfo (Cursor.start (writeInfo info)) with
  | error e => simp only [if_neg htc, hd, base64urlDecode_encode (writeInfo_ne_nil info), hread]
  | ok p => simp only [if_neg htc, hd, base64urlDecode_encode (writeInfo_ne_nil info), hread]

/-- **Emitted addresses**: what the encoder returns, if anything, is accepted by the parser if and
only if a key is zero, where the encoder throws, or the server has at most one region, and a region
or a region id. -/
theorem parse_encode_iff (info : ConnInfo) :
    (∀ s, encodeTailcatAddr info = .ok s → ∃ parsed, parseTailcatAddr s = .ok parsed) ↔
      info.serverPublic.allZero ∨ info.serverDiscoPublic.any Octets.allZero ∨
        info.regions.toList.length ≤ 1 ∧ (info.regionId ≠ 0 ∨ info.regions ≠ .empty) := by
  constructor
  · intro h
    by_contra hc
    obtain ⟨hp, hk, hc⟩ : ¬ info.serverPublic.allZero ∧
        ¬ info.serverDiscoPublic.any Octets.allZero ∧ _ := by
      rwa [not_or, not_or] at hc
    -- Neither key is zero, so the encoder returns, and the parser reads what it has written.
    have he : encodeTailcatAddr info =
        .ok (['t'.toUInt8, 'c'.toUInt8] ++ base64urlEncode (writeInfo info)) := by
      rw [encodeTailcatAddr, if_neg hp, if_neg hk]
    obtain ⟨parsed, hs⟩ := h _ he
    rw [parse_emitted he] at hs
    rcases Nat.lt_or_ge 1 info.regions.toList.length with hl | hl
    · obtain ⟨e, hr⟩ := refuses_writeInfo hl (Cursor.start (writeInfo info)) [] (by simp)
      rw [hr] at hs
      cases hs
    · rw [readInfo_writeInfo hl] at hs
      refine hc ⟨hl, ?_⟩
      by_contra hn
      rw [not_or, not_not, not_not] at hn
      exact finishInfo_unreachable hn.1 hn.2 parsed hs
  · rintro (hp | hk | ⟨hl, hi⟩) s hs
    · rw [encodeTailcatAddr, if_pos hp] at hs
      cases hs
    · rw [encodeTailcatAddr, if_pos hk] at hs
      split_ifs at hs
    · rw [encodeTailcatAddr] at hs
      split_ifs at hs with hp hk
      obtain rfl := Except.ok.inj hs
      exact ⟨info.settle, parse_writeInfo ⟨hp, hk, hl, hi⟩⟩

/-- **A server with two regions** is given an address that no client accepts. -/
theorem parse_encode_twoRegions : ∃ info s, encodeTailcatAddr info = .ok s ∧
    ¬ ∃ parsed, parseTailcatAddr s = .ok parsed := by
  let info : ConnInfo :=
    { serverPublic := List.Vector.replicate 32 1
      regions := ⟨[{ regionId := 7 }, { regionId := 8 }], by decide⟩ }
  refine ⟨info, _, (rfl : encodeTailcatAddr info = .ok
    (['t'.toUInt8, 'c'.toUInt8] ++ base64urlEncode (writeInfo info))), ?_⟩
  have hs : parseTailcatAddr (['t'.toUInt8, 'c'.toUInt8] ++ base64urlEncode (writeInfo info)) =
      .error (parseError "more than one embedded DERP region") := by
    decide +kernel
  rw [hs]
  rintro ⟨parsed, h⟩
  cases h

end Tailcat
