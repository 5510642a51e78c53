import Tailcat.Protocol.Republish

/-!
# What an address makes the parser allocate

The parser has errors of its own, and all of its readers throw these only. The two vectors that it
fills may throw too: the nodes of a region are reserved by the number that their array announces,
before the first of them has been read and without a look at how much is left. The regions, which
are reserved in the same way, are limited to one at a time before.

## Main definitions

* `assertInfo`, `assertTailcatAddr`: the parser, with an assertion in front of that `reserve`
* `scanInfo`: what an address announces, without a vector
* `ParsesSafely`, `Excessive`: what is asked of the parser, and the addresses that fail it

## Main results

* `assertTailcatAddr_guards`: without a failing assertion it is the parser
* `assertInfo_endsAs`: the parser and the scan end alike
* `parses_safely_iff`: which addresses are parsed safely
-/

namespace Tailcat

open Reader CborReader

/-! ## What the readers throw -/

/-- The exceptions that refuse an address. -/
def IsParseError (x : Exn) : Prop := ∃ message, x = parseError message

theorem isParseError (message : String) : IsParseError (parseError message) := ⟨message, rfl⟩

theorem throws_require (n : ℕ) : Throws IsParseError (require n) := by
  refine Throws.get.bind fun r => ?_
  split
  · exact .fail (isParseError _)
  · exact .pure _

theorem throws_octet : Throws IsParseError octet :=
  (throws_require 1).bind fun _ => Throws.get.bind fun _ => (Throws.move 1).bind fun _ => .pure _

theorem throws_uint (n : ℕ) : Throws IsParseError (uint n) := by
  refine (throws_require n).bind fun _ => .times (fun value => ?_) n 0
  exact (Throws.get.bind fun _ => (Throws.move 1).bind fun _ => .pure _).bind fun _ => .pure _

theorem throws_requireLen (n : UInt64) : Throws IsParseError (requireLen n) := by
  intro r x h
  rw [requireLen_apply] at h
  exact throws_require _ r x h

theorem throws_span (len : UInt64) : Throws IsParseError (span len) :=
  (throws_requireLen len).bind fun _ => Throws.get.bind fun _ => (Throws.move _).bind fun _ =>
    .pure _

theorem throws_head : Throws IsParseError head := by
  refine throws_octet.bind fun first => ?_
  simp only [fail_bind]
  split
  · exact .pure _
  split
  · exact .fail (isParseError _)
  split
  · exact .fail (isParseError _)
  · exact (throws_uint _).bind fun _ => .pure _

theorem throws_expectMajor (want : UInt8) : Throws IsParseError (expectMajor want) := by
  refine throws_head.bind fun ⟨major, value⟩ => ?_
  simp only [fail_bind]
  split
  · exact .fail (isParseError _)
  · exact .pure _

theorem throws_mapSize : Throws IsParseError mapSize := throws_expectMajor 5

theorem throws_arraySize : Throws IsParseError arraySize := throws_expectMajor 4

theorem throws_text : Throws IsParseError text :=
  (throws_expectMajor 3).bind fun _ => throws_span _

theorem throws_bytes : Throws IsParseError bytes :=
  (throws_expectMajor 2).bind fun _ => (throws_span _).bind fun _ => .pure _

theorem throws_integer : Throws IsParseError integer := by
  refine throws_head.bind fun ⟨major, value⟩ => ?_
  simp only [fail_bind]
  split
  · split
    · exact .fail (isParseError _)
    · exact .pure _
  split
  · split
    · exact .fail (isParseError _)
    · exact .pure _
  · exact .fail (isParseError _)

theorem throws_boolean : Throws IsParseError boolean := by
  refine throws_octet.bind fun b => ?_
  split
  · exact .pure _
  split
  · exact .pure _
  · exact .fail (isParseError _)

theorem throws_skipItem {self : CborM Unit} (h : Throws IsParseError self) :
    Throws IsParseError (skipItem self) := by
  refine throws_head.bind fun ⟨major, value⟩ => ?_
  exact .ite (.pure _) <| .ite ((throws_requireLen _).bind fun _ => .move _) <|
    .ite (.times (fun _ => h) _ _) <| .ite (.times (fun _ => h.bind fun _ => h) _ _) <|
    .ite h (.fail (isParseError _))

theorem throws_skip : Throws IsParseError skip := by
  have hwithin : ∀ depth, Throws IsParseError (skipWithin depth) := by
    intro depth
    induction depth with
    | zero => exact .fail (isParseError _)
    | succ depth ih => exact throws_skipItem ih
  exact fun c => hwithin c.rest.length c

theorem throws_key32 (field : String) : Throws IsParseError (key32 field) := by
  refine throws_bytes.bind fun raw => ?_
  split
  · exact .pure _
  · exact .fail (isParseError _)

/-- Nodes have no vector of their own. -/
theorem throws_readNode : Throws IsParseError readNode := by
  refine throws_mapSize.bind fun count => .times (fun n => throws_text.bind fun key => ?_) _ _
  exact .ite (throws_text.bind fun _ => .pure _) <| .ite (throws_integer.bind fun _ => .pure _) <|
    .ite (throws_text.bind fun _ => .pure _) <| .ite (throws_text.bind fun _ => .pure _) <|
    .ite (throws_text.bind fun _ => .pure _) <| .ite (throws_text.bind fun _ => .pure _) <|
    .ite (throws_integer.bind fun _ => .pure _) <| .ite (throws_integer.bind fun _ => .pure _) <|
    .ite (throws_boolean.bind fun _ => .pure _) (throws_skip.bind fun _ => .pure _)

/-! ## The parser with an assertion -/

/-- The key of the entry that comes next. -/
def keyAt (c : CborReader) : Option Text :=
  match text c with
  | .ok (key, _) => some key
  | .error _ => none

/-- The value of an `N` entry, with `assert(n <= unread)` in front of `region.nodes.reserve(n)`. -/
def assertNodes (region : DerpRegion) : Reader (Failure Exn) UInt8 DerpRegion := do
  let n ← arraySize.mapError .thrown
  let c ← Reader.get
  if c.rest.length < n.toNat then
    Reader.fail .asserted
  else do
    let nodes ← (readItems readNode n.toNat region.nodes).mapError .thrown
    return { region with nodes }

/-- An entry of a region, whose relays are read with assertions. -/
def assertRegionEntry (region : DerpRegion) : Reader (Failure Exn) UInt8 DerpRegion := fun c =>
  if keyAt c = some (literal 'N') then
    (text.mapError Failure.thrown >>= fun _ => assertNodes region) c
  else
    (readRegionEntry region).mapError .thrown c

/-- A region, whose relays are read with assertions. -/
def assertRegion : Reader (Failure Exn) UInt8 DerpRegion := do
  let count ← mapSize.mapError .thrown
  let region ← times assertRegionEntry count.toNat {}
  return { region with nodes := region.nodes.map region.adopt }

/-- `info.regions.reserve(n)`, and `n` times `push_back`. -/
def assertRegionItems (n : ℕ) (regions : Vec DerpRegion DerpRegion.maxSize) :
    Reader (Failure Exn) UInt8 (Vec DerpRegion DerpRegion.maxSize) := do
  (Reader.lift (regions.reserve n)).mapError .thrown
  times (fun regions => do
    let region ← assertRegion
    (Reader.lift (Vec.pushBack regions region)).mapError .thrown) n regions

/-- The regions of an address, of which there is at most one in an entry. -/
def assertRegions (s : InfoState) : Reader (Failure Exn) UInt8 InfoState := do
  let n ← arraySize.mapError .thrown
  if n > 1 then
    Reader.fail (.thrown (parseError "more than one embedded DERP region"))
  else do
    let regions ← assertRegionItems n.toNat s.info.regions
    return { s with info.regions := regions }

/-- An entry of an address, whose regions are read with assertions. -/
def assertInfoEntry (s : InfoState) : Reader (Failure Exn) UInt8 InfoState := fun c =>
  if keyAt c = some (literal 'r') then
    (text.mapError Failure.thrown >>= fun _ => assertRegions s) c
  else
    (readInfoEntry s).mapError .thrown c

/-- The entries of an address, read with assertions. -/
def assertInfo : Reader (Failure Exn) UInt8 InfoState := do
  let count ← mapSize.mapError .thrown
  times assertInfoEntry count.toNat {}

/-- `parse_tailcat_addr` with the assertion. -/
def assertTailcatAddr (addr : List UInt8) : Except (Failure Exn) ConnInfo :=
  if ¬ ['t'.toUInt8, 'c'.toUInt8] <+: addr then
    .error (.thrown (parseError "doesn't start with \"tc\""))
  else
    match base64urlDecode (addr.drop 2) with
    | .error e => .error (.thrown (parseError ("base64 decode: " ++ e.what)))
    | .ok raw =>
      match assertInfo (Cursor.start raw) with
      | .error failure => .error failure
      | .ok (s, r) => (finishInfo s r).mapError .thrown

theorem keyAt_eq_some {c : CborReader} {key : Text} :
    keyAt c = some key ↔ ∃ d, text c = .ok (key, d) := by
  unfold keyAt
  split
  · rename_i key' d h
    rw [h]
    simp
  · rename_i h
    rw [h]
    simp

/-- An entry of nodes. -/
theorem readRegionEntry_nodes {c : CborReader} (h : keyAt c = some (literal 'N'))
    (region : DerpRegion) : readRegionEntry region c =
      (do
        let _ ← text
        let n ← arraySize
        return { region with nodes := ← readItems readNode n.toNat region.nodes } : CborM _) c := by
  obtain ⟨d, hd⟩ := keyAt_eq_some.mp h
  rw [readRegionEntry, bind_of_ok hd, bind_of_ok hd, if_neg (by decide), if_neg (by decide),
    if_neg (by decide), if_pos rfl]

/-- An entry of regions. -/
theorem readInfoEntry_regions {c : CborReader} (h : keyAt c = some (literal 'r')) (s : InfoState) :
    readInfoEntry s c = (do let _ ← text; readRegions s : CborM _) c := by
  obtain ⟨d, hd⟩ := keyAt_eq_some.mp h
  rw [readInfoEntry, bind_of_ok hd, bind_of_ok hd, if_neg (by decide), if_neg (by decide),
    if_neg (by decide), if_pos rfl]

theorem assertNodes_guards (region : DerpRegion) :
    Guards (do
      let n ← arraySize
      return { region with nodes := ← readItems readNode n.toNat region.nodes } : CborM _)
      (assertNodes region) := by
  refine (Guards.mapError arraySize).bind fun n => ?_
  intro c
  rw [bind_of_ok (get_apply c)]
  split
  · exact .inl rfl
  · exact (Guards.mapError _).bind (fun _ => .pure _) c

theorem assertRegionEntry_guards (region : DerpRegion) :
    Guards (readRegionEntry region) (assertRegionEntry region) := by
  intro c
  unfold assertRegionEntry
  split
  · rename_i hkey
    rw [readRegionEntry_nodes hkey]
    exact (Guards.mapError text).bind (fun _ => assertNodes_guards region) c
  · exact .inr rfl

theorem assertRegion_guards : Guards readRegion assertRegion :=
  (Guards.mapError mapSize).bind fun _ =>
    (Guards.times assertRegionEntry_guards _ _).bind fun _ => .pure _

theorem assertRegionItems_guards (n : ℕ) (regions : Vec DerpRegion DerpRegion.maxSize) :
    Guards (readItems readRegion n regions) (assertRegionItems n regions) :=
  (Guards.mapError _).bind fun _ =>
    .times (fun _ => assertRegion_guards.bind fun _ => .mapError _) _ _

theorem assertRegions_guards (s : InfoState) : Guards (readRegions s) (assertRegions s) := by
  refine (Guards.mapError arraySize).bind fun n => ?_
  simp only [fail_bind]
  split
  · exact fun _ => .inr rfl
  · exact (assertRegionItems_guards _ _).bind fun _ => .pure _

theorem assertInfoEntry_guards (s : InfoState) : Guards (readInfoEntry s) (assertInfoEntry s) := by
  intro c
  unfold assertInfoEntry
  split
  · rename_i hkey
    rw [readInfoEntry_regions hkey]
    exact (Guards.mapError text).bind (fun _ => assertRegions_guards s) c
  · exact .inr rfl

theorem assertInfo_guards : Guards readInfo assertInfo :=
  (Guards.mapError mapSize).bind fun _ => .times assertInfoEntry_guards _ _

/-- **The parser with the assertion** is the parser, unless the assertion fails. -/
theorem assertTailcatAddr_guards (addr : List UInt8) :
    assertTailcatAddr addr = .error .asserted ∨
      assertTailcatAddr addr = (parseTailcatAddr addr).mapError .thrown := by
  unfold assertTailcatAddr parseTailcatAddr
  split
  · exact .inr rfl
  cases base64urlDecode (addr.drop 2) with
  | error x => exact .inr rfl
  | ok raw =>
    dsimp only
    rcases assertInfo_guards (Cursor.start raw) with h | h
    · rw [h]
      exact .inl rfl
    · rw [h]
      cases readInfo (Cursor.start raw) with
      | error x => exact .inr rfl
      | ok p => exact .inr rfl

/-! ## What is announced -/

/-- Where a scan ends early: what comes next is malformed, or too much of it is announced. -/
inductive Stop
  | malformed
  | excessive
  deriving DecidableEq

/-- A reader in front of which a scan ends where it throws. -/
def scanned {α : Type} (p : CborM α) : Reader Stop UInt8 α := p.mapError fun _ => .malformed

/-- One more of `k` items, when there may be so many. -/
def scanOneMore (most k : ℕ) : Reader Stop UInt8 ℕ :=
  if k + 1 ≤ most then pure (k + 1) else Reader.fail .excessive

/-- The value of an `N` entry, behind `k` nodes: what its header announces is compared with the
octets behind it. -/
def scanNodes (k : ℕ) : Reader Stop UInt8 ℕ := do
  let n ← scanned arraySize
  let c ← Reader.get
  if c.rest.length < n.toNat ∨ DerpNode.maxSize < n.toNat then
    Reader.fail .excessive
  else
    times (fun k => scanned readNode >>= fun _ => scanOneMore DerpNode.maxSize k) n.toNat k

/-- How many relays there are after an entry of a region. -/
def scanRegionEntry (k : ℕ) : Reader Stop UInt8 ℕ := fun c =>
  if keyAt c = some (literal 'N') then
    (scanned text >>= fun _ => scanNodes k) c
  else
    (scanned (readRegionEntry {}) >>= fun _ => pure k) c

/-- The entries of a region, of which only the numbers of relays are kept. -/
def scanRegion : Reader Stop UInt8 Unit := do
  let count ← scanned mapSize
  times scanRegionEntry count.toNat 0 >>= fun _ => pure ()

/-- The value of an `r` entry, behind `k` regions. -/
def scanRegions (k : ℕ) : Reader Stop UInt8 ℕ := do
  let n ← scanned arraySize
  if n > 1 then
    Reader.fail .malformed
  else
    times (fun k => scanRegion >>= fun _ => scanOneMore DerpRegion.maxSize k) n.toNat k

/-- How many regions there are after an entry of an address. -/
def scanInfoEntry (k : ℕ) : Reader Stop UInt8 ℕ := fun c =>
  if keyAt c = some (literal 'r') then
    (scanned text >>= fun _ => scanRegions k) c
  else
    (scanned (readInfoEntry {}) >>= fun _ => pure k) c

/-- How many regions the entries of an address have. -/
def scanInfo : Reader Stop UInt8 ℕ := do
  let count ← scanned mapSize
  times scanInfoEntry count.toNat 0

/-- As far as an address is well formed, some array of nodes announces more nodes than there are
octets behind its header, or there are more nodes or regions than a vector can hold. -/
def Excessive (addr : List UInt8) : Prop :=
  ['t'.toUInt8, 'c'.toUInt8] <+: addr ∧ ∃ raw, base64urlDecode (addr.drop 2) = .ok raw ∧
    scanInfo (Cursor.start raw) = .error .excessive

/-! ## The parser and the scan -/

/-- An exception is the parser's own just where the scan finds something malformed. -/
def ThrownAs (x : Exn) (stop : Stop) : Prop := IsParseError x ↔ stop = .malformed

/-- The assertion fails only where too much is announced. -/
def FailsAs : Failure Exn → Stop → Prop
  | .thrown x, stop => ThrownAs x stop
  | .asserted, stop => stop = .excessive

theorem thrownAs_malformed {x : Exn} (h : IsParseError x) : ThrownAs x .malformed := iff_of_true h rfl

/-- A vector's own exception is none of the parser's. -/
theorem thrownAs_excessive (what : String) : ThrownAs (.lengthError what) .excessive := by
  refine iff_of_false ?_ (by decide)
  rintro ⟨message, h⟩
  cases h

theorem endsAs_scanned {α : Type} {p : CborM α} (h : Throws IsParseError p) (c : CborReader) :
    EndsAs (fun a b => a = b) ThrownAs p (scanned p) c := by
  unfold EndsAs scanned Reader.mapError
  cases hp : p c with
  | error x => exact thrownAs_malformed (h c x hp)
  | ok r => exact ⟨rfl, rfl⟩

/-- The same with the exceptions of the parser with the assertion. -/
theorem endsAs_thrown {α α' : Type} {R : α → α' → Prop} {p : CborM α} {q : Reader Stop UInt8 α'}
    {c : CborReader} (h : EndsAs R ThrownAs p q c) : EndsAs R FailsAs (p.mapError .thrown) q c :=
  h.mapError_left fun _ _ ht => ht

theorem endsAs_pushBack {α : Type} {cap k : ℕ} {xs : Vec α cap} (h : xs.toList.length = k) (x : α)
    (c : CborReader) : EndsAs (fun ys l => ys.toList.length = l) ThrownAs
      (Reader.lift (xs.pushBack x)) (scanOneMore cap k) c := by
  subst h
  unfold Vec.pushBack scanOneMore
  split
  · exact ⟨List.length_append, rfl⟩
  · exact thrownAs_excessive _

theorem endsAs_readNodes {n k : ℕ} {nodes : Vec DerpNode DerpNode.maxSize}
    (h : nodes.toList.length = k) (hn : n ≤ DerpNode.maxSize) (c : CborReader) :
    EndsAs (fun ys l => ys.toList.length = l) ThrownAs (readItems readNode n nodes)
      (times (fun k => scanned readNode >>= fun _ => scanOneMore DerpNode.maxSize k) n k) c := by
  unfold readItems Vec.reserve
  rw [if_pos hn, lift_ok, pure_bind]
  refine EndsAs.times (R := fun (xs : Vec DerpNode _) l => xs.toList.length = l)
    (fun xs l d hl => ?_) n h c
  exact (endsAs_scanned throws_readNode d).bind fun x _ d' _ _ => endsAs_pushBack hl x d'

theorem endsAs_nodes {region : DerpRegion} {k : ℕ} (h : region.nodes.toList.length = k)
    (c : CborReader) : EndsAs (fun r l => r.nodes.toList.length = l) FailsAs (assertNodes region)
      (scanNodes k) c := by
  refine (endsAs_thrown (endsAs_scanned throws_arraySize c)).bind ?_
  rintro n _ c₁ - rfl
  refine EndsAs.bind (R := fun a b => a = b) ⟨rfl, rfl⟩ ?_
  rintro d _ c₂ - rfl
  by_cases hover : d.rest.length < n.toNat
  · rw [if_pos hover, if_pos (.inl hover)]
    exact EndsAs.fail rfl
  rw [if_neg hover]
  by_cases hlarge : DerpNode.maxSize < n.toNat
  · -- There are so many octets, but `reserve` throws.
    rw [if_pos (.inr hlarge)]
    unfold readItems Vec.reserve
    rw [if_neg (not_le.mpr hlarge)]
    exact thrownAs_excessive _
  · rw [if_neg (not_or.mpr ⟨hover, hlarge⟩), ← bind_pure (times _ _ k)]
    exact (endsAs_thrown (endsAs_readNodes h (not_lt.mp hlarge) c₂)).bind fun _ _ _ _ hR => .pure hR

/-- The other entries of a region leave its nodes as they are. -/
theorem endsAs_regionValue {c : CborReader} (hkey : keyAt c ≠ some (literal 'N'))
    (region : DerpRegion) : EndsAs (fun r _ => r.nodes = region.nodes) ThrownAs
      (readRegionEntry region) (scanned (readRegionEntry {})) c := by
  refine EndsAs.mapError_right (T := fun e e' => e = e' ∧ IsParseError e) ?_
    fun e _ he => thrownAs_malformed he.2
  refine (EndsAs.refl throws_text c).bind ?_
  rintro key _ d htext rfl
  -- The key was looked at before the entry was read.
  have hN : key ≠ literal 'N' := by
    rintro rfl
    exact hkey (keyAt_eq_some.mpr ⟨d, htext⟩)
  rw [if_neg hN, if_neg hN]
  split_ifs
  · exact (EndsAs.refl throws_integer d).bind fun _ _ _ _ _ => .pure rfl
  · exact (EndsAs.refl throws_text d).bind fun _ _ _ _ _ => .pure rfl
  · exact (EndsAs.refl throws_text d).bind fun _ _ _ _ _ => .pure rfl
  · exact (EndsAs.refl throws_skip d).bind fun _ _ _ _ _ => .pure rfl

theorem endsAs_regionEntry {region : DerpRegion} {k : ℕ} (c : CborReader)
    (h : region.nodes.toList.length = k) : EndsAs (fun r l => r.nodes.toList.length = l) FailsAs
      (assertRegionEntry region) (scanRegionEntry k) c := by
  unfold EndsAs assertRegionEntry scanRegionEntry
  by_cases hkey : keyAt c = some (literal 'N')
  · rw [if_pos hkey, if_pos hkey]
    exact (endsAs_thrown (endsAs_scanned throws_text c)).bind fun _ _ d _ _ => endsAs_nodes h d
  · rw [if_neg hkey, if_neg hkey, ← bind_pure ((readRegionEntry region).mapError Failure.thrown)]
    refine (endsAs_thrown (endsAs_regionValue hkey region)).bind fun r _ d _ hr => ?_
    exact EndsAs.pure (by rw [hr, h])

theorem endsAs_region (c : CborReader) :
    EndsAs (fun _ _ => True) FailsAs assertRegion scanRegion c := by
  refine (endsAs_thrown (endsAs_scanned throws_mapSize c)).bind ?_
  rintro count _ d - rfl
  refine EndsAs.bind (EndsAs.times (fun region k d' h => endsAs_regionEntry d' h) count.toNat
    (rfl : ({} : DerpRegion).nodes.toList.length = 0) d) fun _ _ _ _ _ => ?_
  exact EndsAs.pure trivial

theorem endsAs_regions {s : InfoState} {k : ℕ} (h : s.info.regions.toList.length = k)
    (c : CborReader) : EndsAs (fun t l => t.info.regions.toList.length = l) FailsAs
      (assertRegions s) (scanRegions k) c := by
  refine (endsAs_thrown (endsAs_scanned throws_arraySize c)).bind ?_
  rintro n _ d - rfl
  by_cases hmany : n > 1
  · rw [if_pos hmany, if_pos hmany]
    exact EndsAs.fail (thrownAs_malformed (isParseError _))
  · -- One region fits, so that `reserve` does not throw here.
    have hn : n.toNat ≤ DerpRegion.maxSize :=
      (UInt64.le_iff_toNat_le.mp (UInt64.not_lt.mp hmany)).trans (by decide)
    rw [if_neg hmany, if_neg hmany, ← bind_pure (times _ _ k)]
    refine EndsAs.bind ?_ fun _ _ _ _ hR => EndsAs.pure hR
    unfold assertRegionItems Vec.reserve
    rw [if_pos hn]
    change EndsAs _ _ (times _ n.toNat s.info.regions) _ d
    refine EndsAs.times (R := fun (xs : Vec DerpRegion _) l => xs.toList.length = l)
      (fun xs l d' hl => ?_) n.toNat h d
    exact (endsAs_region d').bind fun x _ d'' _ _ => endsAs_thrown (endsAs_pushBack hl x d'')

/-- The other entries of an address leave its regions as they are. -/
theorem endsAs_infoValue {c : CborReader} (hkey : keyAt c ≠ some (literal 'r'))
    (s : InfoState) : EndsAs (fun t _ => t.info.regions = s.info.regions) ThrownAs
      (readInfoEntry s) (scanned (readInfoEntry {})) c := by
  refine EndsAs.mapError_right (T := fun e e' => e = e' ∧ IsParseError e) ?_
    fun e _ he => thrownAs_malformed he.2
  refine (EndsAs.refl throws_text c).bind ?_
  rintro key _ d htext rfl
  have hr : key ≠ literal 'r' := by
    rintro rfl
    exact hkey (keyAt_eq_some.mpr ⟨d, htext⟩)
  rw [if_neg hr, if_neg hr]
  split_ifs
  · exact (EndsAs.refl (throws_key32 _) d).bind fun _ _ _ _ _ => .pure rfl
  · exact (EndsAs.refl (throws_key32 _) d).bind fun _ _ _ _ _ => .pure rfl
  · exact (EndsAs.refl (throws_key32 _) d).bind fun _ _ _ _ _ => .pure rfl
  · exact (EndsAs.refl throws_integer d).bind fun _ _ _ _ _ => .pure rfl
  · exact (EndsAs.refl throws_skip d).bind fun _ _ _ _ _ => .pure rfl

theorem endsAs_infoEntry {s : InfoState} {k : ℕ} (c : CborReader)
    (h : s.info.regions.toList.length = k) :
    EndsAs (fun t l => t.info.regions.toList.length = l) FailsAs (assertInfoEntry s)
      (scanInfoEntry k) c := by
  unfold EndsAs assertInfoEntry scanInfoEntry
  by_cases hkey : keyAt c = some (literal 'r')
  · rw [if_pos hkey, if_pos hkey]
    exact (endsAs_thrown (endsAs_scanned throws_text c)).bind fun _ _ d _ _ => endsAs_regions h d
  · rw [if_neg hkey, if_neg hkey, ← bind_pure ((readInfoEntry s).mapError Failure.thrown)]
    refine (endsAs_thrown (endsAs_infoValue hkey s)).bind fun t _ d _ ht => ?_
    exact EndsAs.pure (by rw [ht, h])

/-- **The parser with the assertion and the scan end alike**, wherever they start. -/
theorem assertInfo_endsAs (c : CborReader) :
    EndsAs (fun s k => s.info.regions.toList.length = k) FailsAs assertInfo scanInfo c := by
  refine (endsAs_thrown (endsAs_scanned throws_mapSize c)).bind ?_
  rintro count _ d - rfl
  -- Entry by entry; all that the scan keeps of them is how many regions there are.
  exact EndsAs.times (fun s k d' h => endsAs_infoEntry d' h) count.toNat
    (rfl : ({} : InfoState).info.regions.toList.length = 0) d

/-! ## Addresses -/

/-- What is asked of the parser at an address: it returns the contents or throws an error of its
own, and what is reserved for nodes is never more than there are octets left. -/
def ParsesSafely (addr : List UInt8) : Prop :=
  ((∃ info, parseTailcatAddr addr = .ok info) ∨
      ∃ message, parseTailcatAddr addr = .error (parseError message)) ∧
    assertTailcatAddr addr ≠ .error .asserted

/-- The checks after the entries throw errors of the parser. -/
theorem finishInfo_isParseError {s : InfoState} {r : CborReader} {x : Exn}
    (h : finishInfo s r = .error x) : IsParseError x := by
  dsimp only [finishInfo] at h
  split_ifs at h
  all_goals
    obtain rfl := Except.error.inj h
    exact isParseError _

/-- An address whose text is no base64url is not read at all. -/
theorem parsesSafely_of_not_decoded {addr : List UInt8}
    (h : ¬ (['t'.toUInt8, 'c'.toUInt8] <+: addr ∧ ∃ raw, base64urlDecode (addr.drop 2) = .ok raw)) :
    ParsesSafely addr := by
  unfold ParsesSafely parseTailcatAddr assertTailcatAddr
  by_cases htc : ['t'.toUInt8, 'c'.toUInt8] <+: addr
  · rw [if_neg (not_not.mpr htc), if_neg (not_not.mpr htc)]
    cases hd : base64urlDecode (addr.drop 2) with
    | error e => exact ⟨.inr ⟨_, rfl⟩, by simp⟩
    | ok raw => exact absurd ⟨htc, raw, hd⟩ h
  · rw [if_pos htc, if_pos htc]
    exact ⟨.inr ⟨_, rfl⟩, by simp⟩

/-- What the parser does where the assertion does not fail. -/
theorem parseTailcatAddr_of_assert {addr : List UInt8} {r : Except Exn ConnInfo}
    (h : assertTailcatAddr addr = r.mapError .thrown) : parseTailcatAddr addr = r := by
  rcases assertTailcatAddr_guards addr with hg | hg
  · rw [hg] at h
    cases r <;> cases h
  · rw [hg] at h
    cases hp : parseTailcatAddr addr <;> cases r <;> rw [hp] at h <;> cases h <;> rfl

/-- An address whose text is base64url is parsed safely if the scan ends early only at something
malformed. -/
theorem parsesSafely_of_decoded {addr raw : List UInt8} (htc : ['t'.toUInt8, 'c'.toUInt8] <+: addr)
    (hd : base64urlDecode (addr.drop 2) = .ok raw) :
    ParsesSafely addr ↔ scanInfo (Cursor.start raw) ≠ .error .excessive := by
  have hassert : assertTailcatAddr addr = match assertInfo (Cursor.start raw) with
      | .error failure => .error failure
      | .ok (s, r) => (finishInfo s r).mapError .thrown := by
    rw [assertTailcatAddr, if_neg (not_not.mpr htc), hd]
  have hends := assertInfo_endsAs (Cursor.start raw)
  unfold ParsesSafely
  unfold EndsAs at hends
  split at hends
  · -- Both come to the end of the entries.
    rename_i s r k d hread hscan
    rw [hread] at hassert
    dsimp only at hassert
    rw [hassert, hscan, parseTailcatAddr_of_assert hassert]
    refine iff_of_true ?_ (by simp)
    cases hf : finishInfo s r with
    | error x =>
      obtain ⟨message, rfl⟩ := finishInfo_isParseError hf
      exact ⟨.inr ⟨message, rfl⟩, by simp [Except.mapError]⟩
    | ok info => exact ⟨.inl ⟨info, rfl⟩, by simp [Except.mapError]⟩
  · -- Both end early, for the same reason.
    rename_i failure stop hread hscan
    rw [hread] at hassert
    dsimp only at hassert
    rw [hassert, hscan]
    cases failure with
    | asserted =>
      obtain rfl : stop = .excessive := hends
      simp
    | thrown x =>
      rw [parseTailcatAddr_of_assert (r := .error x) hassert]
      have hkind : IsParseError x ↔ stop = .malformed := hends
      unfold IsParseError at hkind
      cases stop <;> simp_all
  · exact hends.elim

/-- **Which addresses are parsed safely**: those that do not announce too much. -/
theorem parses_safely_iff (addr : List UInt8) : ParsesSafely addr ↔ ¬ Excessive addr := by
  by_cases hdec : ['t'.toUInt8, 'c'.toUInt8] <+: addr ∧
      ∃ raw, base64urlDecode (addr.drop 2) = .ok raw
  · obtain ⟨htc, raw, hd⟩ := hdec
    rw [parsesSafely_of_decoded htc hd, ne_eq, not_iff_not]
    constructor
    · exact fun h => ⟨htc, raw, hd, h⟩
    · rintro ⟨-, raw', hd', h⟩
      obtain rfl := Except.ok.inj (hd.symm.trans hd')
      exact h
  · refine iff_of_true (parsesSafely_of_not_decoded hdec) ?_
    rintro ⟨htc, raw, hd, -⟩
    exact hdec ⟨htc, raw, hd⟩

/-- The address of one region, whose array of nodes announces 2^64 - 1 of them and ends there. -/
def announcing : List UInt8 := "tcoWFygaFhTpv__________w".toList.map Char.toUInt8

/-- The exception of the vector comes out of the parser. -/
theorem announced_nodes_escape :
    parseTailcatAddr announcing = .error (.lengthError "vector::reserve") ∧
      ¬ ParsesSafely announcing := by
  have hparse : parseTailcatAddr announcing = .error (.lengthError "vector::reserve") := by
    decide +kernel
  refine ⟨hparse, ?_⟩
  unfold ParsesSafely
  rw [hparse]
  rintro ⟨⟨_, h⟩ | ⟨_, h⟩, -⟩ <;> cases h

end Tailcat
