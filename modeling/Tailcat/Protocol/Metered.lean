import Tailcat.Base.Meter
import Tailcat.Protocol.Address

/-!
# The parser with a meter

The reader of CBOR and the parser of addresses, once more, with a meter. Each pass through one of
their loops is a step, and so is each call of `skip`. A reader that throws leaves its cursor and its
meter behind.

## Main definitions

* `CborLoop`, `CborLoop.Advances`: the loops, and what a pass through each of them does with the
  position
* `MeteredCbor.skip`, `MeteredCbor.readInfo`: the readers with a meter
* `meteredTailcatAddr`: the parser with a meter

## Main results

* `MeteredCbor.meters_skip`, `MeteredCbor.meters_readInfo`: these are the readers, and every octet
  that is passed pays for two steps
* `MeteredCbor.skip_eq`: the recursion of `skip` with a meter
-/

namespace Tailcat

/-- The loops: over the octets of a head, in `skip`, and in the readers of the maps and arrays of an
address. -/
inductive CborLoop
  | headOctets
  | skippedItems
  | skippedEntries
  | nodeEntries
  | regionEntries
  | nodes
  | inherited
  | infoEntries
  | regions
  deriving DecidableEq

/-- Readers of an address that count the passes of their loops. -/
abbrev MeteredM (α : Type) := Metered CborLoop Exn UInt8 α

namespace MeteredCbor

open CborReader (shiftIn valueWidth)

/-! ## The reader of CBOR -/

def require (n : ℕ) : MeteredM Unit := do
  let r ← Metered.get
  if n > r.data.length - r.pos then Metered.fail (parseError "truncated CBOR")

def requireLen (n : UInt64) : MeteredM Unit := do
  if n.toNat > 2 ^ 64 - 1 then Metered.fail (parseError "CBOR length overflow")
  require n.toNat

def next : MeteredM UInt8 := do
  let r ← Metered.get
  Metered.move 1
  return r.data.getD r.pos 0

def octet : MeteredM UInt8 := do
  require 1
  next

def uint (n : ℕ) : MeteredM UInt64 := do
  require n
  Metered.times .headOctets (fun value => return shiftIn value (← next)) n 0

/-- No more octets are taken than a text may have. -/
theorem length_take_le (len : UInt64) (bs : List UInt8) :
    (bs.take len.toNat).length ≤ 2 ^ 64 - 1 := by
  have hlt := len.toNat_lt
  have hle := List.length_take_le len.toNat bs
  omega

def span (len : UInt64) : MeteredM (Vec UInt8 (2 ^ 64 - 1)) := do
  requireLen len
  let r ← Metered.get
  Metered.move len.toNat
  return ⟨r.rest.take len.toNat, length_take_le len r.rest⟩

def head : MeteredM (UInt8 × UInt64) := do
  let first ← octet
  let major := first >>> 5
  let ai := first &&& 31
  if ai < 24 then
    return (major, ai.toUInt64)
  if ai = 31 then
    Metered.fail (parseError "indefinite-length CBOR is not accepted")
  let n := valueWidth ai
  if n = 0 then
    Metered.fail (parseError "invalid CBOR additional information")
  let value ← uint n
  return (major, value)

def expectMajor (want : UInt8) : MeteredM UInt64 := do
  let (major, value) ← head
  if major ≠ want then
    Metered.fail (parseError "unexpected CBOR type")
  return value

def mapSize : MeteredM UInt64 := expectMajor 5

def arraySize : MeteredM UInt64 := expectMajor 4

def text : MeteredM Text := do
  let len ← expectMajor 3
  span len

def bytes : MeteredM (List UInt8) := do
  let len ← expectMajor 2
  return (← span len).toList

def integer : MeteredM Int64 := do
  let (major, value) ← head
  if major = 0 then
    if value > 0x7fffffffffffffff then
      Metered.fail (parseError "integer overflow")
    return value.toInt64
  if major = 1 then
    if value > 0x7fffffffffffffff then
      Metered.fail (parseError "negative integer overflow")
    return -1 - value.toInt64
  Metered.fail (parseError "expected integer")

def boolean : MeteredM Bool := do
  let b ← octet
  if b = 0xf4 then
    return false
  if b = 0xf5 then
    return true
  Metered.fail (parseError "expected boolean")

/-- `skip`, whose calls are steps. -/
def skipItem (self : MeteredM Unit) : MeteredM Unit := do
  Metered.tick
  let (major, value) ← head
  if major = 0 ∨ major = 1 ∨ major = 7 then
    return ()
  else if major = 2 ∨ major = 3 then
    requireLen value
    Metered.move value.toNat
  else if major = 4 then
    Metered.times .skippedItems (fun _ => self) value.toNat ()
  else if major = 5 then
    Metered.times .skippedEntries (fun _ => do self; self) value.toNat ()
  else if major = 6 then
    self
  else
    Metered.fail (parseError "unsupported CBOR major type")

/-- A call at depth 0 is in front of no octet. -/
def skipWithin : ℕ → MeteredM Unit
  | 0 => do
    Metered.tick
    Metered.fail (parseError "truncated CBOR")
  | depth + 1 => skipItem (skipWithin depth)

/-- An item of any type, however deep it is nested. -/
def skip : MeteredM Unit := fun m r => skipWithin r.rest.length m r

/-! ## The parser of addresses -/

def key32 (field : String) : MeteredM Key32 := do
  let raw ← bytes
  if h : raw.length = 32 then
    return Octets.ofList raw h
  else
    Metered.fail (parseError (field ++ " must be exactly 32 bytes"))

/-- So many items of an array, which are pushed onto a vector. -/
def readItems {α : Type} {cap : ℕ} (l : CborLoop) (item : MeteredM α) (n : ℕ) (xs : Vec α cap) :
    MeteredM (Vec α cap) := do
  Metered.lift (xs.reserve n)
  Metered.times l (fun xs => do Metered.lift (xs.pushBack (← item))) n xs

def readNodeEntry (n : DerpNode) : MeteredM DerpNode := do
  let key ← text
  if key = literal 'n' then
    return { n with name := ← text }
  else if key = literal 'i' then
    return { n with regionId := ← integer }
  else if key = literal 'h' then
    return { n with hostName := ← text }
  else if key = literal 't' then
    return { n with certName := ← text }
  else if key = literal '4' then
    return { n with ipv4 := ← text }
  else if key = literal '6' then
    return { n with ipv6 := ← text }
  else if key = literal 's' then
    return { n with stunPort := ← integer }
  else if key = literal 'd' then
    return { n with derpPort := ← integer }
  else if key = literal 'x' then
    return { n with insecureForTests := ← boolean }
  else
    skip
    return n

def readNode : MeteredM DerpNode := do
  let count ← mapSize
  Metered.times .nodeEntries readNodeEntry count.toNat {}

def readRegionEntry (region : DerpRegion) : MeteredM DerpRegion := do
  let key ← text
  if key = literal 'i' then
    return { region with regionId := ← integer }
  else if key = literal 'c' then
    return { region with regionCode := ← text }
  else if key = literal 'm' then
    return { region with regionName := ← text }
  else if key = literal 'N' then
    let n ← arraySize
    return { region with nodes := ← readItems .nodes readNode n.toNat region.nodes }
  else
    skip
    return region

/-- The last loop is over the nodes that have been read. -/
def readRegion : MeteredM DerpRegion := do
  let count ← mapSize
  let region ← Metered.times .regionEntries readRegionEntry count.toNat {}
  Metered.visit .inherited region.nodes.toList
  return { region with nodes := region.nodes.map region.adopt }

def readRegions (s : InfoState) : MeteredM InfoState := do
  let n ← arraySize
  if n > 1 then
    Metered.fail (parseError "more than one embedded DERP region")
  let regions ← readItems .regions readRegion n.toNat s.info.regions
  return { s with info.regions := regions }

def readInfoEntry (s : InfoState) : MeteredM InfoState := do
  let key ← text
  if key = literal 'p' then
    let serverPublic ← key32 "ServerPublic"
    return { s with info.serverPublic := serverPublic, havePublic := true }
  else if key = literal 'k' then
    let serverDiscoPublic ← key32 "ServerDiscoPublic"
    return { s with info.serverDiscoPublic := some serverDiscoPublic }
  else if key = literal 'q' then
    let presharedKey ← key32 "PresharedKey"
    return { s with info.presharedKey := some presharedKey }
  else if key = literal 'r' then
    readRegions s
  else if key = literal 'i' then
    let regionId ← integer
    return { s with info.regionId := regionId }
  else
    skip
    return s

def readInfo : MeteredM InfoState := do
  let count ← mapSize
  Metered.times .infoEntries readInfoEntry count.toNat {}

end MeteredCbor

/-! ## What the octets pay for -/

/-- A pass that reads goes on to a later position within the octets. A pass over the nodes that have
been read does not read. -/
def CborLoop.Advances (len : ℕ) (p : Pass CborLoop) : Prop :=
  if p.loop = .inherited then p.start = p.stop else p.start < p.stop ∧ p.stop ≤ len

theorem CborLoop.advances_of_ne {l : CborLoop} (hl : l ≠ .inherited) (len start stop : ℕ)
    (h : start < stop) (hlen : stop ≤ len) : CborLoop.Advances len ⟨l, start, stop⟩ :=
  if_neg hl |>.mpr ⟨h, hlen⟩

/-- `q` is `p` with a meter, and every octet pays for two steps. -/
abbrev MetersTwice {α : Type} (p : CborM α) (q : MeteredM α) (k : ℕ) (r : α → ℤ) (t : ℤ) : Prop :=
  Meters 2 CborLoop.Advances p q k r t

namespace MeteredCbor

theorem require_apply (n : ℕ) (m : Meter CborLoop) (r : CborReader) :
    require n m r = if r.rest.length < n then .error ⟨parseError "truncated CBOR", r, m⟩
      else .ok (((), m), r) := by
  rw [Cursor.length_rest]
  by_cases h : r.data.length - r.pos < n
  · rw [if_pos h]
    exact (Metered.bind_of_ok rfl).trans (by rw [if_pos h]; rfl)
  · rw [if_neg h]
    exact (Metered.bind_of_ok rfl).trans (by rw [if_neg h]; rfl)

theorem require_bind {α : Type} (n : ℕ) (q : MeteredM α) (m : Meter CborLoop) (r : CborReader) :
    (do require n; q) m r =
      if r.rest.length < n then .error ⟨parseError "truncated CBOR", r, m⟩ else q m r := by
  by_cases h : r.rest.length < n
  · rw [if_pos h, Metered.bind_of_error]
    rw [require_apply, if_pos h]
  · rw [if_neg h, Metered.bind_of_ok (a := ()) (n := m) (d := r)]
    rw [require_apply, if_neg h]

theorem requireLen_bind {α : Type} (n : UInt64) (q : MeteredM α) (m : Meter CborLoop)
    (r : CborReader) : (do requireLen n; q) m r =
      if r.rest.length < n.toNat then .error ⟨parseError "truncated CBOR", r, m⟩ else q m r := by
  have h : ¬ n.toNat > 2 ^ 64 - 1 := by
    have := n.toNat_lt
    omega
  rw [requireLen, if_neg h, require_bind]

theorem next_apply {r : CborReader} {b : UInt8} {bs : List UInt8} (h : r.rest = b :: bs)
    (m : Meter CborLoop) : next m r = .ok ((b, m), r.advance 1) := by
  have hb := CborReader.next_apply h
  change Except.ok ((r.data.getD r.pos 0, m), r.advance 1) = _
  change Except.ok (r.data.getD r.pos 0, r.advance 1) = _ at hb
  rw [(Prod.mk.inj (Except.ok.inj hb)).1]

theorem meters_octet : MetersTwice CborReader.octet octet 1 (fun _ => -2) 0 := by
  refine .of_consumes CborReader.consumes_octet (fun _ => by norm_num) le_rfl ?_ ?_
  · intro m c b d h
    rcases hc : c.rest with - | ⟨b', bs⟩
    · cases (CborReader.octet_nil hc).symm.trans h
    · obtain ⟨rfl, rfl⟩ := Prod.mk.inj (Except.ok.inj ((CborReader.octet_cons hc).symm.trans h))
      rw [octet, require_bind, if_neg (by simp [hc]), next_apply hc]
  · intro m c e h
    rcases hc : c.rest with - | ⟨b', bs⟩
    · obtain rfl := Except.error.inj ((CborReader.octet_nil hc).symm.trans h)
      rw [octet, require_bind, if_pos (by simp [hc])]
    · cases (CborReader.octet_cons hc).symm.trans h

/-- The octets of a number pay for their passes. -/
theorem times_next {r : CborReader} {bs post : List UInt8} (value : UInt64) (m : Meter CborLoop)
    (h : r.rest = bs ++ post) : ∃ m', Metered.times .headOctets
        (fun value => do return CborReader.shiftIn value (← next)) bs.length value m r =
          .ok ((bs.foldl CborReader.shiftIn value, m'), r.advance bs.length) ∧
      Spent 2 CborLoop.Advances r m (r.advance bs.length) m' bs.length (-bs.length) := by
  induction bs generalizing r value m with
  | nil => exact ⟨m, rfl, .refl (by simp)⟩
  | cons b bs ih =>
    rw [List.cons_append] at h
    -- One octet moves the cursor by one place, whose second step is left over.
    set m₁ : Meter CborLoop := ⟨m.steps + 1, m.passes ++ [⟨.headOctets, r.pos, r.pos + 1⟩]⟩
    have hbody : (do return CborReader.shiftIn value (← next) : MeteredM UInt64)
        { m with steps := m.steps + 1 } r =
          .ok ((CborReader.shiftIn value b, { m with steps := m.steps + 1 }), r.advance 1) :=
      Metered.bind_of_ok (next_apply h _)
    have hpass := Metered.pass_of_ok (l := CborLoop.headOctets) hbody
    have hspent : Spent 2 CborLoop.Advances r m (r.advance 1) m₁ 1 (-1) := by
      have hlen := congrArg List.length h
      rw [Cursor.length_rest, List.length_cons] at hlen
      refine ⟨⟨1, le_rfl, ?_, rfl, ?_⟩, fun hm x hx => ?_⟩
      · simp [h]
      · push_cast [m₁]
        linarith
      · rcases List.mem_append.mp hx with hx | hx
        · exact hm x hx
        · obtain rfl := List.mem_singleton.mp hx
          exact CborLoop.advances_of_ne (by decide) _ _ _ (Nat.lt_succ_self _) (by omega)
    obtain ⟨m', hq, hrest⟩ := ih (CborReader.shiftIn value b) m₁ (r := r.advance 1) (by simp [h])
    rw [Cursor.advance_advance, Nat.add_comm] at hq hrest
    refine ⟨m', (Metered.bind_of_ok hpass).trans hq, (hspent.trans hrest).mono ?_ ?_⟩
    · rw [List.length_cons, Nat.add_comm]
    · rw [List.length_cons]
      push_cast
      linarith

theorem meters_uint (n : ℕ) : MetersTwice (CborReader.uint n) (uint n) 0 (fun _ => 0) 0 where
  returns m c v d h := by
    rw [CborReader.uint_apply] at h
    split at h
    · cases h
    · rename_i hn
      obtain ⟨rfl, rfl⟩ := Prod.mk.inj (Except.ok.inj h)
      have hlen : (c.rest.take n).length = n := List.length_take_of_le (Nat.not_lt.mp hn)
      obtain ⟨m', hq, hspent⟩ := times_next 0 m (List.take_append_drop n c.rest).symm
      rw [hlen] at hq hspent
      refine ⟨m', ?_, hspent.mono (Nat.zero_le _) (by simp)⟩
      rw [uint, require_bind, if_neg hn, hq]
  throws m c e h := by
    rw [CborReader.uint_apply] at h
    split at h
    · rename_i hn
      obtain rfl := Except.error.inj h
      refine ⟨⟨parseError "truncated CBOR", c, m⟩, ?_, rfl, .refl le_rfl⟩
      rw [uint, require_bind, if_pos hn]
    · cases h

/-- Octets that are taken at once, when they are all there. -/
theorem meters_requireLen {α : Type} {p : CborM α} {q : MeteredM α} (n : UInt64)
    (f : CborReader → α) (hp : ∀ c, p c = .ok (f c, c.advance n.toNat))
    (hq : ∀ m c, q m c = .ok ((f c, m), c.advance n.toNat)) :
    MetersTwice (do CborReader.requireLen n; p) (do requireLen n; q) 0 (fun _ => 0) 0 where
  returns m c a d h := by
    rw [CborReader.requireLen_bind] at h
    split at h
    · cases h
    · rename_i hn
      rw [hp] at h
      obtain ⟨rfl, rfl⟩ := Prod.mk.inj (Except.ok.inj h)
      refine ⟨m, ?_, ⟨n.toNat, Nat.zero_le _, Nat.not_lt.mp hn, rfl, ?_⟩, fun hm => hm⟩
      · rw [requireLen_bind, if_neg hn, hq]
      · push_cast
        linarith
  throws m c e h := by
    rw [CborReader.requireLen_bind] at h
    split at h
    · rename_i hn
      obtain rfl := Except.error.inj h
      refine ⟨⟨parseError "truncated CBOR", c, m⟩, ?_, rfl, .refl le_rfl⟩
      rw [requireLen_bind, if_pos hn]
    · rw [hp] at h
      cases h

theorem meters_head : MetersTwice CborReader.head head 1 (fun _ => -2) 0 := by
  refine meters_octet.bind (k := 0) fun first => ?_
  simp only [Reader.fail_bind, Metered.fail_bind]
  refine .ite (.pure (by norm_num)) <| .ite (.fail _ (by norm_num)) <|
    .ite (.fail _ (by norm_num)) ?_
  exact ((meters_uint _).bind (k := 0) fun _ => .pure (by norm_num)).mono le_rfl
    (fun _ => le_rfl) (by norm_num)

theorem meters_expectMajor (want : UInt8) :
    MetersTwice (CborReader.expectMajor want) (expectMajor want) 1 (fun _ => -2) 0 := by
  refine meters_head.bind (k := 0) fun ⟨major, value⟩ => ?_
  simp only [Reader.fail_bind, Metered.fail_bind]
  exact .ite (.fail _ (by norm_num)) (.pure (by norm_num))

theorem meters_span (len : UInt64) :
    MetersTwice (CborReader.span len) (span len) 0 (fun _ => 0) 0 :=
  meters_requireLen len _ (fun _ => rfl) fun _ _ => rfl

theorem meters_text : MetersTwice CborReader.text text 1 (fun _ => -2) 0 :=
  (meters_expectMajor 3).bind fun len => (meters_span len).mono le_rfl (fun _ => by norm_num)
    (by norm_num)

theorem meters_bytes : MetersTwice CborReader.bytes bytes 1 (fun _ => -2) 0 := by
  refine (meters_expectMajor 2).bind (k := 0) fun len => ?_
  exact ((meters_span len).bind (k := 0) fun _ => .pure (by norm_num)).mono le_rfl
    (fun _ => le_rfl) (by norm_num)

theorem meters_integer : MetersTwice CborReader.integer integer 1 (fun _ => -2) 0 := by
  refine meters_head.bind (k := 0) fun ⟨major, value⟩ => ?_
  simp only [Reader.fail_bind, Metered.fail_bind]
  exact .ite (.ite (.fail _ (by norm_num)) (.pure (by norm_num))) <|
    .ite (.ite (.fail _ (by norm_num)) (.pure (by norm_num))) (.fail _ (by norm_num))

theorem meters_boolean : MetersTwice CborReader.boolean boolean 1 (fun _ => -2) 0 := by
  refine meters_octet.bind (k := 0) fun b => ?_
  exact .ite (.pure (by norm_num)) <| .ite (.pure (by norm_num)) (.fail _ (by norm_num))

/-- All loops but one go on in the octets. -/
theorem advances (l : CborLoop) (hl : l ≠ .inherited := by decide) :
    ∀ len start stop, start < stop → stop ≤ len → CborLoop.Advances len ⟨l, start, stop⟩ :=
  CborLoop.advances_of_ne hl

/-- **An item**: its head pays for the call, and its own items for the passes around them. -/
theorem meters_skipItem {self : CborM Unit} {self' : MeteredM Unit}
    (h : MetersTwice self self' 1 (fun _ => -1) 1) :
    MetersTwice (CborReader.skipItem self) (skipItem self') 1 (fun _ => -1) 1 := by
  have htwice : MetersTwice (do self; self) (do self'; self') 1 (fun _ => -1) 1 :=
    (h.bind (s := fun _ => -1) fun _ => h.mono le_rfl (fun _ => by norm_num) (by norm_num)).mono
      (by norm_num) (fun _ => le_rfl) le_rfl
  -- The head leaves two steps paid: one for the call, and one for the pass it may be in.
  refine .tick_bind ((meters_head.mono le_rfl (fun _ => le_rfl) (by norm_num)).bind (k := 0)
    fun ⟨major, value⟩ => ?_)
  refine .ite (.pure (by norm_num)) <| .ite ?_ <| .ite ?_ <| .ite ?_ <| .ite ?_
    (.fail _ (by norm_num))
  · exact (meters_requireLen value _ (fun _ => rfl) fun _ _ => rfl).mono le_rfl
      (fun _ => by norm_num) (by norm_num)
  · refine (Meters.times_of_le (t := 2) (advances .skippedItems) (fun _ => ?_) _ _).mono le_rfl
      (fun _ => by norm_num) (by norm_num)
    exact h.mono le_rfl (fun _ => le_rfl) (by norm_num)
  · refine (Meters.times_of_le (t := 2) (advances .skippedEntries) (fun _ => ?_) _ _).mono le_rfl
      (fun _ => by norm_num) (by norm_num)
    exact htwice.mono le_rfl (fun _ => le_rfl) (by norm_num)
  · exact h.mono (Nat.zero_le _) (fun _ => by norm_num) (by norm_num)

theorem meters_skipWithin (depth : ℕ) :
    MetersTwice (CborReader.skipWithin depth) (skipWithin depth) 1 (fun _ => -1) 1 := by
  induction depth with
  | zero => exact .tick_bind (.fail _ (by norm_num))
  | succ depth ih => exact meters_skipItem ih

/-- **`skip`** is paid for by the item. -/
theorem meters_skip : MetersTwice CborReader.skip skip 1 (fun _ => -1) 1 where
  returns m c := (meters_skipWithin c.rest.length).returns m c
  throws m c := (meters_skipWithin c.rest.length).throws m c

/-! ## The recursion of `skip` -/

section Recursion

open Reader

theorem skipItem_agreeWithin {self self' : MeteredM Unit} {k : ℕ}
    (h : ∀ m, AgreeWithin k (self m) (self' m)) (hc : ∀ m, Consumes (self m) 0)
    (m : Meter CborLoop) : AgreeWithin (k + 1) (skipItem self m) (skipItem self' m) := by
  rw [skipItem, skipItem, Metered.tick_bind_eq, Metered.tick_bind_eq, Metered.bind_eq,
    Metered.bind_eq]
  refine AgreeWithin.bind_left (meters_head.consumes _) fun ⟨⟨major, value⟩, n⟩ => ?_
  dsimp only
  split
  · exact .refl _ _
  split
  · exact .refl _ _
  split
  · exact Metered.agreeWithin_times (fun _ => h) (fun _ => hc) _ _ _ _
  split
  · refine Metered.agreeWithin_times (fun _ m => ?_) (fun _ m => ?_) _ _ _ _
    · rw [Metered.bind_eq, Metered.bind_eq]
      exact (h m).bind (hc m) fun x => h x.2
    · rw [Metered.bind_eq]
      exact (hc m).bind fun x => hc x.2
  split
  · exact h n
  · exact .refl _ _

theorem skipItem_nil (self : MeteredM Unit) (m : Meter CborLoop) {r : CborReader}
    (h : r.rest = []) : skipItem self m r =
      .error ⟨parseError "truncated CBOR", r, { m with steps := m.steps + 1 }⟩ := by
  rw [skipItem, Metered.tick_bind_eq, Metered.bind_of_error]
  rw [head, Metered.bind_of_error]
  rw [octet, require_bind, if_pos (by simp [h])]

theorem skipWithin_agreeWithin {k l : ℕ} (h : k ≤ l) (m : Meter CborLoop) :
    AgreeWithin k (skipWithin k m) (skipWithin l m) := by
  induction k generalizing l m with
  | zero =>
    intro c hc
    have hr : c.rest = [] := List.length_eq_zero_iff.mp (Nat.le_zero.mp hc)
    cases l with
    | zero => rfl
    | succ l => exact (skipItem_nil _ m hr).symm
  | succ k ih =>
    obtain ⟨l, rfl⟩ : ∃ l', l = l' + 1 := ⟨l - 1, by omega⟩
    refine skipItem_agreeWithin (fun m => ih (by omega) m) (fun m => ?_) m
    exact ((meters_skipWithin k).consumes m).mono (Nat.zero_le _)

/-- **The recursion of the source**, with a meter. -/
theorem skip_eq : skip = skipItem skip := by
  funext m c
  cases hn : c.rest.length with
  | zero =>
    rw [skipItem_nil _ m (List.length_eq_zero_iff.mp hn), skip, hn]
    rfl
  | succ n =>
    have h : ∀ m, AgreeWithin n (skipWithin n m) (skip m) := fun m c' hc =>
      (skipWithin_agreeWithin hc m c' le_rfl).symm
    rw [skip, hn]
    exact skipItem_agreeWithin h
      (fun m => ((meters_skipWithin n).consumes m).mono (Nat.zero_le _)) m c hn.le

end Recursion

/-! ## Addresses -/

theorem meters_key32 (field : String) :
    MetersTwice (Tailcat.key32 field) (key32 field) 1 (fun _ => -2) 0 := by
  refine meters_bytes.bind (k := 0) fun raw => ?_
  exact .dite (fun _ => .pure (by norm_num)) fun _ => .fail _ (by norm_num)

/-- Items that are pushed back. Each of them may leave a step paid. -/
theorem meters_readItems {α : Type} {cap : ℕ} {item : CborM α} {item' : MeteredM α} {w : ℤ}
    (hw : 0 ≤ w) (hw' : w ≤ 1) (l : CborLoop) (hl : l ≠ .inherited)
    (h : MetersTwice item item' 1 (fun _ => -2) 0) (n : ℕ) (xs : Vec α cap) :
    MetersTwice (Tailcat.readItems item n xs) (readItems l item' n xs) 0
      (fun ys => w * xs.toList.length - w * ys.toList.length) (1 + w * xs.toList.length) := by
  have hpaid : 0 ≤ w * xs.toList.length := mul_nonneg hw (Nat.cast_nonneg _)
  have hpush : ∀ ys : Vec α cap, MetersTwice (do Reader.lift (ys.pushBack (← item)))
      (do Metered.lift (ys.pushBack (← item'))) 1
      (fun zs => -(w * zs.toList.length) - -(w * ys.toList.length) - 1)
      (1 - -(w * ys.toList.length) - 1) := by
    intro ys
    have hpaid' : 0 ≤ w * ys.toList.length := mul_nonneg hw (Nat.cast_nonneg _)
    refine (h.mono le_rfl (fun _ => le_rfl) (by linarith)).bind (k := 0) fun x => ?_
    -- Pushing back may throw, and otherwise makes the vector longer by one.
    refine .lift _ (fun zs hzs => ?_) (by linarith)
    have hlen : (zs.toList.length : ℤ) = ys.toList.length + 1 := by
      unfold Vec.pushBack at hzs
      split at hzs
      · rw [← Except.ok.inj hzs]
        simp
      · cases hzs
    rw [hlen]
    linarith
  refine (Meters.lift (r := fun _ => 0) _ (fun _ _ => le_rfl) (by linarith)).bind (k := 0)
    fun _ => ?_
  refine (Meters.times (t := 1) (advances l hl) hpush n xs).mono le_rfl (fun _ => ?_) ?_
  · linarith
  · linarith

/-- An entry of a node: its key and its value pay for the pass. -/
theorem meters_readNodeEntry (n : DerpNode) :
    MetersTwice (Tailcat.readNodeEntry n) (readNodeEntry n) 1 (fun _ => -1) 0 := by
  refine meters_text.bind (k := 0) fun key => ?_
  have htext : ∀ f : Text → DerpNode, MetersTwice (do return f (← CborReader.text))
      (do return f (← text)) 0 (fun _ => -1 - -2) (0 - -2) := fun f =>
    meters_text.value (fun _ => by norm_num) (by norm_num)
  have hinteger : ∀ f : Int64 → DerpNode, MetersTwice (do return f (← CborReader.integer))
      (do return f (← integer)) 0 (fun _ => -1 - -2) (0 - -2) := fun f =>
    meters_integer.value (fun _ => by norm_num) (by norm_num)
  exact .ite (htext _) <| .ite (hinteger _) <| .ite (htext _) <| .ite (htext _) <|
    .ite (htext _) <| .ite (htext _) <| .ite (hinteger _) <| .ite (hinteger _) <|
    .ite (meters_boolean.value (fun _ => by norm_num) (by norm_num))
      (meters_skip.value (fun _ => by norm_num) (by norm_num))

theorem meters_readNode : MetersTwice Tailcat.readNode readNode 1 (fun _ => -2) 0 := by
  refine (meters_expectMajor 5).bind (k := 0) fun count => ?_
  refine (Meters.times_of_le (t := 1) (advances .nodeEntries) (fun n => ?_) _ _).mono le_rfl
    (fun _ => by norm_num) (by norm_num)
  exact (meters_readNodeEntry n).mono le_rfl (fun _ => le_rfl) (by norm_num)

/-- An entry of a region. Nodes leave a step paid each, for the loop behind the entries. -/
theorem meters_readRegionEntry (region : DerpRegion) :
    MetersTwice (Tailcat.readRegionEntry region) (readRegionEntry region) 1
      (fun region' => region.nodes.toList.length - region'.nodes.toList.length - 1)
      region.nodes.toList.length := by
  have hnodes : (0 : ℤ) ≤ region.nodes.toList.length := Nat.cast_nonneg _
  refine (meters_text.mono le_rfl (fun _ => le_rfl) hnodes).bind (k := 0) fun key => ?_
  refine .ite (meters_integer.value (fun _ => ?_) (by linarith)) <|
    .ite (meters_text.value (fun _ => ?_) (by linarith)) <|
    .ite (meters_text.value (fun _ => ?_) (by linarith)) <|
    .ite ?_ (meters_skip.value (fun _ => ?_) (by linarith))
  · linarith
  · linarith
  · linarith
  · refine ((meters_expectMajor 4).mono (Nat.zero_le _) (fun _ => le_rfl) (by linarith)).bind
      (k := 0) fun n => ?_
    exact (meters_readItems zero_le_one le_rfl .nodes (by decide) meters_readNode _ _).value
      (fun nodes => by dsimp only; linarith) (by linarith)
  · linarith

/-- The last loop of a region is over nodes that have paid for it. -/
theorem meters_readRegion : MetersTwice Tailcat.readRegion readRegion 1 (fun _ => -2) 0 := by
  refine (meters_expectMajor 5).bind (k := 0) fun count => ?_
  -- The potential of a region is what its nodes have paid for.
  have hentries := Meters.times (t := 1) (φ := fun region : DerpRegion =>
    -(region.nodes.toList.length : ℤ)) (advances .regionEntries) (fun region =>
      (meters_readRegionEntry region).mono le_rfl (fun _ => by linarith) (by linarith))
    count.toNat {}
  have hempty : (({} : DerpRegion).nodes.toList.length : ℤ) = 0 := rfl
  refine (hentries.mono le_rfl (fun _ => le_rfl) (by linarith)).bind (k := 0) fun region => ?_
  have hvisit : MetersTwice (Pure.pure () : CborM Unit)
      (Metered.visit .inherited region.nodes.toList) 0 (fun _ => region.nodes.toList.length) 0 :=
    Meters.visit (fun _ _ => if_pos rfl |>.mpr rfl) _
  refine (hvisit.mono le_rfl (fun _ => le_rfl) ?_).bind (k := 0) fun _ => .pure ?_
  · linarith [(Nat.cast_nonneg region.nodes.toList.length : (0 : ℤ) ≤ _)]
  · linarith

theorem meters_readRegions (s : InfoState) :
    MetersTwice (Tailcat.readRegions s) (readRegions s) 1 (fun _ => -2) 0 := by
  refine (meters_expectMajor 4).bind (k := 0) fun n => ?_
  simp only [Reader.fail_bind, Metered.fail_bind]
  refine .ite (.fail _ (by norm_num)) ?_
  exact (meters_readItems le_rfl zero_le_one .regions (by decide) meters_readRegion _ _).value
    (fun _ => by linarith) (by linarith)

theorem meters_readInfoEntry (s : InfoState) :
    MetersTwice (Tailcat.readInfoEntry s) (readInfoEntry s) 1 (fun _ => -1) 0 := by
  refine meters_text.bind (k := 0) fun key => ?_
  have hkey32 : ∀ (field : String) (f : Key32 → InfoState), MetersTwice
      (do return f (← Tailcat.key32 field)) (do return f (← key32 field)) 0
      (fun _ => -1 - -2) (0 - -2) := fun field f =>
    (meters_key32 field).value (fun _ => by norm_num) (by norm_num)
  exact .ite (hkey32 _ _) <| .ite (hkey32 _ _) <| .ite (hkey32 _ _) <|
    .ite ((meters_readRegions s).mono (Nat.zero_le _) (fun _ => by norm_num) (by norm_num)) <|
    .ite (meters_integer.value (fun _ => by norm_num) (by norm_num))
      (meters_skip.value (fun _ => by norm_num) (by norm_num))

/-- **The contents of an address** are read in two steps for each octet at most. -/
theorem meters_readInfo : MetersTwice Tailcat.readInfo readInfo 1 (fun _ => -2) 0 := by
  refine (meters_expectMajor 5).bind (k := 0) fun count => ?_
  refine (Meters.times_of_le (t := 1) (advances .infoEntries) (fun s => ?_) _ _).mono le_rfl
    (fun _ => by norm_num) (by norm_num)
  exact (meters_readInfoEntry s).mono le_rfl (fun _ => le_rfl) (by norm_num)

end MeteredCbor

/-! ## The parser -/

/-- How a run of the parser ends, and what the meter shows then. -/
structure MeteredParse where
  result : Except Exn ConnInfo
  cursor : CborReader
  meter : Meter CborLoop

/-- `parse_tailcat_addr` with a meter. -/
def meteredTailcatAddr (addr : List UInt8) : MeteredParse :=
  if ¬ ['t'.toUInt8, 'c'.toUInt8] <+: addr then
    ⟨.error (parseError "doesn't start with \"tc\""), Cursor.start [], {}⟩
  else
    match base64urlDecode (addr.drop 2) with
    | .error e => ⟨.error (parseError ("base64 decode: " ++ e.what)), Cursor.start [], {}⟩
    | .ok raw =>
      match MeteredCbor.readInfo {} (Cursor.start raw) with
      | .error halt => ⟨.error halt.thrown, halt.cursor, halt.meter⟩
      | .ok ((s, meter), r) => ⟨finishInfo s r, r, meter⟩

end Tailcat
