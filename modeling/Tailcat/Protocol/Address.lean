import Tailcat.Protocol.Base64url
import Tailcat.Protocol.Cbor

/-!
# Addresses

The `tc...` address of a server: the letters `tc` and the base64url text of a CBOR map. The
readers take the entries of a map in any order, keep the last of the entries with one key and skip
the keys they do not know; the writers leave out the fields that have their default value.

## Main definitions

* `readNode`, `readRegion`, `readInfo`: the readers of the three maps
* `writeNode`, `writeRegion`, `writeInfo`: their writers
* `parseTailcatAddr`, `encodeTailcatAddr`
-/

namespace Tailcat

/-- A string literal of one character. -/
def literal (c : Char) : Text := ⟨[c.toUInt8], by simp⟩

/-! ## Reading -/

/-- A byte string of 32 octets. -/
def key32 (field : String) : CborM Key32 := do
  let raw ← CborReader.bytes
  if h : raw.length = 32 then
    return Octets.ofList raw h
  else
    Reader.fail (parseError (field ++ " must be exactly 32 bytes"))

/-- `reserve(n)`, and `n` times `push_back(item)`. -/
def readItems {α : Type} {cap : ℕ} (item : CborM α) (n : ℕ) (xs : Vec α cap) :
    CborM (Vec α cap) := do
  Reader.lift (xs.reserve n)
  Reader.times (fun xs => do Reader.lift (xs.pushBack (← item))) n xs

/-- One entry of a node's map. -/
def readNodeEntry (n : DerpNode) : CborM DerpNode := do
  let key ← CborReader.text
  if key = literal 'n' then
    return { n with name := ← CborReader.text }
  else if key = literal 'i' then
    return { n with regionId := ← CborReader.integer }
  else if key = literal 'h' then
    return { n with hostName := ← CborReader.text }
  else if key = literal 't' then
    return { n with certName := ← CborReader.text }
  else if key = literal '4' then
    return { n with ipv4 := ← CborReader.text }
  else if key = literal '6' then
    return { n with ipv6 := ← CborReader.text }
  else if key = literal 's' then
    return { n with stunPort := ← CborReader.integer }
  else if key = literal 'd' then
    return { n with derpPort := ← CborReader.integer }
  else if key = literal 'x' then
    return { n with insecureForTests := ← CborReader.boolean }
  else
    CborReader.skip
    return n

/-- The entries of a relay, in any order. -/
def readNode : CborM DerpNode := do
  let count ← CborReader.mapSize
  Reader.times readNodeEntry count.toNat {}

/-- One entry of a region's map. -/
def readRegionEntry (region : DerpRegion) : CborM DerpRegion := do
  let key ← CborReader.text
  if key = literal 'i' then
    return { region with regionId := ← CborReader.integer }
  else if key = literal 'c' then
    return { region with regionCode := ← CborReader.text }
  else if key = literal 'm' then
    return { region with regionName := ← CborReader.text }
  else if key = literal 'N' then
    let n ← CborReader.arraySize
    return { region with nodes := ← readItems readNode n.toNat region.nodes }
  else
    CborReader.skip
    return region

/-- A node without a region takes the one it is listed in. -/
def DerpRegion.adopt (region : DerpRegion) (node : DerpNode) : DerpNode :=
  if node.regionId = 0 then { node with regionId := region.regionId } else node

/-- The entries of a region, in any order; its relays get its id. -/
def readRegion : CborM DerpRegion := do
  let count ← CborReader.mapSize
  let region ← Reader.times readRegionEntry count.toNat {}
  return { region with nodes := region.nodes.map region.adopt }

/-- What the loop over the entries of an address has read. -/
structure InfoState where
  info : ConnInfo := {}
  havePublic : Bool := false

/-- The regions of one `r` entry. -/
def readRegions (s : InfoState) : CborM InfoState := do
  let n ← CborReader.arraySize
  if n > 1 then
    Reader.fail (parseError "more than one embedded DERP region")
  let regions ← readItems readRegion n.toNat s.info.regions
  return { s with info.regions := regions }

/-- One entry of an address's map. -/
def readInfoEntry (s : InfoState) : CborM InfoState := do
  let key ← CborReader.text
  if key = literal 'p' then
    let serverPublic ← key32 "ServerPublic"
    return { s with info.serverPublic := serverPublic, havePublic := true }
  else if key = literal 'k' then
    let serverDiscoPublic ← key32 "ServerDiscoPublic"
    return { s with info.serverDiscoPublic := some serverDiscoPublic }
  else if key = literal 'q' then
    let presharedKey ← key32 "PresharedKey"
    return { s with info.presharedKey := some presharedKey }
  else if key = literal 'r' then
    readRegions s
  else if key = literal 'i' then
    let regionId ← CborReader.integer
    return { s with info.regionId := regionId }
  else
    CborReader.skip
    return s

/-- The entries of an address, in any order. -/
def readInfo : CborM InfoState := do
  let count ← CborReader.mapSize
  Reader.times readInfoEntry count.toNat {}

/-- An address without a region id takes the one of its region. -/
def ConnInfo.inheritRegionId (info : ConnInfo) : ConnInfo :=
  match info.regions.toList with
  | [] => info
  | front :: _ => if info.regionId = 0 then { info with regionId := front.regionId } else info

/-- The text of an exception. -/
def Exn.what : Exn → String
  | .runtimeError what => what
  | .invalidArgument what => what
  | .lengthError what => what

/-- What follows the loop over the entries: the checks, and the region id. -/
def finishInfo (s : InfoState) (r : CborReader) : Except Exn ConnInfo :=
  if ¬ CborReader.done r then
    .error (parseError "trailing CBOR data")
  else if ¬ s.havePublic ∨ s.info.serverPublic.allZero then
    .error (parseError "missing or zero ServerPublic")
  else if s.info.serverDiscoPublic.any Octets.allZero then
    .error (parseError "zero ServerDiscoPublic")
  else
    let info := s.info.inheritRegionId
    if info.regionId = 0 ∧ info.regions = .empty then
      .error (parseError "missing DERP region")
    else
      .ok info

/-- What an address says. -/
def parseTailcatAddr (addr : List UInt8) : Except Exn ConnInfo :=
  if ¬ ['t'.toUInt8, 'c'.toUInt8] <+: addr then
    .error (parseError "doesn't start with \"tc\"")
  else
    match base64urlDecode (addr.drop 2) with
    | .error e => .error (parseError ("base64 decode: " ++ e.what))
    | .ok raw =>
      match readInfo (Cursor.start raw) with
      | .error e => .error e
      | .ok (s, r) => finishInfo s r

/-! ## Writing -/

/-- `if (p) ++count;` for each `p` of `present`. -/
def countPresent (count : UInt64) (present : List Bool) : UInt64 :=
  present.foldl (fun count p => if p then count + 1 else count) count

/-- An entry of a map, written when `present`. -/
def entry (present : Bool) (key : Char) (value : List UInt8) : List UInt8 :=
  if present then CborWriter.text (literal key) ++ value else []

/-- The map of a relay, which leaves out what has its default. -/
def writeNode (n : DerpNode) : List UInt8 :=
  let count := countPresent 0 [n.name ≠ .empty, n.regionId ≠ 0, n.hostName ≠ .empty,
    n.certName ≠ .empty, n.ipv4 ≠ .empty, n.ipv6 ≠ .empty, n.stunPort ≠ 0, n.derpPort ≠ 0,
    n.insecureForTests]
  CborWriter.map count ++
    entry (n.name ≠ .empty) 'n' (CborWriter.text n.name) ++
    entry (n.regionId ≠ 0) 'i' (CborWriter.integer n.regionId) ++
    entry (n.hostName ≠ .empty) 'h' (CborWriter.text n.hostName) ++
    entry (n.certName ≠ .empty) 't' (CborWriter.text n.certName) ++
    entry (n.ipv4 ≠ .empty) '4' (CborWriter.text n.ipv4) ++
    entry (n.ipv6 ≠ .empty) '6' (CborWriter.text n.ipv6) ++
    entry (n.stunPort ≠ 0) 's' (CborWriter.integer n.stunPort) ++
    entry (n.derpPort ≠ 0) 'd' (CborWriter.integer n.derpPort) ++
    entry n.insecureForTests 'x' (CborWriter.boolean true)

/-- The map of a region, which leaves out what has its default. -/
def writeRegion (r : DerpRegion) : List UInt8 :=
  let count := countPresent 0 [r.regionId ≠ 0, r.regionCode ≠ .empty, r.regionName ≠ .empty,
    r.nodes ≠ .empty]
  CborWriter.map count ++
    entry (r.regionId ≠ 0) 'i' (CborWriter.integer r.regionId) ++
    entry (r.regionCode ≠ .empty) 'c' (CborWriter.text r.regionCode) ++
    entry (r.regionName ≠ .empty) 'm' (CborWriter.text r.regionName) ++
    entry (r.nodes ≠ .empty) 'N'
      (CborWriter.array (UInt64.ofNat r.nodes.toList.length) ++ r.nodes.toList.flatMap writeNode)

/-- An optional key, written when present. -/
def keyEntry (key : Char) : Option Key32 → List UInt8
  | some k => CborWriter.text (literal key) ++ CborWriter.bytes k
  | none => []

/-- The map of an address, which leaves out what has its default. -/
def writeInfo (info : ConnInfo) : List UInt8 :=
  let count := countPresent 1 [info.serverDiscoPublic.isSome, info.presharedKey.isSome,
    info.regions ≠ .empty, info.regionId ≠ 0]
  CborWriter.map count ++
    (CborWriter.text (literal 'p') ++ CborWriter.bytes info.serverPublic) ++
    keyEntry 'k' info.serverDiscoPublic ++
    keyEntry 'q' info.presharedKey ++
    entry (info.regions ≠ .empty) 'r'
      (CborWriter.array (UInt64.ofNat info.regions.toList.length) ++
        info.regions.toList.flatMap writeRegion) ++
    entry (info.regionId ≠ 0) 'i' (CborWriter.integer info.regionId)

/-- The address of a server, unless one of its keys is zero. -/
def encodeTailcatAddr (info : ConnInfo) : Except Exn (List UInt8) :=
  if info.serverPublic.allZero then
    .error (.runtimeError "cannot encode zero ServerPublic")
  else if info.serverDiscoPublic.any Octets.allZero then
    .error (.runtimeError "cannot encode zero ServerDiscoPublic")
  else
    .ok (['t'.toUInt8, 'c'.toUInt8] ++ base64urlEncode (writeInfo info))

/-! ## What the parser accepts -/

theorem finishInfo_eq_ok {s : InfoState} {r : CborReader} {info : ConnInfo} :
    finishInfo s r = .ok info ↔ CborReader.done r = true ∧ s.havePublic = true ∧
      ¬ s.info.serverPublic.allZero ∧ ¬ s.info.serverDiscoPublic.any Octets.allZero ∧
      info = s.info.inheritRegionId ∧ (info.regionId ≠ 0 ∨ info.regions ≠ .empty) := by
  constructor
  · intro h
    simp only [finishInfo] at h
    split_ifs at h with h₁ h₂ h₃ h₄
    obtain rfl := Except.ok.inj h
    rw [not_or, not_not] at h₂
    exact ⟨h₁, h₂.1, h₂.2, h₃, rfl, not_and_or.mp h₄⟩
  · rintro ⟨h₁, h₂, h₃, h₄, rfl, h₅⟩
    rw [finishInfo, if_neg (not_not.mpr h₁), if_neg (not_or.mpr ⟨not_not.mpr h₂, h₃⟩), if_neg h₄]
    exact if_neg (not_and_or.mpr h₅)

theorem parse_eq_ok {addr : List UInt8} {info : ConnInfo} :
    parseTailcatAddr addr = .ok info ↔ ['t'.toUInt8, 'c'.toUInt8] <+: addr ∧ ∃ raw s r,
      base64urlDecode (addr.drop 2) = .ok raw ∧ readInfo (Cursor.start raw) = .ok (s, r) ∧
      finishInfo s r = .ok info := by
  rw [parseTailcatAddr]
  split
  · simp_all
  · rename_i hp
    rcases hd : base64urlDecode (addr.drop 2) with e | raw
    · simp
    · rcases hr : readInfo (Cursor.start raw) with e | ⟨s, r⟩ <;> simp_all

end Tailcat
