import Tailcat.Base.Cursor
import Tailcat.Protocol.Types
import Tailcat.Resolver.Message

/-!
# DNS responses

`query_txt_records` takes the TXT records out of a response that `res_query` has put into a buffer.
It goes over the names without following compression pointers. This is the query on a POSIX system.

Reading the buffer where nothing was put is a failed assertion here, so that a response is all that
a reader can see of the buffer.

## Main definitions

* `DnsResponse`: a buffer, and how much of it is a response
* `skipName`, `skipQuestion`, `readAnswer`: the parts of a response
* `queryTxtRecords`: the TXT records of a name

## Main results

* `queryTxtRecords_ne_asserted`: nothing is read beyond the response
-/

namespace Tailcat

/-- What `res_query` has written, and the length that it returned. -/
structure DnsResponse where
  buffer : Octets 65536
  size : ℕ
  size_le : size ≤ 65536

/-- The octets of the response. -/
def DnsResponse.octets (r : DnsResponse) : List UInt8 := r.buffer.toList.take r.size

/-- Readers of a response. An assertion that fails is a read beyond the response. -/
abbrev DnsM := Reader (Reader.Failure Exn) UInt8

/-- An exception. -/
def dnsError (what : String) : Reader.Failure Exn := .thrown (.runtimeError what)

/-! ## Reading -/

/-- `response[offset]`. -/
def octetAt (offset : ℕ) : DnsM UInt8 := fun c =>
  match c.data[offset]? with
  | some x => .ok (x, c)
  | none => .error .asserted

/-- `response[offset++]`. -/
def nextOctet : DnsM UInt8 := do
  let x ← octetAt (← Reader.get).pos
  Reader.move 1
  return x

/-- `count` octets from the offset on. -/
def nextOctets (count : ℕ) : DnsM (List UInt8) := fun c =>
  if c.pos + count ≤ c.data.length then .ok (c.rest.take count, c.advance count)
  else .error .asserted

/-- Two octets of the response as a number. -/
def read16 (offset : ℕ) : DnsM UInt16 := do
  if (← Reader.get).data.length < offset + 2 then
    Reader.fail (dnsError "truncated DNS TXT response")
  return (← octetAt offset).toUInt16 <<< 8 ||| (← octetAt (offset + 1)).toUInt16

/-- One label, or the end of a name. -/
def skipLabel (_ : Unit) : DnsM (Unit ⊕ Unit) := do
  let c ← Reader.get
  if c.data.length ≤ c.pos then
    Reader.fail (dnsError "truncated DNS name")
  let label ← nextOctet
  if label = 0 then
    return .inr ()
  let c ← Reader.get
  if label &&& 0xc0 = 0xc0 then
    if c.data.length ≤ c.pos then
      Reader.fail (dnsError "truncated DNS compression pointer")
    Reader.move 1
    return .inr ()
  if label &&& 0xc0 ≠ 0 ∨ 63 < label.toNat ∨ c.data.length < c.pos + label.toNat then
    Reader.fail (dnsError "invalid DNS name in TXT response")
  Reader.move label.toNat
  return .inl ()

/-! ### What the readers return -/

variable {c : Cursor UInt8} {α : Type}

theorem octetAt_eq {offset : ℕ} (h : offset < c.data.length) :
    octetAt offset c = .ok (c.data[offset], c) := by
  unfold octetAt
  rw [List.getElem?_eq_getElem h]

theorem nextOctet_eq (h : c.pos < c.data.length) :
    nextOctet c = .ok (c.data[c.pos], c.advance 1) := by
  unfold nextOctet
  rw [Reader.bind_of_ok (Reader.get_apply c), Reader.bind_of_ok (octetAt_eq h)]
  rfl

theorem nextOctet_of_le (h : c.data.length ≤ c.pos) : nextOctet c = .error .asserted := by
  unfold nextOctet
  rw [Reader.bind_of_ok (Reader.get_apply c), Reader.bind_of_error]
  unfold octetAt
  rw [List.getElem?_eq_none h]

/-- The number that two octets spell. -/
def word16At (data : List UInt8) (offset : ℕ) : UInt16 :=
  (data.getD offset 0).toUInt16 <<< 8 ||| (data.getD (offset + 1) 0).toUInt16

theorem read16_eq (offset : ℕ) : read16 offset c =
    if c.data.length < offset + 2 then .error (dnsError "truncated DNS TXT response")
    else .ok (word16At c.data offset, c) := by
  unfold read16
  rw [Reader.bind_of_ok (Reader.get_apply c)]
  split
  · rfl
  · change ((octetAt offset >>= _) : DnsM _) c = _
    have h₀ : offset < c.data.length := by omega
    have h₁ : offset + 1 < c.data.length := by omega
    rw [Reader.bind_of_ok (octetAt_eq h₀), Reader.bind_of_ok (octetAt_eq h₁), word16At,
      List.getD_eq_getElem?_getD, List.getD_eq_getElem?_getD, List.getElem?_eq_getElem h₀,
      List.getElem?_eq_getElem h₁]
    rfl

/-- A label moves the reader behind it. -/
theorem skipLabel_eq (h : c.pos < c.data.length) : skipLabel () c =
    let label := c.data[c.pos]
    if label = 0 then .ok (.inr (), c.advance 1)
    else if label &&& 0xc0 = 0xc0 then
      if c.data.length ≤ c.pos + 1 then
        .error (dnsError "truncated DNS compression pointer")
      else .ok (.inr (), c.advance 2)
    else if label &&& 0xc0 ≠ 0 ∨ 63 < label.toNat ∨ c.data.length < c.pos + 1 + label.toNat then
      .error (dnsError "invalid DNS name in TXT response")
    else .ok (.inl (), c.advance (1 + label.toNat)) := by
  unfold skipLabel
  rw [Reader.bind_of_ok (Reader.get_apply c), if_neg (Nat.not_le.mpr h)]
  change ((nextOctet >>= _) : DnsM _) c = _
  rw [Reader.bind_of_ok (nextOctet_eq h)]
  dsimp only
  -- The four kinds of labels, in the order in which they are told apart.
  by_cases hzero : c.data[c.pos] = 0
  · rw [if_pos hzero, if_pos hzero]
    rfl
  rw [if_neg hzero, if_neg hzero, Reader.bind_of_ok (Reader.get_apply _)]
  by_cases hpointer : c.data[c.pos] &&& 0xc0 = 0xc0
  · rw [if_pos hpointer, if_pos hpointer]
    by_cases hend : c.data.length ≤ c.pos + 1
    · rw [if_pos hend]
      exact congrFun (if_pos hend) _
    · rw [if_neg hend]
      exact congrFun (if_neg hend) _
  · rw [if_neg hpointer, if_neg hpointer]
    by_cases hbad : c.data[c.pos] &&& 0xc0 ≠ 0 ∨ 63 < c.data[c.pos].toNat ∨
        c.data.length < c.pos + 1 + c.data[c.pos].toNat
    · rw [if_pos hbad]
      exact congrFun (if_pos hbad) _
    · rw [if_neg hbad, ← Cursor.advance_advance]
      exact congrFun (if_neg hbad) _

theorem skipLabel_advances : Reader.Advances skipLabel := by
  intro _ c s' c' h
  by_cases hpos : c.pos < c.data.length
  · rw [skipLabel_eq hpos] at h
    dsimp only at h
    split_ifs at h with hzero hpointer hend hbad
    · cases h
    · cases h
    · obtain ⟨-, rfl⟩ := Prod.mk.inj (Except.ok.inj h)
      rw [Cursor.length_rest, Cursor.length_rest]
      dsimp only [Cursor.data_advance, Cursor.pos_advance]
      omega
  · unfold skipLabel at h
    rw [Reader.bind_of_ok (Reader.get_apply c), if_pos (Nat.not_lt.mp hpos)] at h
    cases h

/-! ## Names, questions and answers -/

/-- `skip_name`: a name ends with an empty label or with a compression pointer. -/
def skipName : DnsM Unit := Reader.loop skipLabel skipLabel_advances ()

/-- The type and the class of a question. -/
def skipTypeAndClass : DnsM Unit := do
  let c ← Reader.get
  if c.data.length < c.pos + 4 then
    Reader.fail (dnsError "truncated DNS question")
  Reader.move 4

/-- Go over a question. -/
def skipQuestion : DnsM Unit := do
  skipName
  skipTypeAndClass

/-- One character-string of a TXT record whose data go up to `stop`. -/
def readString (stop : ℕ) (value : List UInt8) : DnsM (List UInt8 ⊕ List UInt8) := do
  if (← Reader.get).pos < stop then
    let partLength := (← nextOctet).toNat
    if stop < (← Reader.get).pos + partLength then
      Reader.fail (dnsError "invalid DNS TXT string length")
    return .inl (value ++ (← nextOctets partLength))
  else
    return .inr value

theorem nextOctets_eq (count : ℕ) (c : Cursor UInt8) : nextOctets count c =
    if c.pos + count ≤ c.data.length then .ok (c.rest.take count, c.advance count)
    else .error .asserted := rfl

theorem readString_of_le {stop : ℕ} (value : List UInt8) (h : stop ≤ c.pos) :
    readString stop value c = .ok (.inr value, c) := by
  unfold readString
  rw [Reader.bind_of_ok (Reader.get_apply c), if_neg (Nat.not_lt.mpr h)]
  rfl

/-- A character-string moves the reader behind it, unless it is longer than the data or the data are
longer than the response. -/
theorem readString_of_lt {stop : ℕ} (value : List UInt8) (h : c.pos < stop)
    (hpos : c.pos < c.data.length) : readString stop value c =
    let partLength := c.data[c.pos].toNat
    if stop < c.pos + 1 + partLength then .error (dnsError "invalid DNS TXT string length")
    else if c.pos + 1 + partLength ≤ c.data.length then
      .ok (.inl (value ++ (c.rest.drop 1).take partLength), c.advance (1 + partLength))
    else .error .asserted := by
  unfold readString
  rw [Reader.bind_of_ok (Reader.get_apply c), if_pos h, Reader.bind_of_ok (nextOctet_eq hpos)]
  dsimp only
  rw [Reader.bind_of_ok (Reader.get_apply _)]
  by_cases hlong : stop < c.pos + 1 + c.data[c.pos].toNat
  · rw [if_pos hlong]
    exact congrFun (if_pos hlong) _
  rw [if_neg hlong]
  refine (congrFun (if_neg hlong) _).trans ?_
  -- The length is within the record; whether it is within the message is another question.
  have hoctets := nextOctets_eq c.data[c.pos].toNat (c.advance 1)
  by_cases hwithin : c.pos + 1 + c.data[c.pos].toNat ≤ c.data.length
  · rw [if_pos hwithin, ← Cursor.advance_advance, ← Cursor.rest_advance]
    exact Reader.bind_of_ok (hoctets.trans (if_pos hwithin))
  · rw [if_neg hwithin]
    exact Reader.bind_of_error (hoctets.trans (if_neg hwithin))

theorem readString_advances (stop : ℕ) : Reader.Advances (readString stop) := by
  intro value c value' c' h
  by_cases hstop : c.pos < stop
  · by_cases hpos : c.pos < c.data.length
    · rw [readString_of_lt value hstop hpos] at h
      dsimp only at h
      split_ifs at h
      obtain ⟨-, rfl⟩ := Prod.mk.inj (Except.ok.inj h)
      rw [Cursor.length_rest, Cursor.length_rest]
      dsimp only [Cursor.data_advance, Cursor.pos_advance]
      omega
    · unfold readString at h
      rw [Reader.bind_of_ok (Reader.get_apply c), if_pos hstop,
        Reader.bind_of_error (nextOctet_of_le (Nat.not_lt.mp hpos))] at h
      cases h
  · rw [readString_of_le value (Nat.not_lt.mp hstop)] at h
    cases h

/-- The character-strings of a TXT record, one after another. -/
def readStrings (stop : ℕ) : DnsM (List UInt8) :=
  Reader.loop (readString stop) (readString_advances stop) []

/-- An answer, from its type on. -/
def readTypeAndData (result : List (List UInt8)) : DnsM (List (List UInt8)) := do
  let c ← Reader.get
  if c.data.length < c.pos + 10 then
    Reader.fail (dnsError "truncated DNS answer")
  let type ← read16 c.pos
  let klass ← read16 (c.pos + 2)
  let dataLength ← read16 (c.pos + 8)
  Reader.move 10
  let stop := c.pos + 10 + dataLength.toNat
  if c.data.length < stop then
    Reader.fail (dnsError "truncated DNS answer data")
  if type = nsTTxt ∧ klass = nsCIn then
    return result ++ [← readStrings stop]
  else
    Reader.move dataLength.toNat
    return result

/-- Go over an answer, and keep what it says when it is a TXT record. -/
def readAnswer (result : List (List UInt8)) : DnsM (List (List UInt8)) := do
  skipName
  readTypeAndData result

/-- The counts are at fixed places, and the sections begin behind the header. -/
def readSections : DnsM (List (List UInt8)) := do
  let questions ← read16 4
  let answers ← read16 6
  Reader.times (fun _ => skipQuestion) questions.toNat ()
  Reader.times readAnswer answers.toNat []

/-- The texts of the TXT records that the call of `res_query` for a name brings. `resQuery` is this
call; it returns nothing when `res_query` returns a negative number. -/
def queryTxtRecords (resQuery : List UInt8 → Option DnsResponse) (dnsName : List UInt8) :
    Except (Reader.Failure Exn) (List (List UInt8)) :=
  match resQuery dnsName with
  | none => .error (dnsError ("DNS TXT lookup failed for " ++ octetsText dnsName))
  | some response =>
    if response.size < 12 then
      .error (dnsError ("short DNS TXT response for " ++ octetsText dnsName))
    else
      (readSections ⟨response.octets, 12⟩).map Prod.fst

/-! ## Nothing is read beyond the response -/

/-- What readers throw when they read nothing beyond the response. -/
def Thrown (e : Reader.Failure Exn) : Prop := e ≠ .asserted

theorem thrown_dnsError (what : String) : Thrown (dnsError what) := by
  unfold Thrown dnsError
  simp

theorem skipLabel_throws : Reader.Throws Thrown (skipLabel ()) := by
  intro c e h
  by_cases hpos : c.pos < c.data.length
  · rw [skipLabel_eq hpos] at h
    dsimp only at h
    split_ifs at h
    · obtain rfl := Except.error.inj h
      exact thrown_dnsError _
    · obtain rfl := Except.error.inj h
      exact thrown_dnsError _
  · unfold skipLabel at h
    rw [Reader.bind_of_ok (Reader.get_apply c), if_pos (Nat.not_lt.mp hpos)] at h
    obtain rfl := Except.error.inj h
    exact thrown_dnsError _

theorem skipName_throws : Reader.Throws Thrown skipName := by
  intro c e h
  refine Reader.loop_throws (I := fun _ _ => True) (fun _ c _ => ?_) trivial h
  split
  · exact skipLabel_throws _ _ ‹_›
  · trivial
  · trivial

theorem skipTypeAndClass_throws : Reader.Throws Thrown skipTypeAndClass :=
  Reader.Throws.get.bind fun _ =>
    .ite ((Reader.Throws.fail (thrown_dnsError _)).bind fun _ => .move 4) (.move 4)

theorem read16_throws (offset : ℕ) : Reader.Throws Thrown (read16 offset) := by
  intro c e h
  rw [read16_eq] at h
  split_ifs at h
  obtain rfl := Except.error.inj h
  exact thrown_dnsError _

/-- The strings of a record whose data are within the response. -/
theorem readStrings_throws {stop : ℕ} (h : stop ≤ c.data.length) {e : Reader.Failure Exn}
    (he : readStrings stop c = .error e) : Thrown e := by
  refine Reader.loop_throws (I := fun _ c => stop ≤ c.data.length) (fun value c hc => ?_) h he
  by_cases hstop : c.pos < stop
  · rw [readString_of_lt value hstop (by omega)]
    dsimp only
    by_cases hlong : stop < c.pos + 1 + c.data[c.pos].toNat
    · rw [if_pos hlong]
      exact thrown_dnsError _
    · rw [if_neg hlong, if_pos (by omega)]
      exact hc
  · rw [readString_of_le value (Nat.not_lt.mp hstop)]
    trivial

/-- An answer is within the response, or it is refused. -/
theorem readTypeAndData_eq (result : List (List UInt8)) : readTypeAndData result c =
    if c.data.length < c.pos + 10 then .error (dnsError "truncated DNS answer")
    else
      let dataLength := (word16At c.data (c.pos + 8)).toNat
      if c.data.length < c.pos + 10 + dataLength then
        .error (dnsError "truncated DNS answer data")
      else if word16At c.data c.pos = nsTTxt ∧ word16At c.data (c.pos + 2) = nsCIn then
        (do return result ++ [← readStrings (c.pos + 10 + dataLength)] : DnsM _) (c.advance 10)
      else .ok (result, c.advance (10 + dataLength)) := by
  unfold readTypeAndData
  rw [Reader.bind_of_ok (Reader.get_apply c)]
  by_cases hshort : c.data.length < c.pos + 10
  · rw [if_pos hshort, if_pos hshort]
    rfl
  rw [if_neg hshort, if_neg hshort]
  -- All three words are within the ten octets that are there.
  change ((read16 c.pos >>= _) : DnsM _) c = _
  rw [Reader.bind_of_ok (by rw [read16_eq, if_neg (by omega)]),
    Reader.bind_of_ok (by rw [read16_eq, if_neg (by omega)]),
    Reader.bind_of_ok (by rw [read16_eq, if_neg (by omega)]),
    Reader.bind_of_ok (Reader.move_apply 10 c)]
  dsimp only
  by_cases hlong : c.data.length < c.pos + 10 + (word16At c.data (c.pos + 8)).toNat
  · rw [if_pos hlong, if_pos hlong]
    rfl
  rw [if_neg hlong, if_neg hlong]
  by_cases htxt : word16At c.data c.pos = nsTTxt ∧ word16At c.data (c.pos + 2) = nsCIn
  · rw [if_pos htxt, if_pos htxt]
  · rw [if_neg htxt, if_neg htxt, ← Cursor.advance_advance]
    rfl

theorem readTypeAndData_throws (result : List (List UInt8)) :
    Reader.Throws Thrown (readTypeAndData result) := by
  intro c e h
  rw [readTypeAndData_eq] at h
  dsimp only at h
  split_ifs at h with hshort hlong htxt
  · obtain rfl := Except.error.inj h
    exact thrown_dnsError _
  · obtain rfl := Except.error.inj h
    exact thrown_dnsError _
  · rcases hs : readStrings (c.pos + 10 + (word16At c.data (c.pos + 8)).toNat) (c.advance 10) with
      e' | ⟨value, d⟩
    · rw [Reader.bind_of_error hs] at h
      obtain rfl := Except.error.inj h
      exact readStrings_throws (c := c.advance 10) (Nat.not_lt.mp hlong) hs
    · rw [Reader.bind_of_ok hs] at h
      cases h

theorem readSections_throws : Reader.Throws Thrown readSections :=
  (read16_throws 4).bind fun _ => (read16_throws 6).bind fun _ =>
    (Reader.Throws.times (fun _ => skipName_throws.bind fun _ => skipTypeAndClass_throws) _ _).bind
      fun _ => .times (fun result => skipName_throws.bind fun _ => readTypeAndData_throws result) _ _

/-- Nothing is read beyond the response. -/
theorem queryTxtRecords_ne_asserted (resQuery : List UInt8 → Option DnsResponse)
    (dnsName : List UInt8) : queryTxtRecords resQuery dnsName ≠ .error .asserted := by
  unfold queryTxtRecords
  intro h
  rcases hq : resQuery dnsName with _ | response
  · rw [hq] at h
    exact thrown_dnsError _ (Except.error.inj h)
  rw [hq] at h
  dsimp only at h
  split_ifs at h with hshort
  · exact thrown_dnsError _ (Except.error.inj h)
  rcases hs : readSections ⟨response.octets, 12⟩ with e | ⟨result, d⟩
  · rw [hs] at h
    exact readSections_throws _ _ hs (Except.error.inj h)
  · rw [hs] at h
    cases h

end Tailcat
