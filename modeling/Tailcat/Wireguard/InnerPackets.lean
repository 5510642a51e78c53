import Tailcat.Derp.Frame
import Tailcat.Wireguard.Engine

/-!
# Inner packets

What a session carries is a padded IP packet, whose header declares its length. The relay delivers
at most 64 KiB at once, of which header and tag of a transport message take 32 octets. The functions
that read the headers are restated with every read and every unsigned subtraction checked: they
compute the same, and no check fails.

## Main definitions

* `subChecked`, `sliceChecked`: subtractions that do not wrap, reads that are in bounds
* `innerIpLengthChecked`, `Engine.handleTransportChecked`: the readers of headers, checked

## Main results

* `innerIpLengthChecked_eq`, `handleTransportChecked_eq`: no check fails
* `length_plaintextIp_le`: a plaintext is shorter than its message
-/

namespace Tailcat

/-! ## Checks -/

/-- `a - b` of unsigned numbers, which must not wrap. -/
def subChecked (a b : ℕ) : Option ℕ := if b ≤ a then some (a - b) else none

/-- `n` elements from an offset on, which must be there. -/
def sliceChecked {α : Type} (xs : List α) (offset n : ℕ) : Option (List α) :=
  if offset + n ≤ xs.length then some ((xs.drop offset).take n) else none

theorem subChecked_of_le {a b : ℕ} (h : b ≤ a) : subChecked a b = some (a - b) := if_pos h

theorem sliceChecked_of_le {α : Type} {xs : List α} {offset n : ℕ} (h : offset + n ≤ xs.length) :
    sliceChecked xs offset n = some ((xs.drop offset).take n) := if_pos h

/-- Everything from an offset on. -/
theorem sliceChecked_drop {α : Type} {xs : List α} {offset : ℕ} (h : offset ≤ xs.length) :
    sliceChecked xs offset (xs.length - offset) = some (xs.drop offset) := by
  rw [sliceChecked_of_le (by omega), List.take_of_length_le (by rw [List.length_drop])]

/-- Four octets of a packet, which must be there. -/
def loadU32LeChecked (packet : List UInt8) (offset : ℕ) : Option UInt32 :=
  (sliceChecked packet offset 4).map loadU32Le

/-- Eight octets of a packet, which must be there. -/
def loadU64LeChecked (packet : List UInt8) (offset : ℕ) : Option UInt64 :=
  (sliceChecked packet offset 8).map loadU64Le

theorem getD_take_of_lt {xs : List UInt8} {i n : ℕ} (h : i < n) :
    (xs.take n).getD i 0 = xs.getD i 0 := by
  rw [List.getD_eq_getElem?_getD, List.getD_eq_getElem?_getD, List.getElem?_take_of_lt h]

theorem loadU32LeChecked_of_le {packet : List UInt8} {offset : ℕ}
    (h : offset + 4 ≤ packet.length) :
    loadU32LeChecked packet offset = some (loadU32Le (packet.drop offset)) := by
  unfold loadU32LeChecked loadU32Le
  rw [sliceChecked_of_le h, Option.map_some, getD_take_of_lt (by decide : 0 < 4),
    getD_take_of_lt (by decide : 1 < 4), getD_take_of_lt (by decide : 2 < 4),
    getD_take_of_lt (by decide : 3 < 4)]

theorem loadU64LeChecked_of_le {packet : List UInt8} {offset : ℕ}
    (h : offset + 8 ≤ packet.length) :
    loadU64LeChecked packet offset = some (loadU64Le (packet.drop offset)) := by
  unfold loadU64LeChecked loadU64Le
  rw [sliceChecked_of_le h, Option.map_some]
  refine congrArg some (List.foldl_ext _ _ _ fun value i hi => ?_)
  rw [getD_take_of_lt (List.mem_range.mp hi)]

/-! ## The declared length -/

/-- `inner_ip_length`, each of whose reads must be in bounds. -/
def innerIpLengthChecked (padded : List UInt8) : Option (Option ℕ) :=
  if padded = [] then
    some (some 0)
  else do
    let first ← padded[0]?
    let version := first >>> 4
    if version = 4 then
      if padded.length < 20 then
        some none
      else do
        let first ← padded[0]?
        let high ← padded[2]?
        let low ← padded[3]?
        let ihl := (first &&& 0x0f).toNat * 4
        let total := high.toNat <<< 8 ||| low.toNat
        if ihl < 20 ∨ total < ihl ∨ total > padded.length then some none else some (some total)
    else if version = 6 then
      if padded.length < 40 then
        some none
      else do
        let high ← padded[4]?
        let low ← padded[5]?
        let payload := high.toNat <<< 8 ||| low.toNat
        let total := 40 + payload
        if total > padded.length then some none else some (some total)
    else
      some none

/-- A read in bounds. -/
theorem getElem?_eq_some_getD {xs : List UInt8} {i : ℕ} (h : i < xs.length) :
    xs[i]? = some (xs.getD i 0) := by
  rw [List.getD_eq_getElem?_getD, List.getElem?_eq_getElem h]
  rfl

/-- **The reads of a header are in bounds**, and the checked reader computes the same. -/
theorem innerIpLengthChecked_eq (padded : List UInt8) :
    innerIpLengthChecked padded = some (innerIpLength padded) := by
  unfold innerIpLengthChecked innerIpLength
  by_cases hempty : padded = []
  · rw [if_pos hempty, if_pos hempty]
  have hread := @getElem?_eq_some_getD padded
  rw [if_neg hempty, if_neg hempty, hread (List.length_pos_iff.mpr hempty)]
  simp only [Option.bind_eq_bind, Option.bind_some]
  -- Each version has its own shortest header, and all its reads are in there.
  by_cases hv4 : padded.getD 0 0 >>> 4 = 4
  · rw [if_pos hv4, if_pos hv4]
    by_cases hshort : padded.length < 20
    · rw [if_pos hshort, if_pos hshort]
    · rw [if_neg hshort, if_neg hshort, hread (by omega : 2 < _), hread (by omega : 3 < _)]
      simp only [Option.bind_some]
      split_ifs <;> rfl
  · rw [if_neg hv4, if_neg hv4]
    by_cases hv6 : padded.getD 0 0 >>> 4 = 6
    · rw [if_pos hv6, if_pos hv6]
      by_cases hshort : padded.length < 40
      · rw [if_pos hshort, if_pos hshort]
      · rw [if_neg hshort, if_neg hshort, hread (by omega : 4 < _), hread (by omega : 5 < _)]
        simp only [Option.bind_some]
        split_ifs <;> rfl
    · rw [if_neg hv6, if_neg hv6]

/-- No header declares more octets than there are. -/
theorem innerIpLength_le {padded : List UInt8} {length : ℕ}
    (h : innerIpLength padded = some length) : length ≤ padded.length := by
  unfold innerIpLength at h
  dsimp only at h
  split_ifs at h
  all_goals
    obtain rfl := Option.some.inj h
    omega

/-! ## Transport messages -/

namespace Engine

variable {H K : Type} {W : WireguardLwip H K} {env : Env} {e e' : Engine H K}
  {packet : List UInt8}

variable (W env e packet) in
/-- `case MESSAGE_TRANSPORT_DATA`, each of whose reads must be in bounds; no subtraction may wrap,
and `resize` may only shrink. -/
def handleTransportChecked : Option (Engine H K × WireGuardPacketResult) :=
  if packet.length < 16 + 16 then
    some (e, {})
  else do
    let receiver ← loadU32LeChecked packet 4
    if ¬ W.peerLookupByReceiver e.peer receiver then
      some (e, {})
    else
      match W.getPeerKeypairForIdx e.peer receiver with
      | none => some (e, {})
      | some slot =>
        let keypair := e.peer.keypair slot
        if ¬ keypair.receivingValid ∨
            W.expired (env.sysNow 0) keypair.keypairMillis W.rejectAfterTime then
          some (e, {})
        else do
          let encryptedLen ← subChecked packet.length 16
          if encryptedLen < 16 then
            some (e, {})
          else do
            let _plaintextLen ← subChecked encryptedLen 16
            let counter ← loadU64LeChecked packet 8
            let encrypted ← sliceChecked packet 16 encryptedLen
            match W.decryptPacket keypair.keys (Octets.ofList encrypted rfl) counter with
            | none => some (e, {})
            | some plaintext =>
              let (keys, fresh) := W.checkReplay keypair.keys counter
              if ¬ fresh then
                some ({ e with peer := e.peer.setKeypair { keypair with keys } slot }, {})
              else do
                match ← innerIpLengthChecked plaintext.toList with
                | none => some (e.received W env slot keys, { sessionEstablished := true })
                | some length =>
                  let plaintextIp ← sliceChecked plaintext.toList 0 length
                  some (e.received W env slot keys,
                    { plaintextIp := some plaintextIp, sessionEstablished := true })

/-- **The reads of a message are in bounds**, and the checked function does the same. -/
theorem handleTransportChecked_eq :
    handleTransportChecked W env e packet = some (e.handleTransport W env packet) := by
  unfold handleTransportChecked handleTransport
  by_cases hshort : packet.length < 16 + 16
  · rw [if_pos hshort, if_pos hshort]
  rw [if_neg hshort, if_neg hshort, loadU32LeChecked_of_le (by omega)]
  simp only [Option.bind_eq_bind, Option.bind_some]
  by_cases hpeer : W.peerLookupByReceiver e.peer (loadU32Le (packet.drop 4)) = true
  swap
  · rw [if_pos hpeer, if_pos hpeer]
  rw [if_neg (not_not.mpr hpeer), if_neg (not_not.mpr hpeer)]
  cases W.getPeerKeypairForIdx e.peer (loadU32Le (packet.drop 4)) with
  | none => rfl
  | some slot =>
    dsimp only
    by_cases hunusable : ¬(e.peer.keypair slot).receivingValid = true ∨
        W.expired (env.sysNow 0) (e.peer.keypair slot).keypairMillis W.rejectAfterTime = true
    · rw [if_pos hunusable, if_pos hunusable]
    rw [if_neg hunusable, if_neg hunusable]
    -- The second comparison of the length is the first one.
    rw [subChecked_of_le (by omega), Option.bind_some, if_neg (by omega),
      subChecked_of_le (by omega), Option.bind_some, loadU64LeChecked_of_le (by omega),
      Option.bind_some, sliceChecked_drop (by omega), Option.bind_some]
    cases W.decryptPacket (e.peer.keypair slot).keys (Octets.ofList (packet.drop 16) rfl)
        (loadU64Le (packet.drop 8)) with
    | none => rfl
    | some plaintext =>
      dsimp only
      split
      · rfl
      · rw [innerIpLengthChecked_eq, Option.bind_some]
        cases hl : innerIpLength plaintext.toList with
        | none => rfl
        | some length =>
          have hle := innerIpLength_le hl
          dsimp only
          rw [sliceChecked_of_le (by omega), Option.bind_some, List.drop_zero, Option.map_some,
            List.takeD_eq_take _ hle]

/-! ## How long a plaintext is -/

/-- A plaintext is shorter than the message by its header and its tag. -/
theorem length_plaintextIp_le {plaintext : List UInt8} {result : WireGuardPacketResult}
    (h : Handled W env e packet e' result) (hp : result.plaintextIp = some plaintext) :
    plaintext.length ≤ packet.length - 32 := by
  cases h with
  | ignored rest => cases hp
  | answered rest response type => cases hp
  | completed rest type => cases hp
  | replayed slot keys replay => cases hp
  | received slot keys octets type index decrypts replay =>
    obtain ⟨length, hl, rfl⟩ := Option.map_eq_some_iff.mp hp
    have hle := innerIpLength_le hl
    have hlength : octets.toList.length = (packet.drop 16).length - 16 := octets.toList_length
    rw [hlength, List.length_drop] at hle
    rw [List.takeD_length]
    omega

/-- What the relay may deliver leaves room for 65504 octets. -/
theorem length_plaintextIp_le_of_parse {payload plaintext : List UInt8} {source : Key32}
    (hparse : parseDerpRecvPacket payload = some (source, packet))
    (hp : (e.handle W env packet).2.plaintextIp = some plaintext) : plaintext.length ≤ 65504 := by
  have hle := length_plaintextIp_le (handle_handled W env e packet) hp
  have hmax : kDerpMaxPacket = 65536 := rfl
  have hpacket := length_le_of_parse hparse
  omega

end Engine

end Tailcat
