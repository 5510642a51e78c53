import Tailcat.Wireguard.Engine
import Tailcat.Wireguard.Plain

/-!
# Transport messages between two engines

Two engines that share a session restore each other's IP packets: what one encrypts the other
decrypts, once, and the padding is cut off where the inner IP header says that the packet ends.

## Main definitions

* `DeclaresLength`: a buffer starts with a well-formed IP header that declares a length
* `SharesSession`: the receiver has a keypair for what the sender sends
* `linkMachine`: one engine sends, the other receives the messages in any order

## Main results

* `innerIpLength_eq_some`: the engine reads the declared length
* `handle_message`: what a transport message does to an engine with its keypair
* `transport_restores`: every message yields the packet, or what its header declares of it, once
-/

namespace Tailcat

/-! ## IP headers -/

/-- A buffer is empty, or starts with a complete IPv4 or IPv6 header that declares a packet of
`length` octets, all of them there. -/
inductive DeclaresLength (buffer : List UInt8) : ℕ → Prop
  | keepalive (h : buffer = []) : DeclaresLength buffer 0
  | ipv4 (length ihl : ℕ) (hversion : (buffer.getD 0 0).toNat / 16 = 4) (hheader : 20 ≤ buffer.length)
      (hihl : ihl = (buffer.getD 0 0).toNat % 16 * 4) (hmin : 20 ≤ ihl)
      (hlength : length = (buffer.getD 2 0).toNat * 256 + (buffer.getD 3 0).toNat)
      (htotal : ihl ≤ length) (hfits : length ≤ buffer.length) : DeclaresLength buffer length
  | ipv6 (length : ℕ) (hversion : (buffer.getD 0 0).toNat / 16 = 6) (hheader : 40 ≤ buffer.length)
      (hlength : length = 40 + ((buffer.getD 4 0).toNat * 256 + (buffer.getD 5 0).toNat))
      (hfits : length ≤ buffer.length) : DeclaresLength buffer length

theorem toNat_shiftLeft_or (a b : UInt8) : a.toNat <<< 8 ||| b.toNat = a.toNat * 256 + b.toNat := by
  rw [Nat.shiftLeft_eq, Nat.or_eq_add_of_dvd 8 ⟨a.toNat, by ring⟩ b.toNat_lt]

theorem version_eq_iff (b : UInt8) (v : ℕ) (hv : v < 16) :
    b >>> 4 = UInt8.ofNat v ↔ b.toNat / 16 = v := by
  rw [← UInt8.toNat_inj, UInt8.toNat_shiftRight, UInt8.toNat_ofNat', Nat.shiftRight_eq_div_pow,
    Nat.mod_eq_of_lt (by omega : v < 2 ^ 8)]
  rfl

theorem toNat_and_15 (b : UInt8) : (b &&& 0x0f).toNat = b.toNat % 16 := by
  rw [UInt8.toNat_and]
  exact Nat.and_two_pow_sub_one_eq_mod _ 4

/-- The engine reads the length that the header declares. -/
theorem innerIpLength_eq_some {buffer : List UInt8} {length : ℕ} :
    innerIpLength buffer = some length ↔ DeclaresLength buffer length := by
  have h4 := version_eq_iff (buffer.getD 0 0) 4 (by decide)
  have h6 := version_eq_iff (buffer.getD 0 0) 6 (by decide)
  rw [show UInt8.ofNat 4 = 4 from rfl] at h4
  rw [show UInt8.ofNat 6 = 6 from rfl] at h6
  unfold innerIpLength
  simp only [toNat_shiftLeft_or, toNat_and_15]
  constructor
  · intro h
    -- The other branches return nothing.
    split_ifs at h with he hv hl ht hv hl ht
    · obtain rfl := Option.some.inj h
      exact .keepalive he
    · obtain rfl := Option.some.inj h
      exact .ipv4 _ _ (h4.mp hv) (by omega) rfl (by omega) rfl (by omega) (by omega)
    · obtain rfl := Option.some.inj h
      exact .ipv6 _ (h6.mp hv) (by omega) rfl (by omega)
  · intro h
    cases h with
    | keepalive he => rw [if_pos he]
    | ipv4 _ ihl hversion hheader hihl hmin hlength htotal hfits =>
      have hne : buffer ≠ [] := by
        rintro rfl
        simp at hheader
      rw [if_neg hne, if_pos (h4.mpr hversion), if_neg (by omega), if_neg (by omega), hlength]
    | ipv6 _ hversion hheader hlength hfits =>
      have hne : buffer ≠ [] := by
        rintro rfl
        simp at hheader
      have h46 : ¬ buffer.getD 0 0 >>> 4 = 4 := by
        rw [h6.mpr hversion]
        decide
      rw [if_neg hne, if_neg h46, if_pos (h6.mpr hversion), if_neg (by omega), if_neg (by omega),
        hlength]

/-! ## Octets of a transport header -/

theorem toNat_loadU32Le (a b c d : UInt8) (rest : List UInt8) :
    (loadU32Le (a :: b :: c :: d :: rest)).toNat = leNat [a, b, c, d] := by
  have ha := a.toNat_lt
  have hb := b.toNat_lt
  have hc := c.toNat_lt
  have hd := d.toNat_lt
  -- The octets do not overlap, so that `|` adds them.
  have hab : a.toNat ||| b.toNat * 2 ^ 8 = a.toNat + b.toNat * 2 ^ 8 := by
    rw [Nat.or_comm, Nat.or_eq_add_of_dvd 8 ⟨b.toNat, by ring⟩ ha, Nat.add_comm]
  have habc : a.toNat + b.toNat * 2 ^ 8 ||| c.toNat * 2 ^ 16 =
      a.toNat + b.toNat * 2 ^ 8 + c.toNat * 2 ^ 16 := by
    rw [Nat.or_comm, Nat.or_eq_add_of_dvd 16 ⟨c.toNat, by ring⟩ (by omega), Nat.add_comm]
  have habcd : a.toNat + b.toNat * 2 ^ 8 + c.toNat * 2 ^ 16 ||| d.toNat * 2 ^ 24 =
      a.toNat + b.toNat * 2 ^ 8 + c.toNat * 2 ^ 16 + d.toNat * 2 ^ 24 := by
    rw [Nat.or_comm, Nat.or_eq_add_of_dvd 24 ⟨d.toNat, by ring⟩ (by omega), Nat.add_comm]
  simp only [loadU32Le, List.getD_cons_zero, List.getD_cons_succ]
  rw [UInt32.toNat_or, UInt32.toNat_or, UInt32.toNat_or, UInt8.toNat_toUInt32,
    b.toNat_toUInt32_shiftLeft 8 8 rfl (by decide) (by omega),
    c.toNat_toUInt32_shiftLeft 16 16 rfl (by decide) (by omega),
    d.toNat_toUInt32_shiftLeft 24 24 rfl (by decide) (by omega), hab, habc, habcd]
  simp only [leNat]
  ring

theorem storeU32Le_eq (value : UInt32) : storeU32Le value = leBytes 4 value.toNat := by
  rw [leBytes_eq_map]
  refine List.map_congr_left fun i hi => ?_
  have hi : i < 4 := List.mem_range.mp hi
  have hs : (UInt32.ofNat (i * 8)).toNat = i * 8 := by
    rw [UInt32.toNat_ofNat', Nat.mod_eq_of_lt (by omega)]
  apply UInt8.toNat_inj.mp
  rw [UInt32.toNat_toUInt8, value.toNat_shiftRight_eq_div _ _ hs (by omega), UInt8.toNat_ofNat',
    Nat.mul_comm i 8, pow_mul]
  rfl

theorem storeU64Le_eq (value : UInt64) : storeU64Le value = leBytes 8 value.toNat := by
  rw [leBytes_eq_map]
  refine List.map_congr_left fun i hi => ?_
  have hi : i < 8 := List.mem_range.mp hi
  have hs : (UInt64.ofNat (i * 8)).toNat = i * 8 := by
    rw [UInt64.toNat_ofNat', Nat.mod_eq_of_lt (by omega)]
  apply UInt8.toNat_inj.mp
  rw [UInt64.toNat_toUInt8, UInt64.toNat_shiftRight, hs, Nat.mod_eq_of_lt (show i * 8 < 64 by omega),
    Nat.shiftRight_eq_div_pow, UInt8.toNat_ofNat', Nat.mul_comm i 8, pow_mul]
  rfl

theorem loadU32Le_store (value : UInt32) (rest : List UInt8) :
    loadU32Le (storeU32Le value ++ rest) = value := by
  apply UInt32.toNat_inj.mp
  rw [storeU32Le_eq]
  refine (toNat_loadU32Le _ _ _ _ _).trans ?_
  exact leNat_leBytes_of_lt (k := 4) value.toNat_lt

/-- The octets that are read so far do not overlap. -/
theorem toNat_foldl_loadU64Le (p : List UInt8) {k : ℕ} (hk : k ≤ 8) :
    ((List.range k).foldl (fun value i =>
      value ||| (p.getD i 0).toUInt64 <<< UInt64.ofNat (i * 8)) 0).toNat =
      leNat ((List.range k).map fun i => p.getD i 0) := by
  induction k with
  | zero => rfl
  | succ k ih =>
    have hb := (p.getD k 0).toNat_lt
    have hlt := leNat_lt ((List.range k).map fun i => p.getD i 0)
    have hs : (UInt64.ofNat (k * 8)).toNat = k * 8 := by
      rw [UInt64.toNat_ofNat', Nat.mod_eq_of_lt (by omega)]
    -- No bit is shifted out.
    have hroom : (p.getD k 0).toNat * 2 ^ (k * 8) < 2 ^ 64 := by
      have : 2 ^ 8 * 2 ^ (k * 8) ≤ 2 ^ 64 := by
        rw [← pow_add]
        exact Nat.pow_le_pow_right (by decide) (by omega)
      nlinarith [pow_pos (show 0 < 2 by decide) (k * 8)]
    rw [List.length_map, List.length_range, show (256 : ℕ) = 2 ^ 8 from rfl, ← pow_mul,
      Nat.mul_comm] at hlt
    rw [List.range_succ, List.foldl_append, List.foldl_cons, List.foldl_nil, List.map_append,
      leNat_append, List.length_map, List.length_range, UInt64.toNat_or, ih (by omega),
      UInt64.toNat_shiftLeft, hs, UInt8.toNat_toUInt64, Nat.mod_eq_of_lt (by omega : k * 8 < 64),
      Nat.shiftLeft_eq, Nat.mod_eq_of_lt hroom, Nat.or_comm,
      Nat.or_eq_add_of_dvd (k * 8) ⟨(p.getD k 0).toNat, by ring⟩ hlt]
    simp only [List.map_cons, List.map_nil, leNat, show (256 : ℕ) = 2 ^ 8 from rfl, ← pow_mul]
    ring

theorem loadU64Le_store (value : UInt64) (rest : List UInt8) :
    loadU64Le (storeU64Le value ++ rest) = value := by
  have hmap : ((List.range 8).map fun i => (storeU64Le value ++ rest).getD i 0) =
      storeU64Le value := rfl
  apply UInt64.toNat_inj.mp
  rw [loadU64Le, toNat_foldl_loadU64Le _ le_rfl, hmap, storeU64Le_eq]
  exact leNat_leBytes_of_lt (k := 8) value.toNat_lt

/-! ## Padding -/

open Engine

theorem pad_eq_append (packet : List UInt8) : ∃ zeros, pad packet = packet ++ zeros := by
  have h : packet.length ≤ (packet.length + 15) / 16 * 16 := by omega
  refine ⟨List.replicate ((packet.length + 15) / 16 * 16 - packet.length) 0, ?_⟩
  unfold pad
  generalize (packet.length + 15) / 16 * 16 = n at h
  induction packet generalizing n with
  | nil => simp [List.takeD_nil]
  | cons b packet ih =>
    obtain ⟨n, rfl⟩ : ∃ n', n = n' + 1 := ⟨n - 1, by simp at h; omega⟩
    have hn : packet.length ≤ n := by simpa using h
    rw [List.takeD_succ, List.tail_cons, ih n hn]
    simp

/-- What a receiver makes of a packet that was padded. -/
def restored (packet : List UInt8) : Option (List UInt8) :=
  (innerIpLength (pad packet)).map fun length => (pad packet).takeD length 0

theorem DeclaresLength.le {buffer : List UInt8} {length : ℕ} (h : DeclaresLength buffer length) :
    length ≤ buffer.length := by
  cases h with
  | keepalive => exact Nat.zero_le _
  | ipv4 => assumption
  | ipv6 => assumption

theorem restored_eq_some {packet x : List UInt8} : restored packet = some x ↔
    ∃ length, DeclaresLength (pad packet) length ∧ x = (pad packet).take length := by
  simp only [restored, Option.map_eq_some_iff, innerIpLength_eq_some]
  constructor
  · rintro ⟨length, hd, rfl⟩
    exact ⟨length, hd, List.takeD_eq_take _ hd.le⟩
  · rintro ⟨length, hd, rfl⟩
    exact ⟨length, hd, List.takeD_eq_take _ hd.le⟩

/-- Octets behind a packet do not change what its header declares. -/
theorem DeclaresLength.append {packet : List UInt8} {length : ℕ} (h : DeclaresLength packet length)
    (hne : packet ≠ []) (rest : List UInt8) : DeclaresLength (packet ++ rest) length := by
  have hget : ∀ i, i < packet.length → (packet ++ rest).getD i 0 = packet.getD i 0 := fun i hi => by
    simp [List.getD, List.getElem?_append_left hi]
  have hlen : packet.length ≤ (packet ++ rest).length := by simp
  cases h with
  | keepalive he => exact absurd he hne
  | ipv4 _ ihl hversion hheader hihl hmin hlength htotal hfits =>
    rw [← hget 0 (by omega)] at hversion hihl
    rw [← hget 2 (by omega), ← hget 3 (by omega)] at hlength
    exact .ipv4 _ ihl hversion (by omega) hihl hmin hlength htotal (by omega)
  | ipv6 _ hversion hheader hlength hfits =>
    rw [← hget 0 (by omega)] at hversion
    rw [← hget 4 (by omega), ← hget 5 (by omega)] at hlength
    exact .ipv6 _ hversion (by omega) hlength (by omega)

/-- A packet that declares its own length is restored as it was. -/
theorem restored_of_declaresLength {packet : List UInt8} (h : DeclaresLength packet packet.length) :
    restored packet = some packet := by
  obtain ⟨zeros, hz⟩ := pad_eq_append packet
  refine restored_eq_some.mpr ⟨packet.length, ?_, by rw [hz, List.take_left]⟩
  by_cases hne : packet = []
  · subst hne
    exact .keepalive rfl
  · rw [hz]
    exact h.append hne zeros

/-! ## One message -/

section Message

variable {H K : Type} {W : WireguardLwip H K} {used stale : K → UInt64 → Prop}

/-- Decryption looks at the octets only, not at how their number is written. -/
theorem decryptPacket_ofList {n : ℕ} (keys : K) (x : Octets n) (counter : UInt64) {l : List UInt8}
    (h : l = x.toList) :
    (W.decryptPacket keys (Octets.ofList l rfl) counter).map List.Vector.toList =
      (W.decryptPacket keys x counter).map List.Vector.toList := by
  subst h
  obtain ⟨l, rfl⟩ := x
  rfl

/-- The parts of a transport message. -/
theorem transportMessage_eq (keypair : Keypair K) (packet : List UInt8) :
    (transportMessage W keypair packet).1 = W.messageTransportData :: 0 :: 0 :: 0 ::
      (storeU32Le keypair.remoteIndex ++ (storeU64Le keypair.sendingCounter ++
        (W.encryptPacket keypair.keys keypair.sendingCounter
          (Octets.ofList (pad packet) rfl)).1.toList)) := by
  unfold transportMessage
  simp only [List.cons_append, List.append_assoc]

/-- **One message**: an engine whose keypair opens it restores the packet when the keypair is not
expired and the counter is accepted, and otherwise drops it. -/
theorem handle_message (S : W.SessionLaws) (T : W.TransportLaws used stale) {b : Engine H K}
    {keypair : Keypair K} {slot : Slot} {env : Env} (packet : List UInt8)
    (hindex : W.getPeerKeypairForIdx b.peer keypair.remoteIndex = some slot)
    (hreceiving : (b.peer.keypair slot).receivingValid = true)
    (hopens : W.Opens keypair.keys (b.peer.keypair slot).keys) :
    b.handle W env (transportMessage W keypair packet).1 =
      if W.expired (env.sysNow 0) (b.peer.keypair slot).keypairMillis W.rejectAfterTime then
        (b, {})
      else if (W.checkReplay (b.peer.keypair slot).keys keypair.sendingCounter).2 then
        (b.received W env slot (W.checkReplay (b.peer.keypair slot).keys keypair.sendingCounter).1,
          { plaintextIp := restored packet, sessionEstablished := true })
      else
        ({ b with peer := b.peer.setKeypair { b.peer.keypair slot with
            keys := (W.checkReplay (b.peer.keypair slot).keys keypair.sendingCounter).1 } slot },
          {}) := by
  set x : Octets (pad packet).length := Octets.ofList (pad packet) rfl with hx
  set m := (transportMessage W keypair packet).1 with hm
  rw [transportMessage_eq, ← hx] at hm
  have hlength : (W.encryptPacket keypair.keys keypair.sendingCounter x).1.toList.length =
      (pad packet).length + 16 := List.Vector.toList_length _
  have htype : W.getMessageType m = .transportData := by
    rw [hm]
    refine T.transportType _ ?_
    rw [List.length_append, List.length_append, hlength]
    simp only [storeU32Le, storeU64Le, List.length_map, List.length_range]
    omega
  have hne : m ≠ [] := by
    rw [hm]
    exact List.cons_ne_nil _ _
  have hlen : ¬ m.length < 16 + 16 := by
    rw [hm]
    simp only [List.length_cons, List.length_append, hlength, storeU32Le, storeU64Le,
      List.length_map, List.length_range]
    omega
  have hrecv : loadU32Le (m.drop 4) = keypair.remoteIndex := by
    rw [hm]
    exact loadU32Le_store _ _
  have hcounter : loadU64Le (m.drop 8) = keypair.sendingCounter := by
    rw [hm]
    exact loadU64Le_store _ _
  have hcipher : m.drop 16 = (W.encryptPacket keypair.keys keypair.sendingCounter x).1.toList := by
    rw [hm]
    rfl
  have hpeer : W.peerLookupByReceiver b.peer keypair.remoteIndex = true := by
    rw [S.peerForIdx, hindex]
    rfl
  -- The plaintext is known as a list only, since its length is written in another way.
  have hdec := decryptPacket_ofList (W := W) (b.peer.keypair slot).keys _ keypair.sendingCounter
    hcipher
  rw [hopens x keypair.sendingCounter] at hdec
  obtain ⟨plaintext, hdec, hplain⟩ := Option.map_eq_some_iff.mp hdec
  have hplain : plaintext.toList = pad packet := hplain.trans (Octets.toList_ofList _ _)
  unfold handle
  rw [if_neg hne, htype]
  unfold handleTransport
  rw [if_neg hlen]
  dsimp only
  rw [hrecv, hcounter, hpeer, if_neg (not_not.mpr rfl), hindex]
  dsimp only
  by_cases hold : W.expired (env.sysNow 0) (b.peer.keypair slot).keypairMillis W.rejectAfterTime
  · rw [if_pos hold, if_pos (Or.inr hold)]
  rw [if_neg hold, if_neg (by simp [hreceiving, hold]), hdec]
  dsimp only
  by_cases hfresh : (W.checkReplay (b.peer.keypair slot).keys keypair.sendingCounter).2
  · rw [if_pos hfresh, if_neg (not_not.mpr hfresh), hplain]
    rfl
  · rw [if_neg hfresh, if_pos hfresh]

end Message

/-! ## Sessions -/

section Session

variable {H K : Type}

/-- The keypair that the next packet is encrypted with. -/
def Engine.sendingKeypair (e : Engine H K) : Keypair K := e.peer.keypair e.sendingSlot

/-- What the engine `a` encrypts, the engine `b` can decrypt with the keypair in `slot`, which has
seen no counter yet that `a` is going to use. -/
structure SharesSession (W : WireguardLwip H K) (used : K → UInt64 → Prop) (a b : Engine H K)
    (slot : Slot) : Prop where
  index : W.getPeerKeypairForIdx b.peer a.sendingKeypair.remoteIndex = some slot
  receivingValid : (b.peer.keypair slot).receivingValid = true
  opens : W.Opens a.sendingKeypair.keys (b.peer.keypair slot).keys
  fresh : ∀ counter, used (b.peer.keypair slot).keys counter →
    counter < a.sendingKeypair.sendingCounter

/-- A sender, a receiver, and the packets that were encrypted, each with its message. -/
structure Link (H K : Type) where
  sender : Engine H K
  receiver : Engine H K
  wire : List (List UInt8 × List UInt8) := []
  deriving DecidableEq

/-- A side encrypts a packet, or the other side is given a message that was sent. -/
inductive LinkEvent
  | send (env : Env) (packet : List UInt8)
  | deliver (env : Env) (i : ℕ)

/-- What encrypting and handling gave. -/
inductive LinkOutput
  | sent (message : Except Exn (List UInt8))
  | delivered (i : ℕ) (result : WireGuardPacketResult)
  deriving DecidableEq

/-- The engine `a` sends, and the messages reach the engine `b` in any order, any number of
times. -/
def linkMachine (W : WireguardLwip H K) (a b : Engine H K) :
    Machine (Link H K) LinkEvent LinkOutput where
  init := { sender := a, receiver := b }
  step s
    | .send env packet =>
      match s.sender.encrypt W env packet with
      | (sender, .ok message) =>
        some ({ s with sender, wire := s.wire ++ [(packet, message)] }, [.sent (.ok message)])
      | (sender, .error x) => some ({ s with sender }, [.sent (.error x)])
    | .deliver env i =>
      s.wire[i]?.map fun (_, message) =>
        let (receiver, result) := s.receiver.handle W env message
        ({ s with receiver }, [.delivered i result])

/-- The receiver has accepted message `i`. -/
def Accepted (os : List LinkOutput) (i : ℕ) : Prop :=
  ∃ result, .delivered i result ∈ os ∧ result.sessionEstablished = true

theorem not_accepted_nil (i : ℕ) : ¬ Accepted [] i := by
  rintro ⟨_, h, -⟩
  cases h

theorem accepted_snoc_sent {os : List LinkOutput} {message : Except Exn (List UInt8)} {i : ℕ} :
    Accepted (os ++ [.sent message]) i ↔ Accepted os i := by
  simp [Accepted]

theorem accepted_snoc {os : List LinkOutput} {i j : ℕ} {result : WireGuardPacketResult} :
    Accepted (os ++ [.delivered i result]) j ↔
      Accepted os j ∨ (j = i ∧ result.sessionEstablished = true) := by
  unfold Accepted
  constructor
  · rintro ⟨r, hr, he⟩
    rcases List.mem_append.mp hr with hr | hr
    · exact .inl ⟨r, hr, he⟩
    · obtain ⟨rfl, rfl⟩ := LinkOutput.delivered.inj (List.mem_singleton.mp hr)
      exact .inr ⟨rfl, he⟩
  · rintro (⟨r, hr, he⟩ | ⟨rfl, he⟩)
    · exact ⟨r, List.mem_append_left _ hr, he⟩
    · exact ⟨result, List.mem_append_right _ (List.mem_singleton_self _), he⟩

variable {W : WireguardLwip H K} {used stale : K → UInt64 → Prop}

/-! ### The sender -/

/-- Sending does not change which keypair is sent with. -/
theorem sendingSlot_sent (e : Engine H K) (env : Env) (packet : List UInt8) :
    (e.sent W env e.sendingSlot (transportMessage W e.sendingKeypair packet).2).sendingSlot =
      e.sendingSlot := by
  unfold sendingKeypair
  by_cases hc : e.peer.currKeypair.valid ∧ ¬ e.peer.currKeypair.initiator ∧
      e.peer.currKeypair.lastRx = 0
  · rw [show e.sendingSlot = .prev from if_pos hc]
    exact if_pos hc
  · rw [show e.sendingSlot = .curr from if_neg hc]
    exact if_neg hc

/-- Sending moves the counter on. -/
theorem sendingKeypair_sent (e : Engine H K) (env : Env) (packet : List UInt8) :
    (e.sent W env e.sendingSlot
        (transportMessage W e.sendingKeypair packet).2).sendingKeypair =
      { (transportMessage W e.sendingKeypair packet).2 with lastTx := env.sysNow 1 } := by
  rw [sendingKeypair, sendingSlot_sent]
  exact Peer.keypair_setKeypair _ _ _

/-- An encrypted packet is the message of the sending keypair, whose counter moves on without
wrapping. -/
theorem sendingKeypair_of_encrypt (T : W.TransportLaws used stale) {e e' : Engine H K} {env : Env}
    {packet message : List UInt8} (he : e.encrypt W env packet = (e', .ok message)) :
    message = (transportMessage W e.sendingKeypair packet).1 ∧
      e'.sendingKeypair.remoteIndex = e.sendingKeypair.remoteIndex ∧
      e'.sendingKeypair.keys = e.sendingKeypair.keys ∧
      e'.sendingKeypair.sendingCounter.toNat = e.sendingKeypair.sendingCounter.toNat + 1 := by
  obtain ⟨⟨-, -, hlt⟩, -, rfl, rfl⟩ := encrypt_eq_ok.mp he
  have hkeypair := sendingKeypair_sent (W := W) e env packet
  have hnext : (transportMessage W e.sendingKeypair packet).2.sendingCounter =
      e.sendingKeypair.sendingCounter + 1 := T.encrypt_counter _ _ _
  unfold sendingKeypair at hkeypair hnext ⊢
  rw [hkeypair]
  refine ⟨rfl, rfl, rfl, ?_⟩
  -- A keypair is never used up.
  have hroom := UInt64.lt_iff_toNat_lt.mp hlt
  have hmax := W.rejectAfterMessages.toNat_lt
  rw [hnext, UInt64.toNat_add, UInt64.toNat_one, Nat.mod_eq_of_lt]
  exact lt_of_le_of_lt (Nat.succ_le_of_lt hroom) hmax

/-! ### The receiver -/

/-- After a message was accepted, its keypair is still found, in the slot it moved to. -/
theorem keypair_received (S : W.SessionLaws) {b : Engine H K} {index : UInt32} {slot : Slot}
    (h : W.getPeerKeypairForIdx b.peer index = some slot) (env : Env) (keys : K) :
    ∃ slot', W.getPeerKeypairForIdx (b.received W env slot keys).peer index = some slot' ∧
      (b.received W env slot keys).peer.keypair slot' =
        { b.peer.keypair slot with keys, lastRx := env.sysNow 1 } := by
  set k : Keypair K := { b.peer.keypair slot with keys, lastRx := env.sysNow 1 } with hk
  set p : Peer H K := { b.peer.setKeypair k slot with lastRx := env.sysNow 1 } with hp
  have hkeypair : p.keypair slot = k := Peer.keypair_setKeypair b.peer k slot
  have hset : W.getPeerKeypairForIdx p index = some slot := by
    rw [← h, ← S.getPeerKeypairForIdx_setKeypair b.peer slot k rfl rfl, S.keypairForIdx,
      S.keypairForIdx]
    rfl
  obtain ⟨hv, hi⟩ := S.valid_of_getPeerKeypairForIdx hset
  change ∃ slot', W.getPeerKeypairForIdx (W.keypairUpdate p slot) index = some slot' ∧
    (W.keypairUpdate p slot).keypair slot' = k
  -- The next keypair becomes the current one, and any other stays in its slot.
  by_cases hn : slot = .next
  · subst hn
    have hcurr := (S.update_next p).1
    refine ⟨.curr, ?_, hcurr.trans hkeypair⟩
    rw [S.keypairForIdx]
    refine List.find?_cons_of_pos ?_
    change ((W.keypairUpdate p .next).currKeypair.valid &&
      (W.keypairUpdate p .next).currKeypair.localIndex == index) = true
    rw [hcurr]
    simpa using ⟨hv, hi⟩
  · rw [S.update_other p slot hn]
    exact ⟨slot, hset, hkeypair⟩

/-- Keys decrypt what they did, whatever counters they have seen. -/
theorem opens_checkReplay (T : W.TransportLaws used stale) {k k' : K} (h : W.Opens k k')
    (counter : UInt64) : W.Opens k (W.checkReplay k' counter).1 := fun x counter' => by
  rw [T.decrypt_replay]
  exact h x counter'

/-! ### The link -/

/-- What holds while `a`'s messages travel: the session goes on, the `i`-th message has the `i`-th
counter from the first one, and the receiver has seen the counters of the messages that it
accepted. -/
structure Linked (W : WireguardLwip H K) (used : K → UInt64 → Prop) (first : ℕ) (created : UInt32)
    (s : Link H K) (os : List LinkOutput) (slot : Slot) : Prop
    extends SharesSession W used s.sender s.receiver slot where
  created_eq : (s.receiver.peer.keypair slot).keypairMillis = created
  counter_eq : s.sender.sendingKeypair.sendingCounter.toNat = first + s.wire.length
  wire_eq : ∀ i packet message, s.wire[i]? = some (packet, message) → ∃ keypair : Keypair K,
    message = (transportMessage W keypair packet).1 ∧
      keypair.remoteIndex = s.sender.sendingKeypair.remoteIndex ∧
      keypair.keys = s.sender.sendingKeypair.keys ∧ keypair.sendingCounter.toNat = first + i
  used_iff : ∀ counter i, counter.toNat = first + i →
    (used (s.receiver.peer.keypair slot).keys counter ↔ Accepted os i)

/-- The two engines at the start. -/
theorem SharesSession.linked {a b : Engine H K} {slot : Slot} (h : SharesSession W used a b slot) :
    Linked W used a.sendingKeypair.sendingCounter.toNat (b.peer.keypair slot).keypairMillis
      (linkMachine W a b).init [] slot where
  toSharesSession := h
  created_eq := rfl
  counter_eq := rfl
  wire_eq i packet message hi := by cases hi
  used_iff counter i hc := by
    refine iff_of_false (fun hu => ?_) (not_accepted_nil i)
    have := UInt64.lt_iff_toNat_lt.mp (h.fresh counter hu)
    omega

variable {first : ℕ} {created : UInt32} {s : Link H K} {os : List LinkOutput} {slot : Slot}

/-- Sending a packet. -/
theorem Linked.send (T : W.TransportLaws used stale) (h : Linked W used first created s os slot)
    {env : Env} {packet message : List UInt8} {sender : Engine H K}
    (he : s.sender.encrypt W env packet = (sender, .ok message)) :
    Linked W used first created { s with sender, wire := s.wire ++ [(packet, message)] }
      (os ++ [.sent (.ok message)]) slot := by
  obtain ⟨rfl, hremote, hkeys, hcounter⟩ := sendingKeypair_of_encrypt T he
  refine ⟨⟨?_, h.receivingValid, ?_, fun counter hu => ?_⟩, h.created_eq, ?_, ?_, ?_⟩
  · rw [hremote]
    exact h.index
  · rw [hkeys]
    exact h.opens
  · have hlt := UInt64.lt_iff_toNat_lt.mp (h.fresh counter hu)
    exact UInt64.lt_iff_toNat_lt.mpr (hlt.trans (by rw [hcounter]; exact Nat.lt_succ_self _))
  · rw [hcounter, h.counter_eq, List.length_append, List.length_singleton]
    rfl
  · intro i p m hi
    rw [hremote, hkeys]
    -- The message is behind those sent before, and carries the counter that was next.
    rcases Nat.lt_or_ge i s.wire.length with hlt | hge
    · rw [List.getElem?_append_left hlt] at hi
      exact h.wire_eq i p m hi
    · obtain rfl : i = s.wire.length := by
        have := (List.getElem?_eq_some_iff.mp hi).1
        simp only [List.length_append, List.length_singleton] at this
        omega
      simp only [List.getElem?_concat_length, Option.some.injEq, Prod.mk.injEq] at hi
      obtain ⟨rfl, rfl⟩ := hi
      exact ⟨s.sender.sendingKeypair, rfl, rfl, rfl, h.counter_eq⟩
  · intro counter i hc
    rw [accepted_snoc_sent]
    exact h.used_iff counter i hc

/-- The receiver's keypair may change its slot, the counters that it has seen, and the time when it
was used. -/
theorem Linked.receive (h : Linked W used first created s os slot) {receiver : Engine H K}
    {slot' : Slot} {keys : K} {lastRx : UInt32} {os' : List LinkOutput}
    (hindex : W.getPeerKeypairForIdx receiver.peer s.sender.sendingKeypair.remoteIndex = some slot')
    (hkeypair : receiver.peer.keypair slot' = { s.receiver.peer.keypair slot with keys, lastRx })
    (hopens : W.Opens s.sender.sendingKeypair.keys keys)
    (hfresh : ∀ counter, used keys counter → counter < s.sender.sendingKeypair.sendingCounter)
    (hused : ∀ counter i, counter.toNat = first + i → (used keys counter ↔ Accepted os' i)) :
    Linked W used first created { s with receiver } os' slot' where
  index := hindex
  receivingValid := by
    rw [hkeypair]
    exact h.receivingValid
  opens := by
    rw [hkeypair]
    exact hopens
  fresh := by
    rw [hkeypair]
    exact hfresh
  created_eq := by
    rw [hkeypair]
    exact h.created_eq
  counter_eq := h.counter_eq
  wire_eq := h.wire_eq
  used_iff := by
    rw [hkeypair]
    exact hused

/-- What handling the `i`-th message returns, and the link afterwards. -/
theorem Linked.deliver (S : W.SessionLaws) (T : W.TransportLaws used stale)
    (h : Linked W used first created s os slot) {i : ℕ} {packet message : List UInt8}
    (hi : s.wire[i]? = some (packet, message)) (env : Env) :
    (∃ slot', Linked W used first created
      { s with receiver := (s.receiver.handle W env message).1 }
      (os ++ [.delivered i (s.receiver.handle W env message).2]) slot') ∧
    (Accepted os i → (s.receiver.handle W env message).2 = {}) ∧
    (W.expired (env.sysNow 0) created W.rejectAfterTime = false → ¬ Accepted os i →
      (∀ j, Accepted os j → j < i) ∨ (∀ k c, ¬ stale k c) →
      (s.receiver.handle W env message).2 =
        { plaintextIp := restored packet, sessionEstablished := true }) := by
  obtain ⟨keypair, rfl, hremote, hkeys, hcounter⟩ := h.wire_eq i packet message hi
  have hused := h.used_iff keypair.sendingCounter i hcounter
  have hreplay := T.replay_accepts (s.receiver.peer.keypair slot).keys keypair.sendingCounter
  rw [handle_message S T packet (hremote ▸ h.index) h.receivingValid (hkeys ▸ h.opens),
    h.created_eq]
  by_cases hold : W.expired (env.sysNow 0) created W.rejectAfterTime
  · -- An expired keypair does nothing.
    rw [if_pos hold]
    refine ⟨⟨slot, h.receive h.index rfl h.opens h.fresh fun c j hc => ?_⟩, fun _ => rfl,
      fun halive => absurd hold (by simp [halive])⟩
    rw [accepted_snoc]
    exact (h.used_iff c j hc).trans (by simp)
  rw [if_neg hold]
  set keys := (W.checkReplay (s.receiver.peer.keypair slot).keys keypair.sendingCounter).1
    with hk
  have hnow := T.replay_used (s.receiver.peer.keypair slot).keys keypair.sendingCounter
  rw [← hk] at hnow
  have hopens : W.Opens s.sender.sendingKeypair.keys keys :=
    opens_checkReplay T h.opens keypair.sendingCounter
  -- The counters of the messages that were sent are all below the next one.
  have hfresh : ∀ c, used keys c → c < s.sender.sendingKeypair.sendingCounter := by
    intro c hc
    rcases (hnow c).mp hc with hc | ⟨rfl, -⟩
    · exact h.fresh c hc
    · have := (List.getElem?_eq_some_iff.mp hi).1
      have := h.counter_eq
      exact UInt64.lt_iff_toNat_lt.mpr (by omega)
  by_cases hfresh' : (W.checkReplay (s.receiver.peer.keypair slot).keys keypair.sendingCounter).2
  · rw [if_pos hfresh']
    obtain ⟨slot', hindex', hkeypair'⟩ := keypair_received S h.index env keys
    refine ⟨⟨slot', h.receive hindex' hkeypair' hopens hfresh fun c j hc => ?_⟩,
      fun ha => absurd (hused.mpr ha) (hreplay.mp hfresh').1, fun _ _ _ => rfl⟩
    rw [accepted_snoc, hnow, h.used_iff c j hc, hfresh']
    have : c = keypair.sendingCounter ↔ j = i := by
      rw [← UInt64.toNat_inj]
      omega
    simp [this]
  · rw [if_neg hfresh']
    have hindex' : W.getPeerKeypairForIdx (s.receiver.peer.setKeypair
        { s.receiver.peer.keypair slot with keys } slot)
        s.sender.sendingKeypair.remoteIndex = some slot := by
      rw [← h.index]
      exact S.getPeerKeypairForIdx_setKeypair _ slot { s.receiver.peer.keypair slot with keys }
        rfl rfl _
    refine ⟨⟨slot, h.receive hindex' (Peer.keypair_setKeypair _ _ _) hopens hfresh
      fun c j hc => ?_⟩, fun _ => rfl,
      fun _ ha hs => absurd (hreplay.mpr ⟨fun hu => ha (hused.mp hu), ?_⟩) hfresh'⟩
    · rw [accepted_snoc, hnow, h.used_iff c j hc]
      simp [hfresh']
    · -- Nothing newer was accepted, so that the counter is still in the window.
      intro hstale
      rcases hs with hs | hs
      · obtain ⟨newer, hu, hlt⟩ := T.stale_behind _ _ hstale
        have hlt := UInt64.lt_iff_toNat_lt.mp hlt
        have := hs (newer.toNat - first) ((h.used_iff newer _ (by omega)).mp hu)
        omega
      · exact hs _ _ hstale

/-- Every run keeps the engines linked. -/
theorem SharesSession.runs (S : W.SessionLaws) (T : W.TransportLaws used stale) {a b : Engine H K}
    (h : SharesSession W used a b slot) {es : List LinkEvent}
    (hr : (linkMachine W a b).Runs es s os) :
    ∃ slot', Linked W used a.sendingKeypair.sendingCounter.toNat
      (b.peer.keypair slot).keypairMillis s os slot' := by
  refine hr.trace_invariant (I := fun _ s os => ∃ slot', Linked W used _ _ s os slot')
    ⟨slot, h.linked⟩ ?_
  rintro es s os (⟨env, packet⟩ | ⟨env, i⟩) s' os' - ⟨slot', hI⟩ hs
  · dsimp only [linkMachine] at hs
    split at hs
    · rename_i he
      obtain ⟨rfl, rfl⟩ := Prod.mk.inj (Option.some.inj hs)
      exact ⟨slot', hI.send T he⟩
    · rename_i he
      obtain ⟨rfl, rfl⟩ := Prod.mk.inj (Option.some.inj hs)
      rw [eq_of_encrypt_eq_error he]
      exact ⟨slot', hI.toSharesSession, hI.created_eq, hI.counter_eq, hI.wire_eq,
        fun c j hc => (hI.used_iff c j hc).trans accepted_snoc_sent.symm⟩
  · obtain ⟨⟨packet, message⟩, hi, hs⟩ := Option.map_eq_some_iff.mp hs
    obtain ⟨rfl, rfl⟩ := Prod.mk.inj hs
    exact (hI.deliver S T hi env).1

/-- **Transport messages restore the packets**: in every run of a sender and a receiver that share
a session, the messages have consecutive counters. While the session is not expired, delivering a
message that was not accepted yet returns the octets that the header of the padded packet
declares, and the packet itself when its header declares its length; the library may forget
counters only behind one that was accepted. No message is accepted twice. -/
theorem transport_restores (S : W.SessionLaws) (T : W.TransportLaws used stale)
    {a b : Engine H K} (h : SharesSession W used a b slot) {es : List LinkEvent}
    (hr : (linkMachine W a b).Runs es s os) {i : ℕ} {packet message : List UInt8}
    (hi : s.wire[i]? = some (packet, message)) (env : Env) :
    (loadU64Le (message.drop 8)).toNat = a.sendingKeypair.sendingCounter.toNat + i ∧
    (Accepted os i → (s.receiver.handle W env message).2.plaintextIp = none) ∧
    (W.expired (env.sysNow 0) (b.peer.keypair slot).keypairMillis W.rejectAfterTime = false →
      ¬ Accepted os i → (∀ j, Accepted os j → j < i) ∨ (∀ k c, ¬ stale k c) →
      (∀ x, (s.receiver.handle W env message).2.plaintextIp = some x ↔
        ∃ length, DeclaresLength (pad packet) length ∧ x = (pad packet).take length) ∧
      (DeclaresLength packet packet.length →
        (s.receiver.handle W env message).2.plaintextIp = some packet)) := by
  obtain ⟨slot', hL⟩ := h.runs S T hr
  obtain ⟨-, hagain, hfirst⟩ := hL.deliver S T hi env
  obtain ⟨keypair, rfl, -, -, hcounter⟩ := hL.wire_eq i packet message hi
  refine ⟨?_, fun ha => ?_, fun halive ha hs => ?_⟩
  · rw [transportMessage_eq, ← hcounter]
    exact congrArg UInt64.toNat (loadU64Le_store _ _)
  · rw [hagain ha]
  · rw [hfirst halive ha hs]
    exact ⟨fun x => restored_eq_some, restored_of_declaresLength⟩

theorem plainEngine_sharesSession (i j : UInt32) :
    SharesSession plainLwip PlainKeys.Used (plainEngine i j) (plainEngine j i) .curr where
  index := by
    change (match true && j == j with
      | true => some Slot.curr
      | false => _) = some Slot.curr
    rw [beq_self_eq_true]
    rfl
  receivingValid := rfl
  opens := plain_opens rfl
  fresh _ h := by cases h

/-- An IPv4 packet of 21 octets, sent and delivered once. -/
theorem transport_restores_example :
    let env : Env := ⟨fun _ => 0, fun _ => 0⟩
    let packet : List UInt8 := [0x45, 0, 0, 21] ++ List.replicate 17 7
    ∃ s os message, (linkMachine plainLwip (plainEngine 1 2) (plainEngine 2 1)).Runs
        [.send env packet] s os ∧ s.wire = [(packet, message)] ∧
      (s.receiver.handle plainLwip env message).2.plaintextIp = some packet := by
  intro env packet
  have hready : (plainEngine 1 2).Ready plainLwip (env.sysNow 0) := ⟨rfl, by decide, by decide⟩
  have he := encrypt_of_ready hready (by decide : packet.length ≤ maxPlaintext)
  have hr := (Machine.Runs.nil (m := linkMachine plainLwip (plainEngine 1 2) (plainEngine 2 1))).snoc
    (e := .send env packet) (by dsimp only [linkMachine]; rw [he])
  have hdeclares : DeclaresLength packet packet.length :=
    .ipv4 _ 20 (by decide) (by decide) (by decide) (by decide) (by decide) (by decide) (by decide)
  have hos : ∀ message j, ¬ Accepted ([] ++ [.sent message]) j := fun message j h =>
    not_accepted_nil j (accepted_snoc_sent.mp h)
  have h := transport_restores plain_sessionLaws plain_transportLaws
    (plainEngine_sharesSession 1 2) hr (i := 0) rfl env
  exact ⟨_, _, _, hr, rfl,
    (h.2.2 (by decide) (hos _ 0) (.inl fun j hj => absurd hj (hos _ j))).2 hdeclares⟩

end Session

end Tailcat
