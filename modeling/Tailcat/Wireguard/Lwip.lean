import Tailcat.Protocol.Types

/-!
# wireguard-lwip and its platform

The native WireGuard library is not part of the repository. What the engine calls of it is a
parameter: the fields of keypairs and peers that the engine reads and writes, and the functions on
them. A pointer to one of the three keypairs of a peer is a slot. Functions of the library that
work on the handshake change the rest of the peer only. The clock that the library reads is the
platform's, which is part of the repository.

## Main definitions

* `Env`, `wireguardSysNow`: what a call may read of the clock and of the random source
* `Keypair`, `Peer`, `Slot`: the state of the library, as far as the engine reads it
* `WireguardLwip`: the functions and constants of the library
* `WireguardLwip.SessionLaws`: how the keypairs rotate
* `WireguardLwip.TransportLaws`: how a keypair encrypts and decrypts
-/

namespace Tailcat

/-! ## The platform -/

/-- What one call may read: the milliseconds of the steady clock at each reading, counted from
its first reading in the process, and random octets. -/
structure Env where
  millis : ℕ → ℤ
  random : ℕ → UInt8

/-- `wireguard_sys_now()` when the steady clock shows `millis`. -/
def wireguardSysNow (millis : ℤ) : UInt32 :=
  let oneBased : UInt64 := UInt64.ofNat millis.toNat + 1
  let value := (oneBased &&& 0xffffffff).toUInt32
  if value = 0 then 1 else value

/-- Zero stands for "never" in the library, and is never the time. -/
theorem wireguardSysNow_ne_zero (millis : ℤ) : wireguardSysNow millis ≠ 0 := by
  unfold wireguardSysNow
  dsimp only
  split
  · decide
  · assumption

/-- The `i`-th reading of the platform clock in a call. -/
def Env.sysNow (env : Env) (i : ℕ) : UInt32 := wireguardSysNow (env.millis i)

theorem Env.sysNow_ne_zero (env : Env) (i : ℕ) : env.sysNow i ≠ 0 := wireguardSysNow_ne_zero _

/-! ## The state of the library -/

/-- A keypair; `keys` is what the engine does not look at. -/
structure Keypair (K : Type) where
  valid : Bool
  initiator : Bool
  receivingValid : Bool
  localIndex : UInt32
  keypairMillis : UInt32
  remoteIndex : UInt32
  sendingCounter : UInt64
  lastTx : UInt32
  lastRx : UInt32
  keys : K
  deriving DecidableEq

/-- A peer with the device it belongs to; `rest` is what the engine does not look at. -/
structure Peer (H K : Type) where
  currKeypair : Keypair K
  nextKeypair : Keypair K
  prevKeypair : Keypair K
  lastTx : UInt32
  lastRx : UInt32
  sendHandshake : Bool
  rest : H
  deriving DecidableEq

/-- A pointer to one of the keypairs of a peer. -/
inductive Slot
  | curr
  | next
  | prev
  deriving DecidableEq

namespace Peer

variable {H K : Type}

/-- The keypair in a slot. -/
def keypair (p : Peer H K) : Slot → Keypair K
  | .curr => p.currKeypair
  | .next => p.nextKeypair
  | .prev => p.prevKeypair

/-- Another keypair in a slot. -/
def setKeypair (p : Peer H K) (k : Keypair K) : Slot → Peer H K
  | .curr => { p with currKeypair := k }
  | .next => { p with nextKeypair := k }
  | .prev => { p with prevKeypair := k }

@[simp] theorem keypair_setKeypair (p : Peer H K) (k : Keypair K) (slot : Slot) :
    (p.setKeypair k slot).keypair slot = k := by
  cases slot <;> rfl

theorem keypair_setKeypair_of_ne (p : Peer H K) (k : Keypair K) {slot slot' : Slot}
    (h : slot' ≠ slot) : (p.setKeypair k slot).keypair slot' = p.keypair slot' := by
  cases slot <;> cases slot' <;> first | rfl | exact absurd rfl h

end Peer

/-! ## The library -/

/-- The types of messages that the library tells apart. -/
inductive MessageType
  | handshakeInitiation
  | handshakeResponse
  | cookieReply
  | transportData
  | invalid
  deriving DecidableEq

/-- The functions and constants of the library that the engine uses. -/
structure WireguardLwip (H K : Type) where
  messageTransportData : UInt8
  rejectAfterTime : UInt32
  rekeyAfterTime : UInt32
  rejectAfterMessages : UInt64
  rekeyAfterMessages : UInt64
  deviceInit : Env → Key32 → Option H
  publicKey : H → Key32
  peerAlloc : H → Option (Peer H K)
  peerInit : Env → Peer H K → Key32 → Option Key32 → Option (Peer H K)
  getMessageType : List UInt8 → MessageType
  /-- `wireguard_check_mac1(device, data, len, mac1)` -/
  checkMac1 : H → List UInt8 → List UInt8 → Bool
  createHandshakeInitiation : Env → Peer H K → H × Option (Octets 148)
  /-- Whether the returned peer is the engine's. -/
  processInitiationMessage : Env → Peer H K → Octets 148 → H × Bool
  createHandshakeResponse : Env → Peer H K → H × Option (Octets 92)
  processHandshakeResponse : Env → Peer H K → Octets 92 → H × Bool
  processCookieMessage : Env → Peer H K → Octets 64 → H
  startSession : Env → Peer H K → Bool → Peer H K
  /-- `message.receiver` of a handshake response -/
  responseReceiver : Octets 92 → UInt32
  /-- `message.receiver` of a cookie reply -/
  cookieReceiver : Octets 64 → UInt32
  /-- Whether the peer with this handshake index is the engine's. -/
  peerLookupByHandshake : Peer H K → UInt32 → Bool
  /-- Whether the peer with this receiver index is the engine's. -/
  peerLookupByReceiver : Peer H K → UInt32 → Bool
  getPeerKeypairForIdx : Peer H K → UInt32 → Option Slot
  /-- `wireguard_expired(created, seconds)`, at the time `now` -/
  expired : UInt32 → UInt32 → UInt32 → Bool
  /-- The plaintext of the octets, which is as much shorter as the tag is long. -/
  decryptPacket : {n : ℕ} → K → Octets n → UInt64 → Option (Octets (n - 16))
  /-- The keys with their replay window moved on, and whether the counter is accepted. -/
  checkReplay : K → UInt64 → K × Bool
  /-- The ciphertext of the octets, which is as much longer as the tag is long, and the sending
  counter afterwards. -/
  encryptPacket : {n : ℕ} → K → UInt64 → Octets n → Octets (n + 16) × UInt64
  keypairUpdate : Peer H K → Slot → Peer H K

namespace WireguardLwip

variable {H K : Type}

/-- How the keypairs of a peer rotate. -/
structure SessionLaws (W : WireguardLwip H K) : Prop where
  /-- A new peer has no keys. -/
  peerInit_valid : ∀ env p key psk p', W.peerInit env p key psk = some p' →
    ∀ slot, (p'.keypair slot).valid = false
  /-- The keys of a handshake that this side initiated become the current keypair. -/
  start_initiator : ∀ env p, (W.startSession env p true).currKeypair.valid = true ∧
    (W.startSession env p true).currKeypair.initiator = true
  /-- The keys of a handshake that this side answered become the next keypair, and the previous
  one, if it is left, is what it was. -/
  start_responder : ∀ env p, (W.startSession env p false).nextKeypair.valid = true ∧
    (W.startSession env p false).currKeypair = p.currKeypair ∧
    ((W.startSession env p false).prevKeypair.valid = true → p.prevKeypair.valid = true)
  /-- Receiving under the next keypair makes it the current one, and the current one the previous. -/
  update_next : ∀ p, (W.keypairUpdate p .next).currKeypair = p.nextKeypair ∧
    (W.keypairUpdate p .next).nextKeypair.valid = false ∧
    (W.keypairUpdate p .next).prevKeypair = p.currKeypair
  /-- Receiving under the other keypairs changes nothing. -/
  update_other : ∀ p slot, slot ≠ .next → W.keypairUpdate p slot = p
  /-- An index finds the first valid keypair with it: the current, the next, the previous one. -/
  keypairForIdx : ∀ p idx, W.getPeerKeypairForIdx p idx =
    [Slot.curr, .next, .prev].find? fun slot =>
      (p.keypair slot).valid && (p.keypair slot).localIndex == idx
  /-- The peer is found by the indices of its keypairs. -/
  peerForIdx : ∀ p idx, W.peerLookupByReceiver p idx = (W.getPeerKeypairForIdx p idx).isSome

/-- The keys `k'` decrypt what the keys `k` encrypt. -/
def Opens (W : WireguardLwip H K) (k k' : K) : Prop :=
  ∀ {n : ℕ} (x : Octets n) (counter : UInt64),
    W.decryptPacket k' (W.encryptPacket k counter x).1 counter = some x

/-- How transport messages are typed, counted and protected against replay. `used` are the
counters that keys have accepted, `stale` those that have fallen out of their replay window. -/
structure TransportLaws (W : WireguardLwip H K) (used stale : K → UInt64 → Prop) : Prop where
  /-- Transport messages are recognised by their first four octets and their length. -/
  transportType : ∀ rest : List UInt8, 28 ≤ rest.length →
    W.getMessageType (W.messageTransportData :: 0 :: 0 :: 0 :: rest) = .transportData
  /-- Encrypting uses the counter and increments it. -/
  encrypt_counter : ∀ {n : ℕ} (k : K) (counter : UInt64) (x : Octets n),
    (W.encryptPacket k counter x).2 = counter + 1
  /-- The replay window does not matter for decryption. -/
  decrypt_replay : ∀ {n : ℕ} (k : K) (counter : UInt64) (x : Octets n) (counter' : UInt64),
    W.decryptPacket (W.checkReplay k counter).1 x counter' = W.decryptPacket k x counter'
  /-- A counter is accepted once, as long as it is in the window. -/
  replay_accepts : ∀ k counter,
    (W.checkReplay k counter).2 = true ↔ ¬ used k counter ∧ ¬ stale k counter
  /-- What is accepted is used from then on, and nothing else. -/
  replay_used : ∀ k counter counter', used (W.checkReplay k counter).1 counter' ↔
    used k counter' ∨ (counter' = counter ∧ (W.checkReplay k counter).2 = true)
  /-- Only what is behind a used counter falls out of the window. -/
  stale_behind : ∀ k counter, stale k counter → ∃ counter', used k counter' ∧ counter < counter'

/-! ### Indices -/

variable {W : WireguardLwip H K}

/-- Keys are found by the index, which does not change. -/
theorem SessionLaws.getPeerKeypairForIdx_setKeypair (S : W.SessionLaws) (p : Peer H K) (slot : Slot)
    (k : Keypair K) (hv : k.valid = (p.keypair slot).valid)
    (hi : k.localIndex = (p.keypair slot).localIndex) (index : UInt32) :
    W.getPeerKeypairForIdx (p.setKeypair k slot) index = W.getPeerKeypairForIdx p index := by
  rw [S.keypairForIdx, S.keypairForIdx]
  congr 1
  funext slot'
  by_cases h : slot' = slot
  · subst h
    rw [Peer.keypair_setKeypair, hv, hi]
  · rw [Peer.keypair_setKeypair_of_ne _ _ h]

theorem SessionLaws.valid_of_getPeerKeypairForIdx (S : W.SessionLaws) {p : Peer H K} {index : UInt32}
    {slot : Slot} (h : W.getPeerKeypairForIdx p index = some slot) :
    (p.keypair slot).valid = true ∧ (p.keypair slot).localIndex = index := by
  rw [S.keypairForIdx] at h
  have hslot := List.find?_some h
  simpa using hslot

end WireguardLwip

end Tailcat
