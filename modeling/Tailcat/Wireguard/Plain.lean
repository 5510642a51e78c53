import Tailcat.Wireguard.Engine

/-!
# A library without cryptography

The laws of the native library can all hold at once: a library that rotates keypairs, counts
messages and checks replays as the native one does, and whose tags are made of public octets,
satisfies them.

## Main definitions

* `PlainDevice`, `PlainKeys`: what the library keeps of a handshake and of a session
* `plainLwip`: the library
* `newPlainEngine`, `plainEngine`: engines over it, without and with a session

## Main results

* `plain_sessionLaws`: its keypairs rotate
* `plain_transportLaws`: it counts messages and refuses replays
* `plain_opens`: the same secret opens what it sealed
-/

namespace Tailcat

/-- The handshake of a device with one peer. -/
structure PlainDevice where
  own : Key32
  remote : Key32
  localIndex : UInt32 := 0
  remoteIndex : UInt32 := 0
  initiating : Bool := false
  deriving DecidableEq

/-- The octet that both sides of a session know, and the counters received under it. -/
structure PlainKeys where
  secret : UInt8
  received : List UInt64
  deriving DecidableEq

/-- The last octets of the two public keys together. -/
def PlainDevice.secret (d : PlainDevice) : UInt8 :=
  d.own.toList.getLastD 0 + d.remote.toList.getLastD 0

namespace PlainKeys

/-- The tag of a message. -/
def tag (k : PlainKeys) (counter : UInt64) : List UInt8 :=
  List.replicate 16 (k.secret + counter.toUInt8)

/-- A counter that was received. -/
def Used (k : PlainKeys) (counter : UInt64) : Prop := counter ∈ k.received

/-- A counter that is 32 or more behind one that was received. -/
def Stale (k : PlainKeys) (counter : UInt64) : Prop :=
  ∃ newer ∈ k.received, counter.toNat + 32 ≤ newer.toNat

instance (k : PlainKeys) (counter : UInt64) : Decidable (k.Used counter) :=
  inferInstanceAs (Decidable (_ ∈ _))

instance (k : PlainKeys) (counter : UInt64) : Decidable (k.Stale counter) :=
  inferInstanceAs (Decidable (∃ _ ∈ _, _))

end PlainKeys

/-- A keypair slot without keys. -/
def emptyKeypair : Keypair PlainKeys :=
  { valid := false, initiator := false, receivingValid := false, localIndex := 0, keypairMillis := 0
    remoteIndex := 0, sendingCounter := 0, lastTx := 0, lastRx := 0
    keys := { secret := 0, received := [] } }

/-- A peer without keys. -/
def emptyPeer (device : PlainDevice) : Peer PlainDevice PlainKeys :=
  { currKeypair := emptyKeypair, nextKeypair := emptyKeypair, prevKeypair := emptyKeypair
    lastTx := 0, lastRx := 0, sendHandshake := false, rest := device }

/-- The keypair of a handshake that was just completed. -/
def freshKeypair (env : Env) (device : PlainDevice) (initiator : Bool) : Keypair PlainKeys :=
  { valid := true, initiator, receivingValid := true, localIndex := device.localIndex
    keypairMillis := env.sysNow 0, remoteIndex := device.remoteIndex, sendingCounter := 0
    lastTx := 0, lastRx := 0, keys := { secret := device.secret, received := [] } }

/-- Four octets of a message, as a number. -/
def wordAt (message : List UInt8) (offset : ℕ) : UInt32 :=
  UInt32.ofNat (leNat ((message.drop offset).take 4))

/-- The library. A message names the indices in the clear, an initiation also the public key of
its sender. -/
def plainLwip : WireguardLwip PlainDevice PlainKeys where
  messageTransportData := 4
  rejectAfterTime := 180
  rekeyAfterTime := 120
  rejectAfterMessages := 0xffffffffffffdfff
  rekeyAfterMessages := 0x1000000000000000
  deviceInit _ key := some { own := key, remote := Octets.zero 32 }
  publicKey device := device.own
  peerAlloc device := some (emptyPeer device)
  peerInit _ p key _ := some (emptyPeer { p.rest with remote := key })
  getMessageType
    | 1 :: 0 :: 0 :: 0 :: rest => if rest.length = 144 then .handshakeInitiation else .invalid
    | 2 :: 0 :: 0 :: 0 :: rest => if rest.length = 88 then .handshakeResponse else .invalid
    | 3 :: 0 :: 0 :: 0 :: rest => if rest.length = 60 then .cookieReply else .invalid
    | 4 :: 0 :: 0 :: 0 :: rest => if 28 ≤ rest.length then .transportData else .invalid
    | _ => .invalid
  checkMac1 _ _ mac1 := mac1 = List.replicate 16 0
  createHandshakeInitiation env p :=
    let device := { p.rest with localIndex := (env.random 0).toUInt32, initiating := true }
    (device, some (Octets.ofList ([1, 0, 0, 0] ++ leBytes 4 device.localIndex.toNat ++
      device.own.toList ++ List.replicate 108 0) (by simp)))
  processInitiationMessage _ p message :=
    if (message.toList.drop 8).take 32 = p.rest.remote.toList then
      ({ p.rest with remoteIndex := wordAt message.toList 4 }, true)
    else
      (p.rest, false)
  createHandshakeResponse env p :=
    let device := { p.rest with localIndex := (env.random 0).toUInt32 }
    (device, some (Octets.ofList ([2, 0, 0, 0] ++ leBytes 4 device.localIndex.toNat ++
      leBytes 4 device.remoteIndex.toNat ++ List.replicate 80 0) (by simp)))
  processHandshakeResponse _ p message :=
    ({ p.rest with remoteIndex := wordAt message.toList 4, initiating := false }, true)
  processCookieMessage _ p _ := p.rest
  startSession env p initiator :=
    if initiator then
      { p with
        currKeypair := freshKeypair env p.rest true
        nextKeypair := emptyKeypair
        prevKeypair := if p.nextKeypair.valid then p.nextKeypair else p.currKeypair }
    else
      { p with nextKeypair := freshKeypair env p.rest false, prevKeypair := emptyKeypair }
  responseReceiver message := wordAt message.toList 8
  cookieReceiver message := wordAt message.toList 4
  peerLookupByHandshake p index := p.rest.initiating && p.rest.localIndex == index
  peerLookupByReceiver p index :=
    ([Slot.curr, .next, .prev].find? fun slot =>
      (p.keypair slot).valid && (p.keypair slot).localIndex == index).isSome
  getPeerKeypairForIdx p index :=
    [Slot.curr, .next, .prev].find? fun slot =>
      (p.keypair slot).valid && (p.keypair slot).localIndex == index
  expired created seconds now := seconds * 1000 ≤ now - created
  decryptPacket := fun {n} k x counter =>
    if x.toList.drop (n - 16) = k.tag counter then
      some (Octets.ofList (x.toList.take (n - 16)) (by simp))
    else
      none
  checkReplay k counter :=
    if k.Used counter ∨ k.Stale counter then
      (k, false)
    else
      ({ k with received := counter :: k.received }, true)
  encryptPacket := fun k counter x =>
    (Octets.ofList (x.toList ++ k.tag counter) (by simp [PlainKeys.tag]), counter + 1)
  keypairUpdate p slot :=
    if slot = .next then
      { p with
        currKeypair := p.nextKeypair
        nextKeypair := emptyKeypair
        prevKeypair := p.currKeypair }
    else
      p

/-- Its keypairs rotate. -/
theorem plain_sessionLaws : plainLwip.SessionLaws where
  peerInit_valid := by
    rintro env p key psk p' h (_ | _ | _) <;> obtain rfl := Option.some.inj h <;> rfl
  start_initiator _ _ := ⟨rfl, rfl⟩
  start_responder _ _ := ⟨rfl, rfl, fun h => absurd h Bool.false_ne_true⟩
  update_next _ := ⟨rfl, rfl, rfl⟩
  update_other _ _ h := if_neg h
  keypairForIdx _ _ := rfl
  peerForIdx _ _ := rfl

/-- It counts messages, and refuses replays and what is far behind. -/
theorem plain_transportLaws : plainLwip.TransportLaws PlainKeys.Used PlainKeys.Stale where
  transportType rest h := by
    change (if 28 ≤ rest.length then MessageType.transportData else .invalid) = _
    rw [if_pos h]
  encrypt_counter _ _ _ := rfl
  decrypt_replay k counter x counter' := by
    -- The window is no part of the tag.
    have htag : ((plainLwip.checkReplay k counter).1.tag counter') = k.tag counter' := by
      unfold plainLwip
      dsimp only
      split <;> rfl
    unfold plainLwip at htag ⊢
    dsimp only at htag ⊢
    rw [htag]
  replay_accepts k counter := by
    unfold plainLwip
    dsimp only
    rw [← not_or]
    split
    · rename_i h
      exact iff_of_false Bool.false_ne_true (not_not.mpr h)
    · rename_i h
      exact iff_of_true rfl h
  replay_used k counter counter' := by
    unfold plainLwip
    dsimp only
    split
    · simp
    · simp only [PlainKeys.Used, List.mem_cons, and_true]
      exact or_comm
  stale_behind k counter := by
    rintro ⟨newer, hmem, hlt⟩
    exact ⟨newer, hmem, UInt64.lt_iff_toNat_lt.mpr (by omega)⟩

/-- The same secret opens what it sealed. -/
theorem plain_opens {k k' : PlainKeys} (h : k.secret = k'.secret) : plainLwip.Opens k k' := by
  intro n x counter
  have htag : k.tag counter = k'.tag counter := by simp only [PlainKeys.tag, h]
  have hlen : x.toList.length = n := List.Vector.toList_length x
  have hdrop : (x.toList ++ k.tag counter).drop (n + 16 - 16) = k'.tag counter := by
    rw [htag, Nat.add_sub_cancel, List.drop_left' hlen]
  have htake : (x.toList ++ k.tag counter).take (n + 16 - 16) = x.toList := by
    rw [Nat.add_sub_cancel, List.take_left' hlen]
  exact (if_pos hdrop).trans (congrArg some (Subtype.ext htake))

/-! ## Engines over this library -/

/-- A new engine. -/
def newPlainEngine (key remote : Key32) : Engine PlainDevice PlainKeys :=
  { remote, peer := emptyPeer { own := key, remote } }

theorem create_plainLwip (env : Env) (key remote : Key32) (psk : Option Key32) :
    Engine.create plainLwip env ⟨key, key⟩ remote psk = .ok (newPlainEngine key remote) :=
  if_neg (not_not.mpr rfl)

/-- An engine in a session. -/
def plainEngine (localIndex remoteIndex : UInt32) : Engine PlainDevice PlainKeys :=
  { remote := Octets.zero 32
    peer := { emptyPeer { own := Octets.zero 32, remote := Octets.zero 32 } with
      currKeypair := { emptyKeypair with
        valid := true, initiator := true, receivingValid := true, keypairMillis := 1
        localIndex, remoteIndex } }
    established := true }

end Tailcat
