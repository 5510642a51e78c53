import Tailcat.Base.Machine
import Tailcat.Wireguard.Lwip

/-!
# The WireGuard engine

One peer relationship over the native library: it starts and answers handshakes, frames IP packets
as transport messages, and restores the IP packets of transport messages. An encrypted packet is
padded to a multiple of 16 octets, and the padding is cut off again by the length that the inner
IP header declares.

## Main definitions

* `innerIpLength`: the length that an IP header declares
* `Engine`, `Engine.create`, `Engine.initiate`, `Engine.handle`, `Engine.encrypt`
* `engineMachine`: the calls on one engine

## Main results

* `Engine.handle_handled`: what a received packet can do
* `Engine.encrypt_eq_ok`: when an IP packet can be encrypted, and what becomes of it
-/

namespace Tailcat

/-- A private key and a public key, which need not belong together. -/
structure NodeKeyPair where
  privateKey : Key32
  publicKey : Key32

/-! ## Octets of a transport header -/

/-- Four octets as a number, least significant first. -/
def loadU32Le (p : List UInt8) : UInt32 :=
  (p.getD 0 0).toUInt32 ||| (p.getD 1 0).toUInt32 <<< 8 ||| (p.getD 2 0).toUInt32 <<< 16 |||
    (p.getD 3 0).toUInt32 <<< 24

/-- Eight octets as a number, least significant first. -/
def loadU64Le (p : List UInt8) : UInt64 :=
  (List.range 8).foldl (fun value i => value ||| (p.getD i 0).toUInt64 <<< UInt64.ofNat (i * 8)) 0

/-- A number as four octets, least significant first. -/
def storeU32Le (value : UInt32) : List UInt8 :=
  (List.range 4).map fun i => (value >>> UInt32.ofNat (i * 8)).toUInt8

/-- A number as eight octets, least significant first. -/
def storeU64Le (value : UInt64) : List UInt8 :=
  (List.range 8).map fun i => (value >>> UInt64.ofNat (i * 8)).toUInt8

/-- The length that the header of an IP packet declares, when the header is complete and well
formed and the declared octets are there. Nothing is a keepalive. -/
def innerIpLength (padded : List UInt8) : Option ℕ :=
  if padded = [] then
    some 0
  else
    let version := padded.getD 0 0 >>> 4
    if version = 4 then
      if padded.length < 20 then
        none
      else
        let ihl := (padded.getD 0 0 &&& 0x0f).toNat * 4
        let total := (padded.getD 2 0).toNat <<< 8 ||| (padded.getD 3 0).toNat
        if ihl < 20 ∨ total < ihl ∨ total > padded.length then none else some total
    else if version = 6 then
      if padded.length < 40 then
        none
      else
        let payload := (padded.getD 4 0).toNat <<< 8 ||| (padded.getD 5 0).toNat
        let total := 40 + payload
        if total > padded.length then none else some total
    else
      none

/-! ## The engine -/

/-- What handling a packet gives: an answer, a plaintext, a session, or nothing. -/
structure WireGuardPacketResult where
  outbound : List UInt8 := []
  plaintextIp : Option (List UInt8) := none
  sessionEstablished : Bool := false
  deriving DecidableEq

/-- An engine for one remote node, over the native library. -/
structure Engine (H K : Type) where
  remote : Key32
  peer : Peer H K
  established : Bool := false
  deriving DecidableEq

/-- The error of `encrypt` when there is no usable keypair. -/
def notReady : Exn := .runtimeError "WireGuard session is not ready for transport data"

namespace Engine

variable {H K : Type} (W : WireguardLwip H K) (env : Env)

/-- The constructor of the engine. -/
def create (identity : NodeKeyPair) (remote : Key32) (psk : Option Key32) :
    Except Exn (Engine H K) :=
  match W.deviceInit env identity.privateKey with
  | none => .error (.runtimeError "failed to initialize native WireGuard device")
  | some device =>
    if W.publicKey device ≠ identity.publicKey then
      .error (.runtimeError "native WireGuard public key does not match Tailcat node key")
    else
      match W.peerAlloc device with
      | none => .error (.runtimeError "native WireGuard peer table is full")
      | some peer =>
        match W.peerInit env peer remote psk with
        | none => .error (.runtimeError "failed to initialize native WireGuard peer")
        | some peer => .ok { remote, peer }

/-- The engine after the library worked on its handshake. -/
def withRest (e : Engine H K) (rest : H) : Engine H K := { e with peer := { e.peer with rest } }

/-- A new handshake initiation. -/
def initiate (e : Engine H K) : Engine H K × Except Exn (List UInt8) :=
  let (rest, message) := W.createHandshakeInitiation env e.peer
  match message with
  | none => (e.withRest rest, .error (.runtimeError "failed to create WireGuard handshake initiation"))
  | some message => (e.withRest rest, .ok message.toList)

/-- The check of `mac1`, the 16 octets before the last 16, over what precedes it. -/
def checkMac1 (e : Engine H K) (message : List UInt8) : Bool :=
  W.checkMac1 e.peer.rest (message.take (message.length - 32))
    ((message.drop (message.length - 32)).take 16)

/-- `case MESSAGE_HANDSHAKE_INITIATION` -/
def handleInitiation (e : Engine H K) (packet : List UInt8) : Engine H K × WireGuardPacketResult :=
  if h : packet.length = 148 then
    let message := Octets.ofList packet h
    if ¬ e.checkMac1 W packet then
      (e, {})
    else
      let (rest, matched) := W.processInitiationMessage env e.peer message
      let e := e.withRest rest
      if ¬ matched then
        (e, {})
      else
        let (rest, response) := W.createHandshakeResponse env e.peer
        let e := e.withRest rest
        match response with
        | none => (e, {})
        | some response =>
          ({ e with peer := W.startSession env e.peer false, established := true },
            { outbound := response.toList, sessionEstablished := true })
  else
    (e, {})

/-- `case MESSAGE_HANDSHAKE_RESPONSE` -/
def handleResponse (e : Engine H K) (packet : List UInt8) : Engine H K × WireGuardPacketResult :=
  if h : packet.length = 92 then
    let message := Octets.ofList packet h
    if ¬ e.checkMac1 W packet then
      (e, {})
    else if ¬ W.peerLookupByHandshake e.peer (W.responseReceiver message) then
      (e, {})
    else
      let (rest, accepted) := W.processHandshakeResponse env e.peer message
      let e := e.withRest rest
      if ¬ accepted then
        (e, {})
      else
        ({ e with peer := W.startSession env e.peer true, established := true },
          { sessionEstablished := true })
  else
    (e, {})

/-- `case MESSAGE_COOKIE_REPLY` -/
def handleCookie (e : Engine H K) (packet : List UInt8) : Engine H K × WireGuardPacketResult :=
  if h : packet.length = 64 then
    let message := Octets.ofList packet h
    if W.peerLookupByHandshake e.peer (W.cookieReceiver message) then
      (e.withRest (W.processCookieMessage env e.peer message), {})
    else
      (e, {})
  else
    (e, {})

/-- The engine after a fresh packet was decrypted under a keypair. -/
def received (e : Engine H K) (slot : Slot) (keys : K) : Engine H K :=
  let now := env.sysNow 1
  let peer := e.peer.setKeypair { e.peer.keypair slot with keys, lastRx := now } slot
  let peer := { peer with lastRx := now }
  { e with peer := W.keypairUpdate peer slot, established := true }

/-- `case MESSAGE_TRANSPORT_DATA` -/
def handleTransport (e : Engine H K) (packet : List UInt8) : Engine H K × WireGuardPacketResult :=
  if packet.length < 16 + 16 then
    (e, {})
  else
    let receiver := loadU32Le (packet.drop 4)
    if ¬ W.peerLookupByReceiver e.peer receiver then
      (e, {})
    else
      match W.getPeerKeypairForIdx e.peer receiver with
      | none => (e, {})
      | some slot =>
        let keypair := e.peer.keypair slot
        -- The source compares the length with that of header and tag a second time further down.
        if ¬ keypair.receivingValid ∨
            W.expired (env.sysNow 0) keypair.keypairMillis W.rejectAfterTime then
          (e, {})
        else
          let counter := loadU64Le (packet.drop 8)
          match W.decryptPacket keypair.keys (Octets.ofList (packet.drop 16) rfl) counter with
          | none => (e, {})
          | some plaintext =>
            let (keys, fresh) := W.checkReplay keypair.keys counter
            if ¬ fresh then
              ({ e with peer := e.peer.setKeypair { keypair with keys } slot }, {})
            else
              (e.received W env slot keys,
                { plaintextIp := (innerIpLength plaintext.toList).map fun length =>
                    plaintext.toList.takeD length 0
                  sessionEstablished := true })

/-- Handle a packet, by the type of its message. -/
def handle (e : Engine H K) (packet : List UInt8) : Engine H K × WireGuardPacketResult :=
  if packet = [] then
    (e, {})
  else
    match W.getMessageType packet with
    | .handshakeInitiation => e.handleInitiation W env packet
    | .handshakeResponse => e.handleResponse W env packet
    | .cookieReply => e.handleCookie W env packet
    | .transportData => e.handleTransport W env packet
    | .invalid => (e, {})

/-- The keypair to encrypt with: a responder's that nothing was received under is not used yet. -/
def sendingSlot (e : Engine H K) : Slot :=
  let keypair := e.peer.currKeypair
  if keypair.valid ∧ ¬ keypair.initiator ∧ keypair.lastRx = 0 then .prev else .curr

/-- A packet with zeros up to a multiple of 16 octets. -/
def pad (packet : List UInt8) : List UInt8 :=
  packet.takeD ((packet.length + 15) / 16 * 16) 0

/-- A transport message, and the keypair after it was encrypted. -/
def transportMessage (keypair : Keypair K) (packet : List UInt8) : List UInt8 × Keypair K :=
  let header := W.messageTransportData :: 0 :: 0 :: 0 ::
    (storeU32Le keypair.remoteIndex ++ storeU64Le keypair.sendingCounter)
  let (ciphertext, sendingCounter) :=
    W.encryptPacket keypair.keys keypair.sendingCounter (Octets.ofList (pad packet) rfl)
  (header ++ ciphertext.toList, { keypair with sendingCounter })

/-- The engine after a packet was encrypted with the keypair of a slot. -/
def sent (e : Engine H K) (slot : Slot) (keypair : Keypair K) : Engine H K :=
  let now := env.sysNow 1
  let rekey : Bool := keypair.sendingCounter ≥ W.rekeyAfterMessages ∨
    (keypair.initiator ∧ W.expired (env.sysNow 2) keypair.keypairMillis W.rekeyAfterTime)
  let peer := e.peer.setKeypair { keypair with lastTx := now } slot
  { e with peer := { peer with lastTx := now, sendHandshake := peer.sendHandshake || rekey } }

/-- Encrypt a packet with the keypair to send with. -/
def encrypt (e : Engine H K) (packet : List UInt8) : Engine H K × Except Exn (List UInt8) :=
  let slot := e.sendingSlot
  let keypair := e.peer.keypair slot
  if ¬ keypair.valid ∨ W.expired (env.sysNow 0) keypair.keypairMillis W.rejectAfterTime ∨
      keypair.sendingCounter ≥ W.rejectAfterMessages then
    (e, .error notReady)
  else if packet.length > 2 ^ 64 - 1 - 15 then
    (e, .error (.lengthError "WireGuard plaintext is too large"))
  else if (packet.length + 15) / 16 * 16 > 2 ^ 64 - 1 - 32 then
    (e, .error (.lengthError "WireGuard packet is too large"))
  else
    let (message, keypair) := transportMessage W keypair packet
    (e.sent W env slot keypair, .ok message)

theorem remote_of_create {W : WireguardLwip H K} {env : Env} {identity : NodeKeyPair}
    {remote : Key32} {psk : Option Key32} {e : Engine H K}
    (h : create W env identity remote psk = .ok e) : e.remote = remote := by
  unfold create at h
  split at h
  · cases h
  split at h
  · cases h
  split at h
  · cases h
  split at h
  · cases h
  · obtain rfl := Except.ok.inj h
    rfl

/-! ## What a received packet does -/

/-- What handling a packet can do to an engine, and what it returns. -/
inductive Handled (e : Engine H K) (packet : List UInt8) :
    Engine H K → WireGuardPacketResult → Prop
  /-- The packet changes nothing but the handshake. -/
  | ignored (rest : H) : Handled e packet (e.withRest rest) {}
  /-- The packet starts a handshake, and is answered. -/
  | answered (rest : H) (response : Octets 92)
      (type : W.getMessageType packet = .handshakeInitiation) :
      Handled e packet
        { e with peer := W.startSession env (e.withRest rest).peer false, established := true }
        { outbound := response.toList, sessionEstablished := true }
  /-- The packet completes a handshake that this side started. -/
  | completed (rest : H) (type : W.getMessageType packet = .handshakeResponse) :
      Handled e packet
        { e with peer := W.startSession env (e.withRest rest).peer true, established := true }
        { sessionEstablished := true }
  /-- The packet decrypts, but its counter is used up. -/
  | replayed (slot : Slot) (keys : K)
      (replay : W.checkReplay (e.peer.keypair slot).keys (loadU64Le (packet.drop 8)) =
        (keys, false)) :
      Handled e packet
        { e with peer := e.peer.setKeypair { e.peer.keypair slot with keys } slot } {}
  /-- The packet decrypts, and its counter is fresh. -/
  | received (slot : Slot) (keys : K) (plaintext : Octets ((packet.drop 16).length - 16))
      (type : W.getMessageType packet = .transportData)
      (index : W.getPeerKeypairForIdx e.peer (loadU32Le (packet.drop 4)) = some slot)
      (decrypts : W.decryptPacket (e.peer.keypair slot).keys (Octets.ofList (packet.drop 16) rfl)
        (loadU64Le (packet.drop 8)) = some plaintext)
      (replay : W.checkReplay (e.peer.keypair slot).keys (loadU64Le (packet.drop 8)) =
        (keys, true)) :
      Handled e packet (e.received W env slot keys)
        { plaintextIp := (innerIpLength plaintext.toList).map fun length =>
            plaintext.toList.takeD length 0
          sessionEstablished := true }

variable {W env} {e : Engine H K} {packet : List UInt8}

/-- A packet that is dropped before anything looks into it. -/
theorem Handled.unchanged : Handled W env e packet e {} := .ignored e.peer.rest

theorem Handled.remote_eq {e' : Engine H K} {result : WireGuardPacketResult}
    (h : Handled W env e packet e' result) : e'.remote = e.remote := by
  cases h <;> rfl

theorem handleInitiation_handled (type : W.getMessageType packet = .handshakeInitiation) :
    Handled W env e packet (e.handleInitiation W env packet).1
      (e.handleInitiation W env packet).2 := by
  unfold handleInitiation
  split
  · dsimp only
    split
    · exact .unchanged
    split
    · exact .ignored _
    split
    · exact .ignored _
    · rename_i response _
      exact .answered _ response type
  · exact .unchanged

theorem handleResponse_handled (type : W.getMessageType packet = .handshakeResponse) :
    Handled W env e packet (e.handleResponse W env packet).1
      (e.handleResponse W env packet).2 := by
  unfold handleResponse
  split
  · dsimp only
    split
    · exact .unchanged
    split
    · exact .unchanged
    split
    · exact .ignored _
    · exact .completed _ type
  · exact .unchanged

theorem handleCookie_handled :
    Handled W env e packet (e.handleCookie W env packet).1 (e.handleCookie W env packet).2 := by
  unfold handleCookie
  split
  · dsimp only
    split
    · exact .ignored _
    · exact .unchanged
  · exact .unchanged

theorem handleTransport_handled (type : W.getMessageType packet = .transportData) :
    Handled W env e packet (e.handleTransport W env packet).1
      (e.handleTransport W env packet).2 := by
  unfold handleTransport
  split
  · exact .unchanged
  dsimp only
  split
  · exact .unchanged
  split
  · exact .unchanged
  · rename_i slot index
    split
    · exact .unchanged
    split
    · exact .unchanged
    · rename_i plaintext decrypts
      split
      · rename_i fresh
        exact .replayed slot _ (Prod.ext rfl (by simpa using fresh))
      · rename_i fresh
        exact .received slot _ plaintext type index decrypts (Prod.ext rfl (by simpa using fresh))

/-- **What a received packet can do.** -/
theorem handle_handled (W : WireguardLwip H K) (env : Env) (e : Engine H K) (packet : List UInt8) :
    Handled W env e packet (e.handle W env packet).1 (e.handle W env packet).2 := by
  unfold handle
  split
  · exact .unchanged
  split
  · exact handleInitiation_handled ‹_›
  · exact handleResponse_handled ‹_›
  · exact handleCookie_handled
  · exact handleTransport_handled ‹_›
  · exact .unchanged

/-! ## Encrypting -/

/-- The longest packet whose transport message the length checks let through. -/
def maxPlaintext : ℕ := 2 ^ 64 - 48

/-- The keypair to send with is valid, not expired at the time `now` and not used up. -/
def Ready (W : WireguardLwip H K) (now : UInt32) (e : Engine H K) : Prop :=
  (e.peer.keypair e.sendingSlot).valid = true ∧
    W.expired now (e.peer.keypair e.sendingSlot).keypairMillis W.rejectAfterTime = false ∧
    (e.peer.keypair e.sendingSlot).sendingCounter < W.rejectAfterMessages

instance (W : WireguardLwip H K) (now : UInt32) (e : Engine H K) : Decidable (e.Ready W now) :=
  inferInstanceAs (Decidable (_ ∧ _ ∧ _))

theorem encrypt_of_not_ready (h : ¬ e.Ready W (env.sysNow 0)) :
    e.encrypt W env packet = (e, .error notReady) := by
  refine if_pos ?_
  by_contra hc
  rw [not_or, not_or, not_not, Bool.not_eq_true, ge_iff_le, UInt64.not_le] at hc
  exact h hc

/-- What a ready engine does with a packet that fits a message. -/
theorem encrypt_of_ready (h : e.Ready W (env.sysNow 0)) (hl : packet.length ≤ maxPlaintext) :
    e.encrypt W env packet =
      (e.sent W env e.sendingSlot
        (transportMessage W (e.peer.keypair e.sendingSlot) packet).2,
        .ok (transportMessage W (e.peer.keypair e.sendingSlot) packet).1) := by
  obtain ⟨hv, he, hc⟩ := h
  unfold maxPlaintext at hl
  unfold encrypt
  rw [if_neg, if_neg (by omega), if_neg (by omega)]
  simp [hv, he, hc]

/-- A packet that does not fit a message leaves the engine as it is. -/
theorem encrypt_of_too_long (h : e.Ready W (env.sysNow 0)) (hl : ¬ packet.length ≤ maxPlaintext) :
    ∃ x, x ≠ notReady ∧ e.encrypt W env packet = (e, .error x) := by
  obtain ⟨hv, he, hc⟩ := h
  unfold maxPlaintext at hl
  unfold encrypt
  rw [if_neg (by simp [hv, he, hc])]
  split
  · exact ⟨_, by simp [notReady], rfl⟩
  · rw [if_pos (by omega)]
    exact ⟨_, by simp [notReady], rfl⟩

theorem encrypt_eq_ok {e' : Engine H K} {message : List UInt8} :
    e.encrypt W env packet = (e', .ok message) ↔
      e.Ready W (env.sysNow 0) ∧ packet.length ≤ maxPlaintext ∧
        e' = e.sent W env e.sendingSlot
          (transportMessage W (e.peer.keypair e.sendingSlot) packet).2 ∧
        message = (transportMessage W (e.peer.keypair e.sendingSlot) packet).1 := by
  by_cases hr : e.Ready W (env.sysNow 0)
  · by_cases hl : packet.length ≤ maxPlaintext
    · rw [encrypt_of_ready hr hl]
      simp [hr, hl, eq_comm]
    · obtain ⟨x, -, hx⟩ := encrypt_of_too_long hr hl
      rw [hx]
      simp [hl]
  · rw [encrypt_of_not_ready hr]
    simp [hr]

/-- A call that throws leaves the engine as it is. -/
theorem eq_of_encrypt_eq_error {e' : Engine H K} {x : Exn}
    (h : e.encrypt W env packet = (e', .error x)) : e' = e := by
  by_cases hr : e.Ready W (env.sysNow 0)
  · by_cases hl : packet.length ≤ maxPlaintext
    · rw [encrypt_of_ready hr hl] at h
      cases h
    · obtain ⟨y, -, hy⟩ := encrypt_of_too_long hr hl
      rw [hy] at h
      exact (Prod.mk.inj h).1.symm
  · rw [encrypt_of_not_ready hr] at h
    exact (Prod.mk.inj h).1.symm

theorem encrypt_eq_notReady : (e.encrypt W env packet).2 = .error notReady ↔
    ¬ e.Ready W (env.sysNow 0) := by
  by_cases hr : e.Ready W (env.sysNow 0)
  · refine iff_of_false ?_ (not_not.mpr hr)
    by_cases hl : packet.length ≤ maxPlaintext
    · simp [encrypt_of_ready hr hl]
    · obtain ⟨x, hx, he⟩ := encrypt_of_too_long hr hl
      simpa [he] using hx
  · rw [encrypt_of_not_ready hr]
    simp [hr]

end Engine

/-! ## Runs of an engine -/

/-- A call on an engine, with what it reads of clock and random source. -/
inductive EngineEvent
  | initiate (env : Env)
  | handle (env : Env) (packet : List UInt8)
  | encrypt (env : Env) (packet : List UInt8)

/-- What a call returned. -/
inductive EngineOutput
  | initiated (message : Except Exn (List UInt8))
  | handled (packet : List UInt8) (result : WireGuardPacketResult)
  | encrypted (packet : List UInt8) (message : Except Exn (List UInt8))

/-- The calls on an engine, from the state `e`. -/
def engineMachine {H K : Type} (W : WireguardLwip H K) (e : Engine H K) :
    Machine (Engine H K) EngineEvent EngineOutput where
  init := e
  step e
    | .initiate env =>
      let (e, message) := e.initiate W env
      some (e, [.initiated message])
    | .handle env packet =>
      let (e, result) := e.handle W env packet
      some (e, [.handled packet result])
    | .encrypt env packet =>
      let (e, message) := e.encrypt W env packet
      some (e, [.encrypted packet message])

theorem engineMachine_handle {H K : Type} (W : WireguardLwip H K) (e₀ e : Engine H K) (env : Env)
    (packet : List UInt8) : (engineMachine W e₀).step e (.handle env packet) =
      some ((e.handle W env packet).1, [.handled packet (e.handle W env packet).2]) := rfl

theorem engineMachine_initiate {H K : Type} (W : WireguardLwip H K) (e₀ e : Engine H K)
    (env : Env) : (engineMachine W e₀).step e (.initiate env) =
      some ((e.initiate W env).1, [.initiated (e.initiate W env).2]) := rfl

theorem engineMachine_encrypt {H K : Type} (W : WireguardLwip H K) (e₀ e : Engine H K) (env : Env)
    (packet : List UInt8) : (engineMachine W e₀).step e (.encrypt env packet) =
      some ((e.encrypt W env packet).1, [.encrypted packet (e.encrypt W env packet).2]) := rfl

/-- An engine stays with its remote peer. -/
theorem remote_engineMachine {H K : Type} {W : WireguardLwip H K} {e₀ e e' : Engine H K}
    {event : EngineEvent} {os : List EngineOutput}
    (h : (engineMachine W e₀).step e event = some (e', os)) : e'.remote = e.remote := by
  cases event with
  | initiate env =>
    rw [engineMachine_initiate] at h
    rw [← (Prod.mk.inj (Option.some.inj h)).1]
    unfold Engine.initiate
    dsimp only
    split <;> rfl
  | handle env packet =>
    rw [engineMachine_handle] at h
    rw [← (Prod.mk.inj (Option.some.inj h)).1]
    exact (Engine.handle_handled W env e packet).remote_eq
  | encrypt env packet =>
    rw [engineMachine_encrypt] at h
    rw [← (Prod.mk.inj (Option.some.inj h)).1]
    obtain ⟨⟨e', message⟩, he⟩ : ∃ r, e.encrypt W env packet = r := ⟨_, rfl⟩
    rw [he]
    -- The engine is as before if it does not encrypt.
    cases message with
    | error x => rw [Engine.eq_of_encrypt_eq_error he]
    | ok message =>
      obtain ⟨-, -, rfl, -⟩ := Engine.encrypt_eq_ok.mp he
      rfl

end Tailcat
