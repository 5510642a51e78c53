import Tailcat.Server.Policy
import Tailcat.Wireguard.InnerPackets

/-!
# The loop of a server

A server waits for a frame, handles it and waits again, until a call throws. What a client sends
reaches the handler with the key of the client in front and nothing else that the relay vouches for,
so the loop must survive every packet. It does, except where a client announces itself for whose key
the native library makes no peer: the constructor of the engine throws, and nothing catches it.

## Main definitions

* `inputIp`: what the stack does with a packet it is handed
* `Server.pumpFor`: waiting for one frame and handling it
* `serveMachine`: the loop, and the packets that leave the stack
* `Server.Unmakeable`: an announcement of a node that the library makes no peer for

## Main results

* `handleFrame_returns_iff`: on which packets of clients the handler returns
* `serve_continues_iff`: which runs leave the loop running
-/

namespace Tailcat

/-! ## The loop -/

/-- What becomes of the buffer that a packet is copied into. -/
inductive Pbuf
  | taken
  | notAllocated
  | notTaken
  deriving DecidableEq

/-- `LwipStack::input_ip`. What the stack does afterwards throws nothing: its output callback, which
is `send_ip`, catches all exceptions. -/
def inputIp (pbuf : Pbuf) (packet : List UInt8) : Except Exn Unit :=
  if packet = [] ∨ packet.getD 0 0 >>> 4 ≠ 6 then
    .ok ()
  else if packet.length > 2 ^ 16 - 1 then
    .error (.lengthError "IPv6 packet exceeds lwIP pbuf size")
  else
    match pbuf with
    | .notAllocated => .error (.runtimeError "pbuf_alloc failed")
    | .notTaken => .error (.runtimeError "pbuf_take failed")
    | .taken => .ok ()

/-- The packet that the stack is handed. -/
def ServerOutput.injected : ServerOutput → Option (List UInt8)
  | .inputIp _ packet => some packet
  | _ => none

namespace Server

variable {H K : Type} (W : WireguardLwip H K) (cfg : ServerConfig) (env : Env)
  (transport : DerpTransport)

/-- `handle_frame` over the stack. Which packet the stack is handed does not depend on what it does
with it. -/
def handleFrameOn (pbuf : Pbuf) (s : Server H K) (frame : DerpFrame) :
    Server H K × List ServerOutput × Except Exn Bool :=
  let handed := (s.handleFrame W cfg env transport (.ok ()) frame).2.1.filterMap
    ServerOutput.injected
  s.handleFrame W cfg env transport (handed.forM (inputIp pbuf)) frame

/-- `pump_for`; the packets that leave the stack in its `poll()` are calls of their own. -/
def pumpFor (timeout : ℤ) (pbuf : Pbuf) (s : Server H K) :
    Server H K × List ServerOutput × Except Exn Bool :=
  if timeout < 0 then
    (s, [], .error (.invalidArgument "negative Tailcat pump timeout"))
  else
    match transport.receiveFor with
    | .error x => (s, [], .error x)
    | .ok none => (s, [], .ok false)
    | .ok (some frame) => s.handleFrameOn W cfg env transport pbuf frame

end Server

/-- A server, and the exception that its loop ended with. -/
structure Serving (H K : Type) where
  server : Server H K := .empty
  thrown : Option Exn := none

/-- One round of the loop, or a packet that leaves the stack, whose exceptions are caught. -/
inductive ServeEvent
  | pump (env : Env) (transport : DerpTransport) (pbuf : Pbuf)
  | output (env : Env) (transport : DerpTransport) (packet : List UInt8)

/-- `for (;;) { (void)data.pump_for(10ms); … }` -/
def serveMachine {H K : Type} (W : WireguardLwip H K) (cfg : ServerConfig) :
    Machine (Serving H K) ServeEvent ServerOutput where
  init := {}
  step st e :=
    match st.thrown with
    | some _ => none
    | none =>
      match e with
      | .pump env transport pbuf =>
        let (server, os, result) := st.server.pumpFor W cfg env transport 10 pbuf
        match result with
        | .error x => some ({ server, thrown := some x }, os)
        | .ok _ => some ({ server }, os)
      | .output env transport packet =>
        let (server, os, _) := st.server.sendIp W env transport packet
        some ({ server }, os)

/-! ## What is handed to the stack -/

section Serve

variable {H K : Type} {W : WireguardLwip H K} {cfg : ServerConfig} {env : Env}
  {transport : DerpTransport} {s : Server H K}

/-- A packet that fits the length field of a buffer is taken in. -/
theorem inputIp_taken {packet : List UInt8} (h : packet.length ≤ 2 ^ 16 - 1) :
    inputIp .taken packet = .ok () := by
  unfold inputIp
  rw [if_neg (not_lt.mpr h)]
  split <;> rfl

theorem forM_inputIp {packets : List (List UInt8)} (h : ∀ p ∈ packets, p.length ≤ 2 ^ 16 - 1) :
    packets.forM (inputIp .taken) = .ok () := by
  induction packets with
  | nil => rfl
  | cons p packets ih =>
    change (inputIp .taken p >>= fun _ => packets.forM (inputIp .taken)) = _
    rw [inputIp_taken (h p (by simp))]
    exact ih fun q hq => h q (by simp [hq])

/-- What the stack is handed came in one frame. -/
theorem length_inputIp_le {stack : Except Exn Unit} {frame : DerpFrame} {source : Key32}
    {plaintext : List UInt8}
    (h : .inputIp source plaintext ∈ (s.handleFrame W cfg env transport stack frame).2.1) :
    plaintext.length ≤ 65504 := by
  have hf := Server.handleFrame_handled W cfg env transport stack s frame
  generalize s.handleFrame W cfg env transport stack frame = r at h hf
  obtain ⟨s', os, result⟩ := r
  dsimp only at h hf
  cases hf with
  | ignored => cases h
  | pong value result => cases List.mem_singleton.mp h
  | malformed => cases h
  | refused source' disco x lookup new => cases h
  | announced type source' packet' node disco parsed ping allowed _ added result =>
    cases List.mem_singleton.mp h
  | received type source' packet' peer parsed other lookup =>
    rcases Server.mem_deliver h with ⟨-, he⟩ | ⟨p, hplain, he⟩
    · cases he
    · cases he
      exact Engine.length_plaintextIp_le_of_parse parsed hplain

/-- What the stack is handed is taken in. -/
theorem handleFrameOn_taken {frame : DerpFrame} :
    s.handleFrameOn W cfg env transport .taken frame =
      s.handleFrame W cfg env transport (.ok ()) frame := by
  unfold Server.handleFrameOn
  dsimp only
  rw [forM_inputIp]
  intro plaintext hmem
  obtain ⟨o, ho, hi⟩ := List.mem_filterMap.mp hmem
  cases o with
  | send sent => cases hi
  | inputIp source packet =>
    cases hi
    exact (length_inputIp_le ho).trans (by decide)
  | returned result => cases hi

/-! ## When the handler returns -/

/-- The library makes no peer for a node. -/
def WireguardLwip.Unmakeable (W : WireguardLwip H K) (cfg : ServerConfig) (env : Env)
    (node : Key32) : Prop :=
  ∀ device p, W.deviceInit env cfg.identity.privateKey = some device →
    W.publicKey device = cfg.identity.publicKey → W.peerAlloc device = some p →
    W.peerInit env p node cfg.psk = none

/-- The constructor of an engine throws just where the library makes no peer. -/
theorem create_returns_iff {node : Key32} :
    (∃ e, Engine.create W env cfg.identity node cfg.psk = .ok e) ↔ ¬ W.Unmakeable cfg env node := by
  unfold Engine.create WireguardLwip.Unmakeable
  cases hd : W.deviceInit env cfg.identity.privateKey with
  | none => simp
  | some device =>
    by_cases hk : W.publicKey device = cfg.identity.publicKey
    · cases ha : W.peerAlloc device with
      | none => simp [hk, ha]
      | some p =>
        cases hi : W.peerInit env p node cfg.psk with
        | none => simp [hk, ha, hi]
        | some peer => simp [hk, ha, hi]
    · simp [hk]

/-- A node announces itself that is allowed and not registered, and that the library makes no peer
for. -/
structure Server.Unmakeable (W : WireguardLwip H K) (cfg : ServerConfig) (env : Env)
    (s : Server H K) (source : Key32) (packet : List UInt8) : Prop where
  ping : ∃ announced, parseMeowPing packet = some announced
  allowed : cfg.Allows source
  new : source ∉ s.peers
  unmakeable : W.Unmakeable cfg env source

variable (W cfg env s) in
/-- Registering a node throws just where its engine cannot be made. -/
theorem addPeer_returns_iff (node disco : Key32) :
    (s.addPeer W cfg env node disco).2 = .ok () ↔
      ¬ (node ∉ s.peers ∧ W.Unmakeable cfg env node) := by
  unfold Server.addPeer
  cases hl : s.peers.lookup node with
  | some existing =>
    exact iff_of_true rfl fun h => h.1 (Finmap.mem_of_lookup_eq_some hl)
  | none =>
    have hnew : node ∉ s.peers := Finmap.lookup_eq_none.mp hl
    rw [not_and, ← create_returns_iff (W := W)]
    unfold Server.newPeer
    cases hc : Engine.create W env cfg.identity node cfg.psk with
    | error x => simp [Except.map, hnew]
    | ok e => simp [Except.map]

/-- A result of the engine is delivered when sending and the stack throw nothing. -/
theorem deliver_returns (hsend : ∀ sent, transport.send sent = .ok ()) (source : Key32)
    (result : WireGuardPacketResult) :
    (Server.deliver transport (.ok ()) source result).2 = .ok true := by
  unfold Server.deliver
  dsimp only
  split_ifs
  · rw [hsend]
    cases result.plaintextIp <;> rfl
  · cases result.plaintextIp <;> rfl

/-- **When the handler returns**: on every packet of a client, unless it announces a node that no
peer can be made for. -/
theorem handleFrame_returns_iff (hsend : ∀ sent, transport.send sent = .ok ()) {source : Key32}
    {packet : List UInt8} (hp : packet.length ≤ kDerpMaxPacket) :
    (∃ b, (s.handleFrameOn W cfg env transport .taken
      ⟨.recvPacket, source.toList ++ packet⟩).2.2 = .ok b) ↔
      ¬ s.Unmakeable W cfg env source packet := by
  rw [handleFrameOn_taken]
  unfold Server.handleFrame
  rw [if_neg (by decide : ¬ DerpFrameType.recvPacket = .ping), if_neg (not_not.mpr rfl),
    parseDerpRecvPacket_append, if_pos hp]
  dsimp only
  split
  · -- An answer is no announcement.
    rename_i hmeowed
    refine iff_of_true ⟨true, rfl⟩ fun h => ?_
    obtain ⟨announced, hping⟩ := h.ping
    rw [(isMeowedPacket_of_parse hping).2] at hmeowed
    cases hmeowed
  split
  · cases hping : parseMeowPing packet with
    | none =>
      refine iff_of_true ⟨true, rfl⟩ fun h => ?_
      obtain ⟨announced, hsome⟩ := h.ping
      rw [hping] at hsome
      cases hsome
    | some announced =>
      obtain ⟨node, disco⟩ := announced
      dsimp only
      split
      · rename_i hallowed
        exact iff_of_true ⟨true, rfl⟩ fun h => hallowed h.allowed
      · rename_i hallowed
        have hallowed := not_not.mp hallowed
        have hadd := addPeer_returns_iff W cfg env s source disco
        obtain ⟨⟨s', added⟩, hr⟩ : ∃ r, s.addPeer W cfg env source disco = r := ⟨_, rfl⟩
        rw [hr] at hadd ⊢
        cases added with
        | error x =>
          refine iff_of_false (fun ⟨b, hb⟩ => by cases hb) (not_not.mpr ?_)
          by_contra hc
          have hfalse := hadd.mpr fun h => hc ⟨⟨_, hping⟩, hallowed, h.1, h.2⟩
          cases hfalse
        | ok _ =>
          refine iff_of_true ⟨true, ?_⟩ fun h => hadd.mp rfl ⟨h.new, h.unmakeable⟩
          dsimp only
          rw [hsend]
          rfl
  · rename_i hmeow
    refine iff_of_true ?_ fun h => ?_
    · split
      · exact ⟨true, rfl⟩
      · exact ⟨true, deliver_returns hsend _ _⟩
    · obtain ⟨announced, hping⟩ := h.ping
      exact hmeow (isMeowedPacket_of_parse hping).1

/-! ## Runs of the loop -/

/-- What arrives is a packet of a client, another frame or nothing, and neither the transport nor
the allocator fails. -/
def ServeEvent.PeerTraffic : ServeEvent → Prop
  | .pump _ transport pbuf => pbuf = .taken ∧ (∀ sent, transport.send sent = .ok ()) ∧
      (transport.receiveFor = .ok none ∨
        (∃ type payload, type ≠ .recvPacket ∧ transport.receiveFor = .ok (some ⟨type, payload⟩)) ∨
        ∃ (source : Key32) (packet : List UInt8), packet.length ≤ kDerpMaxPacket ∧
          transport.receiveFor = .ok (some ⟨.recvPacket, source.toList ++ packet⟩))
  | .output .. => True

/-- What arrives announces no node that no peer can be made for. -/
def ServeEvent.Contained (W : WireguardLwip H K) (cfg : ServerConfig) (st : Serving H K) :
    ServeEvent → Prop
  | .pump env transport _ => ∀ (source : Key32) (packet : List UInt8),
      transport.receiveFor = .ok (some ⟨.recvPacket, source.toList ++ packet⟩) →
        ¬ st.server.Unmakeable W cfg env source packet
  | .output .. => True

/-- The other frames are answered or ignored. -/
theorem handleFrame_other (hsend : ∀ sent, transport.send sent = .ok ()) {stack : Except Exn Unit}
    {frame : DerpFrame} (h : frame.type ≠ .recvPacket) :
    (s.handleFrame W cfg env transport stack frame).2.2 = .ok true := by
  unfold Server.handleFrame
  split
  · split
    · dsimp only
      rw [hsend]
      rfl
    · rfl
  · rfl

variable (W cfg) in
/-- One round returns just if what arrives is contained. -/
theorem pumpFor_returns_iff (st : Serving H K) {pbuf : Pbuf}
    (h : (ServeEvent.pump env transport pbuf).PeerTraffic) :
    (∃ b, (st.server.pumpFor W cfg env transport 10 pbuf).2.2 = .ok b) ↔
      (ServeEvent.pump env transport pbuf).Contained W cfg st := by
  obtain ⟨rfl, hsend, hreceive⟩ := h
  unfold Server.pumpFor
  rw [if_neg (by decide)]
  rcases hreceive with hr | ⟨type, payload, htype, hr⟩ | ⟨source, packet, hlong, hr⟩
  · rw [hr]
    refine iff_of_true ⟨false, rfl⟩ fun source packet h => ?_
    rw [hr] at h
    cases h
  · rw [hr]
    refine iff_of_true ⟨true, handleFrame_other hsend htype⟩ fun source packet h => ?_
    rw [hr] at h
    cases h
    exact absurd rfl htype
  · rw [hr]
    dsimp only
    rw [handleFrame_returns_iff hsend hlong]
    constructor
    · intro hc source' packet' h
      -- The key and the packet of a payload are determined by it.
      rw [hr] at h
      have heq := congrArg DerpFrame.payload (Option.some.inj (Except.ok.inj h))
      obtain ⟨hsource, rfl⟩ := List.append_inj heq (by simp)
      obtain rfl : source = source' := Subtype.ext hsource
      exact hc
    · intro hc
      exact hc source packet hr

/-- **Which runs leave the loop running**: those in which nobody announces a node that no peer can
be made for. In a state that is reached this is decided packet by packet. -/
theorem serve_continues_iff {es : List ServeEvent} {st : Serving H K} {os : List ServerOutput}
    (hr : (serveMachine W cfg).Runs es st os) (hes : ∀ e ∈ es, e.PeerTraffic) :
    (st.thrown = none ↔ (serveMachine W cfg).Meets (ServeEvent.Contained W cfg) es) ∧
    ∀ env transport (source : Key32) (packet : List UInt8), packet.length ≤ kDerpMaxPacket →
      (∀ sent, transport.send sent = .ok ()) →
      ((∃ b, (st.server.handleFrameOn W cfg env transport .taken
          ⟨.recvPacket, source.toList ++ packet⟩).2.2 = .ok b) ↔
        ¬ st.server.Unmakeable W cfg env source packet) := by
  refine ⟨?_, fun env transport source packet hp hsend => handleFrame_returns_iff hsend hp⟩
  refine hr.iff_meets_of (P := fun st _ => st.thrown = none) rfl ?_ hes
  intro es st os e st' os' hr _ hT hs
  -- Only a loop that is running takes a step.
  obtain ⟨server, thrown⟩ := st
  cases thrown with
  | some x => cases hs
  | none =>
    cases e with
    | output env transport packet =>
      obtain ⟨rfl, -⟩ := Prod.mk.inj (Option.some.inj hs)
      exact iff_of_true rfl ⟨rfl, trivial⟩
    | pump env transport pbuf =>
      have hpump := pumpFor_returns_iff W cfg ⟨server, none⟩ hT
      rw [← hpump]
      unfold serveMachine at hs
      dsimp only at hs hpump ⊢
      obtain ⟨⟨server', os₁, result⟩, hp⟩ :
          ∃ r, server.pumpFor W cfg env transport 10 pbuf = r := ⟨_, rfl⟩
      rw [hp] at hs ⊢
      cases result with
      | error x =>
        obtain ⟨rfl, -⟩ := Prod.mk.inj (Option.some.inj hs)
        simp
      | ok b =>
        obtain ⟨rfl, -⟩ := Prod.mk.inj (Option.some.inj hs)
        simp

end Serve

/-- The library over which the public keys of small order are refused, of which the zero key is
one: with every private key, its shared secret is zero. -/
def refusingLwip : WireguardLwip PlainDevice PlainKeys :=
  { plainLwip with
    peerInit := fun env p key psk => if key.allZero then none else plainLwip.peerInit env p key psk }

/-- **The zero key** announces itself to a server without an allow list, and the loop ends. -/
theorem serve_zero_key :
    let cfg : ServerConfig := { identity := ⟨Octets.zero 32, Octets.zero 32⟩, psk := none, allow := none }
    let zero := Octets.zero 32
    let frame := pingFrame zero zero (List.replicate 32 1)
    let event := ServeEvent.pump ⟨fun _ => 0, fun _ => 7⟩ (.of frame) .taken
    event.PeerTraffic ∧ ∃ st os, (serveMachine refusingLwip cfg).Runs [event] st os ∧
      st.thrown = some (.runtimeError "failed to initialize native WireGuard peer") := by
  intro cfg zero frame event
  refine ⟨⟨rfl, fun _ => rfl, .inr (.inr ⟨zero, _, by decide +kernel, rfl⟩)⟩, ?_⟩
  obtain ⟨⟨st, os⟩, hs⟩ : ∃ r, (serveMachine refusingLwip cfg).step {} event = some r := by
    exact Option.isSome_iff_exists.mp (by decide +kernel)
  refine ⟨st, os, Machine.Runs.nil.snoc hs, ?_⟩
  have ht : ((serveMachine refusingLwip cfg).step {} event).map (fun r => r.1.thrown) =
      some (some (.runtimeError "failed to initialize native WireGuard peer")) := by
    decide +kernel
  rw [hs] at ht
  exact Option.some.inj ht

/-- A server that has accepted a client. What the client sends next is handled as well, and the zero
key would end the loop. -/
theorem serve_continues_iff_example :
    let cfg : ServerConfig :=
      { identity := ⟨Octets.zero 32, Octets.zero 32⟩, psk := none, allow := none }
    let env : Env := ⟨fun _ => 0, fun _ => 7⟩
    let client : Key32 := List.Vector.replicate 32 1
    let ping := meow ++ [0x01] ++ client.toList ++ client.toList
    let frame : DerpFrame := ⟨.recvPacket, client.toList ++ ping⟩
    ∃ st os, (serveMachine refusingLwip cfg).Runs [.pump env (.of frame) .taken] st os ∧
      client ∈ st.server.peers ∧
      (serveMachine refusingLwip cfg).Meets (ServeEvent.Contained refusingLwip cfg)
        [.pump env (.of frame) .taken] ∧
      (∃ b, (st.server.handleFrameOn refusingLwip cfg env (.of frame) .taken frame).2.2 = .ok b) ∧
      ¬ ∃ b, (st.server.handleFrameOn refusingLwip cfg env (.of frame) .taken
        ⟨.recvPacket, (Octets.zero 32).toList ++ ping⟩).2.2 = .ok b := by
  intro cfg env client ping frame
  obtain ⟨⟨st, os⟩, hs⟩ : ∃ r,
      (serveMachine refusingLwip cfg).step {} (.pump env (.of frame) .taken) = some r :=
    Option.isSome_iff_exists.mp (by decide +kernel)
  have hreached : ((serveMachine refusingLwip cfg).step {} (.pump env (.of frame) .taken)).map
      (fun r => (r.1.thrown, decide (client ∈ r.1.server.peers),
        decide (Octets.zero 32 ∈ r.1.server.peers))) = some (none, true, false) := by
    decide +kernel
  rw [hs] at hreached
  obtain ⟨hthrown, hreached⟩ := Prod.mk.inj (Option.some.inj hreached)
  obtain ⟨hclient, hzero⟩ := Prod.mk.inj hreached
  have hclient := of_decide_eq_true hclient
  have hr := Machine.Runs.nil.snoc hs
  have htraffic : ∀ e ∈ [] ++ [ServeEvent.pump env (.of frame) .taken], e.PeerTraffic := by
    intro e he
    obtain rfl := List.mem_singleton.mp he
    exact ⟨rfl, fun _ => rfl, .inr (.inr ⟨client, ping, by decide +kernel, rfl⟩)⟩
  obtain ⟨hcontinues, hpacket⟩ := serve_continues_iff hr htraffic
  have hping : ∃ announced, parseMeowPing ping = some announced :=
    Option.isSome_iff_exists.mp (by decide +kernel)
  refine ⟨st, os, hr, hclient, hcontinues.mp hthrown, ?_, ?_⟩
  · refine (hpacket env (.of frame) client ping (by decide +kernel) fun _ => rfl).mpr fun h => ?_
    exact h.new hclient
  · refine (hpacket env (.of frame) (Octets.zero 32) ping (by decide +kernel) fun _ => rfl).not.mpr
      (not_not.mpr ⟨hping, nofun, of_decide_eq_false hzero, fun device p _ _ _ => ?_⟩)
    change (if (Octets.zero 32).allZero = true then none
      else plainLwip.peerInit env p (Octets.zero 32) cfg.psk) = none
    exact if_pos (by decide)

end Tailcat
