import Mathlib.Data.Finmap
import Tailcat.Derp.Transport
import Tailcat.Protocol.Meow
import Tailcat.Wireguard.Session

/-!
# The data plane of a server

One relay connection and one IP stack serve all clients. A client that announces itself is
registered under the node key of its frames, with an engine of its own; its synthetic address starts
with a fixed prefix and ends with the first ten octets of its key. Packets that its engine decrypts
enter the stack, and packets that leave the stack go to the peer that their destination address is
registered for.

## Main definitions

* `tailcatIpForNode`: the synthetic address of a node
* `Server`, `addPeer`, `sendIp`, `handleFrame`
* `serverMachine`: frames, and packets that leave the stack, in any order

## Main results

* `handleFrame_handled`, `sendIp_sent`: what a frame and what a packet can do
-/

namespace Tailcat

/-! ## Addresses -/

/-- An address of 128 bits. -/
abbrev Ip6Address := Octets 16

/-- The synthetic address of a node: the fixed prefix, and the front of its key. -/
def tailcatIpForNode (nodePublic : Key32) : Ip6Address :=
  Octets.ofList ([0xfd, 0x7a, 0x11, 0x5c, 0xa1, 0xe0] ++ nodePublic.toList.take 10) (by simp)

/-- Two nodes have one address when the first ten octets of their keys agree. -/
theorem tailcatIpForNode_eq_iff {a b : Key32} :
    tailcatIpForNode a = tailcatIpForNode b ↔ a.toList.take 10 = b.toList.take 10 := by
  constructor
  · intro h
    exact List.append_cancel_left (congrArg List.Vector.toList h)
  · intro h
    exact Subtype.ext (congrArg ([0xfd, 0x7a, 0x11, 0x5c, 0xa1, 0xe0] ++ ·) h)

/-! ## The server -/

/-- A registered client; its address is that of its node key. -/
structure ServerPeer (H K : Type) where
  nodePublic : Key32
  discoPublic : Key32
  address : Ip6Address
  wireguard : Engine H K
  address_eq : address = tailcatIpForNode nodePublic

/-- The tables of the server. The pointers of the second one are to peers that the first one owns,
and stand here as the keys that these are registered under. -/
structure Server (H K : Type) where
  peers : Finmap fun _ : Key32 => ServerPeer H K
  peersByIp : Finmap fun _ : Ip6Address => Key32

/-- What does not change while a server runs. -/
structure ServerConfig where
  identity : NodeKeyPair
  psk : Option Key32
  /-- `AllowPeer`, unless it is an empty `std::function` -/
  allow : Option (Key32 → Bool)

/-- Whether a node may become a peer. -/
def ServerConfig.Allows (cfg : ServerConfig) (node : Key32) : Prop :=
  ∀ allow, cfg.allow = some allow → allow node = true

instance (cfg : ServerConfig) (node : Key32) : Decidable (cfg.Allows node) :=
  match h : cfg.allow with
  | none => isTrue fun allow ha => by rw [h] at ha; cases ha
  | some allow => decidable_of_iff (allow node = true)
      ⟨fun ha allow' h' => by obtain rfl := Option.some.inj (h.symm.trans h'); exact ha,
        fun ha => ha allow h⟩

/-- What the server does, as far as others can see it. The stack is handed a packet only; `source`
is the node whose frame it came in. -/
inductive ServerOutput
  | send (sent : DerpSend)
  | inputIp (source : Key32) (packet : List UInt8)
  | returned (result : Except Exn Bool)
  deriving DecidableEq

/-- `emplace`: what is there already stays. -/
def emplace {α β : Type} [DecidableEq α] (m : Finmap fun _ : α => β) (a : α) (b : β) :
    Finmap fun _ : α => β :=
  if a ∈ m then m else m.insert a b

theorem lookup_emplace {α β : Type} [DecidableEq α] (m : Finmap fun _ : α => β) (a a' : α)
    (b : β) : (emplace m a b).lookup a' =
      if a' = a then some ((m.lookup a).getD b) else m.lookup a' := by
  unfold emplace
  split
  · rename_i h
    obtain ⟨b', hb⟩ := Finmap.mem_iff.mp h
    split
    · rename_i he
      rw [he, hb, Option.getD_some]
    · rfl
  · rename_i h
    split
    · rename_i he
      rw [he, Finmap.lookup_insert, Finmap.lookup_eq_none.mpr h, Option.getD_none]
    · exact Finmap.lookup_insert_of_ne _ ‹_›

/-- Replacing a value keeps the keys. -/
theorem mem_insert_of_lookup {α β : Type} [DecidableEq α] {m : Finmap fun _ : α => β} {a : α} {b : β}
    (h : m.lookup a = some b) (b' : β) (a' : α) : a' ∈ m.insert a b' ↔ a' ∈ m := by
  rw [Finmap.mem_insert]
  constructor
  · rintro (rfl | hm)
    · exact Finmap.mem_of_lookup_eq_some h
    · exact hm
  · intro hm
    exact .inr hm

namespace Server

variable {H K : Type} (W : WireguardLwip H K) (cfg : ServerConfig) (env : Env)
  (transport : DerpTransport)

/-- A server without peers. -/
def empty : Server H K := { peers := ∅, peersByIp := ∅ }

/-- The constructor of a peer. -/
def newPeer (node disco : Key32) : Except Exn (ServerPeer H K) :=
  (Engine.create W env cfg.identity node cfg.psk).map fun wireguard =>
    { nodePublic := node, discoPublic := disco, address := tailcatIpForNode node, wireguard
      address_eq := rfl }

/-- Register a client, or give a registered one its new disco key. -/
def addPeer (s : Server H K) (node disco : Key32) : Server H K × Except Exn Unit :=
  match s.peers.lookup node with
  | some existing =>
    ({ s with peers := s.peers.insert node { existing with discoPublic := disco } }, .ok ())
  | none =>
    match newPeer W cfg env node disco with
    | .error x => (s, .error x)
    | .ok peer =>
      ({ peers := emplace s.peers node peer
         peersByIp := emplace s.peersByIp peer.address node }, .ok ())

/-- The server after a peer's engine was used. -/
def setWireguard (s : Server H K) (node : Key32) (peer : ServerPeer H K) (wireguard : Engine H K) :
    Server H K :=
  { s with peers := s.peers.insert node { peer with wireguard } }

/-- `packet[24..40]` -/
def destinationOf (packet : List UInt8) (h : 40 ≤ packet.length) : Ip6Address :=
  Octets.ofTake 16 (packet.drop 24) (by simp only [List.length_drop]; omega)

/-- The output of the IP stack: a packet goes to the peer of its destination, others disappear. -/
def sendIp (s : Server H K) (packet : List UInt8) :
    Server H K × List ServerOutput × Except Exn Unit :=
  if h : packet.length < 40 ∨ packet.getD 0 0 >>> 4 ≠ 6 then
    (s, [], .ok ())
  else
    match s.peersByIp.lookup (destinationOf packet (by omega)) with
    | none => (s, [], .ok ())
    | some node =>
      match s.peers.lookup node with
      | none => (s, [], .ok ()) -- no pointer is dangling
      | some peer =>
        if ¬ peer.wireguard.established then
          (s, [], .ok ())
        else
          let (wireguard, message) := peer.wireguard.encrypt W env packet
          match message with
          | .error x => (s.setWireguard node peer wireguard, [], .error x)
          | .ok message =>
            let sent := DerpSend.packet peer.nodePublic message
            (s.setWireguard node peer wireguard, [.send sent], transport.send sent)

/-- What becomes of a result of the engine: the answer is sent, and the plaintext enters the stack,
unless sending throws. `stack` is what the stack does with the plaintext. -/
def deliver (stack : Except Exn Unit) (source : Key32) (result : WireGuardPacketResult) :
    List ServerOutput × Except Exn Bool :=
  let answer := DerpSend.packet source result.outbound
  let (os, sent) :=
    if result.outbound ≠ [] then ([ServerOutput.send answer], transport.send answer)
    else ([], .ok ())
  match sent with
  | .error x => (os, .error x)
  | .ok () =>
    match result.plaintextIp with
    | none => (os, .ok true)
    | some packet => (os ++ [.inputIp source packet], stack.map fun _ => true)

/-- What a frame from the relay does; `true` tells the loop that one has come. -/
def handleFrame (stack : Except Exn Unit) (s : Server H K) (frame : DerpFrame) :
    Server H K × List ServerOutput × Except Exn Bool :=
  if frame.type = .ping then
    if h : frame.payload.length = 8 then
      let pong := DerpSend.pong (Octets.ofList frame.payload h)
      (s, [.send pong], (transport.send pong).map fun _ => true)
    else
      (s, [], .ok true)
  else if frame.type ≠ .recvPacket then
    -- The named control frames and all other frames are ignored alike.
    (s, [], .ok true)
  else
    match parseDerpRecvPacket frame.payload with
    | none => (s, [], .error (.runtimeError "malformed DERP RecvPacket frame"))
    | some (source, packet) =>
      if isMeowedPacket packet then
        (s, [], .ok true)
      else if isMeowPacket packet then
        match parseMeowPing packet with
        | none => (s, [], .ok true)
        | some (_, disco) =>
          if ¬ cfg.Allows source then
            (s, [], .ok true)
          else
            match s.addPeer W cfg env source disco with
            | (s, .error x) => (s, [], .error x)
            | (s, .ok ()) =>
              let meowed := DerpSend.packet source encodeMeowed
              (s, [.send meowed], (transport.send meowed).map fun _ => true)
      else
        match s.peers.lookup source with
        | none => (s, [], .ok true)
        | some peer =>
          let (wireguard, result) := peer.wireguard.handle W env packet
          (s.setWireguard source peer wireguard, deliver transport stack source result)

/-! ## What a call does -/

/-- What a frame can do. -/
inductive FrameHandled (stack : Except Exn Unit) (s : Server H K) (frame : DerpFrame) :
    Server H K → List ServerOutput → Except Exn Bool → Prop
  | ignored : FrameHandled stack s frame s [] (.ok true)
  | pong (value : Octets 8) (result : Except Exn Bool) :
      FrameHandled stack s frame s [.send (.pong value)] result
  | malformed : FrameHandled stack s frame s []
      (.error (.runtimeError "malformed DERP RecvPacket frame"))
  /-- The engine of a new peer cannot be made. -/
  | refused (source disco : Key32) (x : Exn) (lookup : s.peers.lookup source = none)
      (new : newPeer W cfg env source disco = .error x) :
      FrameHandled stack s frame s [] (.error x)
  /-- An allowed node announces itself. -/
  | announced (type : frame.type = .recvPacket) (source : Key32) (packet : List UInt8)
      (node disco : Key32)
      (parsed : parseDerpRecvPacket frame.payload = some (source, packet))
      (ping : parseMeowPing packet = some (node, disco)) (allowed : cfg.Allows source)
      (s' : Server H K) (added : s.addPeer W cfg env source disco = (s', .ok ()))
      (result : Except Exn Bool) :
      FrameHandled stack s frame s' [.send (.packet source encodeMeowed)] result
  /-- The engine of a peer handles a packet. -/
  | received (type : frame.type = .recvPacket) (source : Key32) (packet : List UInt8)
      (peer : ServerPeer H K)
      (parsed : parseDerpRecvPacket frame.payload = some (source, packet))
      (other : isMeowPacket packet = false) (lookup : s.peers.lookup source = some peer) :
      FrameHandled stack s frame
        (s.setWireguard source peer (peer.wireguard.handle W env packet).1)
        (deliver transport stack source (peer.wireguard.handle W env packet).2).1
        (deliver transport stack source (peer.wireguard.handle W env packet).2).2

variable {W cfg env transport} {s s' : Server H K}

/-- What registering can do. -/
theorem addPeer_eq_ok {node disco : Key32} : s.addPeer W cfg env node disco = (s', .ok ()) ↔
    (∃ existing, s.peers.lookup node = some existing ∧
      s' = { s with peers := s.peers.insert node { existing with discoPublic := disco } }) ∨
    s.peers.lookup node = none ∧ ∃ peer, newPeer W cfg env node disco = .ok peer ∧
      s' = { peers := emplace s.peers node peer
             peersByIp := emplace s.peersByIp peer.address node } := by
  unfold addPeer
  cases hl : s.peers.lookup node with
  | some existing => simp [eq_comm]
  | none =>
    cases hn : newPeer W cfg env node disco with
    | error x => simp
    | ok peer => simp [eq_comm]

theorem addPeer_eq_error {node disco : Key32} {x : Exn}
    (h : s.addPeer W cfg env node disco = (s', .error x)) :
    s' = s ∧ s.peers.lookup node = none ∧ newPeer W cfg env node disco = .error x := by
  unfold addPeer at h
  cases hl : s.peers.lookup node with
  | some existing =>
    rw [hl] at h
    cases h
  | none =>
    rw [hl] at h
    cases hn : newPeer W cfg env node disco with
    | error y =>
      rw [hn] at h
      cases h
      exact ⟨rfl, rfl, rfl⟩
    | ok peer =>
      rw [hn] at h
      cases h

/-- **What a frame can do.** -/
theorem handleFrame_handled (W : WireguardLwip H K) (cfg : ServerConfig) (env : Env)
    (transport : DerpTransport) (stack : Except Exn Unit) (s : Server H K) (frame : DerpFrame) :
    FrameHandled W cfg env transport stack s frame
      (s.handleFrame W cfg env transport stack frame).1
      (s.handleFrame W cfg env transport stack frame).2.1
      (s.handleFrame W cfg env transport stack frame).2.2 := by
  unfold handleFrame
  -- The branches of the source in their order, each an outcome.
  split
  · split
    · exact .pong _ _
    · exact .ignored
  split
  · exact .ignored
  rename_i type
  have type := not_not.mp type
  split
  · exact .malformed
  rename_i source packet parsed
  split
  · exact .ignored
  split
  · split
    · exact .ignored
    rename_i node disco ping
    split
    · exact .ignored
    rename_i allowed
    split
    · rename_i s' x added
      obtain ⟨rfl, lookup, new⟩ := addPeer_eq_error added
      exact .refused source disco x lookup new
    · rename_i s' added
      exact .announced type source packet node disco parsed ping (not_not.mp allowed) s' added _
  · rename_i other
    split
    · exact .ignored
    · rename_i peer lookup
      exact .received type source packet peer parsed (Bool.not_eq_true _ ▸ other) lookup

/-- What `deliver` emits: the answer of the engine, and its plaintext. -/
theorem mem_deliver {stack : Except Exn Unit} {source : Key32} {result : WireGuardPacketResult}
    {o : ServerOutput} (h : o ∈ (deliver transport stack source result).1) :
    (result.outbound ≠ [] ∧ o = .send (.packet source result.outbound)) ∨
      ∃ packet, result.plaintextIp = some packet ∧ o = .inputIp source packet := by
  -- What is emitted before the plaintext is looked at, whether sending throws or not.
  have hanswer : ∀ os sent, (if result.outbound ≠ [] then
      ([ServerOutput.send (.packet source result.outbound)],
        transport.send (.packet source result.outbound)) else ([], .ok ())) = (os, sent) →
      o ∈ os → result.outbound ≠ [] ∧ o = .send (.packet source result.outbound) := by
    intro os sent he ho
    split at he
    · cases he
      exact ⟨‹_›, List.mem_singleton.mp ho⟩
    · cases he
      cases ho
  obtain ⟨⟨os, sent⟩, he⟩ : ∃ r, (if result.outbound ≠ [] then
      ([ServerOutput.send (.packet source result.outbound)],
        transport.send (.packet source result.outbound)) else ([], .ok ())) = r := ⟨_, rfl⟩
  unfold deliver at h
  dsimp only at h
  rw [he] at h
  cases sent with
  | error x => exact .inl (hanswer os _ he h)
  | ok _ =>
    cases hp : result.plaintextIp with
    | none =>
      rw [hp] at h
      exact .inl (hanswer os _ he h)
    | some packet =>
      rw [hp] at h
      rcases List.mem_append.mp h with h | h
      · exact .inl (hanswer os _ he h)
      · exact .inr ⟨packet, rfl, List.mem_singleton.mp h⟩

/-- What a packet that leaves the stack can do. -/
inductive PacketSent (W : WireguardLwip H K) (env : Env) (s : Server H K) (packet : List UInt8) :
    Server H K → List ServerOutput → Except Exn Unit → Prop
  | dropped : PacketSent W env s packet s [] (.ok ())
  | failed (long : 40 ≤ packet.length) (node : Key32) (peer : ServerPeer H K)
      (wireguard : Engine H K) (x : Exn)
      (route : s.peersByIp.lookup (destinationOf packet long) = some node)
      (lookup : s.peers.lookup node = some peer)
      (encrypt : peer.wireguard.encrypt W env packet = (wireguard, .error x)) :
      PacketSent W env s packet (s.setWireguard node peer wireguard) [] (.error x)
  | sent (long : 40 ≤ packet.length) (node : Key32) (peer : ServerPeer H K)
      (wireguard : Engine H K) (message : List UInt8)
      (route : s.peersByIp.lookup (destinationOf packet long) = some node)
      (lookup : s.peers.lookup node = some peer)
      (encrypt : peer.wireguard.encrypt W env packet = (wireguard, .ok message))
      (result : Except Exn Unit) :
      PacketSent W env s packet (s.setWireguard node peer wireguard)
        [.send (.packet peer.nodePublic message)] result

/-- **What a packet that leaves the stack can do.** -/
theorem sendIp_sent (W : WireguardLwip H K) (env : Env) (transport : DerpTransport)
    (s : Server H K) (packet : List UInt8) :
    PacketSent W env s packet (s.sendIp W env transport packet).1
      (s.sendIp W env transport packet).2.1 (s.sendIp W env transport packet).2.2 := by
  unfold sendIp
  split
  · exact .dropped
  rename_i checked
  have long : 40 ≤ packet.length := by omega
  split
  · exact .dropped
  rename_i node route
  split
  · exact .dropped
  rename_i peer lookup
  split
  · exact .dropped
  obtain ⟨⟨wireguard, message⟩, he⟩ : ∃ r, peer.wireguard.encrypt W env packet = r := ⟨_, rfl⟩
  rw [he]
  cases message with
  | error x => exact .failed long node peer wireguard x route lookup he
  | ok message => exact .sent long node peer wireguard message route lookup he _

end Server

/-- A frame that arrived, or a packet that left the stack. The transport and the stack may throw;
what happened before stays. -/
inductive ServerEvent
  | frame (env : Env) (transport : DerpTransport) (stack : Except Exn Unit) (frame : DerpFrame)
  | sendIp (env : Env) (transport : DerpTransport) (packet : List UInt8)

/-- A server that starts without peers. -/
def serverMachine {H K : Type} (W : WireguardLwip H K) (cfg : ServerConfig) :
    Machine (Server H K) ServerEvent ServerOutput where
  init := .empty
  step s
    | .frame env transport stack frame =>
      let (s, os, result) := s.handleFrame W cfg env transport stack frame
      some (s, os ++ [.returned result])
    | .sendIp env transport packet =>
      let (s, os, result) := s.sendIp W env transport packet
      some (s, os ++ [.returned (result.map fun _ => true)])

theorem serverMachine_frame {H K : Type} (W : WireguardLwip H K) (cfg : ServerConfig)
    (s : Server H K) (env : Env) (transport : DerpTransport) (stack : Except Exn Unit)
    (frame : DerpFrame) : (serverMachine W cfg).step s (.frame env transport stack frame) =
      some ((s.handleFrame W cfg env transport stack frame).1,
        (s.handleFrame W cfg env transport stack frame).2.1 ++
          [.returned (s.handleFrame W cfg env transport stack frame).2.2]) := rfl

theorem serverMachine_sendIp {H K : Type} (W : WireguardLwip H K) (cfg : ServerConfig)
    (s : Server H K) (env : Env) (transport : DerpTransport) (packet : List UInt8) :
    (serverMachine W cfg).step s (.sendIp env transport packet) =
      some ((s.sendIp W env transport packet).1, (s.sendIp W env transport packet).2.1 ++
        [.returned ((s.sendIp W env transport packet).2.2.map fun _ => true)]) := rfl

end Tailcat
