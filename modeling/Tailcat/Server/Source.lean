import Tailcat.Server.Policy

/-!
# Where plaintext comes from

A packet enters the stack when the engine of a registered peer decrypted it. The engine is that of
the node whose frame the packet came in. The packet itself is not looked at: its source address is
what the peer wrote there.

## Main results

* `inputIp_source`: which packets enter the stack, and on whose behalf
-/

namespace Tailcat

variable {H K : Type} {W : WireguardLwip H K} {cfg : ServerConfig} {s : Server H K}

/-- An engine that returns a plaintext has nothing to answer. -/
theorem Engine.Handled.outbound_eq_nil {env : Env} {e e' : Engine H K} {packet plaintext : List UInt8}
    {result : WireGuardPacketResult} (h : Engine.Handled W env e packet e' result)
    (hp : result.plaintextIp = some plaintext) : result.outbound = [] := by
  cases h with
  | ignored => rfl
  | answered => cases hp
  | completed => rfl
  | replayed => rfl
  | received => rfl

/-- A result with a plaintext is delivered to the stack, and to nobody else. -/
theorem deliver_plaintext {transport : DerpTransport} {stack : Except Exn Unit} {source : Key32}
    {result : WireGuardPacketResult} {plaintext : List UInt8} (ho : result.outbound = [])
    (hp : result.plaintextIp = some plaintext) :
    Server.deliver transport stack source result =
      ([.inputIp source plaintext], stack.map fun _ => true) := by
  unfold Server.deliver
  simp only [ho, hp, ne_eq, not_true_eq_false, if_false, List.nil_append]

/-- Which packets a frame brings into the stack. -/
theorem inputIp_mem_handleFrame {env : Env} {transport : DerpTransport} {stack : Except Exn Unit}
    {frame : DerpFrame} {source : Key32} {plaintext : List UInt8} :
    .inputIp source plaintext ∈ (s.handleFrame W cfg env transport stack frame).2.1 ↔
      frame.type = .recvPacket ∧ ∃ packet peer,
        parseDerpRecvPacket frame.payload = some (source, packet) ∧
        isMeowPacket packet = false ∧ s.peers.lookup source = some peer ∧
        (peer.wireguard.handle W env packet).2.plaintextIp = some plaintext := by
  constructor
  · intro h
    have hf := Server.handleFrame_handled W cfg env transport stack s frame
    generalize (s.handleFrame W cfg env transport stack frame).1 = s',
      (s.handleFrame W cfg env transport stack frame).2.1 = os,
      (s.handleFrame W cfg env transport stack frame).2.2 = result at hf h
    cases hf with
    | ignored => cases h
    | pong value => cases List.mem_singleton.mp h
    | malformed => cases h
    | refused => cases h
    | announced => cases List.mem_singleton.mp h
    | received type source' packet peer parsed other lookup =>
      rcases Server.mem_deliver h with ⟨-, he⟩ | ⟨plaintext', hp, he⟩
      · cases he
      · obtain ⟨rfl, rfl⟩ := ServerOutput.inputIp.inj he
        exact ⟨type, packet, peer, parsed, other, lookup, hp⟩
  · rintro ⟨htype, packet, peer, parsed, other, lookup, hp⟩
    -- Nothing is sent before the plaintext, so that nothing can throw there.
    have hno := (Engine.handle_handled W env peer.wireguard packet).outbound_eq_nil hp
    have hmeowed : isMeowedPacket packet = false := by
      unfold isMeowedPacket
      rw [other, Bool.and_false, Bool.false_and]
    have hping : ¬ DerpFrameType.recvPacket = .ping := by decide
    unfold Server.handleFrame
    simp only [htype, if_neg hping, ne_eq, not_true_eq_false, if_false, parsed, hmeowed, other,
      lookup, deliver_plaintext hno hp, Bool.false_eq_true]
    exact List.mem_singleton_self _

/-- **Where plaintext comes from**: in every run, a frame brings a packet into the stack exactly
when it carries, from a registered node, a packet that is no MEOW packet and that the engine of this
very node decrypts to it, whatever source address is written in it. A registered node has its
synthetic address and an engine for its own key. -/
theorem inputIp_source {es : List ServerEvent} {os : List ServerOutput}
    (hr : (serverMachine W cfg).Runs es s os) :
    (∀ env transport stack frame source plaintext,
      .inputIp source plaintext ∈ (s.handleFrame W cfg env transport stack frame).2.1 ↔
        frame.type = .recvPacket ∧ ∃ packet peer,
          parseDerpRecvPacket frame.payload = some (source, packet) ∧
          isMeowPacket packet = false ∧ s.peers.lookup source = some peer ∧
          (peer.wireguard.handle W env packet).2.plaintextIp = some plaintext) ∧
    ∀ node peer, s.peers.lookup node = some peer → peer.nodePublic = node ∧
      peer.address = tailcatIpForNode node ∧ peer.wireguard.remote = node ∧
      EngineOf W cfg node peer.wireguard := by
  have hw := serverMachine_wellFormed hr
  refine ⟨fun _ _ _ _ _ _ => inputIp_mem_handleFrame, fun node peer hl => ?_⟩
  have hnode := hw.nodePublic node peer hl
  have hengine := hw.engine node peer hl
  exact ⟨hnode, hnode ▸ peer.address_eq, hengine.remote_eq, hengine⟩

/-- A frame with a packet from a node. -/
def packetFrame (source : Key32) (packet : List UInt8) : DerpFrame :=
  ⟨.recvPacket, source.toList ++ packet⟩

/-- A client that announced itself. -/
theorem inputIp_source_example :
    let client : Key32 := List.Vector.replicate 32 1
    let key : Key32 := Octets.zero 32
    let cfg : ServerConfig := { identity := ⟨key, key⟩, psk := none, allow := none }
    let env : Env := ⟨fun _ => 0, fun _ => 7⟩
    let ping := pingFrame client client client.toList
    ∃ s os peer, (serverMachine plainLwip cfg).Runs [.frame env (.of ping) (.ok ()) ping] s os ∧
      s.peers.lookup client = some peer ∧ peer.address = tailcatIpForNode client ∧
      peer.wireguard.remote = client := by
  intro client key cfg env ping
  have hr := Machine.Runs.nil.snoc
    (serverMachine_frame plainLwip cfg .empty env (.of ping) (.ok ()) ping)
  obtain ⟨peer, hl⟩ := Option.isSome_iff_exists.mp
    (by decide +kernel : ((Server.empty.handleFrame plainLwip cfg env (.of ping) (.ok ())
      ping).1.peers.lookup client).isSome = true)
  obtain ⟨-, haddress, hremote, -⟩ := (inputIp_source hr).2 client peer hl
  exact ⟨_, _, peer, hr, hl, haddress, hremote⟩

/-- A peer writes the address of another node into its packet. -/
theorem inputIp_spoofed :
    let client : Key32 := List.Vector.replicate 32 1
    let victim : Key32 := List.Vector.replicate 32 2
    let key : Key32 := Octets.zero 32
    let cfg : ServerConfig := { identity := ⟨key, key⟩, psk := none, allow := none }
    let env : Env := ⟨fun _ => 0, fun _ => 7⟩
    let ping := pingFrame client client client.toList
    let initiation := packetFrame client
      ([1, 0, 0, 0, 9, 0, 0, 0] ++ client.toList ++ List.replicate 108 0)
    let plaintext := [0x60, 0, 0, 0, 0, 8, 59, 64] ++ (tailcatIpForNode victim).toList ++
      (tailcatIpForNode key).toList ++ List.replicate 8 0
    let transport := packetFrame client
      ([4, 0, 0, 0, 7, 0, 0, 0] ++ List.replicate 8 0 ++ plaintext ++ List.replicate 16 1)
    ∃ s os, (serverMachine plainLwip cfg).Runs
        [.frame env (.of ping) (.ok ()) ping, .frame env (.of initiation) (.ok ()) initiation,
          .frame env (.of transport) (.ok ()) transport] s os ∧
      .inputIp client plaintext ∈ os ∧ 40 ≤ plaintext.length ∧
      (plaintext.drop 8).take 16 ≠ (tailcatIpForNode client).toList := by
  intro client victim key cfg env ping initiation plaintext transport
  have hr := ((Machine.Runs.nil.snoc
    (serverMachine_frame plainLwip cfg .empty env (.of ping) (.ok ()) ping)).snoc
    (serverMachine_frame plainLwip cfg _ env (.of initiation) (.ok ()) initiation)).snoc
    (serverMachine_frame plainLwip cfg _ env (.of transport) (.ok ()) transport)
  refine ⟨_, _, hr, List.mem_append_right _ (List.mem_append_left _ ?_), ?_, ?_⟩
  · decide +kernel
  · decide +kernel
  · decide +kernel

end Tailcat
