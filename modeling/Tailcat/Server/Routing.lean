import Tailcat.Server.Policy
import Tailcat.Wireguard.Transport

/-!
# Routing of packets that leave the stack

Packets that leave the stack go to the peer that their destination address leads to. An address is
ten octets of a key, and the first node that is registered for it keeps it: as long as no node is
registered whose address is taken, every peer is found under its own address, and afterwards one
never is.

## Main definitions

* `Routes`: every peer is found under its own address, and packets reach it
* `Registers`: an event registers a node
* `NoCollision`: an event registers no node whose address is taken

## Main results

* `sendIp_route`, `sendIp_no_route`: what becomes of a packet, by its destination
* `meets_noCollision`: clients with addresses of their own never collide
* `routes_iff`: when packets reach the owners of addresses
-/

namespace Tailcat

/-- The length of a transport message. -/
theorem length_transportMessage {H K : Type} {W : WireguardLwip H K} (keypair : Keypair K)
    (packet : List UInt8) : (Engine.transportMessage W keypair packet).1.length =
      (packet.length + 15) / 16 * 16 + 32 := by
  have hpad : (Engine.pad packet).length = (packet.length + 15) / 16 * 16 := List.takeD_length _ _ _
  have hlength := List.Vector.toList_length (W.encryptPacket keypair.keys keypair.sendingCounter
    (Octets.ofList (Engine.pad packet) rfl)).1
  rw [transportMessage_eq]
  simp only [List.length_cons, List.length_append, hlength, hpad, storeU32Le, storeU64Le,
    List.length_map, List.length_range]
  omega

variable {H K : Type} {W : WireguardLwip H K} {cfg : ServerConfig} {s : Server H K}

/-! ## One packet -/

/-- The address that a packet is for, when it is an IPv6 packet with a complete header. -/
def IsFor (packet : List UInt8) (address : Ip6Address) : Prop :=
  ∃ long : 40 ≤ packet.length, packet.getD 0 0 >>> 4 = 6 ∧
    Server.destinationOf packet long = address

/-- A packet for an address that leads to a peer is encrypted by the engine of the peer and sent to
its node, when the engine can encrypt. -/
theorem sendIp_route {env : Env} {transport : DerpTransport} {packet : List UInt8} {node : Key32}
    {peer : ServerPeer H K} (hfor : IsFor packet peer.address)
    (hroute : s.peersByIp.lookup peer.address = some node)
    (hl : s.peers.lookup node = some peer) (hnode : peer.nodePublic = node)
    (hestablished : peer.wireguard.established = true) {wireguard : Engine H K}
    {message : List UInt8} (he : peer.wireguard.encrypt W env packet = (wireguard, .ok message)) :
    s.sendIp W env transport packet =
      (s.setWireguard node peer wireguard, [.send (.packet node message)],
        transport.send (.packet node message)) := by
  obtain ⟨long, hversion, hdestination⟩ := hfor
  unfold Server.sendIp
  rw [dif_neg (by rw [not_or]; exact ⟨by omega, not_not.mpr hversion⟩), hdestination]
  simp only [hroute, hl, hestablished, he, hnode, not_true_eq_false, if_false]

/-- A packet that is for no address that leads anywhere disappears. -/
theorem sendIp_no_route {env : Env} {transport : DerpTransport} {packet : List UInt8}
    (h : ∀ address, IsFor packet address → address ∉ s.peersByIp) :
    s.sendIp W env transport packet = (s, [], .ok ()) := by
  unfold Server.sendIp
  split
  · rfl
  · rename_i hc
    rw [not_or, not_lt, not_not] at hc
    have hroute := Finmap.lookup_eq_none.mpr (h _ ⟨hc.1, hc.2, rfl⟩)
    rw [hroute]

/-! ## The property -/

/-- Every address leads to the peer that has it, and only such addresses lead anywhere. A packet for
a peer whose engine can encrypt is encrypted by it and sent to it, once; a packet that is short, not
IPv6 or for nobody changes nothing. -/
structure Routes (W : WireguardLwip H K) (s : Server H K) : Prop where
  tables : ∀ address node, s.peersByIp.lookup address = some node ↔
    ∃ peer, s.peers.lookup node = some peer ∧ peer.address = address
  sends : ∀ node peer, s.peers.lookup node = some peer → ∀ env transport packet,
    IsFor packet peer.address → packet.length ≤ 65504 →
    peer.wireguard.Ready W (env.sysNow 0) →
    ∃ wireguard message, peer.wireguard.encrypt W env packet = (wireguard, .ok message) ∧
      message.length ≤ kDerpMaxPacket ∧
      s.sendIp W env transport packet =
        (s.setWireguard node peer wireguard, [.send (.packet node message)],
          transport.send (.packet node message))
  drops : ∀ env transport packet,
    (∀ node peer, s.peers.lookup node = some peer → ¬ IsFor packet peer.address) →
    s.sendIp W env transport packet = (s, [], .ok ())

/-- Every peer is found under its own address. -/
def OwnAddress (s : Server H K) : Prop :=
  ∀ node ∈ s.peers, s.peersByIp.lookup (tailcatIpForNode node) = some node

/-- An engine that can encrypt has reported a session. -/
theorem established_of_ready (S : W.SessionLaws) {node : Key32} {e : Engine H K}
    (h : EngineOf W cfg node e) {now : UInt32} (hr : e.Ready W now) : e.established = true := by
  obtain ⟨env, e₀, es, os, hc, hrun⟩ := h
  have hI := Engine.sessionInvariant_runs S hc hrun
  have hvalid := hr.1
  rw [hI.sendingSlot_eq] at hvalid
  exact hI.established_iff.mpr ((hI.valid_iff.mp hvalid).mono fun _ hres => hres.1)

/-- Packets reach their peers when every peer is found under its own address. -/
theorem routes_of_ownAddress (S : W.SessionLaws) (hw : s.WellFormed W cfg) :
    Routes W s ↔ OwnAddress s := by
  have haddress : ∀ node peer, s.peers.lookup node = some peer →
      peer.address = tailcatIpForNode node := fun node peer hl =>
    hw.nodePublic node peer hl ▸ peer.address_eq
  constructor
  · intro h node hm
    obtain ⟨peer, hl⟩ := Finmap.mem_iff.mp hm
    exact (h.tables _ node).mpr ⟨peer, hl, haddress node peer hl⟩
  · intro h
    have htables : ∀ node peer, s.peers.lookup node = some peer →
        s.peersByIp.lookup peer.address = some node := fun node peer hl => by
      rw [haddress node peer hl]
      exact h node (Finmap.mem_of_lookup_eq_some hl)
    refine ⟨fun address node => ⟨fun hr => ?_, ?_⟩, ?_, ?_⟩
    · obtain ⟨hm, rfl⟩ := hw.routed address node hr
      obtain ⟨peer, hl⟩ := Finmap.mem_iff.mp hm
      exact ⟨peer, hl, haddress node peer hl⟩
    · rintro ⟨peer, hl, rfl⟩
      exact htables node peer hl
    · -- An engine that can encrypt has a session, so that the flag does not stop the packet.
      intro node peer hl env transport packet hfor hlen hready
      have he := Engine.encrypt_of_ready hready
        (hlen.trans (by decide) : packet.length ≤ Engine.maxPlaintext)
      refine ⟨_, _, he, ?_, sendIp_route hfor (htables node peer hl) hl
        (hw.nodePublic node peer hl)
        (established_of_ready S (hw.engine node peer hl) hready) he⟩
      rw [length_transportMessage]
      change _ ≤ 65536
      omega
    · -- An address in the table is that of a registered peer.
      intro env transport packet hnone
      refine sendIp_no_route fun address hfor hm => ?_
      obtain ⟨node, hr⟩ := Finmap.mem_iff.mp hm
      obtain ⟨hm', rfl⟩ := hw.routed address node hr
      obtain ⟨peer, hl⟩ := Finmap.mem_iff.mp hm'
      exact hnone node peer hl (haddress node peer hl ▸ hfor)

/-! ## Runs -/

/-- The event announces a node that is allowed, not registered, and gets an engine. -/
def Registers (W : WireguardLwip H K) (cfg : ServerConfig) (s : Server H K) :
    ServerEvent → Key32 → Prop
  | .frame env _ _ frame, source => frame.type = .recvPacket ∧ ∃ packet embedded disco,
      parseDerpRecvPacket frame.payload = some (source, packet) ∧
      parseMeowPing packet = some (embedded, disco) ∧ cfg.Allows source ∧ source ∉ s.peers ∧
      ∃ e, Engine.create W env cfg.identity source cfg.psk = .ok e
  | .sendIp .., _ => False

/-- The event is a frame with a packet of the node. -/
def ServerEvent.IsFrom : ServerEvent → Key32 → Prop
  | .frame _ _ _ received, node =>
    ∃ packet, parseDerpRecvPacket received.payload = some (node, packet)
  | .sendIp .., _ => False

theorem Registers.isFrom {e : ServerEvent} {source : Key32} (h : Registers W cfg s e source) :
    e.IsFrom source := by
  cases e with
  | frame env transport stack frame =>
    obtain ⟨-, packet, -, -, hparsed, -⟩ := h
    exact ⟨packet, hparsed⟩
  | sendIp env transport packet => exact absurd h not_false

/-- A frame has one source. -/
theorem ServerEvent.IsFrom.unique {e : ServerEvent} {a b : Key32} (ha : e.IsFrom a)
    (hb : e.IsFrom b) : a = b := by
  cases e with
  | frame env transport stack received =>
    obtain ⟨packet, hparsed⟩ := ha
    obtain ⟨packet', hparsed'⟩ := hb
    exact (Prod.mk.inj (Option.some.inj (hparsed.symm.trans hparsed'))).1
  | sendIp env transport packet => exact absurd ha not_false

theorem Registers.notMem {e : ServerEvent} {source : Key32} (h : Registers W cfg s e source) :
    source ∉ s.peers := by
  cases e with
  | frame env transport stack frame =>
    obtain ⟨-, -, -, -, -, -, -, hnew, -⟩ := h
    exact hnew
  | sendIp env transport packet => exact absurd h not_false

/-- The event registers no node that shares its address with a registered one. -/
def NoCollision (W : WireguardLwip H K) (cfg : ServerConfig) (s : Server H K) (e : ServerEvent) :
    Prop :=
  ∀ source, Registers W cfg s e source → ∀ node ∈ s.peers,
    tailcatIpForNode node ≠ tailcatIpForNode source

/-- A registration adds the peer, and its address unless that is taken. -/
theorem handleFrame_registers {env : Env} {transport : DerpTransport} {stack : Except Exn Unit}
    {frame : DerpFrame} {source : Key32}
    (h : Registers W cfg s (.frame env transport stack frame) source) :
    ∃ peer : ServerPeer H K, peer.address = tailcatIpForNode source ∧
      (s.handleFrame W cfg env transport stack frame).1 =
        { peers := emplace s.peers source peer
          peersByIp := emplace s.peersByIp peer.address source } := by
  obtain ⟨htype, packet, embedded, disco, hparsed, hping, hallowed, hnew, e, hc⟩ := h
  obtain ⟨hmeow, hmeowed⟩ := isMeowedPacket_of_parse hping
  obtain ⟨peer, hpeer⟩ : ∃ peer, Server.newPeer W cfg env source disco = .ok peer := by
    unfold Server.newPeer
    rw [hc]
    exact ⟨_, rfl⟩
  obtain ⟨-, haddress, -⟩ := Server.newPeer_eq_ok hpeer
  have hadd := Server.addPeer_eq_ok.mpr
    (.inr ⟨Finmap.lookup_eq_none.mpr hnew, _, hpeer, rfl⟩)
  have hno : ¬ DerpFrameType.recvPacket = .ping := by decide
  refine ⟨peer, haddress, ?_⟩
  unfold Server.handleFrame
  simp only [htype, if_neg hno, ne_eq, not_true_eq_false, if_false, hparsed, hmeowed, hmeow,
    Bool.false_eq_true, if_true, hping, hallowed, hadd]

/-- What a step does that registers a node. -/
theorem registers_step {e : ServerEvent} {source : Key32} {s' : Server H K} {os : List ServerOutput}
    (h : Registers W cfg s e source) (hs : (serverMachine W cfg).step s e = some (s', os)) :
    ∃ peer : ServerPeer H K, peer.address = tailcatIpForNode source ∧
      s' = { peers := emplace s.peers source peer
             peersByIp := emplace s.peersByIp peer.address source } := by
  cases e with
  | frame env transport stack frame =>
    obtain ⟨peer, haddress, hs'⟩ := handleFrame_registers h
    rw [serverMachine_frame, hs'] at hs
    exact ⟨peer, haddress, (Prod.mk.inj (Option.some.inj hs)).1.symm⟩
  | sendIp env transport packet => exact absurd h not_false

/-- An event that registers nobody leaves the keys of the tables as they are. -/
theorem mem_peers_of_not_registers {e : ServerEvent} {s' : Server H K} {os : List ServerOutput}
    (hno : ∀ source, ¬ Registers W cfg s e source)
    (hs : (serverMachine W cfg).step s e = some (s', os)) :
    (∀ node, node ∈ s'.peers ↔ node ∈ s.peers) ∧ s'.peersByIp = s.peersByIp := by
  cases e with
  | frame env transport stack frame =>
    rw [serverMachine_frame] at hs
    rw [← (Prod.mk.inj (Option.some.inj hs)).1]
    have hf := Server.handleFrame_handled W cfg env transport stack s frame
    generalize (s.handleFrame W cfg env transport stack frame).1 = s',
      (s.handleFrame W cfg env transport stack frame).2.1 = os,
      (s.handleFrame W cfg env transport stack frame).2.2 = result at hf
    cases hf with
    | ignored => exact ⟨fun _ => Iff.rfl, rfl⟩
    | pong value => exact ⟨fun _ => Iff.rfl, rfl⟩
    | malformed => exact ⟨fun _ => Iff.rfl, rfl⟩
    | refused => exact ⟨fun _ => Iff.rfl, rfl⟩
    | announced type source packet embedded disco parsed ping allowed _ added =>
      rcases Server.addPeer_eq_ok.mp added with ⟨existing, hl, rfl⟩ | ⟨hl, peer, hn, rfl⟩
      · exact ⟨mem_insert_of_lookup hl _, rfl⟩
      · -- A new peer would have been registered by this event.
        refine absurd ?_ (hno source)
        refine ⟨type, packet, embedded, disco, parsed, ping, allowed,
          Finmap.lookup_eq_none.mp hl, ?_⟩
        cases hc : Engine.create W env cfg.identity source cfg.psk with
        | error x =>
          unfold Server.newPeer at hn
          rw [hc] at hn
          cases hn
        | ok e => exact ⟨e, rfl⟩
    | received type source packet peer parsed other lookup =>
      exact ⟨mem_insert_of_lookup lookup _, rfl⟩
  | sendIp env transport packet =>
    rw [serverMachine_sendIp] at hs
    rw [← (Prod.mk.inj (Option.some.inj hs)).1]
    have hp := Server.sendIp_sent W env transport s packet
    generalize (s.sendIp W env transport packet).1 = s',
      (s.sendIp W env transport packet).2.1 = os,
      (s.sendIp W env transport packet).2.2 = result at hp
    cases hp with
    | dropped => exact ⟨fun _ => Iff.rfl, rfl⟩
    | failed long node peer wireguard x route lookup encrypt =>
      exact ⟨mem_insert_of_lookup lookup _, rfl⟩
    | sent long node peer wireguard message route lookup encrypt =>
      exact ⟨mem_insert_of_lookup lookup _, rfl⟩

/-- After a registration every peer is found under its own address when this was so before and the
address was free. -/
theorem ownAddress_register (hw : s.WellFormed W cfg) {source : Key32} {peer : ServerPeer H K}
    (hnew : source ∉ s.peers) (haddress : peer.address = tailcatIpForNode source) :
    OwnAddress { peers := emplace s.peers source peer
                 peersByIp := emplace s.peersByIp peer.address source : Server H K } ↔
      OwnAddress s ∧ ∀ node ∈ s.peers, tailcatIpForNode node ≠ tailcatIpForNode source := by
  have hmem : ∀ node, node ∈ emplace s.peers source peer ↔ node = source ∨ node ∈ s.peers := by
    intro node
    rw [emplace, if_neg hnew, Finmap.mem_insert]
  constructor
  · intro h
    -- An address that was taken leads to a peer that was there before.
    have hfree : tailcatIpForNode source ∉ s.peersByIp := by
      intro htaken
      obtain ⟨node, hr⟩ := Finmap.mem_iff.mp htaken
      obtain ⟨hm, -⟩ := hw.routed _ node hr
      have hown := h source ((hmem source).mpr (.inl rfl))
      dsimp only at hown
      rw [lookup_emplace, if_pos haddress.symm, haddress, hr, Option.getD_some] at hown
      exact hnew (Option.some.inj hown ▸ hm)
    have hother : ∀ node ∈ s.peers, tailcatIpForNode node ≠ tailcatIpForNode source :=
      fun node hm he => hfree (he ▸ hw.found node hm)
    refine ⟨fun node hm => ?_, hother⟩
    have hown := h node ((hmem node).mpr (.inr hm))
    dsimp only at hown
    rwa [lookup_emplace, if_neg (by rw [haddress]; exact hother node hm)] at hown
  · rintro ⟨h, hother⟩ node hm
    dsimp only at hm ⊢
    rw [lookup_emplace]
    rcases (hmem node).mp hm with rfl | hm
    · have hfree : tailcatIpForNode node ∉ s.peersByIp := by
        intro htaken
        obtain ⟨node', hr⟩ := Finmap.mem_iff.mp htaken
        obtain ⟨hm', he⟩ := hw.routed _ node' hr
        exact hother node' hm' he
      rw [if_pos haddress.symm, haddress, Finmap.lookup_eq_none.mpr hfree, Option.getD_none]
    · rw [if_neg (by rw [haddress]; exact hother node hm)]
      exact h node hm

/-- What a step does to the addresses. -/
theorem ownAddress_step (hw : s.WellFormed W cfg) {e : ServerEvent} {s' : Server H K}
    {os : List ServerOutput} (hs : (serverMachine W cfg).step s e = some (s', os)) :
    OwnAddress s' ↔ OwnAddress s ∧ NoCollision W cfg s e := by
  by_cases hreg : ∃ source, Registers W cfg s e source
  · obtain ⟨source, hreg⟩ := hreg
    obtain ⟨peer, haddress, rfl⟩ := registers_step hreg hs
    rw [ownAddress_register hw hreg.notMem haddress]
    refine and_congr_right fun _ => ⟨fun h source' hreg' => ?_, fun h => h source hreg⟩
    obtain rfl := hreg'.isFrom.unique hreg.isFrom
    exact h
  · rw [not_exists] at hreg
    obtain ⟨hmem, hby⟩ := mem_peers_of_not_registers hreg hs
    have hno : NoCollision W cfg s e := fun source h => absurd h (hreg source)
    rw [and_iff_left hno]
    unfold OwnAddress
    simp only [hmem, hby]

/-! ## Clients with addresses of their own -/

/-- A packet frame names its source. -/
theorem isFrom_packet {env : Env} {transport : DerpTransport} {stack : Except Exn Unit}
    {source client : Key32} {packet : List UInt8} (h : (ServerEvent.frame env transport stack
      ⟨.recvPacket, client.toList ++ packet⟩).IsFrom source) : source = client := by
  obtain ⟨packet', hparsed⟩ := h
  rw [parseDerpRecvPacket_append] at hparsed
  split at hparsed
  · exact (Prod.mk.inj (Option.some.inj hparsed)).1.symm
  · cases hparsed

/-- Only a node that has sent something is registered. -/
theorem mem_of_mem_peers {clients : Set Key32} {es : List ServerEvent} {os : List ServerOutput}
    (hr : (serverMachine W cfg).Runs es s os)
    (hfrom : ∀ e ∈ es, ∀ source, e.IsFrom source → source ∈ clients) :
    ∀ node ∈ s.peers, node ∈ clients := by
  refine hr.trace_invariant (I := fun es s _ =>
    (∀ e ∈ es, ∀ source, e.IsFrom source → source ∈ clients) → ∀ node ∈ s.peers, node ∈ clients)
    (fun _ node hm => absurd hm Finmap.notMem_empty) ?_ hfrom
  intro es s os e s' os' _ hI hs hfrom node hm
  have hI := hI fun e he => hfrom e (List.mem_append_left _ he)
  by_cases hreg : ∃ source, Registers W cfg s e source
  · obtain ⟨source, hreg⟩ := hreg
    obtain ⟨peer, -, rfl⟩ := registers_step hreg hs
    dsimp only at hm
    rw [emplace, if_neg hreg.notMem] at hm
    rcases Finmap.mem_insert.mp hm with rfl | hm
    · exact hfrom e (by simp) node hreg.isFrom
    · exact hI node hm
  · rw [not_exists] at hreg
    exact hI node (((mem_peers_of_not_registers hreg hs).1 node).mp hm)

/-- Clients with addresses of their own never collide, whatever they send. -/
theorem meets_noCollision (clients : Set Key32) (hinj : clients.InjOn tailcatIpForNode)
    {es : List ServerEvent} (hfrom : ∀ e ∈ es, ∀ source, e.IsFrom source → source ∈ clients) :
    (serverMachine W cfg).Meets (NoCollision W cfg) es := by
  rintro before e after s os rfl hr source hreg node hm he
  have hnode := mem_of_mem_peers hr (fun e he => hfrom e (List.mem_append_left _ he)) node hm
  obtain rfl := hinj hnode (hfrom e (by simp) source hreg.isFrom) he
  exact hreg.notMem hm

/-! ## When packets reach their owners -/

/-- **When packets reach the owners of addresses**: in the states of a run exactly as long as no
node was registered that shares its address with one that was registered before. -/
theorem routes_iff {H K : Type} {W : WireguardLwip H K} (S : W.SessionLaws) {cfg : ServerConfig}
    {es : List ServerEvent} {s : Server H K} {os : List ServerOutput}
    (hr : (serverMachine W cfg).Runs es s os) :
    Routes W s ↔ (serverMachine W cfg).Meets (NoCollision W cfg) es := by
  rw [routes_of_ownAddress S (serverMachine_wellFormed hr)]
  refine hr.iff_meets (P := fun s _ => OwnAddress s) ?_ ?_
  · intro node hm
    exact absurd hm Finmap.notMem_empty
  · intro es s os e s' os' hr hs
    exact ownAddress_step (serverMachine_wellFormed hr) hs

/-- Two clients, the second one with a session: a packet for it is sent to it. -/
theorem routes_iff_example :
    let first : Key32 := List.Vector.replicate 32 1
    let second : Key32 := List.Vector.replicate 32 2
    let key : Key32 := Octets.zero 32
    let cfg : ServerConfig := { identity := ⟨key, key⟩, psk := none, allow := none }
    let env : Env := ⟨fun _ => 0, fun _ => 7⟩
    let ping := fun client : Key32 => pingFrame client client client.toList
    let initiation : DerpFrame := ⟨.recvPacket, second.toList ++
      ([1, 0, 0, 0, 9, 0, 0, 0] ++ second.toList ++ List.replicate 108 0)⟩
    let keepalive : DerpFrame := ⟨.recvPacket, second.toList ++
      ([4, 0, 0, 0, 7, 0, 0, 0] ++ List.replicate 8 0 ++ List.replicate 16 2)⟩
    let packet := [0x60] ++ List.replicate 23 0 ++ (tailcatIpForNode second).toList
    let es : List ServerEvent :=
      [.frame env (.of (ping first)) (.ok ()) (ping first),
        .frame env (.of (ping second)) (.ok ()) (ping second),
        .frame env (.of initiation) (.ok ()) initiation,
        .frame env (.of keepalive) (.ok ()) keepalive]
    ∃ s os message, (serverMachine plainLwip cfg).Runs es s os ∧ first ∈ s.peers ∧
      second ∈ s.peers ∧ Routes plainLwip s ∧
      (s.sendIp plainLwip env (.of keepalive) packet).2.1 = [.send (.packet second message)] := by
  intro first second key cfg env ping initiation keepalive packet es
  obtain ⟨s, os, hr, hfirst, hready⟩ : ∃ s os, (serverMachine plainLwip cfg).Runs es s os ∧
      first ∈ s.peers ∧
      (s.peers.lookup second).any (·.wireguard.Ready plainLwip (env.sysNow 0)) = true :=
    ⟨_, _, (((Machine.Runs.nil.snoc
      (serverMachine_frame plainLwip cfg .empty env (.of (ping first)) (.ok ()) (ping first))).snoc
      (serverMachine_frame plainLwip cfg _ env (.of (ping second)) (.ok ()) (ping second))).snoc
      (serverMachine_frame plainLwip cfg _ env (.of initiation) (.ok ()) initiation)).snoc
      (serverMachine_frame plainLwip cfg _ env (.of keepalive) (.ok ()) keepalive),
      by decide +kernel, by decide +kernel⟩
  obtain ⟨peer, hl, hready⟩ := (Option.any_eq_true _ _).mp hready
  have hdistinct : tailcatIpForNode first ≠ tailcatIpForNode second :=
    tailcatIpForNode_eq_iff.not.mpr (by decide)
  have hfrom : ∀ e ∈ es, ∀ source, e.IsFrom source → source ∈ ({first, second} : Set Key32) := by
    intro e he source hsource
    simp only [es, List.mem_cons, List.not_mem_nil, or_false] at he
    rcases he with rfl | rfl | rfl | rfl
    · exact .inl (isFrom_packet hsource)
    · exact .inr (isFrom_packet hsource)
    · exact .inr (isFrom_packet hsource)
    · exact .inr (isFrom_packet hsource)
  have hroutes : Routes plainLwip s := (routes_iff plain_sessionLaws hr).mpr
    (meets_noCollision _ (Set.injOn_pair.mpr fun h => absurd h hdistinct) hfrom)
  have hfor : IsFor packet peer.address := by
    rw [peer.address_eq, (serverMachine_wellFormed hr).nodePublic second peer hl]
    exact ⟨by decide +kernel, by decide +kernel, by decide +kernel⟩
  obtain ⟨wireguard, message, -, -, hsend⟩ := hroutes.sends second peer hl env (.of keepalive)
    packet hfor (by decide +kernel) (of_decide_eq_true hready)
  exact ⟨s, os, message, hr, hfirst, Finmap.mem_of_lookup_eq_some hl, hroutes,
    congrArg (·.2.1) hsend⟩

/-- Two clients whose keys differ in the last octet: the address of the second one leads to the
first one. -/
theorem routes_collision :
    let first : Key32 := List.Vector.replicate 32 1
    let second : Key32 := Octets.ofList (List.replicate 31 1 ++ [2]) rfl
    let key : Key32 := Octets.zero 32
    let cfg : ServerConfig := { identity := ⟨key, key⟩, psk := none, allow := none }
    let env : Env := ⟨fun _ => 0, fun _ => 7⟩
    let ping := fun client : Key32 => pingFrame client client client.toList
    ∃ s os, (serverMachine plainLwip cfg).Runs
        [.frame env (.of (ping first)) (.ok ()) (ping first),
          .frame env (.of (ping second)) (.ok ()) (ping second)] s os ∧
      second ∈ s.peers ∧ s.peersByIp.lookup (tailcatIpForNode second) = some first ∧
      ¬ Routes plainLwip s := by
  intro first second key cfg env ping
  have hr := (Machine.Runs.nil.snoc
    (serverMachine_frame plainLwip cfg .empty env (.of (ping first)) (.ok ()) (ping first))).snoc
    (serverMachine_frame plainLwip cfg _ env (.of (ping second)) (.ok ()) (ping second))
  obtain ⟨s, hs⟩ : ∃ s, s = ((Server.empty.handleFrame plainLwip cfg env (.of (ping first)) (.ok ())
    (ping first)).1.handleFrame plainLwip cfg env (.of (ping second)) (.ok ()) (ping second)).1 :=
    ⟨_, rfl⟩
  have hmem : second ∈ s.peers := by
    rw [hs]
    decide +kernel
  have hlookup : s.peersByIp.lookup (tailcatIpForNode second) = some first := by
    rw [hs]
    decide +kernel
  rw [← hs] at hr
  refine ⟨s, _, hr, hmem, hlookup, fun h => ?_⟩
  obtain ⟨peer, hl⟩ := Finmap.mem_iff.mp hmem
  have haddress : peer.address = tailcatIpForNode second := by
    rw [peer.address_eq, (serverMachine_wellFormed hr).nodePublic second peer hl]
  have hown := (h.tables _ second).mpr ⟨peer, hl, haddress⟩
  rw [hlookup] at hown
  exact absurd (Option.some.inj hown) (by decide)

end Tailcat
