import Tailcat.Rendezvous.Client
import Tailcat.Server.Tables

/-!
# What a client knows after its rendezvous

A client, a server and any number of other nodes send packets to each other through a relay. The
relay says truly who a packet is from; it may drop packets, deliver them again and again, and in any
order. The server's answer is a constant, but a client that has got one knows that the server has
registered it.

After its rendezvous the client may send other packets, which are not MEOW packets.

## Main definitions

* `Parties`: a client and a server with different node keys
* `RelayedPacket`, `Delivers`: what was handed to the relay, and what it delivers
* `rendezvousMachine`: the client, the server and the others, in any order
* `Agreement`: what holds of them between two steps

## Main results

* `peers_step`: what a step of the server does to its peers
* `rendezvousMachine_steps`: what a step of the parties can do
* `agreement_step`, `agreement`: what such a step preserves, and a run
* `rendezvous_agreement`: what success means
-/

namespace Tailcat

variable {H K : Type}

/-! ## The peers of a server -/

/-- The engine `e'` is the engine `e` at a later time. -/
def Engine.Becomes (W : WireguardLwip H K) (e e' : Engine H K) : Prop :=
  ∃ es os, (engineMachine W e).Runs es e' os

theorem Engine.Becomes.refl {W : WireguardLwip H K} (e : Engine H K) : e.Becomes W e :=
  ⟨[], [], .nil⟩

theorem Engine.Becomes.trans {W : WireguardLwip H K} {e e' e'' : Engine H K}
    (h : e.Becomes W e') (h' : e'.Becomes W e'') : e.Becomes W e'' := by
  obtain ⟨es, os, hr⟩ := h
  obtain ⟨es', os', hr'⟩ := h'
  exact ⟨_, _, Machine.Runs.append (m := engineMachine W e) (n := engineMachine W e') rfl hr hr'⟩

/-- A frame with a ping of a node, which announces a disco key. -/
def ServerEvent.Announces (node disco : Key32) : ServerEvent → Prop
  | .frame _ _ _ received => received.type = .recvPacket ∧ ∃ packet embedded,
    parseDerpRecvPacket received.payload = some (node, packet) ∧
      parseMeowPing packet = some (embedded, disco)
  | .sendIp .. => False

/-- What a step does to the peers: they stay, with their engines, and get another disco key only by
an announcement; new ones have announced themselves; packets are sent to peers only. -/
structure PeersStep (W : WireguardLwip H K) (s s' : Server H K) (e : ServerEvent)
    (os : List ServerOutput) : Prop where
  kept : ∀ node peer, s.peers.lookup node = some peer → ∃ peer',
    s'.peers.lookup node = some peer' ∧ peer.wireguard.Becomes W peer'.wireguard ∧
      (peer'.discoPublic = peer.discoPublic ∨ e.Announces node peer'.discoPublic)
  new : ∀ node peer', s.peers.lookup node = none → s'.peers.lookup node = some peer' →
    e.Announces node peer'.discoPublic
  sent : ∀ destination packet, .send (.packet destination packet) ∈ os → destination ∈ s'.peers

section Peers

variable {W : WireguardLwip H K} {cfg : ServerConfig} {s s' : Server H K} {e : ServerEvent}
  {os : List ServerOutput}

/-- A step that leaves the peers alone. -/
theorem PeersStep.same (hos : ∀ destination packet, .send (.packet destination packet) ∉ os) :
    PeersStep W s s e os where
  kept node peer hl := ⟨peer, hl, .refl _, .inl rfl⟩
  new node peer' hl hl' := by
    rw [hl] at hl'
    cases hl'
  sent destination packet h := absurd h (hos destination packet)

/-- The entry of one peer changes, and packets are sent to it only. -/
theorem PeersStep.update {node : Key32} {peer peer' : ServerPeer H K}
    (hl : s.peers.lookup node = some peer) (he : peer.wireguard.Becomes W peer'.wireguard)
    (hdisco : peer'.discoPublic = peer.discoPublic ∨ e.Announces node peer'.discoPublic)
    (hos : ∀ destination packet, .send (.packet destination packet) ∈ os → destination = node) :
    PeersStep W s { s with peers := s.peers.insert node peer' } e os where
  kept node' p hp := by
    by_cases hn : node' = node
    · subst hn
      obtain rfl := Option.some.inj (hl.symm.trans hp)
      exact ⟨peer', Finmap.lookup_insert _, he, hdisco⟩
    · exact ⟨p, (Finmap.lookup_insert_of_ne _ hn).trans hp, .refl _, .inl rfl⟩
  new node' p hnone hp := by
    by_cases hn : node' = node
    · subst hn
      rw [hl] at hnone
      cases hnone
    · rw [Finmap.lookup_insert_of_ne _ hn, hnone] at hp
      cases hp
  sent destination packet h := by
    rw [hos destination packet h]
    exact Finmap.mem_insert.mpr (.inl rfl)

/-- A node announces itself, and is answered. -/
theorem PeersStep.announced {env : Env} {source disco : Key32}
    (hadd : s.addPeer W cfg env source disco = (s', .ok ())) (he : e.Announces source disco)
    (hos : ∀ destination packet, .send (.packet destination packet) ∈ os → destination = source) :
    PeersStep W s s' e os := by
  rcases Server.addPeer_eq_ok.mp hadd with ⟨existing, hl, rfl⟩ | ⟨hl, peer, hnew, rfl⟩
  · exact .update hl (.refl _) (.inr he) hos
  · have hdisco : peer.discoPublic = disco := by
      unfold Server.newPeer at hnew
      cases hc : Engine.create W env cfg.identity source cfg.psk with
      | error x =>
        rw [hc] at hnew
        cases hnew
      | ok engine =>
        rw [hc] at hnew
        obtain rfl := Except.ok.inj hnew
        rfl
    -- The node was no peer, so no entry is lost to its new one.
    refine ⟨fun node p hp => ⟨p, ?_, .refl _, .inl rfl⟩, fun node p hnone hp => ?_,
      fun destination packet h => ?_⟩
    · rw [lookup_emplace, if_neg (fun hn => by rw [hn, hl] at hp; cases hp)]
      exact hp
    · rw [lookup_emplace] at hp
      split_ifs at hp with hn
      · rw [hl, Option.getD_none] at hp
        obtain rfl := Option.some.inj hp
        rw [hn, hdisco]
        exact he
      · rw [hnone] at hp
        cases hp
    · rw [hos destination packet h, Finmap.mem_iff]
      refine ⟨(s.peers.lookup source).getD peer, ?_⟩
      rw [lookup_emplace, if_pos rfl]

/-- **What a step of the server does to its peers.** -/
theorem peers_step (hw : s.WellFormed W cfg)
    (hs : (serverMachine W cfg).step s e = some (s', os)) : PeersStep W s s' e os := by
  cases e with
  | frame env transport stack received =>
    rw [serverMachine_frame] at hs
    obtain ⟨rfl, rfl⟩ := Prod.mk.inj (Option.some.inj hs)
    have hf := Server.handleFrame_handled W cfg env transport stack s received
    generalize s.handleFrame W cfg env transport stack received = r at hf ⊢
    obtain ⟨s', os, result⟩ := r
    dsimp only at hf ⊢
    -- The result of the call is no packet.
    have hresult : ∀ {P : Key32 → Prop},
        (∀ destination packet, .send (.packet destination packet) ∈ os → P destination) →
        ∀ destination packet, .send (.packet destination packet) ∈ os ++ [.returned result] →
          P destination := by
      intro P hos destination packet h
      rcases List.mem_append.mp h with h | h
      · exact hos destination packet h
      · cases List.mem_singleton.mp h
    cases hf with
    | ignored => exact .same fun _ _ h => by cases List.mem_singleton.mp h
    | pong value => exact .same fun _ _ h => by simp at h
    | malformed => exact .same fun _ _ h => by cases List.mem_singleton.mp h
    | refused source disco x lookup new =>
      exact .same fun _ _ h => by cases List.mem_singleton.mp h
    | announced type source packet node disco parsed ping allowed _ added =>
      refine .announced added ⟨type, packet, node, parsed, ping⟩ (hresult fun destination p h => ?_)
      cases List.mem_singleton.mp h
      rfl
    | received type source packet peer parsed other lookup =>
      refine .update lookup ?_ (.inl rfl) (hresult fun destination p h => ?_)
      · exact ⟨_, _, Machine.Runs.nil.snoc (engineMachine_handle W _ _ env packet)⟩
      · rcases Server.mem_deliver h with ⟨-, h⟩ | ⟨plaintext, -, h⟩
        · cases h
          rfl
        · cases h
  | sendIp env transport packet =>
    rw [serverMachine_sendIp] at hs
    obtain ⟨rfl, rfl⟩ := Prod.mk.inj (Option.some.inj hs)
    have hp := Server.sendIp_sent W env transport s packet
    generalize s.sendIp W env transport packet = r at hp ⊢
    obtain ⟨s', os, result⟩ := r
    dsimp only at hp ⊢
    have hbecomes : ∀ {peer : ServerPeer H K} {wireguard : Engine H K} {m},
        peer.wireguard.encrypt W env packet = (wireguard, m) →
        peer.wireguard.Becomes W wireguard := by
      intro peer wireguard m hm
      have hs := engineMachine_encrypt W peer.wireguard peer.wireguard env packet
      rw [hm] at hs
      exact ⟨_, _, Machine.Runs.nil.snoc hs⟩
    cases hp with
    | dropped => exact .same fun _ _ h => by cases List.mem_singleton.mp h
    | failed long node peer wireguard x route lookup encrypt =>
      refine .update lookup (hbecomes encrypt) (.inl rfl) fun destination p h => ?_
      cases List.mem_singleton.mp h
    | sent long node peer wireguard message route lookup encrypt result =>
      refine .update lookup (hbecomes encrypt) (.inl rfl) fun destination p h => ?_
      rcases List.mem_cons.mp h with h | h
      · cases h
        exact hw.nodePublic node peer lookup
      · cases List.mem_singleton.mp h

end Peers

/-! ## The parties and the relay -/

/-- A client that is called with the server's key, which is not its own. -/
structure Parties where
  client : RendezvousArguments
  server : ServerConfig
  serverPublic : client.serverPublic = server.identity.publicKey
  distinct : client.nodeIdentity.publicKey ≠ client.serverPublic

/-- The node key of the client. -/
def Parties.clientPublic (P : Parties) : Key32 := P.client.nodeIdentity.publicKey

/-- A packet that was handed to the relay, and who it is from. -/
structure RelayedPacket where
  source : Key32
  destination : Key32
  packet : List UInt8
  deriving DecidableEq

/-- The relay may deliver the frame to a node: it has a packet for the node that was handed in, with
its source, or it is no packet. -/
def Delivers (relay : List RelayedPacket) (node : Key32) (frame : DerpFrame) : Prop :=
  frame.type = .recvPacket →
    ∃ p ∈ relay, p.destination = node ∧ frame.payload = p.source.toList ++ p.packet

instance (relay : List RelayedPacket) (node : Key32) : DecidablePred (Delivers relay node) :=
  fun _ => inferInstanceAs (Decidable (_ → _))

/-- What a client receives comes from the relay. -/
def RendezvousEvent.Delivered (relay : List RelayedPacket) (node : Key32) :
    RendezvousEvent → Prop
  | .received (.ok (some frame)) => Delivers relay node frame
  | _ => True

instance (relay : List RelayedPacket) (node : Key32) :
    DecidablePred (RendezvousEvent.Delivered relay node) := fun e => by
  unfold RendezvousEvent.Delivered
  split <;> infer_instance

/-- What a server receives comes from the relay. -/
def ServerEvent.Delivered (relay : List RelayedPacket) (node : Key32) : ServerEvent → Prop
  | .frame _ _ _ received => Delivers relay node received
  | .sendIp .. => True

instance (relay : List RelayedPacket) (node : Key32) :
    DecidablePred (ServerEvent.Delivered relay node) := fun e => by
  cases e <;> unfold ServerEvent.Delivered <;> infer_instance

/-- The packets that the calls of a node hand to the relay. A packet is there whether the call
throws or not, since it may never be delivered. -/
def relayed (source : Key32) : DerpSend → Option RelayedPacket
  | .packet destination packet => some ⟨source, destination, packet⟩
  | .pong _ => none

/-- The packet that the relay gets with an output of the client. -/
def RendezvousOutput.relayed (source : Key32) : RendezvousOutput → Option RelayedPacket
  | .send sent => Tailcat.relayed source sent
  | _ => none

/-- The packet that the relay gets with an output of the server. -/
def ServerOutput.relayed (source : Key32) : ServerOutput → Option RelayedPacket
  | .send sent => Tailcat.relayed source sent
  | _ => none

/-- A client, a server, and the packets that the relay has got so far. -/
structure RendezvousState (H K : Type) where
  client : RendezvousClient
  server : Server H K
  relay : List RelayedPacket := []

/-- A step of the client or of the server; a packet of the client after its rendezvous; or a packet
of another node. -/
inductive RendezvousAction
  | client (event : RendezvousEvent)
  | later (destination : Key32) (packet : List UInt8)
  | server (event : ServerEvent)
  | other (source destination : Key32) (packet : List UInt8)

/-- `rendezvous_client` has returned, and has not thrown. -/
def RendezvousClient.HasReturned (c : RendezvousClient) : Prop :=
  ∃ elapsed, c.point = .returned (.ok elapsed)

instance (c : RendezvousClient) : Decidable c.HasReturned :=
  match h : c.point with
  | .returned (.ok elapsed) => isTrue ⟨elapsed, h⟩
  | .returned (.error x) => isFalse fun ⟨_, he⟩ => by rw [h] at he; cases he
  | .starting | .looping | .sending _ | .waiting | .receiving _ | .accepted =>
    isFalse fun ⟨_, he⟩ => by rw [h] at he; cases he

/-- A rendezvous over a relay, which anybody may send packets through. -/
def rendezvousMachine (W : WireguardLwip H K) (P : Parties) :
    Machine (RendezvousState H K) RendezvousAction (RendezvousOutput ⊕ ServerOutput) where
  init := { client := .init P.client, server := .empty }
  step s
    | .client e =>
      if e.Delivered s.relay P.clientPublic then
        (s.client.step P.client e).map fun (client, os) =>
          ({ s with
            client
            relay := s.relay ++ os.filterMap (RendezvousOutput.relayed P.clientPublic) },
            os.map .inl)
      else
        none
    | .later destination packet =>
      if s.client.HasReturned ∧ isMeowPacket packet = false then
        some ({ s with relay := s.relay ++ [⟨P.clientPublic, destination, packet⟩] }, [])
      else
        none
    | .server e =>
      if e.Delivered s.relay P.client.serverPublic then
        ((serverMachine W P.server).step s.server e).map fun (server, os) =>
          ({ s with
            server
            relay := s.relay ++ os.filterMap (ServerOutput.relayed P.client.serverPublic) },
            os.map .inr)
      else
        none
    | .other source destination packet =>
      if source ≠ P.clientPublic ∧ source ≠ P.client.serverPublic then
        some ({ s with relay := s.relay ++ [⟨source, destination, packet⟩] }, [])
      else
        none

/-- What a step of the parties can do, with what it needs. -/
inductive RendezvousState.Steps (W : WireguardLwip H K) (P : Parties) (s : RendezvousState H K) :
    RendezvousAction → RendezvousState H K → Prop
  | client {e : RendezvousEvent} {client : RendezvousClient} {os : List RendezvousOutput}
      (delivered : e.Delivered s.relay P.clientPublic)
      (step : s.client.step P.client e = some (client, os)) :
      s.Steps W P (.client e) { s with
        client
        relay := s.relay ++ os.filterMap (RendezvousOutput.relayed P.clientPublic) }
  | later {destination : Key32} {packet : List UInt8} (returned : s.client.HasReturned)
      (noMeow : isMeowPacket packet = false) :
      s.Steps W P (.later destination packet) { s with
        relay := s.relay ++ [⟨P.clientPublic, destination, packet⟩] }
  | server {e : ServerEvent} {server : Server H K} {os : List ServerOutput}
      (delivered : e.Delivered s.relay P.client.serverPublic)
      (step : (serverMachine W P.server).step s.server e = some (server, os)) :
      s.Steps W P (.server e) { s with
        server
        relay := s.relay ++ os.filterMap (ServerOutput.relayed P.client.serverPublic) }
  | other {source destination : Key32} {packet : List UInt8}
      (client : source ≠ P.clientPublic) (server : source ≠ P.client.serverPublic) :
      s.Steps W P (.other source destination packet) { s with
        relay := s.relay ++ [⟨source, destination, packet⟩] }

theorem rendezvousMachine_steps {W : WireguardLwip H K} {P : Parties} {s s' : RendezvousState H K}
    {a : RendezvousAction} {os : List (RendezvousOutput ⊕ ServerOutput)}
    (hs : (rendezvousMachine W P).step s a = some (s', os)) : s.Steps W P a s' := by
  unfold rendezvousMachine at hs
  -- The two parties step by their machines; the other actions hand packets to the relay.
  cases a with
  | client e =>
    dsimp only at hs
    split_ifs at hs with hd
    obtain ⟨⟨client, os'⟩, hstep, hnext⟩ := Option.map_eq_some_iff.mp hs
    obtain ⟨rfl, -⟩ := Prod.mk.inj hnext
    exact .client hd hstep
  | later destination packet =>
    dsimp only at hs
    split_ifs at hs with hlater
    obtain ⟨rfl, -⟩ := Prod.mk.inj (Option.some.inj hs)
    exact .later hlater.1 hlater.2
  | server e =>
    dsimp only at hs
    split_ifs at hs with hd
    obtain ⟨⟨server, os'⟩, hstep, hnext⟩ := Option.map_eq_some_iff.mp hs
    obtain ⟨rfl, -⟩ := Prod.mk.inj hnext
    exact .server hd hstep
  | other source destination packet =>
    dsimp only at hs
    split_ifs at hs with hother
    obtain ⟨rfl, -⟩ := Prod.mk.inj (Option.some.inj hs)
    exact .other hother.1 hother.2

/-! ## The invariant -/

/-- What holds of the parties between two steps. What is from the client is its ping or no MEOW
packet; what is from the server is for its peers; when the client is a peer, it is so with its disco
key; and it is one when it has got an answer. -/
structure Agreement (W : WireguardLwip H K) (P : Parties) (s : RendezvousState H K) : Prop where
  server : ∃ es os, (serverMachine W P.server).Runs es s.server os
  fromClient : ∀ p ∈ s.relay, p.source = P.clientPublic →
    p.packet = encodeMeowPing P.clientPublic P.client.discoPublic ∨ isMeowPacket p.packet = false
  fromServer : ∀ p ∈ s.relay, p.source = P.client.serverPublic → p.destination ∈ s.server.peers
  disco : ∀ peer, s.server.peers.lookup P.clientPublic = some peer →
    peer.discoPublic = P.client.discoPublic
  registered : s.client.Succeeds → P.clientPublic ∈ s.server.peers

section Agreement

variable {W : WireguardLwip H K} {P : Parties} {s s' : RendezvousState H K}

theorem agreement_init : Agreement W P (rendezvousMachine W P).init where
  server := ⟨[], [], .nil⟩
  fromClient p hp := by cases hp
  fromServer p hp := by cases hp
  disco peer h := by cases h
  registered h := by
    unfold rendezvousMachine RendezvousClient.init RendezvousClient.Succeeds at h
    dsimp only at h
    split_ifs at h
    · simp at h
    · simp at h

/-- The packet of a frame that the relay delivers was handed to it. -/
theorem mem_of_delivers {relay : List RelayedPacket} {node source : Key32} {frame : DerpFrame}
    {packet : List UInt8} (h : Delivers relay node frame) (ht : frame.type = .recvPacket)
    (hp : parseDerpRecvPacket frame.payload = some (source, packet)) :
    ⟨source, node, packet⟩ ∈ relay := by
  obtain ⟨p, hmem, hdestination, hpayload⟩ := h ht
  rw [hpayload, parseDerpRecvPacket_append] at hp
  split_ifs at hp
  obtain ⟨rfl, rfl⟩ := Prod.mk.inj (Option.some.inj hp)
  rw [← hdestination]
  exact hmem

/-- An announcement of the client's node is of its own disco key. -/
theorem Agreement.announces (h : Agreement W P s) {e : ServerEvent} {disco : Key32}
    (hd : e.Delivered s.relay P.client.serverPublic) (he : e.Announces P.clientPublic disco) :
    disco = P.client.discoPublic := by
  cases e with
  | frame env transport stack received =>
    obtain ⟨ht, packet, embedded, hparse, hping⟩ := he
    rcases h.fromClient _ (mem_of_delivers hd ht hparse) rfl with heq | hother
    · have heq : packet = encodeMeowPing P.clientPublic P.client.discoPublic := heq
      have hread := parseMeowPing_append P.clientPublic P.client.discoPublic []
      rw [List.append_nil, ← heq, hping] at hread
      split_ifs at hread
      exact (Prod.mk.inj (Option.some.inj hread)).2
    · -- What is not a MEOW packet announces nothing.
      rw [(isMeowedPacket_of_parse hping).1] at hother
      cases hother
  | sendIp env transport packet => exact he.elim

/-- One more packet from a node that is not the server. -/
theorem Agreement.handIn (h : Agreement W P s) {p : RelayedPacket}
    (hserver : p.source ≠ P.client.serverPublic)
    (hclient : p.source = P.clientPublic →
      p.packet = encodeMeowPing P.clientPublic P.client.discoPublic ∨
        isMeowPacket p.packet = false) : Agreement W P { s with relay := s.relay ++ [p] } where
  server := h.server
  fromClient q hq hsource := by
    rcases List.mem_append.mp hq with hq | hq
    · exact h.fromClient q hq hsource
    · rw [List.mem_singleton.mp hq] at hsource ⊢
      exact hclient hsource
  fromServer q hq hsource := by
    rcases List.mem_append.mp hq with hq | hq
    · exact h.fromServer q hq hsource
    · rw [List.mem_singleton.mp hq] at hsource
      exact absurd hsource hserver
  disco := h.disco
  registered := h.registered

/-- A step of the client: it hands in its ping, and succeeds when it is a peer. -/
theorem Agreement.clientStep (h : Agreement W P s) {e : RendezvousEvent} {client : RendezvousClient}
    {os : List RendezvousOutput} (hd : e.Delivered s.relay P.clientPublic)
    (hs : s.client.step P.client e = some (client, os)) :
    Agreement W P { s with
      client
      relay := s.relay ++ os.filterMap (RendezvousOutput.relayed P.clientPublic) } := by
  -- All that the client hands in is its ping.
  have hsent : ∀ p ∈ os.filterMap (RendezvousOutput.relayed P.clientPublic),
      p = ⟨P.clientPublic, P.client.serverPublic,
        encodeMeowPing P.clientPublic P.client.discoPublic⟩ := by
    intro p hp
    obtain ⟨o, ho, hrelayed⟩ := List.mem_filterMap.mp hp
    cases o with
    | send sent =>
      rcases client_sends hs ho with rfl | ⟨value, rfl⟩
      · exact (Option.some.inj hrelayed).symm
      · cases hrelayed
    | receiveFor timeout => cases hrelayed
    | returned result => cases hrelayed
  refine ⟨h.server, fun p hp hsource => ?_, fun p hp hsource => ?_, h.disco, fun hsucc => ?_⟩
  · rcases List.mem_append.mp hp with hp | hp
    · exact h.fromClient p hp hsource
    · rw [hsent p hp]
      exact .inl rfl
  · rcases List.mem_append.mp hp with hp | hp
    · exact h.fromServer p hp hsource
    · rw [hsent p hp] at hsource
      exact absurd hsource P.distinct
  · -- An answer from the server was for one of its peers.
    rcases accepted_step hs hsucc with hsucc | ⟨frame, packet, rfl, htype, hparse, -⟩
    · exact h.registered hsucc
    · exact h.fromServer _ (mem_of_delivers hd htype hparse) rfl

/-- A step of the server: it sends to its peers, and the client is one with its own disco key. -/
theorem Agreement.serverStep (h : Agreement W P s) {e : ServerEvent} {server : Server H K}
    {os : List ServerOutput} (hd : e.Delivered s.relay P.client.serverPublic)
    (hs : (serverMachine W P.server).step s.server e = some (server, os)) :
    Agreement W P { s with
      server
      relay := s.relay ++ os.filterMap (ServerOutput.relayed P.client.serverPublic) } := by
  obtain ⟨es, os₀, hr⟩ := h.server
  have hstep := peers_step (serverMachine_wellFormed hr) hs
  -- No peer is lost, and all that the server hands in is for a peer.
  have hkept : ∀ node ∈ s.server.peers, node ∈ server.peers := by
    intro node hm
    obtain ⟨peer, hl⟩ := Finmap.mem_iff.mp hm
    obtain ⟨peer', hl', -⟩ := hstep.kept node peer hl
    exact Finmap.mem_of_lookup_eq_some hl'
  have hsent : ∀ p ∈ os.filterMap (ServerOutput.relayed P.client.serverPublic),
      p.source = P.client.serverPublic ∧ p.destination ∈ server.peers := by
    intro p hp
    obtain ⟨o, ho, hrelayed⟩ := List.mem_filterMap.mp hp
    cases o with
    | send sent =>
      cases sent with
      | packet destination packet =>
        obtain rfl := Option.some.inj hrelayed
        exact ⟨rfl, hstep.sent destination packet ho⟩
      | pong value => cases hrelayed
    | inputIp source packet => cases hrelayed
    | returned result => cases hrelayed
  refine ⟨⟨_, _, hr.snoc hs⟩, fun p hp hsource => ?_, fun p hp hsource => ?_, fun peer hl => ?_,
    fun hsucc => hkept _ (h.registered hsucc)⟩
  · rcases List.mem_append.mp hp with hp | hp
    · exact h.fromClient p hp hsource
    · exact absurd (hsource.symm.trans (hsent p hp).1) P.distinct
  · rcases List.mem_append.mp hp with hp | hp
    · exact hkept _ (h.fromServer p hp hsource)
    · exact (hsent p hp).2
  · -- An entry of the client is new or has another disco key only after its own ping.
    cases hold : s.server.peers.lookup P.clientPublic with
    | none => exact h.announces hd (hstep.new _ peer hold hl)
    | some peer₀ =>
      obtain ⟨peer', hl', -, hdisco⟩ := hstep.kept _ peer₀ hold
      obtain rfl := Option.some.inj (hl'.symm.trans hl)
      rcases hdisco with hsame | hannounced
      · exact hsame.trans (h.disco peer₀ hold)
      · exact h.announces hd hannounced

/-- **What a step of the parties preserves.** -/
theorem agreement_step (h : Agreement W P s) {a : RendezvousAction}
    {os : List (RendezvousOutput ⊕ ServerOutput)}
    (hs : (rendezvousMachine W P).step s a = some (s', os)) : Agreement W P s' := by
  cases rendezvousMachine_steps hs with
  | client delivered step => exact h.clientStep delivered step
  | later _ noMeow => exact h.handIn P.distinct fun _ => .inr noMeow
  | server delivered step => exact h.serverStep delivered step
  | other client server => exact h.handIn server fun hsource => absurd hsource client

/-- **What holds of the parties in every run.** -/
theorem agreement {as : List RendezvousAction} {os : List (RendezvousOutput ⊕ ServerOutput)}
    (hr : (rendezvousMachine W P).Runs as s os) : Agreement W P s :=
  hr.invariant (I := Agreement W P) agreement_init fun _ _ _ _ hI hs => agreement_step hI hs

/-- A peer stays, and its engine goes on. -/
theorem peer_kept (h : Agreement W P s) {a : RendezvousAction}
    {os : List (RendezvousOutput ⊕ ServerOutput)}
    (hs : (rendezvousMachine W P).step s a = some (s', os)) {node : Key32} {peer : ServerPeer H K}
    (hl : s.server.peers.lookup node = some peer) : ∃ peer',
      s'.server.peers.lookup node = some peer' ∧ peer.wireguard.Becomes W peer'.wireguard := by
  cases rendezvousMachine_steps hs with
  | client _ _ => exact ⟨peer, hl, .refl _⟩
  | later _ _ => exact ⟨peer, hl, .refl _⟩
  | server _ step =>
    obtain ⟨es, os₀, hr⟩ := h.server
    obtain ⟨peer', hl', hbecomes, -⟩ :=
      (peers_step (serverMachine_wellFormed hr) step).kept node peer hl
    exact ⟨peer', hl', hbecomes⟩
  | other _ _ => exact ⟨peer, hl, .refl _⟩

/-- A peer stays, and its engine goes on, in every later state. -/
theorem peer_kept_runs {as as' : List RendezvousAction}
    {os os' : List (RendezvousOutput ⊕ ServerOutput)}
    (hr : (rendezvousMachine W P).Runs as s os) {node : Key32} {peer : ServerPeer H K}
    (hl : s.server.peers.lookup node = some peer)
    (hr' : (rendezvousMachine W P).Runs (as ++ as') s' os') : ∃ peer',
      s'.server.peers.lookup node = some peer' ∧ peer.wireguard.Becomes W peer'.wireguard := by
  induction as' using List.reverseRecOn generalizing s' os' with
  | nil =>
    rw [List.append_nil] at hr'
    obtain ⟨rfl, -⟩ := hr.unique hr'
    exact ⟨peer, hl, .refl _⟩
  | append_singleton as' a ih =>
    rw [← List.append_assoc] at hr'
    obtain ⟨t, os₁, os₂, hrt, hs, rfl⟩ := Machine.runs_snoc.mp hr'
    obtain ⟨peer₁, hl₁, hbecomes₁⟩ := ih hrt
    obtain ⟨peer', hl', hbecomes'⟩ := peer_kept (agreement hrt) hs hl₁
    exact ⟨peer', hl', hbecomes₁.trans hbecomes'⟩

end Agreement

/-- **Rendezvous agreement**: whatever the parties do, in any order, and whatever the relay does,
when `rendezvous_client` has returned, the server has registered the client's node with the client's
disco key, its policy allows it, and it stays so with the same engine; and only a packet from the
server makes it return. -/
theorem rendezvous_agreement {W : WireguardLwip H K} {P : Parties} {as : List RendezvousAction}
    {s : RendezvousState H K} {os : List (RendezvousOutput ⊕ ServerOutput)}
    (hr : (rendezvousMachine W P).Runs as s os) :
    (s.client.HasReturned → P.server.Allows P.clientPublic ∧ ∃ peer,
      s.server.peers.lookup P.clientPublic = some peer ∧ peer.nodePublic = P.clientPublic ∧
        peer.discoPublic = P.client.discoPublic ∧
        ∀ as' s' os', (rendezvousMachine W P).Runs (as ++ as') s' os' → ∃ peer',
          s'.server.peers.lookup P.clientPublic = some peer' ∧
            peer'.nodePublic = P.clientPublic ∧ peer'.discoPublic = P.client.discoPublic ∧
            peer.wireguard.Becomes W peer'.wireguard) ∧
    ∀ e s' os', (rendezvousMachine W P).step s (.client e) = some (s', os') →
      s'.client.Succeeds → s.client.Succeeds ∨ ∃ frame packet,
        e = .received (.ok (some frame)) ∧
        parseDerpRecvPacket frame.payload = some (P.client.serverPublic, packet) ∧
        isMeowedPacket packet = true := by
  -- What the invariants say of an entry of the client, in every state that is reached.
  have hpeer : ∀ {as s os}, (rendezvousMachine W P).Runs as s os → ∀ peer,
      s.server.peers.lookup P.clientPublic = some peer → P.server.Allows P.clientPublic ∧
        peer.nodePublic = P.clientPublic ∧ peer.discoPublic = P.client.discoPublic := by
    intro as s os hr peer hl
    have hI := agreement hr
    obtain ⟨es, os₀, hserver⟩ := hI.server
    have hw := serverMachine_wellFormed hserver
    exact ⟨hw.allowed _ (Finmap.mem_of_lookup_eq_some hl), hw.nodePublic _ peer hl,
      hI.disco peer hl⟩
  constructor
  · rintro ⟨elapsed, hreturned⟩
    obtain ⟨peer, hl⟩ := Finmap.mem_iff.mp ((agreement hr).registered (.inr ⟨elapsed, hreturned⟩))
    obtain ⟨hallowed, hnode, hdisco⟩ := hpeer hr peer hl
    refine ⟨hallowed, peer, hl, hnode, hdisco, fun as' s' os' hr' => ?_⟩
    obtain ⟨peer', hl', hbecomes⟩ := peer_kept_runs hr hl hr'
    obtain ⟨-, hnode', hdisco'⟩ := hpeer hr' peer' hl'
    exact ⟨peer', hl', hnode', hdisco', hbecomes⟩
  · intro e s' os' hs hsucc
    cases rendezvousMachine_steps hs with
    | client _ step =>
      rcases accepted_step step hsucc with hsucc | ⟨frame, packet, he, -, hparse, hmeowed⟩
      · exact .inl hsucc
      · exact .inr ⟨frame, packet, he, hparse, hmeowed⟩

/-- A ping that the relay delivers twice, with a packet of another node in between. -/
theorem rendezvous_agreement_example :
    let client : Key32 := List.Vector.replicate 32 1
    let disco : Key32 := List.Vector.replicate 32 2
    let server : Key32 := Octets.zero 32
    let P : Parties :=
      { client := ⟨⟨Octets.zero 32, client⟩, disco, server, 5000⟩
        server := { identity := ⟨server, server⟩, psk := none, allow := some (· == client) }
        serverPublic := rfl
        distinct := by decide }
    let ping : DerpFrame := ⟨.recvPacket, client.toList ++ encodeMeowPing client disco⟩
    let answer : DerpFrame := ⟨.recvPacket, server.toList ++ encodeMeowed⟩
    let announce := RendezvousAction.server (.frame ⟨fun _ => 0, fun _ => 7⟩ (.of ping) (.ok ()) ping)
    let as : List RendezvousAction := [.client (.now 0), .client (.now 0), .client (.sent (.ok ())),
      announce, .other disco server encodeMeowed, announce, .client (.now 1), .client (.now 1),
      .client (.now 1), .client (.received (.ok (some answer))), .client (.now 7000000)]
    ∃ s os peer, (rendezvousMachine plainLwip P).Runs as s os ∧
      s.server.peers.lookup client = some peer ∧ peer.discoPublic = disco := by
  intro client disco server P ping answer announce as
  obtain ⟨⟨s, os⟩, hr⟩ : ∃ r, (rendezvousMachine plainLwip P).run as = some r :=
    Option.isSome_iff_exists.mp (by decide +kernel)
  have hreturned : ((rendezvousMachine plainLwip P).run as).map
      (fun r => decide r.1.client.HasReturned) = some true := by
    decide +kernel
  rw [hr] at hreturned
  obtain ⟨-, peer, hl, -, hdisco, -⟩ :=
    (rendezvous_agreement hr).1 (of_decide_eq_true (Option.some.inj hreturned))
  exact ⟨s, os, peer, hr, hl, hdisco⟩

end Tailcat
