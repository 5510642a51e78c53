import Tailcat.Server.DataPlane

/-!
# The tables of a server

In every run the tables agree with each other, up to addresses that several registered nodes share,
and the engine of every peer has only been used as an engine for its node.

## Main definitions

* `EngineOf`: an engine that was made for a node
* `Server.WellFormed`: the invariant of the tables

## Main results

* `serverMachine_wellFormed`: the tables are well formed in every run
-/

namespace Tailcat

section WellFormed

variable {H K : Type} {W : WireguardLwip H K} {cfg : ServerConfig}

/-- An engine that was made for a node, and has been used as an engine since. -/
def EngineOf (W : WireguardLwip H K) (cfg : ServerConfig) (node : Key32) (e : Engine H K) : Prop :=
  ∃ env e₀ es os, Engine.create W env cfg.identity node cfg.psk = .ok e₀ ∧
    (engineMachine W e₀).Runs es e os

theorem EngineOf.step {node : Key32} {e e' : Engine H K} {event : EngineEvent}
    {os : List EngineOutput} (h : EngineOf W cfg node e)
    (hs : (engineMachine W e).step e event = some (e', os)) : EngineOf W cfg node e' := by
  obtain ⟨env, e₀, es, os₀, hc, hr⟩ := h
  exact ⟨env, e₀, _, _, hc, hr.snoc hs⟩

theorem EngineOf.handle {node : Key32} {e : Engine H K} (h : EngineOf W cfg node e) (env : Env)
    (packet : List UInt8) : EngineOf W cfg node (e.handle W env packet).1 :=
  h.step (engineMachine_handle W e e env packet)

theorem EngineOf.encrypt {node : Key32} {e : Engine H K} (h : EngineOf W cfg node e) (env : Env)
    (packet : List UInt8) : EngineOf W cfg node (e.encrypt W env packet).1 :=
  h.step (engineMachine_encrypt W e e env packet)

/-- The engine of a node is for this node. -/
theorem EngineOf.remote_eq {node : Key32} {e : Engine H K} (h : EngineOf W cfg node e) :
    e.remote = node := by
  obtain ⟨env, e₀, es, os, hc, hr⟩ := h
  refine hr.invariant (I := fun e => e.remote = node) (Engine.remote_of_create hc) ?_
  intro e event e' os' hI hs
  rw [remote_engineMachine hs, hI]

namespace Server

/-- Every peer is allowed, and registered under its key, with an engine for it. Every address leads
to a registered peer that has it, and the address of every registered peer leads to one. -/
structure WellFormed (W : WireguardLwip H K) (cfg : ServerConfig) (s : Server H K) : Prop where
  allowed : ∀ node ∈ s.peers, cfg.Allows node
  nodePublic : ∀ node peer, s.peers.lookup node = some peer → peer.nodePublic = node
  engine : ∀ node peer, s.peers.lookup node = some peer → EngineOf W cfg node peer.wireguard
  routed : ∀ address node, s.peersByIp.lookup address = some node →
    node ∈ s.peers ∧ tailcatIpForNode node = address
  found : ∀ node ∈ s.peers, tailcatIpForNode node ∈ s.peersByIp

theorem wellFormed_empty : WellFormed W cfg (empty : Server H K) where
  allowed node h := absurd h (Finmap.notMem_empty)
  nodePublic node peer h := by cases h
  engine node peer h := by cases h
  routed address node h := by cases h
  found node h := absurd h (Finmap.notMem_empty)

variable {s : Server H K}

/-- The entry of a registered peer changes. -/
theorem WellFormed.update (h : WellFormed W cfg s) {node : Key32} {peer peer' : ServerPeer H K}
    (hl : s.peers.lookup node = some peer) (hn : peer'.nodePublic = node)
    (he : EngineOf W cfg node peer'.wireguard) :
    WellFormed W cfg { s with peers := s.peers.insert node peer' } := by
  have hmem := mem_insert_of_lookup hl peer'
  -- The entries are those from before, but for the one that changes.
  have hlookup : ∀ node' p, (s.peers.insert node peer').lookup node' = some p →
      (node' = node ∧ p = peer') ∨ s.peers.lookup node' = some p := by
    intro node' p hp
    by_cases hne : node' = node
    · subst hne
      rw [Finmap.lookup_insert] at hp
      exact .inl ⟨rfl, (Option.some.inj hp).symm⟩
    · rw [Finmap.lookup_insert_of_ne _ hne] at hp
      exact .inr hp
  refine ⟨fun node' hm => h.allowed node' ((hmem node').mp hm), fun node' p hp => ?_,
    fun node' p hp => ?_, fun address node' hr => ?_,
    fun node' hm => h.found node' ((hmem node').mp hm)⟩
  · rcases hlookup node' p hp with ⟨rfl, rfl⟩ | hp
    · exact hn
    · exact h.nodePublic node' p hp
  · rcases hlookup node' p hp with ⟨rfl, rfl⟩ | hp
    · exact he
    · exact h.engine node' p hp
  · obtain ⟨hm, ha⟩ := h.routed address node' hr
    exact ⟨(hmem node').mpr hm, ha⟩

theorem WellFormed.setWireguard (h : WellFormed W cfg s) {node : Key32} {peer : ServerPeer H K}
    (hl : s.peers.lookup node = some peer) {wireguard : Engine H K}
    (he : EngineOf W cfg node wireguard) :
    WellFormed W cfg (s.setWireguard node peer wireguard) :=
  h.update hl (h.nodePublic node peer hl) he

/-- What a new peer is. -/
theorem newPeer_eq_ok {env : Env} {node disco : Key32} {peer : ServerPeer H K}
    (h : newPeer W cfg env node disco = .ok peer) :
    peer.nodePublic = node ∧ peer.address = tailcatIpForNode node ∧
      EngineOf W cfg node peer.wireguard := by
  unfold newPeer at h
  cases hc : Engine.create W env cfg.identity node cfg.psk with
  | error x =>
    rw [hc] at h
    cases h
  | ok e =>
    rw [hc] at h
    obtain rfl := Except.ok.inj h
    exact ⟨rfl, rfl, env, e, [], [], hc, .nil⟩

/-- A node that was not registered becomes a peer. -/
theorem WellFormed.register (h : WellFormed W cfg s) {node : Key32} {peer : ServerPeer H K}
    (hl : s.peers.lookup node = none) (ha : cfg.Allows node) (hn : peer.nodePublic = node)
    (haddress : peer.address = tailcatIpForNode node) (he : EngineOf W cfg node peer.wireguard) :
    WellFormed W cfg
      { peers := emplace s.peers node peer
        peersByIp := emplace s.peersByIp peer.address node } := by
  have hpeers : ∀ node' p, (emplace s.peers node peer).lookup node' = some p →
      (node' = node ∧ p = peer) ∨ s.peers.lookup node' = some p := by
    intro node' p hp
    rw [lookup_emplace] at hp
    split at hp
    · rw [hl, Option.getD_none] at hp
      exact .inl ⟨‹_›, (Option.some.inj hp).symm⟩
    · exact .inr hp
  have hmem : ∀ node', node' ∈ emplace s.peers node peer ↔ node' = node ∨ node' ∈ s.peers := by
    intro node'
    rw [emplace, if_neg (Finmap.lookup_eq_none.mp hl), Finmap.mem_insert]
  refine ⟨fun node' hm => ?_, fun node' p hp => ?_, fun node' p hp => ?_,
    fun address node' hr => ?_, fun node' hm => ?_⟩
  · rcases (hmem node').mp hm with rfl | hm
    · exact ha
    · exact h.allowed node' hm
  · rcases hpeers node' p hp with ⟨rfl, rfl⟩ | hp
    · exact hn
    · exact h.nodePublic node' p hp
  · rcases hpeers node' p hp with ⟨rfl, rfl⟩ | hp
    · exact he
    · exact h.engine node' p hp
  · dsimp only at hr
    rw [lookup_emplace] at hr
    -- An address that is taken keeps leading to the peer that took it.
    cases hold : s.peersByIp.lookup address with
    | some node₀ =>
      have hr' : node' = node₀ := by
        split at hr
        · rename_i heq
          rw [← heq, hold] at hr
          exact (Option.some.inj hr).symm
        · rw [hold] at hr
          exact (Option.some.inj hr).symm
      subst hr'
      obtain ⟨hm, haddr⟩ := h.routed address node' hold
      exact ⟨(hmem node').mpr (.inr hm), haddr⟩
    | none =>
      split at hr
      · rename_i heq
        rw [← heq, hold, Option.getD_none] at hr
        obtain rfl := Option.some.inj hr
        exact ⟨(hmem _).mpr (.inl rfl), haddress.symm.trans heq.symm⟩
      · rw [hold] at hr
        cases hr
  · have hby : ∀ address, address = peer.address ∨ address ∈ s.peersByIp →
        address ∈ emplace s.peersByIp peer.address node := by
      intro address ho
      rw [Finmap.mem_iff]
      rw [lookup_emplace]
      split
      · exact ⟨_, rfl⟩
      · rename_i hne
        exact Finmap.mem_iff.mp (ho.resolve_left hne)
    rcases (hmem node').mp hm with rfl | hm
    · exact hby _ (.inl haddress.symm)
    · exact hby _ (.inr (h.found node' hm))

/-- What a frame preserves. -/
theorem WellFormed.handleFrame {env : Env} {transport : DerpTransport} {stack : Except Exn Unit}
    {frame : DerpFrame} {s' : Server H K} {os : List ServerOutput} {result : Except Exn Bool}
    (h : WellFormed W cfg s)
    (hf : FrameHandled W cfg env transport stack s frame s' os result) : WellFormed W cfg s' := by
  cases hf with
  | ignored => exact h
  | pong value => exact h
  | malformed => exact h
  | refused source disco x lookup new => exact h
  | announced type source packet node disco parsed ping allowed _ added =>
    rcases addPeer_eq_ok.mp added with ⟨existing, hl, rfl⟩ | ⟨hl, peer, hn, rfl⟩
    · exact h.update hl (h.nodePublic source existing hl) (h.engine source existing hl)
    · obtain ⟨hnode, haddress, he⟩ := newPeer_eq_ok hn
      exact h.register hl allowed hnode haddress he
  | received type source packet peer parsed other lookup =>
    exact h.setWireguard lookup ((h.engine _ _ lookup).handle env packet)

/-- What a packet that leaves the stack preserves. -/
theorem WellFormed.sendIp {env : Env} {packet : List UInt8} {s' : Server H K}
    {os : List ServerOutput} {result : Except Exn Unit} (h : WellFormed W cfg s)
    (hp : PacketSent W env s packet s' os result) : WellFormed W cfg s' := by
  cases hp with
  | dropped => exact h
  | failed long node peer wireguard x route lookup encrypt =>
    have he := (h.engine _ _ lookup).encrypt env packet
    rw [encrypt] at he
    exact h.setWireguard lookup he
  | sent long node peer wireguard message route lookup encrypt result =>
    have he := (h.engine _ _ lookup).encrypt env packet
    rw [encrypt] at he
    exact h.setWireguard lookup he

end Server

/-- **The tables are well formed in every run.** -/
theorem serverMachine_wellFormed {es : List ServerEvent} {s : Server H K} {os : List ServerOutput}
    (hr : (serverMachine W cfg).Runs es s os) : s.WellFormed W cfg := by
  refine hr.invariant (I := fun s => s.WellFormed W cfg) Server.wellFormed_empty ?_
  rintro s (⟨env, transport, stack, frame⟩ | ⟨env, transport, packet⟩) s' os hI hs
  · rw [serverMachine_frame] at hs
    rw [← (Prod.mk.inj (Option.some.inj hs)).1]
    exact hI.handleFrame (Server.handleFrame_handled W cfg env transport stack s frame)
  · rw [serverMachine_sendIp] at hs
    rw [← (Prod.mk.inj (Option.some.inj hs)).1]
    exact hI.sendIp (Server.sendIp_sent W env transport s packet)

end WellFormed

end Tailcat
