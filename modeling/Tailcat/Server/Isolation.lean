import Tailcat.Base.Locality
import Tailcat.Server.Routing

/-!
# Peers do not see each other

A frame of a node, and a packet for its address, concern the entries of the tables under this
address and no others: they change nothing else and depend on nothing else. Two such events of nodes
with different addresses can therefore be handled in either order.

## Main definitions

* `Server.at`: the part of the tables under one address
* `ServerEvent.Concerns`: an event is a frame of a node, or a packet for its address
* `sentTo`, `injectedFrom`: what a node is sent, and what enters the stack on its behalf

## Main results

* `act_localAt`: what concerns a node is local to its address
* `peers_isolated`: events of nodes with different addresses commute
-/

namespace Tailcat

variable {H K : Type}

/-! ## Entries under an address -/

/-- The peers that have an address, and the node that it leads to. -/
def Server.at (address : Ip6Address) (s : Server H K) :
    (Key32 → Option (ServerPeer H K)) × Option Key32 :=
  (fun node => if tailcatIpForNode node = address then s.peers.lookup node else none,
    s.peersByIp.lookup address)

theorem lookup_of_at_eq {s t : Server H K} {node : Key32}
    (h : s.at (tailcatIpForNode node) = t.at (tailcatIpForNode node)) :
    s.peers.lookup node = t.peers.lookup node := by
  have hnode := congrFun (congrArg Prod.fst h) node
  simpa [Server.at] using hnode

/-- Tables that agree on the nodes with an address, and on where it leads, agree under it. -/
theorem at_eq_of_lookup {s t : Server H K} {address : Ip6Address}
    (hpeers : ∀ node, tailcatIpForNode node = address → s.peers.lookup node = t.peers.lookup node)
    (hroute : s.peersByIp.lookup address = t.peersByIp.lookup address) :
    s.at address = t.at address := by
  refine Prod.ext (funext fun node => ?_) hroute
  unfold Server.at
  dsimp only
  split
  · exact hpeers node ‹_›
  · rfl

/-- Tables that agree under every address are equal. -/
theorem Server.ext_at {s t : Server H K} (h : ∀ address, s.at address = t.at address) : s = t := by
  obtain ⟨peers, peersByIp⟩ := s
  obtain ⟨peers', peersByIp'⟩ := t
  have hpeers : peers = peers' := by
    apply Finmap.ext_lookup
    intro node
    exact lookup_of_at_eq (h (tailcatIpForNode node))
  have hroutes : peersByIp = peersByIp' := by
    apply Finmap.ext_lookup
    intro address
    exact congrArg Prod.snd (h address)
  rw [hpeers, hroutes]

/-- What a call does to the entries of a node. -/
inductive EntryChange (H K : Type)
  | kept
  | replaced (peer : ServerPeer H K)
  | registered (peer : ServerPeer H K)

/-- The tables after a change of the entries of a node. -/
def Server.change (s : Server H K) (node : Key32) : EntryChange H K → Server H K
  | .kept => s
  | .replaced peer => { s with peers := s.peers.insert node peer }
  | .registered peer =>
    { peers := s.peers.insert node peer
      peersByIp := emplace s.peersByIp (tailcatIpForNode node) node }

/-- What is under other addresses stays. -/
theorem Server.at_change_of_ne (s : Server H K) {node : Key32} (c : EntryChange H K)
    {address : Ip6Address} (h : address ≠ tailcatIpForNode node) :
    (s.change node c).at address = s.at address := by
  have hinsert : ∀ peer : ServerPeer H K, ∀ node', tailcatIpForNode node' = address →
      (s.peers.insert node peer).lookup node' = s.peers.lookup node' := by
    rintro peer node' rfl
    refine Finmap.lookup_insert_of_ne _ fun he => ?_
    exact h (congrArg tailcatIpForNode he)
  cases c with
  | kept => rfl
  | replaced peer => exact at_eq_of_lookup (hinsert peer) rfl
  | registered peer =>
    apply at_eq_of_lookup (hinsert peer)
    unfold Server.change
    rw [lookup_emplace, if_neg h]

/-- What becomes of the entries under an address depends on these only. -/
theorem Server.at_change_congr {s t : Server H K} {node : Key32} (c : EntryChange H K)
    (h : s.at (tailcatIpForNode node) = t.at (tailcatIpForNode node)) :
    (s.change node c).at (tailcatIpForNode node) =
      (t.change node c).at (tailcatIpForNode node) := by
  have hpeers : ∀ peer : ServerPeer H K, ∀ node', tailcatIpForNode node' = tailcatIpForNode node →
      (s.peers.insert node peer).lookup node' = (t.peers.insert node peer).lookup node' := by
    intro peer node' ha
    by_cases he : node' = node
    · subst he
      rw [Finmap.lookup_insert, Finmap.lookup_insert]
    · rw [Finmap.lookup_insert_of_ne _ he, Finmap.lookup_insert_of_ne _ he]
      exact lookup_of_at_eq (by rw [ha]; exact h)
  have hroute : s.peersByIp.lookup (tailcatIpForNode node) =
      t.peersByIp.lookup (tailcatIpForNode node) := congrArg Prod.snd h
  cases c with
  | kept => exact h
  | replaced peer => exact at_eq_of_lookup (hpeers peer) hroute
  | registered peer =>
    apply at_eq_of_lookup (hpeers peer)
    unfold Server.change
    rw [lookup_emplace, lookup_emplace, hroute]

/-! ## What an event concerns -/

/-- A frame that the relay says is from a node, or a packet for its address. -/
def ServerEvent.Concerns : ServerEvent → Key32 → Prop
  | .frame _ _ _ received, node =>
    ∃ packet : List UInt8, received = ⟨.recvPacket, node.toList ++ packet⟩
  | .sendIp _ _ packet, node => IsFor packet (tailcatIpForNode node)

/-- A step of the server, which is never stuck. -/
def ServerEvent.act (W : WireguardLwip H K) (cfg : ServerConfig) (e : ServerEvent)
    (s : Server H K) : Server H K × List ServerOutput :=
  match e with
  | .frame env transport stack received =>
    let r := s.handleFrame W cfg env transport stack received
    (r.1, r.2.1 ++ [.returned r.2.2])
  | .sendIp env transport packet =>
    let r := s.sendIp W env transport packet
    (r.1, r.2.1 ++ [.returned (r.2.2.map fun _ => true)])

variable {W : WireguardLwip H K} {cfg : ServerConfig} {env : Env} {transport : DerpTransport}
  {stack : Except Exn Unit} {s t : Server H K} {e f : ServerEvent} {A B : Key32}

theorem serverMachine_act (W : WireguardLwip H K) (cfg : ServerConfig) (s : Server H K)
    (e : ServerEvent) :
    (serverMachine W cfg).step s e = some ((e.act W cfg s).1, (e.act W cfg s).2) := by
  cases e <;> rfl

variable (W cfg env) in
/-- Registering a node does the same to two servers that agree on its entry. -/
theorem addPeer_congr {node : Key32} (disco : Key32) (h : s.peers.lookup node = t.peers.lookup node) :
    ∃ c result, s.addPeer W cfg env node disco = (s.change node c, result) ∧
      t.addPeer W cfg env node disco = (t.change node c, result) := by
  unfold Server.addPeer
  rw [h]
  -- What is done depends on the entry of the node alone, which is the same in both.
  cases hl : t.peers.lookup node with
  | some existing =>
    exact ⟨.replaced { existing with discoPublic := disco }, .ok (), rfl, rfl⟩
  | none =>
    dsimp only
    cases hn : Server.newPeer W cfg env node disco with
    | error x => exact ⟨.kept, .error x, rfl, rfl⟩
    | ok peer =>
      refine ⟨.registered peer, .ok (), ?_, ?_⟩
      · have hs : emplace s.peers node peer = s.peers.insert node peer :=
          if_neg (Finmap.lookup_eq_none.mp (h.trans hl))
        dsimp only
        rw [hs, peer.address_eq, (Server.newPeer_eq_ok hn).1]
        rfl
      · have ht : emplace t.peers node peer = t.peers.insert node peer :=
          if_neg (Finmap.lookup_eq_none.mp hl)
        dsimp only
        rw [ht, peer.address_eq, (Server.newPeer_eq_ok hn).1]
        rfl

variable (W cfg env transport stack) in
/-- A frame does the same to two servers that agree on the entry of the node it is from. -/
theorem handleFrame_congr {node : Key32} (packet : List UInt8)
    (h : s.peers.lookup node = t.peers.lookup node) :
    ∃ c r, s.handleFrame W cfg env transport stack ⟨.recvPacket, node.toList ++ packet⟩ =
        (s.change node c, r) ∧
      t.handleFrame W cfg env transport stack ⟨.recvPacket, node.toList ++ packet⟩ =
        (t.change node c, r) := by
  have htype : ¬ DerpFrameType.recvPacket = .ping := by decide
  unfold Server.handleFrame
  simp only [if_neg htype, ne_eq, not_true_eq_false, if_false, parseDerpRecvPacket_append]
  -- Only a ping that is allowed and a packet from a peer change anything.
  by_cases hlong : packet.length ≤ kDerpMaxPacket
  · simp only [if_pos hlong]
    by_cases hmeowed : isMeowedPacket packet = true
    · simp only [if_pos hmeowed]
      exact ⟨.kept, _, rfl, rfl⟩
    by_cases hmeow : isMeowPacket packet = true
    · simp only [if_neg hmeowed, if_pos hmeow]
      cases hping : parseMeowPing packet with
      | none => exact ⟨.kept, _, rfl, rfl⟩
      | some announced =>
        obtain ⟨embedded, disco⟩ := announced
        by_cases hallowed : cfg.Allows node
        · obtain ⟨c, result, hs, ht⟩ := addPeer_congr W cfg env disco h
          simp only [not_true_eq_false, if_false, hallowed, hs, ht]
          cases result with
          | error x => exact ⟨c, _, rfl, rfl⟩
          | ok _ => exact ⟨c, _, rfl, rfl⟩
        · simp only [hallowed, not_false_eq_true, if_true]
          exact ⟨.kept, _, rfl, rfl⟩
    · simp only [if_neg hmeowed, if_neg hmeow, h]
      cases hl : t.peers.lookup node with
      | none => exact ⟨.kept, _, rfl, rfl⟩
      | some peer =>
        exact ⟨.replaced { peer with wireguard := (peer.wireguard.handle W env packet).1 }, _, rfl,
          rfl⟩
  · simp only [if_neg hlong]
    exact ⟨.kept, _, rfl, rfl⟩

variable (W env transport) in
/-- A packet does the same to two servers that agree on what is under its address: it concerns a
node with this address. -/
theorem sendIp_congr {packet : List UInt8} (hs : s.WellFormed W cfg)
    (hfor : IsFor packet (tailcatIpForNode A))
    (h : s.at (tailcatIpForNode A) = t.at (tailcatIpForNode A)) :
    ∃ node c r, tailcatIpForNode node = tailcatIpForNode A ∧
      s.sendIp W env transport packet = (s.change node c, r) ∧
      t.sendIp W env transport packet = (t.change node c, r) := by
  obtain ⟨long, hversion, hdestination⟩ := hfor
  have hchecked : ¬ (packet.length < 40 ∨ packet.getD 0 0 >>> 4 ≠ 6) := by
    rw [not_or]
    exact ⟨by omega, not_not.mpr hversion⟩
  have hroute : s.peersByIp.lookup (tailcatIpForNode A) =
      t.peersByIp.lookup (tailcatIpForNode A) := congrArg Prod.snd h
  unfold Server.sendIp
  rw [dif_neg hchecked, dif_neg hchecked, hdestination, hroute]
  cases hr : t.peersByIp.lookup (tailcatIpForNode A) with
  | none => exact ⟨A, .kept, _, rfl, rfl, rfl⟩
  | some node =>
    -- The node that the address leads to has the address.
    have hnode := (hs.routed _ _ (hroute.trans hr)).2
    have hlookup : s.peers.lookup node = t.peers.lookup node :=
      lookup_of_at_eq (by rw [hnode]; exact h)
    simp only [hlookup]
    cases hl : t.peers.lookup node with
    | none => exact ⟨node, .kept, _, hnode, rfl, rfl⟩
    | some peer =>
      by_cases he : peer.wireguard.established = true
      · simp only [he, not_true_eq_false, if_false]
        refine ⟨node, .replaced { peer with
          wireguard := (peer.wireguard.encrypt W env packet).1 }, ?_⟩
        obtain ⟨⟨wireguard, message⟩, hm⟩ : ∃ r, peer.wireguard.encrypt W env packet = r := ⟨_, rfl⟩
        rw [hm]
        cases message with
        | error x => exact ⟨_, hnode, rfl, rfl⟩
        | ok message => exact ⟨_, hnode, rfl, rfl⟩
      · simp only [he]
        exact ⟨node, .kept, _, hnode, rfl, rfl⟩

/-- An event that concerns a node does the same to two servers that agree on what is under its
address. -/
theorem act_congr (hs : s.WellFormed W cfg) (he : e.Concerns A)
    (h : s.at (tailcatIpForNode A) = t.at (tailcatIpForNode A)) :
    ∃ node c os, tailcatIpForNode node = tailcatIpForNode A ∧
      e.act W cfg s = (s.change node c, os) ∧ e.act W cfg t = (t.change node c, os) := by
  cases e with
  | frame env transport stack frame =>
    obtain ⟨packet, rfl⟩ := he
    obtain ⟨c, r, hfs, hft⟩ :=
      handleFrame_congr W cfg env transport stack packet (lookup_of_at_eq h)
    refine ⟨A, c, r.1 ++ [.returned r.2], rfl, ?_, ?_⟩
    · simp only [ServerEvent.act, hfs]
    · simp only [ServerEvent.act, hft]
  | sendIp env transport packet =>
    obtain ⟨node, c, r, hnode, hps, hpt⟩ := sendIp_congr W env transport hs he h
    refine ⟨node, c, r.1 ++ [.returned (r.2.map fun _ => true)], hnode, ?_, ?_⟩
    · simp only [ServerEvent.act, hps]
    · simp only [ServerEvent.act, hpt]

/-- **What concerns a node is local to its address.** -/
theorem act_localAt (W : WireguardLwip H K) (cfg : ServerConfig) (he : e.Concerns A) :
    LocalAt Server.at (Server.WellFormed W cfg) (tailcatIpForNode A) (e.act W cfg) where
  keeps s hs := by
    cases e with
    | frame env transport stack frame =>
      exact hs.handleFrame (Server.handleFrame_handled W cfg env transport stack s frame)
    | sendIp env transport packet =>
      exact hs.sendIp (Server.sendIp_sent W env transport s packet)
  frame s hs address hne := by
    obtain ⟨node, c, os, hnode, ha, -⟩ := act_congr hs he rfl
    rw [ha]
    exact s.at_change_of_ne c (by rwa [hnode])
  same s t hs ht h := by
    obtain ⟨node, c, os, hnode, has, hat⟩ := act_congr hs he h
    rw [has, hat]
    refine ⟨?_, rfl⟩
    rw [← hnode] at h ⊢
    exact Server.at_change_congr c h

/-! ## What the nodes get -/

/-- The packets that a node is sent, in order. -/
def sentTo (destination : Key32) (os : List ServerOutput) : List (List UInt8) :=
  os.filterMap fun
    | .send (.packet node packet) => if node = destination then some packet else none
    | _ => none

/-- The plaintexts that enter the stack on behalf of a node, in order. -/
def injectedFrom (source : Key32) (os : List ServerOutput) : List (List UInt8) :=
  os.filterMap fun
    | .inputIp node packet => if node = source then some packet else none
    | _ => none

/-- An output concerns nodes with an address only. -/
def ServerOutput.At (address : Ip6Address) : ServerOutput → Prop
  | .send (.packet node _) => tailcatIpForNode node = address
  | .send (.pong _) => True
  | .inputIp node _ => tailcatIpForNode node = address
  | .returned _ => True

theorem act_outputs (hs : s.WellFormed W cfg) (he : e.Concerns A) :
    ∀ o ∈ (e.act W cfg s).2, o.At (tailcatIpForNode A) := by
  intro o ho
  cases e with
  | frame env transport stack frame =>
    obtain ⟨packet, rfl⟩ := he
    -- The frame is parsed as a packet from the node that it concerns.
    have hsource : ∀ source packet',
        parseDerpRecvPacket (A.toList ++ packet) = some (source, packet') → source = A := by
      intro source packet' hp
      rw [parseDerpRecvPacket_append] at hp
      split at hp
      · exact (Prod.mk.inj (Option.some.inj hp)).1.symm
      · cases hp
    have hf := Server.handleFrame_handled W cfg env transport stack s
      ⟨.recvPacket, A.toList ++ packet⟩
    rcases List.mem_append.mp ho with ho | ho
    · generalize s.handleFrame W cfg env transport stack ⟨.recvPacket, A.toList ++ packet⟩ = r
        at ho hf
      obtain ⟨s', os, result⟩ := r
      dsimp only at ho hf
      cases hf with
      | ignored => cases ho
      | pong value result =>
        rw [List.mem_singleton.mp ho]
        trivial
      | malformed => cases ho
      | refused source disco x lookup new => cases ho
      | announced type source packet' node disco parsed ping allowed _ added result =>
        rw [List.mem_singleton.mp ho, hsource _ _ parsed]
        rfl
      | received type source packet' peer parsed other lookup =>
        rcases Server.mem_deliver ho with ⟨-, rfl⟩ | ⟨plaintext, -, rfl⟩
        · exact congrArg tailcatIpForNode (hsource _ _ parsed)
        · exact congrArg tailcatIpForNode (hsource _ _ parsed)
    · rw [List.mem_singleton.mp ho]
      trivial
  | sendIp env transport packet =>
    obtain ⟨long, hversion, hdestination⟩ := he
    have hp := Server.sendIp_sent W env transport s packet
    rcases List.mem_append.mp ho with ho | ho
    · generalize s.sendIp W env transport packet = r at ho hp
      obtain ⟨s', os, result⟩ := r
      dsimp only at ho hp
      cases hp with
      | dropped => cases ho
      | failed long node peer wireguard x route lookup encrypt => cases ho
      | sent long node peer wireguard message route lookup encrypt result =>
        -- The route of the address leads to a node that has it.
        rw [List.mem_singleton.mp ho]
        change tailcatIpForNode peer.nodePublic = _
        rw [hs.nodePublic node peer lookup, (hs.routed _ _ route).2, hdestination]
    · rw [List.mem_singleton.mp ho]
      trivial

theorem sentTo_append (destination : Key32) (os ps : List ServerOutput) :
    sentTo destination (os ++ ps) = sentTo destination os ++ sentTo destination ps :=
  List.filterMap_append

theorem injectedFrom_append (source : Key32) (os ps : List ServerOutput) :
    injectedFrom source (os ++ ps) = injectedFrom source os ++ injectedFrom source ps :=
  List.filterMap_append

/-- A node with another address is sent nothing. -/
theorem sentTo_eq_nil {address : Ip6Address} {os : List ServerOutput}
    (h : ∀ o ∈ os, o.At address) {destination : Key32}
    (hne : tailcatIpForNode destination ≠ address) : sentTo destination os = [] := by
  refine List.filterMap_eq_nil_iff.mpr fun o ho => ?_
  have hat := h o ho
  cases o with
  | send sent =>
    cases sent with
    | packet node packet =>
      apply if_neg
      rintro rfl
      exact hne hat
    | pong value => rfl
  | inputIp node packet => rfl
  | returned result => rfl

/-- Nothing enters the stack on behalf of a node with another address. -/
theorem injectedFrom_eq_nil {address : Ip6Address} {os : List ServerOutput}
    (h : ∀ o ∈ os, o.At address) {source : Key32}
    (hne : tailcatIpForNode source ≠ address) : injectedFrom source os = [] := by
  refine List.filterMap_eq_nil_iff.mpr fun o ho => ?_
  have hat := h o ho
  cases o with
  | send sent => rfl
  | inputIp node packet =>
    apply if_neg
    rintro rfl
    exact hne hat
  | returned result => rfl

/-- **Peers are isolated**: events of two nodes with different addresses can be handled in either
order. Tables and engines end up the same, each call returns and emits the same, every node is sent
the same packets in the same order, and the same plaintexts enter the stack on its behalf. -/
theorem peers_isolated {es : List ServerEvent} {os : List ServerOutput}
    (hr : (serverMachine W cfg).Runs es s os)
    (haddress : tailcatIpForNode A ≠ tailcatIpForNode B) (he : e.Concerns A) (hf : f.Concerns B) :
    ∃ s' osA osB,
      (serverMachine W cfg).Runs (es ++ [e] ++ [f]) s' (os ++ osA ++ osB) ∧
      (serverMachine W cfg).Runs (es ++ [f] ++ [e]) s' (os ++ osB ++ osA) ∧
      (∀ destination, sentTo destination (osA ++ osB) = sentTo destination (osB ++ osA)) ∧
      ∀ source, injectedFrom source (osA ++ osB) = injectedFrom source (osB ++ osA) := by
  have hs := serverMachine_wellFormed hr
  obtain ⟨hstate, hB, hA⟩ := (act_localAt W cfg he).comm
    (fun _ _ => Server.ext_at) (act_localAt W cfg hf) haddress hs
  have hcommute : ∀ {X : Type} (project : List ServerOutput → List X),
      (∀ os ps, project (os ++ ps) = project os ++ project ps) →
      (project (e.act W cfg s).2 = [] ∨ project (f.act W cfg s).2 = []) →
      project ((e.act W cfg s).2 ++ (f.act W cfg s).2) =
        project ((f.act W cfg s).2 ++ (e.act W cfg s).2) := by
    intro X project happend hnil
    rw [happend, happend]
    rcases hnil with hnil | hnil
    · rw [hnil, List.nil_append, List.append_nil]
    · rw [hnil, List.nil_append, List.append_nil]
  -- A node has at most one of the two addresses.
  have hone : ∀ node, tailcatIpForNode node ≠ tailcatIpForNode A ∨
      tailcatIpForNode node ≠ tailcatIpForNode B := by
    intro node
    by_contra hc
    rw [not_or, not_not, not_not] at hc
    exact haddress (hc.1.symm.trans hc.2)
  refine ⟨(e.act W cfg (f.act W cfg s).1).1, (e.act W cfg s).2, (f.act W cfg s).2, ?_, ?_,
    fun destination => ?_, fun source => ?_⟩
  · have hrun := (hr.snoc (serverMachine_act W cfg s e)).snoc (serverMachine_act W cfg _ f)
    rwa [hB, hstate] at hrun
  · have hrun := (hr.snoc (serverMachine_act W cfg s f)).snoc (serverMachine_act W cfg _ e)
    rwa [hA] at hrun
  · exact hcommute (sentTo destination) (sentTo_append destination) ((hone destination).imp
      (sentTo_eq_nil (act_outputs hs he)) (sentTo_eq_nil (act_outputs hs hf)))
  · exact hcommute (injectedFrom source) (injectedFrom_append source) ((hone source).imp
      (injectedFrom_eq_nil (act_outputs hs he)) (injectedFrom_eq_nil (act_outputs hs hf)))

/-- A node announces itself while a packet for another one leaves the stack. -/
theorem peers_isolated_example :
    let A : Key32 := List.Vector.replicate 32 1
    let B : Key32 := List.Vector.replicate 32 2
    let cfg : ServerConfig := { identity := ⟨Octets.zero 32, Octets.zero 32⟩, psk := none, allow := none }
    let frame := pingFrame A A B.toList
    let e := ServerEvent.frame ⟨fun _ => 0, fun _ => 7⟩ (.of frame) (.ok ()) frame
    let packet := [0x60] ++ List.replicate 23 0 ++ (tailcatIpForNode B).toList
    let f := ServerEvent.sendIp ⟨fun _ => 0, fun _ => 7⟩ (.of frame) packet
    ∃ s' osA osB,
      (serverMachine plainLwip cfg).Runs [e, f] s' (osA ++ osB) ∧
      (serverMachine plainLwip cfg).Runs [f, e] s' (osB ++ osA) ∧
      (∀ destination, sentTo destination (osA ++ osB) = sentTo destination (osB ++ osA)) ∧
      ∀ source, injectedFrom source (osA ++ osB) = injectedFrom source (osB ++ osA) := by
  intro A B cfg frame e packet f
  exact peers_isolated (A := A) (B := B) (e := e) (f := f) Machine.Runs.nil (by decide +kernel)
    ⟨meow ++ [0x01] ++ A.toList ++ B.toList, rfl⟩
    ⟨by decide +kernel, by decide +kernel, by decide +kernel⟩

end Tailcat
