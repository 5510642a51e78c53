import Tailcat.Server.Tables

/-!
# The allow policy

Only nodes that the policy allows become peers, are sent anything, or get plaintext into the stack.
Who a frame is from is what the relay says: the node key inside a MEOW packet is not looked at.

## Main definitions

* `ServerOutput.Allowed`: an output concerns an allowed node
* `SameButEmbedded`: two events that differ in the node key inside a MEOW packet

## Main results

* `handleFrame_allowed`, `sendIp_allowed`: one call concerns allowed nodes
* `handleFrame_embedded`: one call does not look at an embedded key
* `allow_enforced`: the policy holds in every run
-/

namespace Tailcat

/-- The node that an output concerns is allowed. -/
def ServerOutput.Allowed (cfg : ServerConfig) : ServerOutput → Prop
  | .send (.packet destination _) => cfg.Allows destination
  | .send (.pong _) => True
  | .inputIp source _ => cfg.Allows source
  | .returned _ => True

section Policy

variable {H K : Type} {W : WireguardLwip H K} {cfg : ServerConfig} {s s' : Server H K} {env : Env}
  {transport : DerpTransport} {stack : Except Exn Unit} {os : List ServerOutput}

/-- What a frame makes the server do concerns allowed nodes. -/
theorem handleFrame_allowed {frame : DerpFrame} {result : Except Exn Bool}
    (hw : s.WellFormed W cfg)
    (hf : Server.FrameHandled W cfg env transport stack s frame s' os result) :
    ∀ o ∈ os, o.Allowed cfg := by
  intro o ho
  cases hf with
  | ignored => cases ho
  | pong value =>
    rw [List.mem_singleton.mp ho]
    trivial
  | malformed => cases ho
  | refused source disco x lookup new => cases ho
  | announced type source packet node disco parsed ping allowed _ added =>
    rw [List.mem_singleton.mp ho]
    exact allowed
  | received type source packet peer parsed other lookup =>
    -- The source was allowed when it was registered.
    have hallowed := hw.allowed source (Finmap.mem_of_lookup_eq_some lookup)
    rcases Server.mem_deliver ho with ⟨-, rfl⟩ | ⟨plaintext, -, rfl⟩
    · exact hallowed
    · exact hallowed

/-- A packet that leaves the stack is sent to an allowed node. -/
theorem sendIp_allowed {packet : List UInt8} {result : Except Exn Unit} (hw : s.WellFormed W cfg)
    (hp : Server.PacketSent W env s packet s' os result) : ∀ o ∈ os, o.Allowed cfg := by
  intro o ho
  cases hp with
  | dropped => cases ho
  | failed long node peer wireguard x route lookup encrypt => cases ho
  | sent long node peer wireguard message route lookup encrypt =>
    rw [List.mem_singleton.mp ho]
    change cfg.Allows peer.nodePublic
    rw [hw.nodePublic node peer lookup]
    exact hw.allowed node (Finmap.mem_of_lookup_eq_some lookup)

/-- Every output of every run concerns an allowed node. -/
theorem serverMachine_allowed {es : List ServerEvent} (hr : (serverMachine W cfg).Runs es s os) :
    ∀ o ∈ os, o.Allowed cfg := by
  refine hr.trace_invariant (I := fun _ _ os => ∀ o ∈ os, o.Allowed cfg) (by simp) ?_
  intro es s os e s' os' hr hI hs o ho
  have hw := serverMachine_wellFormed hr
  rcases List.mem_append.mp ho with ho | ho
  · exact hI o ho
  cases e with
  | frame env transport stack frame =>
    rw [serverMachine_frame] at hs
    rw [← (Prod.mk.inj (Option.some.inj hs)).2] at ho
    rcases List.mem_append.mp ho with ho | ho
    · exact handleFrame_allowed hw (Server.handleFrame_handled W cfg env transport stack s frame) o ho
    · rw [List.mem_singleton.mp ho]
      trivial
  | sendIp env transport packet =>
    rw [serverMachine_sendIp] at hs
    rw [← (Prod.mk.inj (Option.some.inj hs)).2] at ho
    rcases List.mem_append.mp ho with ho | ho
    · exact sendIp_allowed hw (Server.sendIp_sent W env transport s packet) o ho
    · rw [List.mem_singleton.mp ho]
      trivial

/-! ## The embedded key -/

/-- A frame with a packet that starts like a MEOW ping. -/
def pingFrame (source node : Key32) (rest : List UInt8) : DerpFrame :=
  ⟨.recvPacket, source.toList ++ (meow ++ [0x01] ++ node.toList ++ rest)⟩

/-- Two events are equal, or differ in the node key inside a packet that starts like a ping. -/
inductive SameButEmbedded : ServerEvent → ServerEvent → Prop
  | same (e : ServerEvent) : SameButEmbedded e e
  | embedded (env : Env) (transport : DerpTransport) (stack : Except Exn Unit)
      (source node node' : Key32) (rest : List UInt8) :
      SameButEmbedded (.frame env transport stack (pingFrame source node rest))
        (.frame env transport stack (pingFrame source node' rest))

/-- A frame is handled in the same way, whatever node key is inside its ping. -/
theorem handleFrame_embedded (source node node' : Key32) (rest : List UInt8) :
    s.handleFrame W cfg env transport stack (pingFrame source node rest) =
      s.handleFrame W cfg env transport stack (pingFrame source node' rest) := by
  have hlength : ∀ node : Key32, (meow ++ [0x01] ++ node.toList ++ rest).length =
      37 + rest.length := fun node => by
    have hnode : node.toList.length = 32 := List.Vector.toList_length node
    simp only [meow, List.length_append, List.length_cons, List.length_nil, hnode]
  have hping := parseMeowPing_embedded node node' rest
  have htype : ¬ DerpFrameType.recvPacket = .ping := by decide
  unfold Server.handleFrame pingFrame
  simp only [if_neg htype, ne_eq, not_true_eq_false, if_false, parseDerpRecvPacket_append, hlength]
  by_cases hlong : 37 + rest.length ≤ kDerpMaxPacket
  · -- Both packets are announcements, with the same disco key or both malformed.
    simp only [if_pos hlong, isMeowedPacket_ping, isMeowPacket_ping, if_true]
    cases hn : parseMeowPing (meow ++ [0x01] ++ node.toList ++ rest) with
    | none =>
      rw [hn] at hping
      rw [Option.map_eq_none_iff.mp hping.symm]
    | some p =>
      rw [hn] at hping
      obtain ⟨p', hn', hdisco⟩ := Option.map_eq_some_iff.mp hping.symm
      obtain ⟨embedded, disco⟩ := p
      obtain ⟨embedded', disco'⟩ := p'
      obtain rfl : disco' = disco := hdisco
      rw [hn']
  · simp only [if_neg hlong]

end Policy

/-- **The policy holds in every run**: registered nodes, and the nodes that addresses lead to, are
allowed; so are the destinations of all packets sent, and the sources of all packets that enter the
stack. Runs that differ in the node keys inside MEOW packets end in the same state and emit the
same outputs. -/
theorem allow_enforced {H K : Type} {W : WireguardLwip H K} {cfg : ServerConfig}
    {es : List ServerEvent} {s : Server H K} {os : List ServerOutput}
    (hr : (serverMachine W cfg).Runs es s os) :
    ((∀ node ∈ s.peers, cfg.Allows node) ∧
      ∀ address node, s.peersByIp.lookup address = some node → node ∈ s.peers ∧ cfg.Allows node) ∧
    (∀ destination packet, .send (.packet destination packet) ∈ os → cfg.Allows destination) ∧
    (∀ source packet, .inputIp source packet ∈ os → cfg.Allows source) ∧
    ∀ es', List.Forall₂ SameButEmbedded es es' → (serverMachine W cfg).Runs es' s os := by
  have hw := serverMachine_wellFormed hr
  have hallowed := serverMachine_allowed hr
  refine ⟨⟨hw.allowed, fun address node hroute => ?_⟩, fun _ _ => hallowed _, fun _ _ => hallowed _,
    fun es' hes => ?_⟩
  · obtain ⟨hmem, -⟩ := hw.routed address node hroute
    exact ⟨hmem, hw.allowed node hmem⟩
  · -- The two runs go through the same states.
    obtain ⟨s', os', hr', rfl, rfl⟩ := hr.rel (R := Eq) (r := SameButEmbedded) (q := Eq) rfl rfl
      (by rintro _ _ _ _ rfl rfl; rfl)
      (by
        rintro s _ e f s' os rfl hef hs
        refine ⟨s', os, ?_, rfl, rfl⟩
        cases hef with
        | same => exact hs
        | embedded env transport stack source node node' rest =>
          rw [serverMachine_frame] at hs ⊢
          rw [handleFrame_embedded source node' node rest]
          exact hs) hes
    exact hr'

/-- An allowed node announces itself with another node's key inside. -/
theorem allow_enforced_example :
    let client : Key32 := List.Vector.replicate 32 1
    let other : Key32 := List.Vector.replicate 32 2
    let cfg : ServerConfig :=
      { identity := ⟨Octets.zero 32, Octets.zero 32⟩, psk := none, allow := some (· == client) }
    let frame := pingFrame client other client.toList
    ∃ s os, (serverMachine plainLwip cfg).Runs
        [.frame ⟨fun _ => 0, fun _ => 7⟩ (.of frame) (.ok ()) frame] s os ∧
      .send (.packet client encodeMeowed) ∈ os ∧ cfg.Allows client := by
  intro client other cfg frame
  have hr := Machine.Runs.nil.snoc (serverMachine_frame plainLwip cfg .empty
    ⟨fun _ => 0, fun _ => 7⟩ (.of frame) (.ok ()) frame)
  rw [List.nil_append, List.nil_append] at hr
  have hmem : ServerOutput.send (.packet client encodeMeowed) ∈
      (Server.empty.handleFrame plainLwip cfg ⟨fun _ => 0, fun _ => 7⟩ (.of frame) (.ok ())
        frame).2.1 := by
    decide +kernel
  refine ⟨_, _, hr, List.mem_append_left _ hmem, ?_⟩
  exact (allow_enforced hr).2.1 client encodeMeowed (List.mem_append_left _ hmem)

end Tailcat
