import Tailcat.Derp.Transport
import Tailcat.Wireguard.Session

/-!
# A WireGuard peer behind a DERP relay

The client's peer relationship: it connects by sending handshake initiations until the engine
reports a session, pumps frames into the engine, and sends IP packets as transport messages. Waiting
for frames is the transport's part; each turn of a loop is a step of a machine.

## Main definitions

* `WireGuardDerpPeer`, `receiveOneFor`, `sendIpPacket`
* `derpPeerMachine`: the calls on a peer, with the turns of their loops

## Main results

* `derpPeer_runs`: the engine of a peer runs as an engine
* `session_established_sound`: what the report of a session promises
-/

namespace Tailcat

/-- The peer of a client: the server's node, and the engine for it. -/
structure WireGuardDerpPeer (H K : Type) where
  peerPublic : Key32
  wireguard : Engine H K

/-- What a peer does, as far as others can see it: calls on the engine, calls on the transport, and
the ends of its own calls. -/
inductive DerpPeerOutput
  | engine (output : EngineOutput)
  | send (sent : DerpSend)
  | receiveFor (milliseconds : ℤ)
  | connected (result : Except Exn Unit)
  | pumped (result : Except Exn (Option (List UInt8)))
  | sentIp (result : Except Exn Unit)

namespace WireGuardDerpPeer

variable {H K : Type} (W : WireguardLwip H K) (env : Env) (transport : DerpTransport)

/-- One frame, if one comes: whether it came, and the plaintext that it carried. -/
def receiveOneFor (p : WireGuardDerpPeer H K) :
    WireGuardDerpPeer H K × List DerpPeerOutput × Except Exn (Bool × Option (List UInt8)) :=
  match transport.receiveFor with
  | .error x => (p, [], .error x)
  | .ok none => (p, [], .ok (false, none))
  | .ok (some frame) =>
    if frame.type = .ping then
      if h : frame.payload.length = 8 then
        let pong := DerpSend.pong (Octets.ofList frame.payload h)
        (p, [.send pong], (transport.send pong).map fun _ => (true, none))
      else
        (p, [], .ok (true, none))
    else if frame.type = .recvPacket then
      match parseDerpRecvPacket frame.payload with
      | none => (p, [], .error (.runtimeError "malformed DERP RecvPacket frame"))
      | some (source, packet) =>
        if source ≠ p.peerPublic then
          (p, [], .ok (true, none))
        else
          let (wireguard, result) := p.wireguard.handle W env packet
          let handled := DerpPeerOutput.engine (.handled packet result)
          if result.outbound ≠ [] then
            let reply := DerpSend.packet p.peerPublic result.outbound
            ({ p with wireguard }, [handled, .send reply],
              (transport.send reply).map fun _ => (true, result.plaintextIp))
          else
            ({ p with wireguard }, [handled], .ok (true, result.plaintextIp))
    else
      -- The named control frames and all other frames are ignored alike.
      (p, [], .ok (true, none))

/-- A new initiation for the peer. -/
def sendInitiation (p : WireGuardDerpPeer H K) :
    WireGuardDerpPeer H K × List DerpPeerOutput × Except Exn Unit :=
  let (wireguard, message) := p.wireguard.initiate W env
  match message with
  | .error x => ({ p with wireguard }, [.engine (.initiated (.error x))], .error x)
  | .ok message =>
    let initiation := DerpSend.packet p.peerPublic message
    ({ p with wireguard }, [.engine (.initiated (.ok message)), .send initiation],
      transport.send initiation)

/-- Encrypt a packet and send it, when there has been a session. -/
def sendIpPacket (p : WireGuardDerpPeer H K) (packet : List UInt8) :
    WireGuardDerpPeer H K × List DerpPeerOutput × Except Exn Unit :=
  if ¬ p.wireguard.established then
    (p, [], .error (.runtimeError "WireGuard session is not established"))
  else
    let (wireguard, message) := p.wireguard.encrypt W env packet
    match message with
    | .error x => ({ p with wireguard }, [.engine (.encrypted packet (.error x))], .error x)
    | .ok message =>
      let sent := DerpSend.packet p.peerPublic message
      ({ p with wireguard }, [.engine (.encrypted packet (.ok message)), .send sent],
        transport.send sent)

end WireGuardDerpPeer

/-! ## The calls -/

/-- What the thread of a peer is doing. -/
inductive Activity
  | idle
  | connecting (deadline nextSend : ℤ)
  | pumping (deadline : ℤ)

/-- A peer, and the call that is under way. -/
structure DerpPeerState (H K : Type) where
  peer : WireGuardDerpPeer H K
  activity : Activity := .idle

/-- A call, or a turn of the loop of the call under way; `now` and `later` are readings of the
clock, in this order. -/
inductive DerpPeerEvent
  | connect (timeout now later : ℤ)
  | connectTurn (now later : ℤ) (initiateEnv env : Env) (transport : DerpTransport)
  | pumpFor (timeout now : ℤ)
  | pumpTurn (now : ℤ) (env : Env) (transport : DerpTransport)
  | sendIpPacket (env : Env) (transport : DerpTransport) (packet : List UInt8)

section Machine

variable {H K : Type} (W : WireguardLwip H K)

/-- `connect(timeout)` before its loop -/
def connectStep (p : WireGuardDerpPeer H K) (timeout now later : ℤ) :
    DerpPeerState H K × List DerpPeerOutput :=
  if timeout ≤ 0 then
    ({ peer := p },
      [.connected (.error (.invalidArgument "WireGuard connect timeout must be positive"))])
  else if p.wireguard.established then
    ({ peer := p }, [.connected (.ok ())])
  else
    ({ peer := p, activity := .connecting (now + nanoseconds timeout) later }, [])

/-- A turn of the loop of `connect`. -/
def connectTurn (p : WireGuardDerpPeer H K) (deadline nextSend now later : ℤ)
    (initiateEnv env : Env) (transport : DerpTransport) : DerpPeerState H K × List DerpPeerOutput :=
  if p.wireguard.established then
    ({ peer := p }, [.connected (.ok ())])
  else if now ≥ deadline then
    ({ peer := p },
      [.connected (.error (.runtimeError "timed out establishing WireGuard session over DERP"))])
  else
    let (p, os, sent) :=
      if now ≥ nextSend then p.sendInitiation W initiateEnv transport else (p, [], .ok ())
    match sent with
    | .error x => ({ peer := p }, os ++ [.connected (.error x)])
    | .ok () =>
      let nextSend := if now ≥ nextSend then now + nanoseconds 5000 else nextSend
      let wait := milliseconds (min nextSend deadline - later)
      let wait := if wait ≤ 0 then 1 else wait
      let (p, os', received) := p.receiveOneFor W env transport
      match received with
      | .error x => ({ peer := p }, os ++ .receiveFor wait :: os' ++ [.connected (.error x)])
      | .ok _ =>
        ({ peer := p, activity := .connecting deadline nextSend }, os ++ .receiveFor wait :: os')

/-- `pump_for(timeout)` before its loop -/
def pumpStep (p : WireGuardDerpPeer H K) (timeout now : ℤ) :
    DerpPeerState H K × List DerpPeerOutput :=
  if timeout < 0 then
    ({ peer := p }, [.pumped (.error (.invalidArgument "negative WireGuard pump timeout"))])
  else
    ({ peer := p, activity := .pumping (now + nanoseconds timeout) }, [])

/-- A turn of the loop of `pump_for`. -/
def pumpTurn (p : WireGuardDerpPeer H K) (deadline now : ℤ) (env : Env)
    (transport : DerpTransport) : DerpPeerState H K × List DerpPeerOutput :=
  let remaining := remainingMs deadline now
  if remaining = 0 then
    ({ peer := p }, [.pumped (.ok none)])
  else
    let (p, os, received) := p.receiveOneFor W env transport
    match received with
    | .error x => ({ peer := p }, .receiveFor remaining :: os ++ [.pumped (.error x)])
    | .ok (false, _) => ({ peer := p }, .receiveFor remaining :: os ++ [.pumped (.ok none)])
    | .ok (true, some plaintext) =>
      ({ peer := p }, .receiveFor remaining :: os ++ [.pumped (.ok (some plaintext))])
    | .ok (true, none) =>
      ({ peer := p, activity := .pumping deadline }, .receiveFor remaining :: os)

/-- The calls on a peer, one at a time. -/
def derpPeerMachine (p : WireGuardDerpPeer H K) :
    Machine (DerpPeerState H K) DerpPeerEvent DerpPeerOutput where
  init := { peer := p }
  step s e :=
    match s.activity, e with
    | .idle, .connect timeout now later => some (connectStep s.peer timeout now later)
    | .connecting deadline nextSend, .connectTurn now later initiateEnv env transport =>
      some (connectTurn W s.peer deadline nextSend now later initiateEnv env transport)
    | .idle, .pumpFor timeout now => some (pumpStep s.peer timeout now)
    | .pumping deadline, .pumpTurn now env transport =>
      some (pumpTurn W s.peer deadline now env transport)
    | .idle, .sendIpPacket env transport packet =>
      let (p, os, result) := s.peer.sendIpPacket W env transport packet
      some ({ peer := p }, os ++ [.sentIp result])
    | _, _ => none

end Machine

/-! ## The engine of a peer -/

/-- What the engine returned. -/
def engineOutputs (os : List DerpPeerOutput) : List EngineOutput :=
  os.filterMap fun
    | .engine output => some output
    | _ => none

theorem engineOutputs_append (os os' : List DerpPeerOutput) :
    engineOutputs (os ++ os') = engineOutputs os ++ engineOutputs os' := List.filterMap_append

/-- A peer gets from `p` to `p'` by calls on its engine, and emits what they return. Calls on the
transport and ends of calls may stand between them. -/
structure Progress {H K : Type} (W : WireguardLwip H K) (p p' : WireGuardDerpPeer H K)
    (os : List DerpPeerOutput) : Prop where
  peerPublic_eq : p'.peerPublic = p.peerPublic
  runs : ∃ es, (engineMachine W p.wireguard).Runs es p'.wireguard (engineOutputs os)
  not_connected : ∀ result, .connected result ∉ os

section Progress

variable {H K : Type} {W : WireguardLwip H K} {p p' p'' : WireGuardDerpPeer H K}
  {os os' : List DerpPeerOutput} {env : Env} {transport : DerpTransport}

theorem Progress.of_event {e : EngineEvent} {wireguard : Engine H K} {outputs : List EngineOutput}
    (hs : (engineMachine W p.wireguard).step p.wireguard e = some (wireguard, outputs))
    (hos : engineOutputs os = outputs) (hc : ∀ result, .connected result ∉ os) :
    Progress W p { p with wireguard } os where
  peerPublic_eq := rfl
  runs := by
    rw [hos]
    exact ⟨[e], Machine.Runs.nil.snoc hs⟩
  not_connected := hc

/-- Nothing was asked of the engine. -/
theorem Progress.idle (hos : engineOutputs os = []) (hc : ∀ result, .connected result ∉ os) :
    Progress W p p os where
  peerPublic_eq := rfl
  runs := by
    rw [hos]
    exact ⟨[], .nil⟩
  not_connected := hc

theorem Progress.trans (h : Progress W p p' os) (h' : Progress W p' p'' os') :
    Progress W p p'' (os ++ os') where
  peerPublic_eq := h'.peerPublic_eq.trans h.peerPublic_eq
  runs := by
    obtain ⟨es, hr⟩ := h.runs
    obtain ⟨es', hr'⟩ := h'.runs
    rw [engineOutputs_append]
    exact ⟨es ++ es', Machine.Runs.append (m := engineMachine W p.wireguard)
      (n := engineMachine W p'.wireguard) rfl hr hr'⟩
  not_connected result := by
    rw [List.mem_append, not_or]
    exact ⟨h.not_connected result, h'.not_connected result⟩

/-- Waiting for a frame does nothing to the engine. -/
theorem Progress.receiveFor (h : Progress W p p' os) (wait : ℤ) :
    Progress W p p' (.receiveFor wait :: os) := by
  have hidle : Progress W p p [.receiveFor wait] := .idle rfl (by simp)
  exact hidle.trans h

theorem receiveOneFor_progress (W : WireguardLwip H K) (env : Env) (transport : DerpTransport)
    (p : WireGuardDerpPeer H K) :
    Progress W p (p.receiveOneFor W env transport).1 (p.receiveOneFor W env transport).2.1 := by
  unfold WireGuardDerpPeer.receiveOneFor
  split
  · exact .idle rfl (by simp)
  · exact .idle rfl (by simp)
  split
  · split
    · exact .idle rfl (by simp)
    · exact .idle rfl (by simp)
  split
  · split
    · exact .idle rfl (by simp)
    · -- Only a packet from the peer reaches the engine.
      rename_i source packet _
      split
      · exact .idle rfl (by simp)
      · dsimp only
        split
        · exact .of_event (e := .handle env packet) rfl rfl (by simp)
        · exact .of_event (e := .handle env packet) rfl rfl (by simp)
  · exact .idle rfl (by simp)

theorem sendInitiation_progress (W : WireguardLwip H K) (env : Env) (transport : DerpTransport)
    (p : WireGuardDerpPeer H K) :
    Progress W p (p.sendInitiation W env transport).1 (p.sendInitiation W env transport).2.1 := by
  obtain ⟨⟨wireguard, message⟩, he⟩ : ∃ r, p.wireguard.initiate W env = r := ⟨_, rfl⟩
  have hs : (engineMachine W p.wireguard).step p.wireguard (.initiate env) =
      some (wireguard, [.initiated message]) := by
    dsimp only [engineMachine]
    rw [he]
  unfold WireGuardDerpPeer.sendInitiation
  rw [he]
  cases message with
  | error x => exact .of_event hs rfl (by simp)
  | ok message => exact .of_event hs rfl (by simp)

theorem sendIpPacket_progress (W : WireguardLwip H K) (env : Env) (transport : DerpTransport)
    (p : WireGuardDerpPeer H K) (packet : List UInt8) :
    Progress W p (p.sendIpPacket W env transport packet).1
      (p.sendIpPacket W env transport packet).2.1 := by
  obtain ⟨⟨wireguard, message⟩, he⟩ : ∃ r, p.wireguard.encrypt W env packet = r := ⟨_, rfl⟩
  have hs : (engineMachine W p.wireguard).step p.wireguard (.encrypt env packet) =
      some (wireguard, [.encrypted packet message]) := by
    dsimp only [engineMachine]
    rw [he]
  unfold WireGuardDerpPeer.sendIpPacket
  split
  · exact .idle rfl (by simp)
  rw [he]
  cases message with
  | error x => exact .of_event hs rfl (by simp)
  | ok message => exact .of_event hs rfl (by simp)

/-- A step calls the engine some times, and reports a connection only when the engine reports a
session. -/
structure Stepped (W : WireguardLwip H K) (p : WireGuardDerpPeer H K)
    (q : DerpPeerState H K × List DerpPeerOutput) : Prop where
  runs : ∃ es, (engineMachine W p.wireguard).Runs es q.1.peer.wireguard (engineOutputs q.2)
  connected : .connected (.ok ()) ∈ q.2 → q.1.peer.wireguard.established = true

/-- A step that ends with something else than a connection. -/
theorem Progress.stepped (h : Progress W p p' os) {tail : List DerpPeerOutput}
    (htail : engineOutputs tail = []) (hc : .connected (.ok ()) ∉ tail) (activity : Activity) :
    Stepped W p ({ peer := p', activity }, os ++ tail) where
  runs := by
    rw [engineOutputs_append, htail, List.append_nil]
    exact h.runs
  connected hmem := by
    rcases List.mem_append.mp hmem with hmem | hmem
    · exact absurd hmem (h.not_connected _)
    · exact absurd hmem hc

theorem Progress.stepped_nil (h : Progress W p p' os) (activity : Activity) :
    Stepped W p ({ peer := p', activity }, os) := by
  have hs : Stepped W p ({ peer := p', activity }, os ++ []) := h.stepped rfl (by simp) activity
  rwa [List.append_nil] at hs

/-- A connection that is there already. -/
theorem Stepped.connected_now (he : p.wireguard.established = true) :
    Stepped W p ({ peer := p }, [.connected (.ok ())]) where
  runs := ⟨[], .nil⟩
  connected _ := he

theorem Progress.refl : Progress W p p [] := .idle rfl (by simp)

theorem connectStep_stepped (timeout now later : ℤ) :
    Stepped W p (connectStep p timeout now later) := by
  unfold connectStep
  split
  · exact Progress.refl.stepped rfl (by simp) .idle
  split
  · exact .connected_now ‹_›
  · exact Progress.refl.stepped_nil _

theorem connectTurn_stepped (deadline nextSend now later : ℤ) (initiateEnv env : Env) :
    Stepped W p (connectTurn W p deadline nextSend now later initiateEnv env transport) := by
  unfold connectTurn
  split
  · exact .connected_now ‹_›
  split
  · exact Progress.refl.stepped rfl (by simp) .idle
  -- An initiation is sent when it is due, and then one frame is received.
  obtain ⟨⟨p₁, os₁, sent⟩, hi⟩ : ∃ r, (if now ≥ nextSend then
      p.sendInitiation W initiateEnv transport else (p, [], .ok ())) = r := ⟨_, rfl⟩
  have h₁ : Progress W p p₁ os₁ := by
    split at hi
    · have h := sendInitiation_progress W initiateEnv transport p
      rwa [hi] at h
    · cases hi
      exact .refl
  obtain ⟨⟨p₂, os₂, received⟩, hr⟩ : ∃ r, p₁.receiveOneFor W env transport = r := ⟨_, rfl⟩
  have h₂ : Progress W p₁ p₂ os₂ := by
    have h := receiveOneFor_progress W env transport p₁
    rwa [hr] at h
  rw [hi]
  dsimp only
  cases sent with
  | error x => exact h₁.stepped rfl (by simp) .idle
  | ok _ =>
    dsimp only
    rw [hr]
    cases received with
    | error x => exact (h₁.trans (h₂.receiveFor _)).stepped rfl (by simp) .idle
    | ok _ => exact (h₁.trans (h₂.receiveFor _)).stepped_nil _

theorem pumpTurn_stepped (deadline now : ℤ) :
    Stepped W p (pumpTurn W p deadline now env transport) := by
  unfold pumpTurn
  dsimp only
  split
  · exact Progress.refl.stepped rfl (by simp) .idle
  have h := fun wait => (receiveOneFor_progress W env transport p).receiveFor wait
  split
  · exact (h _).stepped rfl (by simp) .idle
  · exact (h _).stepped rfl (by simp) .idle
  · exact (h _).stepped rfl (by simp) .idle
  · exact (h _).stepped_nil _

/-- **The engine of a peer runs as an engine**, whatever is called on the peer. -/
theorem derpPeer_step {p₀ : WireGuardDerpPeer H K} {s s' : DerpPeerState H K} {e : DerpPeerEvent}
    (hs : (derpPeerMachine W p₀).step s e = some (s', os)) : Stepped W s.peer (s', os) := by
  dsimp only [derpPeerMachine] at hs
  split at hs
  · rw [← Option.some.inj hs]
    exact connectStep_stepped _ _ _
  · rw [← Option.some.inj hs]
    exact connectTurn_stepped _ _ _ _ _ _
  · rw [← Option.some.inj hs]
    unfold pumpStep
    split
    · exact Progress.refl.stepped rfl (by simp) .idle
    · exact Progress.refl.stepped_nil _
  · rw [← Option.some.inj hs]
    exact pumpTurn_stepped _ _
  · rw [← Option.some.inj hs]
    exact (sendIpPacket_progress W _ _ s.peer _).stepped rfl (by simp) .idle
  · cases hs

/-- The calls on the engine in a run of its peer. -/
theorem derpPeer_runs {p₀ : WireGuardDerpPeer H K} {es : List DerpPeerEvent}
    {s : DerpPeerState H K} (hr : (derpPeerMachine W p₀).Runs es s os) :
    ∃ es', (engineMachine W p₀.wireguard).Runs es' s.peer.wireguard (engineOutputs os) := by
  refine hr.trace_invariant
    (I := fun _ s os => ∃ es', (engineMachine W p₀.wireguard).Runs es' s.peer.wireguard
      (engineOutputs os)) ⟨[], .nil⟩ ?_
  rintro es s os e s' os' - ⟨es₁, h₁⟩ hs
  obtain ⟨es₂, h₂⟩ := (derpPeer_step hs).runs
  rw [engineOutputs_append]
  exact ⟨es₁ ++ es₂, Machine.Runs.append (m := engineMachine W p₀.wireguard)
    (n := engineMachine W s.peer.wireguard) rfl h₁ h₂⟩

/-- Sending an IP packet asks the engine only when it reports a session. -/
theorem encrypted_mem_sendIpPacket {packet : List UInt8} {x : Exn} :
    .engine (.encrypted packet (.error x)) ∈ (p.sendIpPacket W env transport packet).2.1 ↔
      p.wireguard.established = true ∧ (p.wireguard.encrypt W env packet).2 = .error x := by
  obtain ⟨⟨wireguard, message⟩, he⟩ : ∃ r, p.wireguard.encrypt W env packet = r := ⟨_, rfl⟩
  unfold WireGuardDerpPeer.sendIpPacket
  rw [he]
  split
  · rename_i hn
    exact iff_of_false (by simp) fun h => hn h.1
  · rename_i hn
    rw [and_iff_right (not_not.mp hn)]
    cases message with
    | error y => simp [eq_comm]
    | ok message => simp

end Progress

/-- **What the report of a session promises**. In every run of an engine and of a peer, the engine
reports a session exactly when some packet established one, and `connect` returns normally only
with such a report. Encrypting then still fails as not ready until some packet completed a handshake
that this side started or was accepted as transport data, and when the current keypair is expired or
used up; at no other time. -/
theorem session_established_sound {H K : Type} {W : WireguardLwip H K} (S : W.SessionLaws)
    {env : Env} {identity : NodeKeyPair} {remote P : Key32} {psk : Option Key32}
    {e : Engine H K} (hc : Engine.create W env identity remote psk = .ok e) :
    (∀ es s os, (engineMachine W e).Runs es s os →
      (s.established = true ↔ Returned WireGuardPacketResult.Establishes os) ∧
      ∀ env packet, (s.encrypt W env packet).2 = .error notReady ↔
        ¬ (Confirmed os ∧ s.Fresh W (env.sysNow 0))) ∧
    ∀ es s os, (derpPeerMachine W { peerPublic := P, wireguard := e }).Runs es s os →
      (s.peer.wireguard.established = true ↔
        Returned WireGuardPacketResult.Establishes (engineOutputs os)) ∧
      (∀ event s' os', (derpPeerMachine W { peerPublic := P, wireguard := e }).step s event =
        some (s', os') → .connected (.ok ()) ∈ os' → s'.peer.wireguard.established = true) ∧
      ∀ env transport packet, .engine (.encrypted packet (.error notReady)) ∈
        (s.peer.sendIpPacket W env transport packet).2.1 ↔
          s.peer.wireguard.established = true ∧
            ¬ (Confirmed (engineOutputs os) ∧ s.peer.wireguard.Fresh W (env.sysNow 0)) := by
  refine ⟨fun es s os hr => ?_, fun es s os hr => ?_⟩
  · have hI := Engine.sessionInvariant_runs S hc hr
    exact ⟨hI.established_iff, hI.notReady_iff⟩
  · -- What the peer does to its engine is a run of the engine.
    obtain ⟨es', hr'⟩ := derpPeer_runs hr
    have hI := Engine.sessionInvariant_runs S hc hr'
    refine ⟨hI.established_iff, fun event s' os' hs => (derpPeer_step hs).connected,
      fun env transport packet => ?_⟩
    rw [encrypted_mem_sendIpPacket, hI.notReady_iff]

/-- A responder reports a session when it has answered an initiation, but cannot encrypt before
it has received anything. -/
theorem session_established_answered :
    let env : Env := ⟨fun _ => 0, fun _ => 7⟩
    let key : Key32 := Octets.zero 32
    let packet : List UInt8 := [1, 0, 0, 0, 7] ++ List.replicate 143 0
    ∃ e s os, Engine.create plainLwip env ⟨key, key⟩ key none = .ok e ∧
      (engineMachine plainLwip e).Runs [.handle env packet] s os ∧
      s.established = true ∧ (s.encrypt plainLwip env []).2 = .error notReady := by
  intro env key packet
  refine ⟨newPlainEngine key key, _, _, create_plainLwip env key key none,
    Machine.Runs.nil.snoc (engineMachine_handle _ _ _ _ _), ?_, ?_⟩
  · decide +kernel
  · decide +kernel

/-- The engine of that responder. -/
theorem session_established_sound_example :
    let key : Key32 := Octets.zero 32
    ∀ es s os, (engineMachine plainLwip (newPlainEngine key key)).Runs es s os →
      (s.established = true ↔ Returned WireGuardPacketResult.Establishes os) := by
  intro key es s os hr
  have h := session_established_sound (P := key) plain_sessionLaws
    (create_plainLwip ⟨fun _ => 0, fun _ => 7⟩ key key none)
  exact (h.1 es s os hr).1

end Tailcat
