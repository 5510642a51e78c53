import Tailcat.Base.Pipe
import Tailcat.Ssh.Join

/-!
# What the SSH bridge loses

A bridge is a pipe from the tunnel to the worker, whose end is shut down when the tunnel has ended,
and a pipe from the worker to the tunnel, which is closed when the worker is done. `service` shuts
the first one down without looking at what it has not sent, and closes the second one without
looking at what it has not read. Apart from this both are transparent.

## Main definitions

* `serviceMachine`: one connection, with its tunnel and its worker
* `tunnelToSsh`, `sshToTunnel`: what happens at a connection, as actions of the two pipes
* `ServiceState.Drains`, `ServiceState.Drained`: a step shuts down or closes nothing too early

## Main results

* `performs_tunnelToSsh`, `performs_sshToTunnel`: what one step does to the two pipes
* `input_relayed_iff`: when the worker gets all that the tunnel received
* `output_relayed_iff`: when the tunnel gets all that the worker wrote
-/

namespace Tailcat.Ssh

/-- A connection, from the moment that its stream is accepted. -/
def serviceMachine (verbose : Bool) : Machine ServiceState BridgeEvent BridgeOutput where
  init := .new { connected := true }
  step := ServiceState.step verbose

theorem serviceMachine_step {verbose : Bool} {s s' : ServiceState} {e : BridgeEvent}
    {os : List BridgeOutput} (h : (serviceMachine verbose).step s e = some (s', os)) :
    s.step verbose e = some (s', os) := h

/-! ## The two pipes -/

/-- What goes through the pipe from the tunnel to libssh. -/
def tunnelToSsh : BridgeOutput → Option (PipeAction UInt8)
  | .tunnelReceived octets => some (.push octets)
  | .tunnelFin => some .sourceEnd
  | .toSsh octets => some (.give octets)
  | .bridgeShutdown => some .sinkEnd
  | _ => none

/-- What goes through the pipe from libssh to the tunnel; the end of the bridge is its end. -/
def sshToTunnel : BridgeOutput → Option (PipeAction UInt8)
  | .workerWrote octets => some (.push octets)
  | .workerClosed => some .sourceEnd
  | .toTunnel octets => some (.give octets)
  | .bridgeClosed => some .sinkEnd
  | _ => none

/-- A connection stands for the pipe `p` from the tunnel to the worker. -/
structure Connection.FromTunnel (c : Connection) (p : Pipe UInt8) : Prop where
  offset_le : c.pendingToSshOffset ≤ c.pendingToSsh.length
  buffered : p.buffered = c.pendingToSsh.drop c.pendingToSshOffset ++ c.tunnel.received
  ended : p.ended = c.tunnel.eof
  closed : p.closed = c.bridgeWriteShutdown

/-- A connection whose tunnel has not failed stands for the pipe `p` from the worker to the
tunnel. -/
structure Connection.FromWorker (c : Connection) (p : Pipe UInt8) : Prop where
  offset_le : c.pendingToTunnelOffset ≤ c.pendingToTunnel.length
  buffered : p.buffered = c.pendingToTunnel.drop c.pendingToTunnelOffset ++ c.bridge.unread
  ended : p.ended = c.bridge.workerClosed
  closed : p.closed = c.finished
  workerClosed : c.worker.done = true → c.bridge.workerClosed = true
  failed : c.tunnel.failed = false

variable {verbose : Bool} {c c' : Connection} {s s' : ServiceState} {p : Pipe UInt8}
  {e : BridgeEvent} {os : List BridgeOutput}

/-! ## What the other parts leave alone -/

/-- The pipe from the tunnel is as before, and so is what happened at it. -/
structure Connection.SameInput (c : Connection) (r : Connection × List BridgeOutput) : Prop where
  pendingToSsh : r.1.pendingToSsh = c.pendingToSsh
  pendingToSshOffset : r.1.pendingToSshOffset = c.pendingToSshOffset
  received : r.1.tunnel.received = c.tunnel.received
  eof : r.1.tunnel.eof = c.tunnel.eof
  bridgeWriteShutdown : r.1.bridgeWriteShutdown = c.bridgeWriteShutdown
  outputs : r.2.filterMap tunnelToSsh = []

/-- The pipe to the tunnel is as before, and so is what happened at it. -/
structure Connection.SameOutput (c : Connection) (r : Connection × List BridgeOutput) : Prop where
  pendingToTunnel : r.1.pendingToTunnel = c.pendingToTunnel
  pendingToTunnelOffset : r.1.pendingToTunnelOffset = c.pendingToTunnelOffset
  bridge : r.1.bridge = c.bridge
  done : r.1.worker.done = c.worker.done
  finished : r.1.finished = c.finished
  failed : r.1.tunnel.failed = c.tunnel.failed
  outputs : r.2.filterMap sshToTunnel = []

namespace Connection

theorem SameInput.fromTunnel {r : Connection × List BridgeOutput} (h : c.SameInput r)
    (hp : c.FromTunnel p) : r.1.FromTunnel p where
  offset_le := by rw [h.pendingToSsh, h.pendingToSshOffset]; exact hp.offset_le
  buffered := by rw [h.pendingToSsh, h.pendingToSshOffset, h.received]; exact hp.buffered
  ended := by rw [h.eof]; exact hp.ended
  closed := by rw [h.bridgeWriteShutdown]; exact hp.closed

theorem SameOutput.fromWorker {r : Connection × List BridgeOutput} (h : c.SameOutput r)
    (hp : c.FromWorker p) : r.1.FromWorker p where
  offset_le := by rw [h.pendingToTunnel, h.pendingToTunnelOffset]; exact hp.offset_le
  buffered := by rw [h.pendingToTunnel, h.pendingToTunnelOffset, h.bridge]; exact hp.buffered
  ended := by rw [h.bridge]; exact hp.ended
  closed := by rw [h.finished]; exact hp.closed
  workerClosed := by rw [h.done, h.bridge]; exact hp.workerClosed
  failed := by rw [h.failed]; exact hp.failed

theorem sameInput_andThen {q : Part} {f : Connection → Part} (h : c.SameInput (q.1, q.2.1))
    (h' : q.1.SameInput ((f q.1).1, (f q.1).2.1)) :
    c.SameInput ((q.andThen f).1, (q.andThen f).2.1) := by
  unfold Part.andThen
  split
  · exact h
  · exact
      { pendingToSsh := h'.pendingToSsh.trans h.pendingToSsh
        pendingToSshOffset := h'.pendingToSshOffset.trans h.pendingToSshOffset
        received := h'.received.trans h.received
        eof := h'.eof.trans h.eof
        bridgeWriteShutdown := h'.bridgeWriteShutdown.trans h.bridgeWriteShutdown
        outputs := by
          dsimp only
          rw [List.filterMap_append, h.outputs, h'.outputs]
          rfl }

theorem sameOutput_andThen {q : Part} {f : Connection → Part} (h : c.SameOutput (q.1, q.2.1))
    (h' : q.1.SameOutput ((f q.1).1, (f q.1).2.1)) :
    c.SameOutput ((q.andThen f).1, (q.andThen f).2.1) := by
  unfold Part.andThen
  split
  · exact h
  · exact
      { pendingToTunnel := h'.pendingToTunnel.trans h.pendingToTunnel
        pendingToTunnelOffset := h'.pendingToTunnelOffset.trans h.pendingToTunnelOffset
        bridge := h'.bridge.trans h.bridge
        done := h'.done.trans h.done
        finished := h'.finished.trans h.finished
        failed := h'.failed.trans h.failed
        outputs := by
          dsimp only
          rw [List.filterMap_append, h.outputs, h'.outputs]
          rfl }

theorem sameInput_readBridge (recv : Option ℕ) (shutdown : Except String Unit) :
    c.SameInput ((c.readBridge recv shutdown).1, (c.readBridge recv shutdown).2.1) := by
  unfold readBridge
  split
  · split
    · exact ⟨rfl, rfl, rfl, rfl, rfl, rfl⟩
    · dsimp only
      split
      · exact ⟨rfl, rfl, rfl, rfl, rfl, rfl⟩
      · exact ⟨rfl, rfl, rfl, rfl, rfl, rfl⟩
      · split
        · exact ⟨rfl, rfl, rfl, rfl, rfl, rfl⟩
        · split <;> exact ⟨rfl, rfl, rfl, rfl, rfl, rfl⟩
  · exact ⟨rfl, rfl, rfl, rfl, rfl, rfl⟩

theorem sameInput_writeTunnel (write : Except String ℕ) :
    c.SameInput ((c.writeTunnel write).1, (c.writeTunnel write).2.1) := by
  unfold writeTunnel
  split
  · split <;> exact ⟨rfl, rfl, rfl, rfl, rfl, rfl⟩
  · exact ⟨rfl, rfl, rfl, rfl, rfl, rfl⟩

theorem sameInput_relayOctets (recv : Option ℕ) (shutdown : Except String Unit)
    (write : Except String ℕ) : c.SameInput
      ((c.relayOctets recv shutdown write).1, (c.relayOctets recv shutdown write).2.1) :=
  sameInput_andThen (sameInput_readBridge recv shutdown) (sameInput_writeTunnel write)

theorem sameInput_endService (verbose : Bool) (c : Connection) :
    c.SameInput (c.endService verbose) := by
  unfold endService reportError join
  dsimp only
  split_ifs <;> exact ⟨rfl, rfl, rfl, rfl, rfl, rfl⟩

theorem sameInput_handleException (verbose : Bool) (what : String) (c : Connection) :
    c.SameInput (c.handleException verbose what) := by
  unfold handleException join
  dsimp only
  split_ifs <;> exact ⟨rfl, rfl, rfl, rfl, rfl, rfl⟩

theorem sameOutput_readTunnel (c : Connection) : c.SameOutput (c.readTunnel, []) := by
  unfold readTunnel
  split <;> exact ⟨rfl, rfl, rfl, rfl, rfl, rfl, rfl⟩

theorem sameOutput_sendToBridge (send : Option ℕ) :
    c.SameOutput ((c.sendToBridge send).1, (c.sendToBridge send).2.1) := by
  unfold sendToBridge
  split
  · split <;> exact ⟨rfl, rfl, rfl, rfl, rfl, rfl, rfl⟩
  · exact ⟨rfl, rfl, rfl, rfl, rfl, rfl, rfl⟩

theorem sameOutput_shutdownBridge :
    c.SameOutput (c.shutdownBridge.1, c.shutdownBridge.2.1) := by
  unfold shutdownBridge
  split <;> exact ⟨rfl, rfl, rfl, rfl, rfl, rfl, rfl⟩

theorem sameOutput_beginService (send : Option ℕ) (h : c.tunnel.failed = false) :
    c.SameOutput ((c.beginService send).1, (c.beginService send).2.1) := by
  unfold beginService
  split_ifs with hfinished hfailed
  · exact ⟨rfl, rfl, rfl, rfl, rfl, rfl, rfl⟩
  · exact absurd (h.symm.trans hfailed) Bool.false_ne_true
  · have hread := sameOutput_readTunnel c
    have hsent := sameOutput_andThen (sameOutput_sendToBridge (c := c.readTunnel) send)
      sameOutput_shutdownBridge
    exact
      { pendingToTunnel := hsent.pendingToTunnel.trans hread.pendingToTunnel
        pendingToTunnelOffset := hsent.pendingToTunnelOffset.trans hread.pendingToTunnelOffset
        bridge := hsent.bridge.trans hread.bridge
        done := hsent.done.trans hread.done
        finished := hsent.finished.trans hread.finished
        failed := hsent.failed.trans hread.failed
        outputs := hsent.outputs }

/-! ## From the tunnel to the worker -/

/-- What `service` sends to the bridge after it has read the tunnel, unless the bridge takes
less. -/
def unsent (c : Connection) : List UInt8 :=
  if c.pendingToSshOffset = c.pendingToSsh.length then
    c.tunnel.received
  else
    c.pendingToSsh.drop c.pendingToSshOffset

/-- What stays in the tunnel, because something older is still to be sent. -/
def leftBehind (c : Connection) : List UInt8 :=
  if c.pendingToSshOffset = c.pendingToSsh.length then [] else c.tunnel.received

theorem drop_readTunnel (c : Connection) :
    c.readTunnel.pendingToSsh.drop c.readTunnel.pendingToSshOffset = c.unsent := by
  unfold readTunnel unsent
  split_ifs <;> rfl

theorem received_readTunnel (c : Connection) :
    c.readTunnel.tunnel.received = c.leftBehind := by
  unfold readTunnel leftBehind
  split_ifs <;> rfl

theorem FromTunnel.readTunnel (h : c.FromTunnel p) : c.readTunnel.FromTunnel p := by
  have hb := h.buffered
  unfold Connection.readTunnel
  split_ifs with hread
  · rw [hread, List.drop_length, List.nil_append] at hb
    exact ⟨Nat.zero_le _, by simpa using hb, h.ended, h.closed⟩
  · exact h

/-- The bridge takes all that is pending, and nothing is left in the tunnel. -/
def SendsAll (send : Option ℕ) (c : Connection) : Prop :=
  ∀ n, send = some n → c.unsent.length ≤ min n (1 <<< 20) ∧ c.leftBehind = []

/-- What `send` takes is the start of what is pending. When it does not throw, the pipe is empty
after it just if everything was taken. -/
theorem FromTunnel.sendToBridge (h : c.FromTunnel p) (send : Option ℕ) :
    ∃ q, p.steps ((c.readTunnel.sendToBridge send).2.1.filterMap tunnelToSsh) = some q ∧
      (c.readTunnel.sendToBridge send).1.FromTunnel q ∧
      ((c.readTunnel.sendToBridge send).2.2 = .ok () → (q.buffered = [] ↔ c.SendsAll send)) ∧
      (∀ what, (c.readTunnel.sendToBridge send).2.2 = .error what → c.SendsAll send) := by
  have hr := h.readTunnel
  have hb := hr.buffered
  rw [drop_readTunnel, received_readTunnel] at hb
  unfold Connection.sendToBridge
  split_ifs with hpending
  · rw [drop_readTunnel]
    have hne : c.unsent ≠ [] := by
      rw [← drop_readTunnel]
      exact fun hnil => absurd (List.drop_eq_nil_iff.mp hnil) (Nat.not_le.mpr hpending)
    unfold socketSendSome
    rw [if_neg hne]
    cases send with
    | none =>
      refine ⟨p, rfl, hr, fun hok => ?_, fun _ _ n hn => ?_⟩
      · cases hok
      · cases hn
    | some n =>
      dsimp only
      rw [List.take_take]
      -- What is under way is what the bridge takes, then the rest of it, then what the tunnel has.
      obtain ⟨q, hq, hbuffered, hended, hclosed⟩ := Pipe.step_take hb (min n (1 <<< 20))
      refine ⟨q, (Pipe.steps_singleton p _).trans hq, ?_, fun _ => ?_, fun _ hok => by cases hok⟩
      · refine ⟨?_, ?_, hended.trans hr.ended, hclosed.trans hr.closed⟩
        · have hlength := congrArg List.length (drop_readTunnel c)
          rw [List.length_drop] at hlength
          rw [List.length_take]
          dsimp only
          omega
        · rw [hbuffered, ← List.drop_drop, drop_readTunnel, received_readTunnel]
      · rw [hbuffered, List.append_eq_nil_iff, List.drop_eq_nil_iff, List.length_take,
          le_min_iff, and_iff_left le_rfl]
        exact ⟨fun hall m hm => Option.some.inj hm ▸ hall, fun hall => hall n rfl⟩
  · -- Nothing is pending after reading, so the tunnel had nothing either.
    have hnil : c.unsent = [] := by
      rw [← drop_readTunnel]
      exact List.drop_eq_nil_iff.mpr (Nat.not_lt.mp hpending)
    have hleft : c.leftBehind = [] := by
      unfold leftBehind
      unfold unsent at hnil
      split_ifs with hread
      · rfl
      · rw [if_neg hread, List.drop_eq_nil_iff] at hnil
        exact absurd (Nat.le_antisymm h.offset_le hnil) hread
    have hall : c.SendsAll send := fun n _ => ⟨hnil ▸ Nat.zero_le _, hleft⟩
    exact ⟨p, rfl, hr, fun _ => iff_of_true (by rw [hb, hnil, hleft]; rfl) hall, fun _ _ => hall⟩

/-- What decides about the shutdown stays as it was before reading and sending. -/
theorem sendToBridge_readTunnel (send : Option ℕ) (c : Connection) :
    (c.readTunnel.sendToBridge send).1.tunnel.eof = c.tunnel.eof ∧
      (c.readTunnel.sendToBridge send).1.bridgeWriteShutdown = c.bridgeWriteShutdown := by
  have hread : c.readTunnel.tunnel.eof = c.tunnel.eof ∧
      c.readTunnel.bridgeWriteShutdown = c.bridgeWriteShutdown := by
    unfold readTunnel
    split_ifs <;> exact ⟨rfl, rfl⟩
  unfold sendToBridge
  split_ifs
  · split <;> exact hread
  · exact hread

/-- The bridge is shut down at the end of this part, unless sending throws. -/
def ShutsDown (c : Connection) : Prop :=
  c.finished = false ∧ c.tunnel.failed = false ∧ c.tunnel.eof = true ∧
    c.bridgeWriteShutdown = false

theorem FromTunnel.beginService (h : c.FromTunnel p) (send : Option ℕ) :
    ((c.ShutsDown → c.SendsAll send) →
      ∃ q, p.steps ((c.beginService send).2.1.filterMap tunnelToSsh) = some q ∧
        (c.beginService send).1.FromTunnel q) ∧
    (¬ (c.ShutsDown → c.SendsAll send) → ∃ before after q,
      (c.beginService send).2.1.filterMap tunnelToSsh = before ++ .sinkEnd :: after ∧
        p.steps before = some q ∧ q.buffered ≠ []) := by
  unfold Connection.beginService
  split_ifs with hfinished hfailed
  · exact ⟨fun _ => ⟨p, rfl, h⟩, fun hn => absurd (fun hs => absurd hs.1 (by simp [hfinished])) hn⟩
  · exact ⟨fun _ => ⟨p, rfl, ⟨h.offset_le, h.buffered, h.ended, h.closed⟩⟩,
      fun hn => absurd (fun hs => absurd hs.2.1 (by simp [hfailed])) hn⟩
  · obtain ⟨q, hq, hR, hdrained, hthrown⟩ := h.sendToBridge send
    obtain ⟨heof, hshutdown⟩ := sendToBridge_readTunnel send c
    have hwill : c.ShutsDown ↔ (c.readTunnel.sendToBridge send).1.tunnel.eof = true ∧
        ¬ (c.readTunnel.sendToBridge send).1.bridgeWriteShutdown = true := by
      simp [ShutsDown, heof, hshutdown, hfinished, hfailed]
    unfold Part.andThen
    dsimp only
    generalize c.readTunnel.sendToBridge send = r at hq hR hdrained hthrown hwill ⊢
    obtain ⟨c', os, result⟩ := r
    cases result with
    | error what =>
      -- Sending throws, and the shutdown is left out.
      have hall : c.SendsAll send := hthrown what rfl
      exact ⟨fun _ => ⟨q, hq, hR⟩, fun hn => absurd (fun _ => hall) hn⟩
    | ok _ =>
      have hsent := hdrained rfl
      dsimp only
      unfold shutdownBridge
      split_ifs with hshuts
      · rw [List.filterMap_append]
        have hshut : c.ShutsDown := hwill.mpr hshuts
        constructor
        · intro hC
          obtain ⟨r, hr, hbuffered, hended, hclosed⟩ := Pipe.step_sinkEnd (hR.ended.trans hshuts.1)
            (hsent.mpr (hC hshut)) (hR.closed.trans (by simpa using hshuts.2))
          refine ⟨r, ?_, hR.offset_le, hbuffered.trans hR.buffered, hended.trans hR.ended, hclosed⟩
          rw [Pipe.steps_append, hq]
          exact (Pipe.steps_singleton q _).trans hr
        · intro hn
          exact ⟨_, [], q, rfl, hq, fun hnil => hn fun _ => hsent.mp hnil⟩
      · rw [List.append_nil]
        exact ⟨fun _ => ⟨q, hq, hR⟩, fun hn => absurd (fun hs => absurd (hwill.mp hs) hshuts) hn⟩

end Connection

/-- The bridge is not shut down before everything that the tunnel received was sent. -/
def ServiceState.Drains (s : ServiceState) : BridgeEvent → Prop
  | .beginService send => s.connection.ShutsDown → s.connection.SendsAll send
  | _ => True

/-- The other steps leave the pipe from the tunnel as it is. -/
theorem sameInput_step (hs : s.step verbose e = some (s', os))
    (he : ∀ octets send, e ≠ .tunnelReceive octets ∧ e ≠ .tunnelFin ∧ e ≠ .beginService send) :
    s.connection.SameInput (s'.connection, os) := by
  have h := ServiceState.step_eq_some hs
  -- Three events are excluded, and most of the others do not touch what the pipe is made of.
  cases e with
  | tunnelReceive octets => exact absurd rfl (he octets none).1
  | tunnelFin => exact absurd rfl (he [] none).2.1
  | tunnelFail =>
    obtain ⟨rfl, rfl⟩ := h
    exact ⟨rfl, rfl, rfl, rfl, rfl, rfl⟩
  | workerWrite octets =>
    obtain ⟨-, rfl, rfl⟩ := h
    exact ⟨rfl, rfl, rfl, rfl, rfl, rfl⟩
  | workerError what =>
    obtain ⟨rfl, rfl⟩ := h
    exact ⟨rfl, rfl, rfl, rfl, rfl, rfl⟩
  | workerClose =>
    obtain ⟨-, rfl, rfl⟩ := h
    exact ⟨rfl, rfl, rfl, rfl, rfl, rfl⟩
  | workerDone =>
    obtain ⟨-, rfl, rfl⟩ := h
    exact ⟨rfl, rfl, rfl, rfl, rfl, rfl⟩
  | beginService send => exact absurd rfl (he [] send).2.2
  | relayOctets recv shutdown write =>
    obtain ⟨-, rfl, rfl⟩ := h
    exact Connection.sameInput_relayOctets recv shutdown write
  | endService =>
    obtain ⟨-, rfl, rfl⟩ := h
    exact Connection.sameInput_endService verbose s.connection
  | handleException =>
    obtain ⟨what, -, rfl, rfl⟩ := h
    exact Connection.sameInput_handleException verbose what s.connection

/-- **What one step does to the pipe from the tunnel.** -/
theorem performs_tunnelToSsh (e : BridgeEvent) : Performs (serviceMachine verbose) tunnelToSsh
    (fun s p => s.connection.FromTunnel p) ServiceState.Drains e := by
  -- Only three events move octets in this direction.
  by_cases he : ∀ octets send,
      e ≠ .tunnelReceive octets ∧ e ≠ .tunnelFin ∧ e ≠ .beginService send
  · apply Performs.of_true
    · intro s
      cases e with
      | beginService send => exact absurd rfl (he [] send).2.2
      | _ => trivial
    · intro s s' os p hR hs
      have hsame := sameInput_step hs he
      exact ⟨p, by rw [hsame.outputs]; rfl, hsame.fromTunnel hR⟩
  cases e with
  | tunnelReceive octets =>
    apply Performs.of_true (fun _ => trivial)
    intro s s' os p hR hs
    obtain ⟨heof, rfl, rfl⟩ := ServiceState.step_eq_some (serviceMachine_step hs)
    obtain ⟨q, hq, hbuffered, hended, hclosed⟩ := Pipe.step_push (hR.ended.trans heof) octets
    refine ⟨q, (Pipe.steps_singleton p _).trans hq, ?_⟩
    refine ⟨hR.offset_le, ?_, hended.trans hR.ended, hclosed.trans hR.closed⟩
    rw [hbuffered, hR.buffered, List.append_assoc]
  | tunnelFin =>
    apply Performs.of_true (fun _ => trivial)
    intro s s' os p hR hs
    obtain ⟨heof, rfl, rfl⟩ := ServiceState.step_eq_some (serviceMachine_step hs)
    obtain ⟨q, hq, hbuffered, hended, hclosed⟩ := Pipe.step_sourceEnd (hR.ended.trans heof)
    refine ⟨q, (Pipe.steps_singleton p _).trans hq, ?_⟩
    exact ⟨hR.offset_le, hbuffered.trans hR.buffered, hended, hclosed.trans hR.closed⟩
  | beginService send =>
    intro s s' os p hR hs
    obtain ⟨-, rfl, rfl⟩ := ServiceState.step_eq_some (serviceMachine_step hs)
    exact hR.beginService send
  | _ => exact absurd (fun _ _ => ⟨by simp, by simp, by simp⟩) he

/-- **Input of an SSH session**: the tunnel's octets reach the worker in order, and the bridge is
shut down only after all of them, just if `service` shuts it down nowhere before it has sent what is
pending and read what is in the tunnel. -/
theorem input_relayed_iff {es : List BridgeEvent} (hr : (serviceMachine verbose).Runs es s os) :
    (Complete (os.filterMap tunnelToSsh) ↔
      (serviceMachine verbose).Meets ServiceState.Drains es) ∧
    (Transparent (os.filterMap tunnelToSsh) ↔
      (serviceMachine verbose).Meets ServiceState.Drains es) := by
  have h₀ : (serviceMachine verbose).init.connection.FromTunnel .empty :=
    ⟨le_rfl, rfl, rfl, rfl⟩
  have hstep : ∀ e, True → Performs (serviceMachine verbose) tunnelToSsh
      (fun s p => s.connection.FromTunnel p) ServiceState.Drains e :=
    fun e _ => performs_tunnelToSsh e
  exact ⟨complete_iff_meets h₀ hstep hr fun _ _ => trivial,
    transparent_iff_meets h₀ hstep hr fun _ _ => trivial⟩

/-- Two octets and the end of the stream, sent in two calls of `service`. -/
theorem input_relayed_iff_example :
    let es : List BridgeEvent := [.tunnelReceive [1, 2], .beginService (some 1),
      .relayOctets (some 0) (.ok ()) (.ok 0), .endService, .tunnelFin, .beginService (some 8)]
    let os : List BridgeOutput :=
      [.tunnelReceived [1, 2], .toSsh [1], .tunnelFin, .toSsh [2], .bridgeShutdown]
    ∃ s, (serviceMachine false).Runs es s os ∧
      (serviceMachine false).Meets ServiceState.Drains es := by
  intro es os
  obtain ⟨s, hr⟩ : ∃ s, (serviceMachine false).Runs es s os := ⟨_, rfl⟩
  refine ⟨s, hr, (input_relayed_iff hr).2.mp ?_⟩
  exact Option.isSome_iff_exists.mp (by decide +kernel)

/-- The bridge takes one octet of two, and the other one is still pending when it is shut down. -/
theorem input_lost : ∃ s, (serviceMachine false).Runs
    [.tunnelReceive [1, 2], .tunnelFin, .beginService (some 1)] s
    [.tunnelReceived [1, 2], .tunnelFin, .toSsh [1], .bridgeShutdown] ∧
    s.connection.bridgeWriteShutdown = true ∧
    s.connection.pendingToSshOffset < s.connection.pendingToSsh.length ∧
    ¬ Complete ([.tunnelReceived [1, 2], .tunnelFin, .toSsh [1], .bridgeShutdown].filterMap
      tunnelToSsh) := by
  refine ⟨_, rfl, rfl, by decide, fun h => ?_⟩
  have hall := h [.push [1, 2], .sourceEnd, .give [1]] [] rfl
  exact absurd hall (by decide)

/-! ## From the worker to the tunnel -/

namespace Connection

/-- What a part does to the pipe to the tunnel. -/
def Carries (p : Pipe UInt8) (r : Connection × List BridgeOutput) : Prop :=
  ∃ q, p.steps (r.2.filterMap sshToTunnel) = some q ∧ r.1.FromWorker q

theorem SameOutput.carries {r : Connection × List BridgeOutput} (h : c.SameOutput r)
    (hp : c.FromWorker p) : Carries p r :=
  ⟨p, by rw [h.outputs]; rfl, h.fromWorker hp⟩

theorem Carries.andThen {r : Part} {f : Connection → Part} (h : Carries p (r.1, r.2.1))
    (hf : ∀ q, r.1.FromWorker q → Carries q ((f r.1).1, (f r.1).2.1)) :
    Carries p ((r.andThen f).1, (r.andThen f).2.1) := by
  unfold Part.andThen
  split
  · exact h
  · obtain ⟨q, hq, hR⟩ := h
    obtain ⟨q', hq', hR'⟩ := hf q hR
    refine ⟨q', ?_, hR'⟩
    rw [List.filterMap_append, Pipe.steps_append, hq]
    exact hq'

/-- What is read is the start of what the worker wrote. -/
theorem socketReadSome_eq_ok {recv : Option ℕ} {bridge bridge' : Bridge} {read : SocketRead}
    (h : socketReadSome recv bridge = .ok (read, bridge')) :
    bridge'.workerClosed = bridge.workerClosed ∧
      (read.kind = .data → bridge.unread = read.data ++ bridge'.unread) ∧
      (read.kind ≠ .data → bridge' = bridge) := by
  unfold socketReadSome at h
  cases recv with
  | none => cases h
  | some n =>
    dsimp only at h
    split_ifs at h
    · obtain ⟨rfl, rfl⟩ := Prod.mk.inj (Except.ok.inj h)
      refine ⟨rfl, fun _ => ?_, fun hk => absurd rfl hk⟩
      exact (List.prefix_iff_eq_append.mp (List.take_prefix _ _)).symm
    · obtain ⟨rfl, rfl⟩ := Prod.mk.inj (Except.ok.inj h)
      refine ⟨rfl, fun hk => ?_, fun _ => rfl⟩
      cases hk
    · obtain ⟨rfl, rfl⟩ := Prod.mk.inj (Except.ok.inj h)
      refine ⟨rfl, fun hk => ?_, fun _ => rfl⟩
      cases hk

/-- What is read from the bridge becomes pending. -/
theorem carries_readBridge (h : c.FromWorker p) (recv : Option ℕ) (shutdown : Except String Unit) :
    Carries p ((c.readBridge recv shutdown).1, (c.readBridge recv shutdown).2.1) := by
  have hb := h.buffered
  unfold readBridge
  split_ifs with hread
  · rw [hread.1, List.drop_length, List.nil_append] at hb
    split
    · exact ⟨p, rfl, h⟩
    · rename_i read bridge hsome
      obtain ⟨hclosed, hdata, hrest⟩ := socketReadSome_eq_ok hsome
      dsimp only
      split
      · -- What was unread is now pending, in front of the rest.
        rename_i hk
        refine ⟨p, rfl, Nat.zero_le _, ?_, h.ended.trans hclosed.symm, h.closed, ?_, h.failed⟩
        · exact hb.trans (hdata hk)
        · exact fun hd => hclosed.trans (h.workerClosed hd)
      · rename_i hk
        obtain rfl := hrest (by simp [hk])
        exact ⟨p, rfl, h⟩
      · rename_i hk
        obtain rfl := hrest (by simp [hk])
        have hsame : ∀ (shut eof : Bool) (os : List BridgeOutput), os.filterMap sshToTunnel = [] →
            Carries p ({ c with bridgeEof := eof, tunnelWriteShutdown := shut }, os) :=
          fun _ _ os hos => ⟨p, by rw [hos]; rfl, h.offset_le, h.buffered, h.ended, h.closed,
            h.workerClosed, h.failed⟩
        split_ifs
        · exact hsame _ true [] rfl
        · split
          · exact hsame _ true [] rfl
          · exact hsame true true [.tunnelShutdown] rfl
  · exact ⟨p, rfl, h⟩

/-- The tunnel accepts the start of what is pending. -/
theorem carries_writeTunnel (h : c.FromWorker p) (write : Except String ℕ) :
    Carries p ((c.writeTunnel write).1, (c.writeTunnel write).2.1) := by
  unfold writeTunnel
  split_ifs with hpending
  · cases write with
    | error what => exact ⟨p, rfl, h⟩
    | ok n =>
      dsimp only
      obtain ⟨q, hq, hbuffered, hended, hclosed⟩ := Pipe.step_take h.buffered n
      refine ⟨q, (Pipe.steps_singleton p _).trans hq, ?_, ?_, hended.trans h.ended,
        hclosed.trans h.closed, h.workerClosed, h.failed⟩
      · dsimp only
        rw [List.length_take, List.length_drop]
        omega
      · rw [hbuffered, List.drop_drop]
  · exact ⟨p, rfl, h⟩

theorem carries_relayOctets (h : c.FromWorker p) (recv : Option ℕ) (shutdown : Except String Unit)
    (write : Except String ℕ) :
    Carries p ((c.relayOctets recv shutdown write).1, (c.relayOctets recv shutdown write).2.1) :=
  (carries_readBridge h recv shutdown).andThen fun _ hq => carries_writeTunnel hq write

/-- Closing the two ends is one action of the pipe, and so is nothing else of it. -/
theorem filterMap_endService (verbose : Bool) (c : Connection) :
    (c.endService verbose).2.filterMap sshToTunnel =
      if c.worker.done = true ∧ c.pendingToTunnelOffset = c.pendingToTunnel.length then
        [.sinkEnd]
      else
        [] := by
  have hreport : (c.reportError verbose).1.pendingToTunnel = c.pendingToTunnel ∧
      (c.reportError verbose).1.pendingToTunnelOffset = c.pendingToTunnelOffset ∧
      (c.reportError verbose).2.filterMap sshToTunnel = [] := by
    unfold reportError
    split_ifs <;> exact ⟨rfl, rfl, rfl⟩
  have hjoin : ∀ c : Connection, c.join.2.filterMap sshToTunnel = [] := by
    intro c
    unfold join
    split_ifs <;> rfl
  unfold endService
  by_cases hdone : c.worker.done = true
  · simp only [hdone, if_true, true_and, hreport.1, hreport.2.1]
    split_ifs
    · rw [List.filterMap_append, List.filterMap_append, hreport.2.2, hjoin]
      rfl
    · exact hreport.2.2
  · simp [hdone]

/-- The state after `endService`, apart from what the pipe does not have. -/
theorem endService_output (verbose : Bool) (c : Connection) :
    (c.endService verbose).1.pendingToTunnel = c.pendingToTunnel ∧
      (c.endService verbose).1.pendingToTunnelOffset = c.pendingToTunnelOffset ∧
      (c.endService verbose).1.bridge = c.bridge ∧ (c.endService verbose).1.worker = c.worker ∧
      (c.endService verbose).1.tunnel = c.tunnel ∧
      (c.endService verbose).1.finished = (c.finished || decide (c.worker.done = true ∧
        c.pendingToTunnelOffset = c.pendingToTunnel.length)) := by
  unfold endService reportError join
  by_cases hdone : c.worker.done = true
  · dsimp only
    split_ifs <;> simp_all
  · simp [hdone]

/-- Nothing is left in the bridge when the worker is done and everything pending was written. -/
def ReadAll (c : Connection) : Prop :=
  c.worker.done = true → c.pendingToTunnelOffset = c.pendingToTunnel.length → c.bridge.unread = []

theorem FromWorker.endService (h : c.FromWorker p) (hf : c.finished = false) (verbose : Bool) :
    (c.ReadAll → Carries p (c.endService verbose)) ∧
    (¬ c.ReadAll → ∃ before after q,
      (c.endService verbose).2.filterMap sshToTunnel = before ++ .sinkEnd :: after ∧
        p.steps before = some q ∧ q.buffered ≠ []) := by
  have hos := filterMap_endService verbose c
  obtain ⟨hpending, hoffset, hbridge, hworker, htunnel, hfinished⟩ := endService_output verbose c
  rw [hf, Bool.false_or] at hfinished
  by_cases hend : c.worker.done = true ∧ c.pendingToTunnelOffset = c.pendingToTunnel.length
  · -- The connection ends: what is under way is what is unread in the bridge.
    rw [if_pos hend] at hos
    rw [decide_eq_true hend] at hfinished
    have hb : p.buffered = c.bridge.unread := by
      rw [h.buffered, hend.2, List.drop_length, List.nil_append]
    constructor
    · intro hread
      obtain ⟨q, hq, hbuffered, hended, hclosed⟩ := Pipe.step_sinkEnd
        (h.ended.trans (h.workerClosed hend.1)) (hb.trans (hread hend.1 hend.2))
        (h.closed.trans hf)
      refine ⟨q, ?_, ?_⟩
      · rw [hos]
        exact (Pipe.steps_singleton p _).trans hq
      · exact
          { offset_le := by rw [hoffset, hpending]; exact h.offset_le
            buffered := by rw [hbuffered, hoffset, hpending, hbridge]; exact h.buffered
            ended := by rw [hended, hbridge]; exact h.ended
            closed := hclosed.trans hfinished.symm
            workerClosed := by rw [hworker, hbridge]; exact h.workerClosed
            failed := by rw [htunnel]; exact h.failed }
    · intro hleft
      refine ⟨[], [], p, hos, rfl, fun hnil => hleft fun _ _ => ?_⟩
      rw [← hb, hnil]
  · rw [if_neg hend] at hos
    rw [decide_eq_false hend] at hfinished
    have hsame : c.SameOutput (c.endService verbose) :=
      ⟨hpending, hoffset, hbridge, by rw [hworker], hfinished.trans hf.symm, by rw [htunnel], hos⟩
    exact ⟨fun _ => hsame.carries h, fun hleft => absurd (fun hd he => absurd ⟨hd, he⟩ hend) hleft⟩

end Connection

/-- No octet that the worker wrote is left behind when the connection is closed. -/
def ServiceState.Drained (s : ServiceState) : BridgeEvent → Prop
  | .endService => s.connection.ReadAll
  | _ => True

/-- The tunnel does not fail, and no exception is handled. -/
def BridgeEvent.Faultless : BridgeEvent → Prop
  | .tunnelFail | .handleException => False
  | _ => True

/-- **What one step does to the pipe to the tunnel.** -/
theorem performs_sshToTunnel (he : e.Faultless) :
    Performs (serviceMachine verbose) sshToTunnel
      (fun s p => s.connection.FromWorker p ∧ s.Consistent) ServiceState.Drained e := by
  intro s s' os p ⟨hR, hcons⟩ hs
  have hcons' : s'.Consistent := (ServiceState.joined_step hcons (serviceMachine_step hs)).1
  -- All events but one need no condition.
  have hfree : Connection.Carries p (s'.connection, os) → (∀ s, ServiceState.Drained s e) →
      (s.Drained e → ∃ q, p.steps (os.filterMap sshToTunnel) = some q ∧
        s'.connection.FromWorker q ∧ s'.Consistent) ∧
      (¬ s.Drained e → ∃ before after q, os.filterMap sshToTunnel = before ++ .sinkEnd :: after ∧
        p.steps before = some q ∧ q.buffered ≠ []) := by
    rintro ⟨q, hq, hR'⟩ hC
    exact ⟨fun _ => ⟨q, hq, hR', hcons'⟩, fun hn => absurd (hC s) hn⟩
  have hstep := ServiceState.step_eq_some (serviceMachine_step hs)
  cases e with
  | tunnelReceive octets =>
    obtain ⟨-, rfl, rfl⟩ := hstep
    exact hfree ⟨p, rfl, hR.offset_le, hR.buffered, hR.ended, hR.closed, hR.workerClosed,
      hR.failed⟩ fun _ => trivial
  | tunnelFin =>
    obtain ⟨-, rfl, rfl⟩ := hstep
    exact hfree ⟨p, rfl, hR.offset_le, hR.buffered, hR.ended, hR.closed, hR.workerClosed,
      hR.failed⟩ fun _ => trivial
  | tunnelFail => exact he.elim
  | workerWrite octets =>
    obtain ⟨hopen, rfl, rfl⟩ := hstep
    refine hfree ?_ fun _ => trivial
    obtain ⟨q, hq, hbuffered, hended, hclosed⟩ := Pipe.step_push (hR.ended.trans hopen) octets
    refine ⟨q, (Pipe.steps_singleton p _).trans hq, hR.offset_le, ?_, hended.trans hR.ended,
      hclosed.trans hR.closed, hR.workerClosed, hR.failed⟩
    rw [hbuffered, hR.buffered, List.append_assoc]
  | workerError what =>
    obtain ⟨rfl, rfl⟩ := hstep
    exact hfree ⟨p, rfl, hR.offset_le, hR.buffered, hR.ended, hR.closed, hR.workerClosed,
      hR.failed⟩ fun _ => trivial
  | workerClose =>
    obtain ⟨hopen, rfl, rfl⟩ := hstep
    refine hfree ?_ fun _ => trivial
    obtain ⟨q, hq, hbuffered, hended, hclosed⟩ := Pipe.step_sourceEnd (hR.ended.trans hopen)
    exact ⟨q, (Pipe.steps_singleton p _).trans hq, hR.offset_le, hbuffered.trans hR.buffered,
      hended, hclosed.trans hR.closed, fun _ => rfl, hR.failed⟩
  | workerDone =>
    obtain ⟨hclosed, rfl, rfl⟩ := hstep
    exact hfree ⟨p, rfl, hR.offset_le, hR.buffered, hR.ended, hR.closed, fun _ => hclosed,
      hR.failed⟩ fun _ => trivial
  | beginService send =>
    obtain ⟨-, rfl, rfl⟩ := hstep
    exact hfree ((Connection.sameOutput_beginService send hR.failed).carries hR) fun _ => trivial
  | relayOctets recv shutdown write =>
    obtain ⟨-, rfl, rfl⟩ := hstep
    exact hfree (Connection.carries_relayOctets hR recv shutdown write) fun _ => trivial
  | endService =>
    obtain ⟨hpoint, rfl, rfl⟩ := hstep
    obtain ⟨hdone, hearly⟩ := hR.endService (hcons.unfinished (by simp [hpoint])) verbose
    refine ⟨fun hC => ?_, hearly⟩
    obtain ⟨q, hq, hR'⟩ := hdone hC
    exact ⟨q, hq, hR', hcons'⟩
  | handleException => exact he.elim

namespace Connection

/-- The pipe to the tunnel is closed where the connection becomes finished, and nowhere else. -/
def Finishes (c : Connection) (r : Connection × List BridgeOutput) : Prop :=
  r.1.finished = true ↔ c.finished = true ∨ .sinkEnd ∈ r.2.filterMap sshToTunnel

theorem finishes_of_eq {os : List BridgeOutput} (h : c'.finished = c.finished)
    (hos : .sinkEnd ∉ os.filterMap sshToTunnel) : c.Finishes (c', os) := by
  unfold Finishes
  rw [h, or_iff_left hos]

theorem SameOutput.finishes {r : Connection × List BridgeOutput} (h : c.SameOutput r) :
    c.Finishes r :=
  finishes_of_eq h.finished (by rw [h.outputs]; exact List.not_mem_nil)

theorem Finishes.andThen {r : Part} {f : Connection → Part} (h : c.Finishes (r.1, r.2.1))
    (hf : r.1.Finishes ((f r.1).1, (f r.1).2.1)) :
    c.Finishes ((r.andThen f).1, (r.andThen f).2.1) := by
  unfold Part.andThen
  split
  · exact h
  · unfold Finishes at *
    dsimp only at *
    rw [hf, h, List.filterMap_append, List.mem_append, or_assoc]

theorem finishes_beginService (send : Option ℕ) :
    c.Finishes ((c.beginService send).1, (c.beginService send).2.1) := by
  cases hfailed : c.tunnel.failed with
  | false => exact (sameOutput_beginService send hfailed).finishes
  | true =>
    unfold beginService
    split_ifs with hfinished
    · exact finishes_of_eq rfl List.not_mem_nil
    · exact iff_of_true rfl (.inr (List.mem_singleton_self _))

theorem finishes_readBridge (recv : Option ℕ) (shutdown : Except String Unit) :
    c.Finishes ((c.readBridge recv shutdown).1, (c.readBridge recv shutdown).2.1) := by
  apply finishes_of_eq (continues_readBridge recv shutdown).finished
  unfold readBridge
  split
  · split
    · exact List.not_mem_nil
    · dsimp only
      split
      · exact List.not_mem_nil
      · exact List.not_mem_nil
      · split
        · exact List.not_mem_nil
        · split <;> exact List.not_mem_nil
  · exact List.not_mem_nil

theorem finishes_writeTunnel (write : Except String ℕ) :
    c.Finishes ((c.writeTunnel write).1, (c.writeTunnel write).2.1) := by
  apply finishes_of_eq (continues_writeTunnel write).finished
  unfold writeTunnel
  split
  · split
    · exact List.not_mem_nil
    · simp [sshToTunnel]
  · exact List.not_mem_nil

theorem finishes_endService (verbose : Bool) : c.Finishes (c.endService verbose) := by
  unfold Finishes
  rw [(endService_output verbose c).2.2.2.2.2, filterMap_endService, Bool.or_eq_true,
    decide_eq_true_iff]
  apply or_congr_right
  split_ifs with hend
  · exact iff_of_true hend (List.mem_singleton_self _)
  · exact iff_of_false hend List.not_mem_nil

theorem finishes_handleException (verbose : Bool) (what : String) :
    c.Finishes (c.handleException verbose what) := by
  refine iff_of_true rfl (.inr (List.mem_filterMap.mpr ⟨.bridgeClosed, ?_, rfl⟩))
  exact List.mem_append_left _ (List.mem_append_right _ (List.mem_cons_self ..))

end Connection

/-- **The end of a connection**: it is finished just if the pipe to the tunnel was closed. -/
theorem finished_iff {es : List BridgeEvent} (hr : (serviceMachine verbose).Runs es s os) :
    s.connection.finished = true ↔ .sinkEnd ∈ os.filterMap sshToTunnel := by
  refine hr.trace_invariant (I := fun _ s os =>
    s.connection.finished = true ↔ .sinkEnd ∈ os.filterMap sshToTunnel)
    (iff_of_false Bool.false_ne_true List.not_mem_nil) ?_
  intro _ s os e s' os' _ hI hs
  suffices h : s.connection.Finishes (s'.connection, os') by
    rw [List.filterMap_append, List.mem_append, ← hI]
    exact h
  have hstep := ServiceState.step_eq_some (serviceMachine_step hs)
  -- One lemma for each part of `service`, and nothing to do for the other events.
  cases e with
  | tunnelReceive octets =>
    obtain ⟨-, rfl, rfl⟩ := hstep
    exact Connection.finishes_of_eq rfl List.not_mem_nil
  | tunnelFin =>
    obtain ⟨-, rfl, rfl⟩ := hstep
    exact Connection.finishes_of_eq rfl List.not_mem_nil
  | tunnelFail =>
    obtain ⟨rfl, rfl⟩ := hstep
    exact Connection.finishes_of_eq rfl List.not_mem_nil
  | workerWrite octets =>
    obtain ⟨-, rfl, rfl⟩ := hstep
    exact Connection.finishes_of_eq rfl (by simp [sshToTunnel])
  | workerError what =>
    obtain ⟨rfl, rfl⟩ := hstep
    exact Connection.finishes_of_eq rfl List.not_mem_nil
  | workerClose =>
    obtain ⟨-, rfl, rfl⟩ := hstep
    exact Connection.finishes_of_eq rfl (by simp [sshToTunnel])
  | workerDone =>
    obtain ⟨-, rfl, rfl⟩ := hstep
    exact Connection.finishes_of_eq rfl List.not_mem_nil
  | beginService send =>
    obtain ⟨-, rfl, rfl⟩ := hstep
    exact Connection.finishes_beginService send
  | relayOctets recv shutdown write =>
    obtain ⟨-, rfl, rfl⟩ := hstep
    exact (Connection.finishes_readBridge recv shutdown).andThen
      (Connection.finishes_writeTunnel write)
  | endService =>
    obtain ⟨-, rfl, rfl⟩ := hstep
    exact Connection.finishes_endService verbose
  | handleException =>
    obtain ⟨what, -, rfl, rfl⟩ := hstep
    exact Connection.finishes_handleException verbose what

/-- **Output of an SSH session**, as long as nothing fails: the tunnel has accepted all that the
worker wrote when the connection is finished, just if `service` finishes it nowhere while something
is unread in the bridge. -/
theorem output_relayed_iff {es : List BridgeEvent} (hr : (serviceMachine verbose).Runs es s os)
    (hT : ∀ e ∈ es, e.Faultless) :
    (s.connection.finished = true ↔ .sinkEnd ∈ os.filterMap sshToTunnel) ∧
    (Complete (os.filterMap sshToTunnel) ↔
      (serviceMachine verbose).Meets ServiceState.Drained es) ∧
    (Transparent (os.filterMap sshToTunnel) ↔
      (serviceMachine verbose).Meets ServiceState.Drained es) := by
  have h₀ : (serviceMachine verbose).init.connection.FromWorker .empty ∧
      (serviceMachine verbose).init.Consistent :=
    ⟨⟨le_rfl, rfl, rfl, rfl, fun h => h, rfl⟩, ServiceState.consistent_new _⟩
  have hstep : ∀ e : BridgeEvent, e.Faultless → Performs (serviceMachine verbose) sshToTunnel
      (fun s p => s.connection.FromWorker p ∧ s.Consistent) ServiceState.Drained e :=
    fun e he => performs_sshToTunnel he
  exact ⟨finished_iff hr, complete_iff_meets h₀ hstep hr hT, transparent_iff_meets h₀ hstep hr hT⟩

/-- The worker writes three octets and ends; they are read and accepted before the end is seen. -/
theorem output_relayed_iff_example :
    let es : List BridgeEvent := [.workerWrite [1, 2, 3], .workerClose, .workerDone,
      .beginService none, .relayOctets (some 8) (.ok ()) (.ok 2), .endService,
      .beginService none, .relayOctets (some 8) (.ok ()) (.ok 2), .endService]
    let os : List BridgeOutput := [.workerWrote [1, 2, 3], .workerClosed, .toTunnel [1, 2],
      .toTunnel [3], .bridgeClosed, .tunnelClosed, .joined]
    ∃ s, (serviceMachine false).Runs es s os ∧ s.connection.finished = true ∧
      (serviceMachine false).Meets ServiceState.Drained es := by
  intro es os
  obtain ⟨s, hr, hfin⟩ : ∃ s, (serviceMachine false).Runs es s os ∧
      s.connection.finished = true := ⟨_, rfl, rfl⟩
  have hT : ∀ e ∈ es, e.Faultless := by simp [es, BridgeEvent.Faultless]
  refine ⟨s, hr, hfin, (output_relayed_iff hr hT).2.2.mp ?_⟩
  exact Option.isSome_iff_exists.mp (by decide +kernel)

/-- The worker writes and ends between a read that would block and the look at `done`: its octet is
still unread when the connection is finished. -/
theorem output_lost : ∃ s, (serviceMachine false).Runs
    [.beginService none, .relayOctets (some 0) (.ok ()) (.ok 0), .workerWrite [1], .workerClose,
      .workerDone, .endService] s
    [.workerWrote [1], .workerClosed, .bridgeClosed, .tunnelClosed, .joined] ∧
    s.connection.finished = true ∧ s.connection.bridge.unread = [1] ∧
    ¬ Complete ([.workerWrote [1], .workerClosed, .bridgeClosed, .tunnelClosed, .joined].filterMap
      sshToTunnel) := by
  refine ⟨_, rfl, rfl, rfl, fun h => ?_⟩
  have hall := h [.push [1], .sourceEnd] [] rfl
  exact absurd hall (by decide)

end Tailcat.Ssh
