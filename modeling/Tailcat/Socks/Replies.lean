import Tailcat.Relay.ReadError
import Tailcat.Socks.Proxy

/-!
# The replies of the proxy

A client is told once what became of its request: by the thread of its handshake, by
`adopt_handshakes` where the tunnel cannot be dialed, or by `service` as soon as the tunnel is
connected or has failed. Whether it has been told is written down in two places, since a connection
that fails before it is connected is finished but not `replied`.

## Main definitions

* `SocksOutput.isReply`, `SocksOutput.needs`: the replies, and what comes before what
* `QuietPart`: a part of `service` that tells the client nothing
* `Told`: what holds of a connection and what has happened at it
* `Failing`, `Condemned`: connections that have failed, before and after `poll` comes to them

## Main results

* `replyOnce_told`, `beginService_told`: the parts one by one
* `socksMachine_orderly`: what holds of every run
* `reply_discipline`: the replies of every run, and the end of failed connections
-/

namespace Tailcat

open Machine

/-! ## What happens at a socket -/

namespace SocksOutput

/-- An attempt to send the ten octets of `socks_reply`. -/
def isReply : SocksOutput → Bool
  | wrote octets => octets.length = 10
  | relay (.reply _) => true
  | _ => false

/-- The host is told of success when the tunnel is connected, and octets are relayed when the host
has been told. -/
def needs : SocksOutput → List SocksOutput
  | wrote octets => if octets = replyOctets 0x00 then [tunnelConnected] else []
  | relay (.reply code) => if code = 0x00 then [tunnelConnected] else []
  | relay (.toHost _) => [relay (.reply 0x00)]
  | relay (.hostRead _) => [relay (.reply 0x00)]
  | _ => []

end SocksOutput

/-- How many replies were attempted. -/
def replies (os : List SocksOutput) : ℕ := os.countP SocksOutput.isReply

@[simp] theorem replies_append (os os' : List SocksOutput) :
    replies (os ++ os') = replies os + replies os' := List.countP_append

/-- Both sides were closed, or the host alone where there was no tunnel. -/
def Closed (os : List SocksOutput) : Prop :=
  .relay .closed ∈ os ∨ .hostClosed ∈ os ∧ ∀ port, .dialed port ∉ os

/-- Outputs of a connection that are no replies, and for which the host must have been told. -/
theorem replies_relay {os : List RelayOutput} (h : ∀ code, .reply code ∉ os) :
    replies (os.map .relay) = 0 := by
  rw [replies, List.countP_eq_zero]
  intro o ho
  obtain ⟨o, hmem, rfl⟩ := List.mem_map.mp ho
  cases o with
  | reply code => exact absurd hmem (h code)
  | _ => exact Bool.false_ne_true

theorem needs_relay {os : List RelayOutput} (h : ∀ code, .reply code ∉ os) :
    ∀ o ∈ os.map SocksOutput.relay, ∀ n ∈ o.needs, n = .relay (.reply 0x00) := by
  intro o ho n hn
  obtain ⟨o, hmem, rfl⟩ := List.mem_map.mp ho
  cases o with
  | reply code => exact absurd hmem (h code)
  | toHost | hostRead => exact List.mem_singleton.mp hn
  | _ => cases hn

/-! ## The parts of `service` -/

section Parts

open Connection

/-- A part of `service` that tells the client nothing: what it does not change, and that it closes
both sides where it ends `service`. -/
structure QuietPart (c : Connection) (p : Part) : Prop where
  replied_eq : p.1.replied = c.replied
  reading_eq : p.1.hostRead.isSome = c.hostRead.isSome
  connected_eq : p.1.tunnel.connected = c.tunnel.connected
  failed_eq : p.1.tunnel.failed = c.tunnel.failed
  finished_of : c.finished = true → p.1.finished = true
  silent : ∀ code, .reply code ∉ p.2.1
  stopped : p.2.2 = true → p.1.finished = true ∧ .closed ∈ p.2.1

variable {c : Connection}

theorem QuietPart.andThen {p : Part} {f : Connection → Part} (hp : QuietPart c p)
    (hf : QuietPart p.1 (f p.1)) : QuietPart c (p.andThen f) := by
  unfold Part.andThen
  by_cases hstop : p.2.2 = true
  · rwa [if_pos hstop]
  rw [if_neg hstop]
  refine ⟨hf.replied_eq.trans hp.replied_eq, hf.reading_eq.trans hp.reading_eq,
    hf.connected_eq.trans hp.connected_eq, hf.failed_eq.trans hp.failed_eq,
    fun h => hf.finished_of (hp.finished_of h), fun code h => ?_, fun h => ?_⟩
  · rcases List.mem_append.mp h with h | h
    · exact hp.silent code h
    · exact hf.silent code h
  · obtain ⟨hfin, hclosed⟩ := hf.stopped h
    exact ⟨hfin, List.mem_append_right _ hclosed⟩

/-- An exception after some outputs. -/
theorem quiet_stop {c' : Connection} {os : List RelayOutput} (hreplied : c'.replied = c.replied)
    (hreading : c'.hostRead.isSome = c.hostRead.isSome)
    (htunnel : c'.tunnel.connected = c.tunnel.connected)
    (hfailed : c'.tunnel.failed = c.tunnel.failed) (hos : ∀ code, .reply code ∉ os) :
    QuietPart c (c'.stop os) where
  replied_eq := hreplied
  reading_eq := hreading
  connected_eq := htunnel
  failed_eq := hfailed
  finished_of _ := rfl
  silent code h := by
    rcases List.mem_append.mp h with h | h
    · exact hos code h
    · simp at h
  stopped _ := ⟨rfl, List.mem_append_right _ (List.mem_singleton_self _)⟩

theorem writeReceived_quiet (written : Option ℕ) (c : Connection) :
    QuietPart c (c.writeReceived written) := by
  unfold writeReceived
  dsimp only
  split
  · exact ⟨rfl, rfl, rfl, rfl, id, by simp, nofun⟩
  split
  · exact ⟨rfl, rfl, rfl, rfl, id, by simp, nofun⟩
  · exact quiet_stop rfl rfl rfl rfl (by simp)

theorem takeHostChunk_quiet (relay : Relay) (shutdownThrows : Bool) (c : Connection) :
    QuietPart c (c.takeHostChunk relay shutdownThrows) := by
  unfold takeHostChunk
  split
  · exact ⟨rfl, rfl, rfl, rfl, id, by simp, nofun⟩
  rename_i hostRead hread
  split
  · exact ⟨rfl, rfl, rfl, rfl, id, by simp, nofun⟩
  have hsome : true = c.hostRead.isSome := by rw [hread]; rfl
  dsimp only
  split
  · split
    · exact ⟨rfl, hsome, rfl, rfl, fun _ => rfl, by simp, nofun⟩
    · exact quiet_stop rfl hsome rfl rfl (by simp)
  split
  · split
    · exact quiet_stop rfl hsome rfl rfl (by simp)
    · exact ⟨rfl, hsome, rfl, rfl, id, by simp, nofun⟩
  · exact ⟨rfl, hsome, rfl, rfl, id, by simp, nofun⟩

theorem writePending_quiet (accepts : Option ℕ) (c : Connection) :
    QuietPart c (c.writePending accepts) := by
  unfold writePending
  split
  · split
    · exact quiet_stop rfl rfl rfl rfl (by simp)
    · exact ⟨rfl, rfl, rfl, rfl, id, by simp, nofun⟩
  · exact ⟨rfl, rfl, rfl, rfl, id, by simp, nofun⟩

theorem shutdownHost_quiet (throws : Bool) (c : Connection) : QuietPart c (c.shutdownHost throws) := by
  unfold shutdownHost
  split
  · split
    · exact quiet_stop rfl rfl rfl rfl (by simp)
    · exact ⟨rfl, rfl, rfl, rfl, id, by simp, nofun⟩
  · exact ⟨rfl, rfl, rfl, rfl, id, by simp, nofun⟩

theorem middleService_quiet (relay : Relay) (shutdownThrows : Bool) (accepts : Option ℕ)
    (hostShutdownThrows : Bool) (c : Connection) :
    QuietPart c (c.middleService relay shutdownThrows accepts hostShutdownThrows) :=
  ((takeHostChunk_quiet relay shutdownThrows c).andThen (writePending_quiet accepts _)).andThen
    (shutdownHost_quiet hostShutdownThrows _)

/-- The end of `service` closes a connection that is finished, if its host is read. -/
theorem endService_quiet (c : Connection) : QuietPart c (c.endService.1, c.endService.2, false) := by
  unfold endService
  split
  · exact ⟨rfl, rfl, rfl, rfl, id, by simp, nofun⟩
  split
  · exact ⟨rfl, rfl, rfl, rfl, fun _ => rfl, by simp, nofun⟩
  · exact ⟨rfl, rfl, rfl, rfl, id, by simp, nofun⟩

theorem endService_closed {c : Connection} (hread : c.hostRead.isSome = true)
    (h : c.endService.1.finished = true) : .closed ∈ c.endService.2 := by
  unfold endService at h ⊢
  obtain ⟨hostRead, hsome⟩ := Option.isSome_iff_exists.mp hread
  rw [hsome] at h ⊢
  dsimp only at h ⊢
  split at h
  · rename_i hcond
    rw [if_pos hcond]
    exact List.mem_singleton_self _
  · rename_i hcond
    exact absurd (.inr h) hcond

end Parts

/-! ## A connection and what has happened at it -/

section Told

open Connection

/-- What holds of a connection of the proxy at which `os` has happened. -/
structure Told (c : Connection) (os : List SocksOutput) : Prop where
  /-- The host has been told, or the connection is finished and it has been told of the failure. -/
  replies_eq : replies os = if c.replied = true ∨ c.finished = true then 1 else 0
  ordered : Preceded SocksOutput.needs os
  success_of_replied : c.replied = true → .relay (.reply 0x00) ∈ os
  connected_of_replied : c.replied = true → c.tunnel.connected = true
  seen_of_connected : c.tunnel.connected = true → .tunnelConnected ∈ os
  reading_eq : c.hostRead.isSome = c.replied

variable {c c' : Connection} {os os' : List SocksOutput}

/-- A step that tells the client nothing. -/
theorem Told.frame (h : Told c os) (hreplied : c'.replied = c.replied)
    (hreading : c'.hostRead.isSome = c.hostRead.isSome)
    (hfinished : c'.finished = true → c.finished = true ∨ c.replied = true)
    (hfinished' : c.finished = true → c'.finished = true)
    (hconnected : c.tunnel.connected = true → c'.tunnel.connected = true)
    (hseen : c'.tunnel.connected = true → c.tunnel.connected = true ∨ .tunnelConnected ∈ os')
    (hquiet : replies os' = 0) (hneeds : ∀ o ∈ os', ∀ n ∈ o.needs, n ∈ os) :
    Told c' (os ++ os') where
  replies_eq := by
    rw [replies_append, hquiet, h.replies_eq, Nat.add_zero, hreplied]
    refine if_congr ⟨Or.imp_right hfinished', ?_⟩ rfl rfl
    rintro (hr | hf)
    · exact .inl hr
    · exact (hfinished hf).symm
  ordered := h.ordered.append hneeds
  success_of_replied hr := List.mem_append_left _ (h.success_of_replied (hreplied ▸ hr))
  connected_of_replied hr := hconnected (h.connected_of_replied (hreplied ▸ hr))
  seen_of_connected hc := by
    rcases hseen hc with hc | hc
    · exact List.mem_append_left _ (h.seen_of_connected hc)
    · exact List.mem_append_right _ hc
  reading_eq := by rw [hreading, h.reading_eq, hreplied]

/-- A quiet part of `service`, when the host has been told. -/
theorem Told.quiet (h : Told c os) (hreplied : c.replied = true) {p : Part} (hp : QuietPart c p) :
    Told p.1 (os ++ p.2.1.map .relay) := by
  refine h.frame hp.replied_eq hp.reading_eq (fun _ => .inr hreplied) hp.finished_of
    (fun hc => hp.connected_eq.trans hc) (fun hc => .inl (hp.connected_eq.symm.trans hc))
    (replies_relay hp.silent) fun o ho n hn => ?_
  rw [needs_relay hp.silent o ho n hn]
  exact h.success_of_replied hreplied

/-- The host is told, of success or of failure. -/
theorem Told.tell (h : Told c os) (hreplied : ¬ c.replied = true) (hfinished : ¬ c.finished = true)
    {code : UInt8} (hcode : code = 0x00 → c.tunnel.connected = true) (htunnel : c'.tunnel = c.tunnel)
    (hdone : c'.replied = true ∨ c'.finished = true)
    (hsuccess : c'.replied = true → code = 0x00 ∧ c.tunnel.connected = true)
    (hreading : c'.hostRead.isSome = c'.replied) : Told c' (os ++ [.relay (.reply code)]) where
  replies_eq := by
    rw [replies_append, h.replies_eq, if_neg (not_or.mpr ⟨hreplied, hfinished⟩), if_pos hdone]
    rfl
  ordered := by
    refine preceded_snoc.mpr ⟨h.ordered, fun n hn => ?_⟩
    dsimp only [SocksOutput.needs] at hn
    split at hn
    · rename_i hzero
      obtain rfl := List.mem_singleton.mp hn
      exact h.seen_of_connected (hcode hzero)
    · cases hn
  success_of_replied hr := by
    rw [(hsuccess hr).1]
    exact List.mem_append_right _ (List.mem_singleton_self _)
  connected_of_replied hr := htunnel ▸ (hsuccess hr).2
  seen_of_connected hc := List.mem_append_left _ (h.seen_of_connected (htunnel ▸ hc))
  reading_eq := hreading

/-- Closing does not tell the host anything. -/
theorem Told.close (h : Told c os) : Told c (os ++ [.relay .closed]) :=
  h.frame rfl rfl .inl id id .inl rfl (by simp [SocksOutput.needs])

/-- The host is told of success once. -/
theorem replyOnce_told (h : Told c os) (hconnected : c.tunnel.connected = true)
    (hfinished : ¬ c.finished = true) (throws : Bool) :
    Told (c.replyOnce .socksProxy throws).1
      (os ++ (c.replyOnce .socksProxy throws).2.1.map .relay) := by
  unfold replyOnce
  by_cases hreplied : c.replied = true
  · rw [if_neg fun hn => hn.2 hreplied, List.map_nil, List.append_nil]
    exact h
  rw [if_pos ⟨rfl, hreplied⟩]
  cases throws with
  | true =>
    have htold : Told { c with finished := true } (os ++ [.relay (.reply 0x00)]) :=
      h.tell hreplied hfinished (fun _ => hconnected) rfl (.inr rfl)
        (fun hr => absurd hr hreplied) h.reading_eq
    have hclosed := htold.close
    rwa [List.append_assoc] at hclosed
  | false =>
    exact h.tell hreplied hfinished (fun _ => hconnected) rfl (.inl rfl)
      (fun _ => ⟨rfl, hconnected⟩) rfl

/-- After `replyOnce` the host has been told, or `service` ends with the connection. -/
theorem replyOnce_stopped (c : Connection) (throws : Bool) :
    ((c.replyOnce .socksProxy throws).2.2 = true →
      (c.replyOnce .socksProxy throws).1.finished = true ∧
        .closed ∈ (c.replyOnce .socksProxy throws).2.1) ∧
      (¬ (c.replyOnce .socksProxy throws).2.2 = true →
        (c.replyOnce .socksProxy throws).1.replied = true) := by
  unfold replyOnce
  by_cases hreplied : c.replied = true
  · rw [if_neg fun hn => hn.2 hreplied]
    exact ⟨fun hs => (Bool.false_ne_true hs).elim, fun _ => hreplied⟩
  rw [if_pos ⟨rfl, hreplied⟩]
  cases throws with
  | true => exact ⟨fun _ => ⟨rfl, by simp [Connection.stop]⟩, fun hn => absurd rfl hn⟩
  | false => exact ⟨fun hs => (Bool.false_ne_true hs).elim, fun _ => rfl⟩

/-- What the first part of `service` makes of a connection. -/
structure Begun (c : Connection) (os : List SocksOutput)
    (q : Connection × List RelayOutput × ServicePoint) : Prop where
  told : Told q.1 (os ++ q.2.1.map .relay)
  replied_of : q.2.2 ≠ .idle → q.1.replied = true
  closed_of : q.2.2 = .idle → q.1.finished = true → c.finished = true ∨ .closed ∈ q.2.1

theorem beginService_begun (h : Told c os) (replyThrows : Bool) (written : Option ℕ) :
    Begun c os (c.beginService .socksProxy replyThrows written) := by
  unfold beginService
  by_cases hfinished : c.finished = true
  · rw [if_pos hfinished]
    exact ⟨by simpa using h, fun hn => absurd rfl hn, fun _ _ => .inl hfinished⟩
  rw [if_neg hfinished]
  by_cases hfailed : c.tunnel.failed = true
  · -- The host is told of the failure, unless it was told of success before.
    rw [if_pos hfailed]
    refine ⟨?_, fun hn => absurd rfl hn, fun _ _ => .inr ?_⟩
    · by_cases hreplied : c.replied = true
      · rw [if_neg fun hn => hn.2 hreplied]
        exact h.quiet hreplied (quiet_stop rfl rfl rfl rfl (by simp))
      · rw [if_pos ⟨rfl, hreplied⟩]
        have htold : Told { c with finished := true } (os ++ [.relay (.reply 0x05)]) :=
          h.tell hreplied hfinished (fun hn => absurd hn (by decide)) rfl (.inr rfl)
            (fun hr => absurd hr hreplied) h.reading_eq
        have hclosed := htold.close
        rwa [List.append_assoc] at hclosed
    · exact List.mem_append_right _ (List.mem_singleton_self _)
  rw [if_neg hfailed]
  by_cases hconnected : c.tunnel.connected = true
  · rw [if_neg fun hn => hn.2 hconnected]
    have htold := replyOnce_told h hconnected hfinished replyThrows
    obtain ⟨hstopped, hreplied⟩ := replyOnce_stopped c replyThrows
    dsimp only
    unfold Part.andThen
    by_cases hstop : (c.replyOnce .socksProxy replyThrows).2.2 = true
    · rw [if_pos hstop, if_pos hstop]
      exact ⟨htold, fun hn => absurd rfl hn, fun _ _ => .inr (hstopped hstop).2⟩
    · -- The host has been told, and what the tunnel received follows.
      rw [if_neg hstop]
      have hquiet := writeReceived_quiet written (c.replyOnce .socksProxy replyThrows).1
      have hwritten := htold.quiet (hreplied hstop) hquiet
      rw [List.append_assoc, ← List.map_append] at hwritten
      refine ⟨hwritten, fun _ => hquiet.replied_eq.trans (hreplied hstop), fun hidle _ => ?_⟩
      refine .inr (List.mem_append_right _ (hquiet.stopped ?_).2)
      by_contra hcontinues
      dsimp only at hidle
      rw [if_neg hcontinues] at hidle
      cases hidle
  · -- The host has not been told, so there is no reader either.
    rw [if_pos ⟨by decide, hconnected⟩,
      if_pos ⟨rfl, fun hr => hconnected (h.connected_of_replied hr.1)⟩]
    exact ⟨by simpa using h, fun hn => absurd rfl hn, fun _ hf => .inl hf⟩

/-! ### The events at a connection -/

/-- What holds of a connection between the parts of `service`, and between the calls of `poll`. -/
structure Relayed (poll : PollPoint) (r : RelayState) (os : List SocksOutput) : Prop where
  told : Told r.connection os
  replied_of_point : r.point ≠ .idle → r.connection.replied = true
  servicing_of_point : r.point ≠ .idle → poll = .servicing
  closed_of_finished : r.point = .idle → r.connection.finished = true → .relay .closed ∈ os
  open_outside : poll = .outside → r.connection.finished = false

variable {poll : PollPoint} {r : RelayState}

/-- An event that is no part of `service`. -/
theorem Relayed.frame (h : Relayed poll r os) (htold : Told c' (os ++ os'))
    (hreplied : c'.replied = r.connection.replied)
    (hfinished : c'.finished = r.connection.finished) :
    Relayed poll { r with connection := c' } (os ++ os') where
  told := htold
  replied_of_point hp := hreplied.trans (h.replied_of_point hp)
  servicing_of_point := h.servicing_of_point
  closed_of_finished hp hf := List.mem_append_left _ (h.closed_of_finished hp (hfinished ▸ hf))
  open_outside hp := hfinished.trans (h.open_outside hp)

/-- After a part of `service`. -/
theorem relayed_of_service (htold : Told c' os) {point : ServicePoint}
    (hreplied : point ≠ .idle → c'.replied = true)
    (hclosed : point = .idle → c'.finished = true → .relay .closed ∈ os) :
    Relayed (SocksState.afterService point) ⟨c', point⟩ os where
  told := htold
  replied_of_point := hreplied
  servicing_of_point := SocksState.afterService_of_ne
  closed_of_finished := hclosed
  open_outside hp := absurd hp (SocksState.afterService_ne_outside point)

theorem mem_map_closed {ps : List RelayOutput} (h : .closed ∈ ps) :
    .relay .closed ∈ os ++ ps.map .relay :=
  List.mem_append_right _ (List.mem_map_of_mem h)

/-- The tunnel moves. -/
theorem Relayed.moveTunnel (h : Relayed poll r os) {f : Tunnel → Tunnel}
    (hconnected : r.connection.tunnel.connected = true → (f r.connection.tunnel).connected = true)
    (hseen : (f r.connection.tunnel).connected = true →
      r.connection.tunnel.connected = true ∨ .tunnelConnected ∈ os')
    (hquiet : replies os' = 0) (hneeds : ∀ o ∈ os', ∀ n ∈ o.needs, n ∈ os) :
    Relayed poll { r with connection := { r.connection with tunnel := f r.connection.tunnel } }
      (os ++ os') :=
  h.frame (h.told.frame rfl rfl .inl id hconnected hseen hquiet hneeds) rfl rfl

/-- The reader thread works. -/
theorem Relayed.readHost (h : Relayed poll r os) {hostRead hostRead' : HostReadState}
    (hread : r.connection.hostRead = some hostRead) {ps : List RelayOutput}
    (hps : ∀ code, .reply code ∉ ps) :
    Relayed poll { r with connection := { r.connection with hostRead := some hostRead' } }
      (os ++ ps.map .relay) := by
  have hreplied : r.connection.replied = true := by
    rw [← h.told.reading_eq, hread]
    rfl
  refine h.frame (h.told.frame rfl ?_ .inl id id .inl (replies_relay hps) fun o ho n hn => ?_)
    rfl rfl
  · rw [hread]
    rfl
  · rw [needs_relay hps o ho n hn]
    exact h.told.success_of_replied hreplied

/-- **One event at a connection.** -/
theorem relayStep_relayed (h : Relayed poll r os) {e : RelayEvent} {s : SocksState}
    (hs : SocksState.relayStep poll r e = some (s, os')) :
    ∃ r', s.stage = .relayed r' ∧ Relayed s.poll r' (os ++ os') := by
  unfold SocksState.relayStep at hs
  split at hs
  · cases hs
  rename_i hservice
  obtain ⟨⟨r', ps⟩, hstep, he⟩ := Option.map_eq_some_iff.mp hs
  obtain ⟨rfl, rfl⟩ := Prod.mk.inj he
  refine ⟨r', rfl, ?_⟩
  have hpoll : SocksState.isService e = true → poll = .servicing := fun he =>
    not_not.mp fun hne => hservice ⟨he, hne⟩
  cases relayMachine_step hstep with
  | hostRead hne hread heof => exact h.readHost hread (by simp)
  | hostEof hread => exact h.readHost hread (by simp)
  | hostError hread => exact h.readHost hread (by simp)
  | tunnelConnected =>
    exact h.moveTunnel (f := fun t => { t with connected := true }) (fun _ => rfl)
      (fun _ => .inr (List.mem_singleton_self _)) rfl
      (by simp [SocksState.connecting, SocksOutput.needs])
  | @tunnelReceive octets =>
    exact h.moveTunnel (f := fun t => { t with received := t.received ++ octets }) id .inl rfl
      (by simp [SocksState.connecting, SocksOutput.needs])
  | tunnelFin =>
    exact h.moveTunnel (f := fun t => { t with eof := true }) id .inl rfl
      (by simp [SocksState.connecting, SocksOutput.needs])
  | tunnelFail =>
    exact h.moveTunnel (f := fun t => { t with failed := true }) id .inl rfl
      (by simp [SocksState.connecting])
  | @beginService replyThrows written hidle =>
    obtain rfl := hpoll rfl
    have hbegun := beginService_begun h.told replyThrows written
    refine relayed_of_service hbegun.told hbegun.replied_of fun hp hf => ?_
    rcases hbegun.closed_of hp hf with hfin | hclosed
    · exact List.mem_append_left _ (h.closed_of_finished hidle hfin)
    · exact mem_map_closed hclosed
  | @middleService shutdownThrows accepts hostShutdownThrows htaking =>
    obtain rfl := hpoll rfl
    have hreplied := h.replied_of_point (by rw [htaking]; decide)
    have hquiet := middleService_quiet .socksProxy shutdownThrows accepts hostShutdownThrows
      r.connection
    refine relayed_of_service (h.told.quiet hreplied hquiet)
      (fun _ => hquiet.replied_eq.trans hreplied) fun hp _ => mem_map_closed (hquiet.stopped ?_).2
    -- The call stands idle again only if it was ended.
    by_contra hcontinues
    rw [if_neg hcontinues] at hp
    cases hp
  | endService hchecking =>
    obtain rfl := hpoll rfl
    have hreplied := h.replied_of_point (by rw [hchecking]; decide)
    refine relayed_of_service (h.told.quiet hreplied (endService_quiet _))
      (fun hp => absurd rfl hp) fun _ hf => mem_map_closed (endService_closed ?_ hf)
    rw [h.told.reading_eq, hreplied]

end Told

/-! ## A socket -/

/-- What holds of a socket at which `os` has happened. -/
def Orderly (s : SocksState) (os : List SocksOutput) : Prop :=
  match s.stage with
  | .accepted => os = []
  | .turnedAway => replies os ≤ 1 ∧ Preceded SocksOutput.needs os
  | .ready _ => os = [.wrote [0x05, 0x00]]
  | .relayed r => Relayed s.poll r os
  | .dropped => replies os = 1 ∧ Preceded SocksOutput.needs os ∧ Closed os

/-- A thread writes one reply at most, and none of success. -/
theorem ThreadWrites.told {writes : List (List UInt8)} (h : ThreadWrites writes) :
    replies (writes.map .wrote) ≤ 1 ∧
      ∀ o ∈ writes.map SocksOutput.wrote, ∀ n ∈ o.needs, n ∈ ([] : List SocksOutput) := by
  cases h with
  | nothing => exact ⟨Nat.zero_le _, nofun⟩
  | noMethod => exact ⟨by decide, by decide⟩
  | welcome => exact ⟨by decide, by decide⟩
  | refused hcode =>
    refine ⟨by simp [replies, SocksOutput.isReply, replyOctets], ?_⟩
    simp [SocksOutput.needs, replyOctets, hcode]

theorem handshake_orderly {writes : List (List UInt8)} (h : ThreadWrites writes)
    (opened : Bool) :
    replies (writes.map .wrote ++ if opened then [] else [.hostClosed]) ≤ 1 ∧
      Preceded SocksOutput.needs (writes.map .wrote ++ if opened then [] else [.hostClosed]) := by
  obtain ⟨hone, hneeds⟩ := h.told
  have hordered : Preceded SocksOutput.needs (writes.map .wrote) := by
    have := preceded_nil.append hneeds
    rwa [List.nil_append] at this
  cases opened with
  | true => exact ⟨by simpa using hone, by simpa using hordered⟩
  | false =>
    refine ⟨?_, hordered.append (by simp [SocksOutput.needs])⟩
    rw [replies_append]
    exact hone

/-- A new connection, of which nothing is known but that it was dialed. -/
theorem relayed_new {os : List SocksOutput} (hzero : replies os = 0)
    (hordered : Preceded SocksOutput.needs os) :
    Relayed .servicing { connection := .new .socksProxy } os where
  told :=
    { replies_eq := hzero
      ordered := hordered
      success_of_replied := nofun
      connected_of_replied := nofun
      seen_of_connected := nofun
      reading_eq := rfl }
  replied_of_point hp := absurd rfl hp
  servicing_of_point hp := absurd rfl hp
  closed_of_finished _ := nofun
  open_outside := nofun

/-- **One step at a socket.** -/
theorem orderly_step {serverAddress : List UInt8} {s s' : SocksState} {e : SocksEvent}
    {os os' : List SocksOutput} (h : Orderly s os)
    (hs : (socksMachine serverAddress).step s e = some (s', os')) : Orderly s' (os ++ os') := by
  unfold Orderly at h
  cases e with
  | handshake peer sent =>
    dsimp only [socksMachine] at hs
    split at hs
    · rename_i haccepted
      rw [haccepted] at h
      obtain rfl : os = [] := h
      rcases hresult : beginHandshake peer serverAddress false { unread := sent } with ⟨ready, host⟩
      rw [hresult] at hs
      obtain ⟨rfl, rfl⟩ := Prod.mk.inj (Option.some.inj hs)
      obtain ⟨hwrites, hready⟩ := beginHandshake_writes peer serverAddress false sent hresult
      cases ready with
      | none => exact handshake_orderly hwrites host.opened
      | some port =>
        obtain ⟨hw, hopened⟩ := hready port rfl
        change [] ++ (host.writes.map SocksOutput.wrote ++ _) = _
        rw [hw, hopened]
        rfl
    · cases hs
  | beginPoll dialThrows =>
    dsimp only [socksMachine] at hs
    split at hs
    · rename_i houtside
      obtain ⟨rfl, rfl⟩ := Prod.mk.inj (Option.some.inj hs)
      cases hstage : s.stage with
      | ready port =>
        rw [hstage] at h
        obtain rfl : os = [.wrote [0x05, 0x00]] := h
        cases dialThrows with
        | true =>
          refine ⟨rfl, preceded_nil.append ?_, .inr ⟨?_, ?_⟩⟩
          · simp [SocksOutput.needs, replyOctets, SocksState.adopt]
          · simp [SocksState.adopt]
          · simp [SocksState.adopt]
        | false =>
          refine relayed_new rfl (preceded_nil.append ?_)
          simp [SocksOutput.needs, replyOctets, SocksState.adopt]
      | relayed r =>
        rw [hstage] at h
        rw [houtside] at h
        change Relayed .servicing r (os ++ [])
        rw [List.append_nil]
        exact ⟨h.told, h.replied_of_point, fun _ => rfl, h.closed_of_finished, nofun⟩
      | accepted | turnedAway | dropped =>
        rw [hstage] at h
        dsimp only [SocksState.adopt]
        rw [List.append_nil]
        exact h
    · cases hs
  | relay e =>
    dsimp only [socksMachine] at hs
    split at hs
    · rename_i r hstage
      rw [hstage] at h
      obtain ⟨r', hstage', hrelayed⟩ := relayStep_relayed h hs
      unfold Orderly
      rw [hstage']
      exact hrelayed
    · cases hs
  | endPoll =>
    dsimp only [socksMachine] at hs
    split at hs
    · cases hs
    · cases hs
    · rename_i houtside hservicing
      obtain ⟨rfl, rfl⟩ := Prod.mk.inj (Option.some.inj hs)
      rw [List.append_nil]
      cases hstage : s.stage with
      | relayed r =>
        rw [hstage] at h
        have hidle : r.point = .idle := by
          by_contra hp
          exact hservicing r hstage (h.servicing_of_point hp)
        by_cases hfinished : r.connection.finished = true
        · -- The connection is forgotten.
          rw [show SocksState.erase (.relayed r) = .dropped from if_pos hfinished]
          exact ⟨h.told.replies_eq.trans (if_pos (.inr hfinished)), h.told.ordered,
            .inl (h.closed_of_finished hidle hfinished)⟩
        · rw [show SocksState.erase (.relayed r) = .relayed r from if_neg hfinished]
          exact ⟨h.told, h.replied_of_point, fun hp => absurd hidle hp, h.closed_of_finished,
            fun _ => Bool.not_eq_true _ ▸ hfinished⟩
      | accepted | turnedAway | ready | dropped =>
        rw [hstage] at h
        exact h

theorem socksMachine_orderly {serverAddress : List UInt8} {es : List SocksEvent} {s : SocksState}
    {os : List SocksOutput} (h : (socksMachine serverAddress).Runs es s os) : Orderly s os :=
  h.trace_invariant (I := fun _ s os => Orderly s os) (show Orderly {} [] from rfl)
    fun _ _ _ _ _ _ _ ho hs => orderly_step ho hs

/-! ## Connections that fail -/

section Failing

open Connection

variable {c : Connection} {poll : PollPoint} {r : RelayState} {e : RelayEvent}

/-- The tunnel stays as it is. -/
theorem replyOnce_tunnel (c : Connection) (throws : Bool) :
    (c.replyOnce .socksProxy throws).1.tunnel = c.tunnel := by
  unfold replyOnce
  split
  · split <;> rfl
  · rfl

theorem writeReceived_refused {written : Option ℕ} (hreceived : c.tunnel.received ≠ [])
    (hwritten : written.isSome = true) : (c.writeReceived written).1.finished = true := by
  obtain ⟨k, rfl⟩ := Option.isSome_iff_exists.mp hwritten
  unfold writeReceived
  dsimp only
  rw [if_neg hreceived]
  rfl

/-- What `service` does to a connection that has failed, or whose host refuses what is written. -/
theorem beginService_ends (c : Connection) (replyThrows : Bool) (written : Option ℕ) :
    (c.finished = true ∨ c.tunnel.failed = true ∨ c.Refused .socksProxy replyThrows written →
      (c.beginService .socksProxy replyThrows written).1.finished = true) ∧
      (c.beginService .socksProxy replyThrows written).1.tunnel.failed = c.tunnel.failed := by
  unfold beginService
  by_cases hfinished : c.finished = true
  · rw [if_pos hfinished]
    exact ⟨fun _ => hfinished, rfl⟩
  rw [if_neg hfinished]
  by_cases hfailed : c.tunnel.failed = true
  · rw [if_pos hfailed]
    exact ⟨fun _ => rfl, rfl⟩
  rw [if_neg hfailed]
  by_cases hconnected : c.tunnel.connected = true
  · rw [if_neg fun hn => hn.2 hconnected]
    dsimp only
    -- A reply that throws finishes the connection, and so does a write that is refused.
    have htunnel := replyOnce_tunnel c replyThrows
    by_cases hstop : (c.replyOnce .socksProxy replyThrows).2.2 = true
    · rw [andThen_stopped hstop]
      exact ⟨fun _ => ((replyOnce_stopped c replyThrows).1 hstop).1, by rw [htunnel]⟩
    · rw [andThen_going (Bool.not_eq_true _ ▸ hstop)]
      have hquiet := writeReceived_quiet written (c.replyOnce .socksProxy replyThrows).1
      refine ⟨?_, by rw [hquiet.failed_eq, htunnel]⟩
      rintro (hf | hf | ⟨-, -, ⟨-, hreplied, rfl⟩ | ⟨hreceived, hwritten⟩⟩)
      · exact absurd hf hfinished
      · exact absurd hf hfailed
      · refine absurd ?_ hstop
        unfold replyOnce
        rw [if_pos ⟨rfl, by rw [hreplied]; decide⟩]
        rfl
      · exact writeReceived_refused (htunnel ▸ hreceived) hwritten
  · rw [if_pos ⟨by decide, hconnected⟩]
    refine ⟨?_, by split <;> rfl⟩
    rintro (hf | hf | ⟨-, hc, -⟩)
    · exact absurd hf hfinished
    · exact absurd hf hfailed
    · exact absurd (hc (by decide)) hconnected

/-- What `service` does to a connection whose host refuses to be shut down. -/
theorem middleService_ends {hostShutdownThrows : Bool} (h : c.ShutdownRefused hostShutdownThrows)
    (shutdownThrows : Bool) (accepts : Option ℕ) :
    (c.middleService .socksProxy shutdownThrows accepts hostShutdownThrows).1.finished = true := by
  have hquiet := middleService_quiet .socksProxy shutdownThrows accepts hostShutdownThrows c
  by_cases hstop : (c.middleService .socksProxy shutdownThrows accepts hostShutdownThrows).2.2 = true
  · exact (hquiet.stopped hstop).1
  -- Nothing has ended the call before the host is shut down.
  refine absurd ?_ hstop
  unfold middleService
  set taken := c.takeHostChunk .socksProxy shutdownThrows with htaken
  by_cases hgoing : (taken.andThen (writePending accepts)).2.2 = true
  · rwa [andThen_stopped hgoing]
  rw [andThen_going (Bool.not_eq_true _ ▸ hgoing)]
  have hframe : (taken.andThen (writePending accepts)).1.tunnel = c.tunnel ∧
      (taken.andThen (writePending accepts)).1.hostWriteShutdown = c.hostWriteShutdown := by
    obtain ⟨htunnel, hshut⟩ := takeHostChunk_frame .socksProxy shutdownThrows c
    unfold Part.andThen
    split
    · exact ⟨htunnel, hshut⟩
    · obtain ⟨htunnel', hshut'⟩ := writePending_frame accepts taken.1
      exact ⟨htunnel'.trans htunnel, hshut'.trans hshut⟩
  obtain ⟨heof, hopen, rfl⟩ := h
  unfold shutdownHost
  rw [hframe.1, hframe.2, if_pos ⟨heof, by rw [hopen]; decide⟩]
  rfl

/-- What an event at a connection does to one that has failed. -/
structure KeepsFailing (poll : PollPoint) (r : RelayState) (poll' : PollPoint) (r' : RelayState) :
    Prop where
  finished_of : r.connection.finished = true → r'.connection.finished = true
  failed_of : r.connection.tunnel.failed = true → r'.connection.tunnel.failed = true
  servicing_of : (r.point ≠ .idle → poll = .servicing) → r'.point ≠ .idle → poll' = .servicing
  next : r.connection.tunnel.failed = true → poll = .servicing → r.point = .idle →
    r'.connection.finished = true ∨ (poll' = .servicing ∧ r'.point = .idle)

/-- An event that is no part of `service`. -/
theorem keepsFailing_frame {c' : Connection}
    (hfinished : c'.finished = r.connection.finished)
    (hfailed : r.connection.tunnel.failed = true → c'.tunnel.failed = true) :
    KeepsFailing poll r poll { r with connection := c' } :=
  ⟨fun hf => hfinished.trans hf, hfailed, id, fun _ hp hi => .inr ⟨hp, hi⟩⟩

theorem relayStep_keepsFailing {s : SocksState} {os : List SocksOutput}
    (hs : SocksState.relayStep poll r e = some (s, os)) :
    ∃ r', s.stage = .relayed r' ∧ KeepsFailing poll r s.poll r' := by
  unfold SocksState.relayStep at hs
  split at hs
  · cases hs
  obtain ⟨⟨r', ps⟩, hstep, he⟩ := Option.map_eq_some_iff.mp hs
  obtain ⟨rfl, rfl⟩ := Prod.mk.inj he
  refine ⟨r', rfl, ?_⟩
  -- Only the tunnel can fail, and only the service can finish the connection.
  cases relayMachine_step hstep with
  | hostRead | hostEof | hostError => exact keepsFailing_frame rfl id
  | tunnelConnected | tunnelReceive | tunnelFin => exact keepsFailing_frame rfl id
  | tunnelFail => exact keepsFailing_frame rfl fun _ => rfl
  | @beginService replyThrows written =>
    obtain ⟨hends, hfailed⟩ := beginService_ends r.connection replyThrows written
    exact ⟨fun hf => hends (.inl hf), fun hf => hfailed.trans hf,
      fun _ hp => SocksState.afterService_of_ne hp, fun hf _ _ => .inl (hends (.inr (.inl hf)))⟩
  | @middleService shutdownThrows accepts hostShutdownThrows htaking =>
    have hquiet := middleService_quiet .socksProxy shutdownThrows accepts hostShutdownThrows
      r.connection
    exact ⟨hquiet.finished_of, fun hf => hquiet.failed_eq.trans hf,
      fun _ hp => SocksState.afterService_of_ne hp,
      fun _ _ hidle => by rw [htaking] at hidle; cases hidle⟩
  | endService hchecking =>
    have hquiet := endService_quiet r.connection
    exact ⟨hquiet.finished_of, fun hf => hquiet.failed_eq.trans hf,
      fun _ hp => absurd rfl hp, fun _ _ hidle => by rw [hchecking] at hidle; cases hidle⟩

/-- The event at which a connection fails: its tunnel fails, or its host refuses what is written or
to be shut down for writing. -/
def Connection.FailsAt (c : Connection) : RelayEvent → Prop
  | .tunnelFail => True
  | .beginService replyThrows written => c.Refused .socksProxy replyThrows written
  | .middleService _ _ hostShutdownThrows => c.ShutdownRefused hostShutdownThrows
  | _ => False

theorem relayStep_fails (h : r.connection.FailsAt e) {s : SocksState} {os : List SocksOutput}
    (hs : SocksState.relayStep poll r e = some (s, os)) {r' : RelayState}
    (hr' : s.stage = .relayed r') :
    r'.connection.finished = true ∨ r'.connection.tunnel.failed = true := by
  unfold SocksState.relayStep at hs
  split at hs
  · cases hs
  obtain ⟨⟨_, ps⟩, hstep, he⟩ := Option.map_eq_some_iff.mp hs
  obtain ⟨rfl, rfl⟩ := Prod.mk.inj he
  obtain rfl := SocksStage.relayed.inj hr'
  cases relayMachine_step hstep with
  | tunnelFail => exact .inr rfl
  | @beginService replyThrows written =>
    exact .inl ((beginService_ends r.connection replyThrows written).1 (.inr (.inr h)))
  | @middleService shutdownThrows accepts =>
    exact .inl (middleService_ends h shutdownThrows accepts)
  | _ => exact h.elim

/-- The step at which a connection fails; also where its tunnel cannot be dialed. -/
def SocksState.Fails (s : SocksState) : SocksEvent → Prop
  | .beginPoll dialThrows => dialThrows = true ∧ ∃ port, s.stage = .ready port
  | .relay e => ∃ r, s.stage = .relayed r ∧ r.connection.FailsAt e
  | _ => False

/-- The connection has failed. -/
def Failing (s : SocksState) : Prop :=
  s.stage = .dropped ∨ ∃ r, s.stage = .relayed r ∧
    (r.connection.finished = true ∨ r.connection.tunnel.failed = true) ∧
    (r.point ≠ .idle → s.poll = .servicing)

/-- The connection has failed, and this `poll` drops it. -/
def Condemned (s : SocksState) : Prop :=
  s.stage = .dropped ∨ ∃ r, s.stage = .relayed r ∧
    (r.connection.finished = true ∨
      (r.connection.tunnel.failed = true ∧ s.poll = .servicing ∧ r.point = .idle))

variable {serverAddress : List UInt8} {s s' : SocksState} {os os' : List SocksOutput}

theorem dropped_step {e : SocksEvent} (h : s.stage = .dropped)
    (hs : (socksMachine serverAddress).step s e = some (s', os')) : s'.stage = .dropped := by
  -- A dropped connection is no longer polled, and nothing brings it back.
  cases e with
  | handshake peer sent =>
    dsimp only [socksMachine] at hs
    rw [h, if_neg (by decide)] at hs
    cases hs
  | beginPoll dialThrows =>
    dsimp only [socksMachine] at hs
    split at hs
    · obtain ⟨rfl, -⟩ := Prod.mk.inj (Option.some.inj hs)
      rw [h]
      rfl
    · cases hs
  | relay e =>
    dsimp only [socksMachine] at hs
    rw [h] at hs
    cases hs
  | endPoll =>
    dsimp only [socksMachine] at hs
    rw [h] at hs
    split at hs
    · cases hs
    · cases hs
    · obtain ⟨rfl, -⟩ := Prod.mk.inj (Option.some.inj hs)
      rfl

/-- What the events do to a connection that has not been dropped. -/
theorem relayed_step {e : SocksEvent} {r : RelayState} (h : s.stage = .relayed r)
    (hs : (socksMachine serverAddress).step s e = some (s', os')) :
    (∃ r', s'.stage = .relayed r' ∧ KeepsFailing s.poll r s'.poll r') ∨
      (∃ dialThrows, e = .beginPoll dialThrows ∧ s.poll = .outside ∧
        s' = { stage := .relayed r, poll := .servicing }) ∨
      (e = .endPoll ∧ s.poll = .serviced ∧ s' = { stage := SocksState.erase (.relayed r) }) := by
  cases e with
  | handshake peer sent =>
    dsimp only [socksMachine] at hs
    rw [h, if_neg (by simp)] at hs
    cases hs
  | beginPoll dialThrows =>
    dsimp only [socksMachine] at hs
    split at hs
    · rename_i houtside
      obtain ⟨rfl, -⟩ := Prod.mk.inj (Option.some.inj hs)
      rw [h]
      exact .inr (.inl ⟨dialThrows, rfl, houtside, rfl⟩)
    · cases hs
  | relay e =>
    dsimp only [socksMachine] at hs
    rw [h] at hs
    exact .inl (relayStep_keepsFailing hs)
  | endPoll =>
    dsimp only [socksMachine] at hs
    rw [h] at hs
    -- A poll ends after the service of the connection.
    cases hpoll : s.poll with
    | outside | servicing =>
      rw [hpoll] at hs
      cases hs
    | serviced =>
      rw [hpoll] at hs
      obtain ⟨rfl, -⟩ := Prod.mk.inj (Option.some.inj hs)
      exact .inr (.inr ⟨rfl, rfl, rfl⟩)

theorem failing_step {e : SocksEvent} (h : Failing s)
    (hs : (socksMachine serverAddress).step s e = some (s', os')) : Failing s' := by
  rcases h with h | ⟨r, hr, hfail, hservicing⟩
  · exact .inl (dropped_step h hs)
  rcases relayed_step hr hs with ⟨r', hr', hkeeps⟩ | ⟨_, rfl, houtside, rfl⟩ | ⟨rfl, hserviced, rfl⟩
  · exact .inr ⟨r', hr', hfail.imp hkeeps.finished_of hkeeps.failed_of,
      hkeeps.servicing_of hservicing⟩
  · exact .inr ⟨r, rfl, hfail, fun _ => rfl⟩
  · by_cases hfinished : r.connection.finished = true
    · exact .inl (if_pos hfinished)
    · refine .inr ⟨r, if_neg hfinished, hfail, fun hp => ?_⟩
      rw [hserviced] at hservicing
      cases hservicing hp

theorem condemned_of_beginPoll {dialThrows : Bool}
    (hs : (socksMachine serverAddress).step s (.beginPoll dialThrows) = some (s', os'))
    (h : Failing s) : Condemned s' := by
  rcases h with h | ⟨r, hr, hfail, hservicing⟩
  · exact .inl (dropped_step h hs)
  dsimp only [socksMachine] at hs
  split at hs
  · rename_i houtside
    obtain ⟨rfl, -⟩ := Prod.mk.inj (Option.some.inj hs)
    rw [hr]
    refine .inr ⟨r, rfl, hfail.imp id fun hf => ⟨hf, rfl, ?_⟩⟩
    by_contra hp
    rw [houtside] at hservicing
    cases hservicing hp
  · cases hs

theorem condemned_step {e : SocksEvent} (h : Condemned s)
    (hs : (socksMachine serverAddress).step s e = some (s', os')) : Condemned s' := by
  rcases h with h | ⟨r, hr, hfail⟩
  · exact .inl (dropped_step h hs)
  rcases relayed_step hr hs with ⟨r', hr', hkeeps⟩ | ⟨_, rfl, houtside, rfl⟩ | ⟨rfl, hserviced, rfl⟩
  · refine .inr ⟨r', hr', ?_⟩
    rcases hfail with hf | ⟨hf, hservicing, hidle⟩
    · exact .inl (hkeeps.finished_of hf)
    · exact (hkeeps.next hf hservicing hidle).imp id fun hn => ⟨hkeeps.failed_of hf, hn⟩
  · refine .inr ⟨r, rfl, hfail.imp id ?_⟩
    rintro ⟨-, hservicing, -⟩
    rw [houtside] at hservicing
    cases hservicing
  · rcases hfail with hf | ⟨-, hservicing, -⟩
    · exact .inl (if_pos hf)
    · rw [hserviced] at hservicing
      cases hservicing

theorem dropped_of_endPoll
    (hs : (socksMachine serverAddress).step s .endPoll = some (s', os')) (h : Condemned s) :
    s'.stage = .dropped := by
  rcases h with h | ⟨r, hr, hfail⟩
  · exact dropped_step h hs
  dsimp only [socksMachine] at hs
  rw [hr] at hs
  cases hpoll : s.poll with
  | outside | servicing =>
    rw [hpoll] at hs
    cases hs
  | serviced =>
    rw [hpoll] at hs
    obtain ⟨rfl, -⟩ := Prod.mk.inj (Option.some.inj hs)
    rcases hfail with hf | ⟨-, hservicing, -⟩
    · exact if_pos hf
    · rw [hpoll] at hservicing
      cases hservicing

theorem failing_of_fails {e : SocksEvent} (ho : Orderly s os) (h : s.Fails e)
    (hs : (socksMachine serverAddress).step s e = some (s', os')) : Failing s' := by
  cases e with
  | beginPoll dialThrows =>
    obtain ⟨rfl, port, hstage⟩ := h
    dsimp only [socksMachine] at hs
    split at hs
    · obtain ⟨rfl, -⟩ := Prod.mk.inj (Option.some.inj hs)
      rw [hstage]
      exact .inl rfl
    · cases hs
  | handshake => exact h.elim
  | endPoll => exact h.elim
  | relay e =>
    obtain ⟨r, hr, hfails⟩ := h
    unfold Orderly at ho
    rw [hr] at ho
    dsimp only [socksMachine] at hs
    rw [hr] at hs
    obtain ⟨r', hr', hkeeps⟩ := relayStep_keepsFailing hs
    exact .inr ⟨r', hr', relayStep_fails hfails hs hr', hkeeps.servicing_of ho.servicing_of_point⟩

/-- **A connection that has failed** is dropped by the next `poll`. -/
theorem failed_dropped {es₁ es₂ es₃ es₄ : List SocksEvent} {e : SocksEvent} {dialThrows : Bool}
    {t : SocksState} {ps : List SocksOutput} (h : (socksMachine serverAddress).Runs
      (es₁ ++ e :: (es₂ ++ .beginPoll dialThrows :: (es₃ ++ .endPoll :: es₄))) s os)
    (ht : (socksMachine serverAddress).Runs es₁ t ps) (hfails : t.Fails e) :
    s.stage = .dropped := by
  obtain ⟨t', ps', u₁, _, _, hrun₁, hstep₁, hrest₁, -⟩ := h.through
  obtain ⟨rfl, rfl⟩ := hrun₁.unique ht
  have hfailing₁ := failing_of_fails (socksMachine_orderly hrun₁) hfails hstep₁
  obtain ⟨t₂, _, u₂, _, _, hrun₂, hstep₂, hrest₂, -⟩ := hrest₁.through
  have hfailing₂ := Runs.invariant_from hfailing₁ (fun _ _ _ _ => failing_step) hrun₂
  have hcondemned₂ := condemned_of_beginPoll (show (socksMachine serverAddress).step t₂ _ = _ from
    hstep₂) hfailing₂
  obtain ⟨t₃, _, u₃, _, _, hrun₃, hstep₃, hrest₃, -⟩ := hrest₂.through
  have hcondemned₃ := Runs.invariant_from hcondemned₂ (fun _ _ _ _ => condemned_step) hrun₃
  have hdropped := dropped_of_endPoll (show (socksMachine serverAddress).step t₃ _ = _ from hstep₃)
    hcondemned₃
  exact Runs.invariant_from (I := fun s => s.stage = .dropped) hdropped
    (fun _ _ _ _ => dropped_step) hrest₃

end Failing

/-! ## The replies of every run -/

theorem Orderly.replies_le {s : SocksState} {os : List SocksOutput} (h : Orderly s os) :
    replies os ≤ 1 := by
  unfold Orderly at h
  split at h
  · rw [h]
    exact Nat.zero_le _
  · exact h.1
  · rw [h]
    exact Nat.zero_le _
  · rw [h.told.replies_eq]
    split <;> decide
  · exact h.1.le

theorem Orderly.ordered {s : SocksState} {os : List SocksOutput} (h : Orderly s os) :
    Preceded SocksOutput.needs os := by
  unfold Orderly at h
  split at h
  · rw [h]
    exact preceded_nil
  · exact h.2
  · rw [h]
    refine (preceded_nil.append ?_ : Preceded _ ([] ++ _))
    simp [SocksOutput.needs, replyOctets]
  · exact h.told.ordered
  · exact h.2.1

/-- **The replies of the proxy.** In every run of a socket at most one reply is attempted, and one
has been when the proxy drops a connection that it had taken over. The host is told of success only
when the tunnel is connected, and nothing is relayed in either direction before. A connection that
fails at some step is closed and dropped when a `poll` has begun and ended after it. -/
theorem reply_discipline {serverAddress : List UInt8} {es : List SocksEvent} {s : SocksState}
    {os : List SocksOutput} (h : (socksMachine serverAddress).Runs es s os) :
    replies os ≤ 1 ∧ (s.stage = .dropped → replies os = 1) ∧ Preceded SocksOutput.needs os ∧
      ∀ es₁ e es₂ dialThrows es₃ es₄ t ps,
        es = es₁ ++ e :: (es₂ ++ .beginPoll dialThrows :: (es₃ ++ .endPoll :: es₄)) →
        (socksMachine serverAddress).Runs es₁ t ps → t.Fails e →
        s.stage = .dropped ∧ Closed os := by
  have horderly := socksMachine_orderly h
  have hdropped : s.stage = .dropped → replies os = 1 ∧ Closed os := by
    intro hs
    unfold Orderly at horderly
    rw [hs] at horderly
    exact ⟨horderly.1, horderly.2.2⟩
  refine ⟨horderly.replies_le, fun hs => (hdropped hs).1, horderly.ordered, ?_⟩
  rintro es₁ e es₂ dialThrows es₃ es₄ t ps rfl ht hfails
  have hs := failed_dropped h ht hfails
  exact ⟨hs, (hdropped hs).2⟩

/-- A client that asks for port 22, and is told of success. -/
def connectedRun : List SocksEvent :=
  [.handshake { more := fun _ => 0, resets := none, refuses := fun _ => none }
      ([0x05, 0x01, 0x00, 0x05, 0x01, 0x00, 0x03, 0x0e] ++ serverName ++ [0x00, 0x16]),
    .beginPoll false, .relay .tunnelConnected, .relay (.beginService false none),
    .relay (.middleService false (some 0) false), .relay .endService, .endPoll]

/-- Its tunnel fails, and the next `poll` drops the connection. -/
theorem reply_discipline_example :
    ∃ s os, (socksMachine [0x74, 0x63]).Runs (connectedRun ++ .relay .tunnelFail ::
        ([] ++ .beginPoll false :: ([.relay (.beginService false none)] ++ .endPoll :: []))) s os ∧
      replies os = 1 ∧ s.stage = .dropped ∧ Closed os := by
  let t : SocksState := { stage := .relayed { connection :=
    { tunnel := { connected := true }, hostRead := some {}, replied := true } } }
  have ht : (socksMachine [0x74, 0x63]).Runs connectedRun t
      [.wrote [0x05, 0x00], .dialed 22, .tunnelConnected, .relay (.reply 0x00)] := by
    decide +kernel
  obtain ⟨⟨s, os⟩, h⟩ := Option.isSome_iff_exists.mp (show ((socksMachine [0x74, 0x63]).run
    (connectedRun ++ .relay .tunnelFail :: ([] ++ .beginPoll false ::
      ([.relay (.beginService false none)] ++ .endPoll :: [])))).isSome = true by decide +kernel)
  obtain ⟨-, hone, -, hfailed⟩ := reply_discipline h
  obtain ⟨hdropped, hclosed⟩ := hfailed _ _ _ _ _ _ t _ rfl ht ⟨_, rfl, trivial⟩
  exact ⟨s, os, h, hone hdropped, hdropped, hclosed⟩

end Tailcat
