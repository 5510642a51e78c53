import Tailcat.Base.Pipe
import Tailcat.Relay.Connection

/-!
# Relays are transparent

As long as nothing fails, a relayed connection is two pipes: what the host sends goes to the tunnel,
and what the tunnel receives goes to the host. What is under way from the host is the rest of the
pending chunk and the queued chunks; what is under way from the tunnel is what it received.

## Main definitions

* `hostToTunnel`, `tunnelToHost`: what happens at a connection, as actions of the two pipes
* `Refines`: the connection stands for two pipes
* `Advances`: a part of `service` performs actions of the two pipes

## Main results

* `takeHostChunk_advances`, `writePending_advances`, `shutdownHost_advances`, …: the parts one by
  one
* `relay_refines`: every run of a connection is a run of two pipes
* `relay_transparent`: what arrives, and when the streams are shut down and the connection closed
-/

namespace Tailcat

/-! ## The two pipes -/

/-- What goes through the pipe from the host socket to the tunnel. -/
def hostToTunnel : RelayOutput → Option (PipeAction UInt8)
  | .hostRead chunk => some (.push chunk)
  | .hostEof => some .sourceEnd
  | .toTunnel octets => some (.give octets)
  | .tunnelShutdown => some .sinkEnd
  | _ => none

/-- What goes through the pipe from the tunnel to the host socket. -/
def tunnelToHost : RelayOutput → Option (PipeAction UInt8)
  | .tunnelReceived octets => some (.push octets)
  | .tunnelFin => some .sourceEnd
  | .toHost octets => some (.give octets)
  | .hostShutdown => some .sinkEnd
  | _ => none

/-- What the reader thread has queued; nothing before it is started. -/
def Connection.queue (c : Connection) : HostReadState := c.hostRead.getD {}

theorem Connection.queue_of_none {c : Connection} (h : c.hostRead = none) : c.queue = {} := by
  unfold queue
  rw [h]
  rfl

theorem Connection.queue_of_some {c : Connection} {r : HostReadState} (h : c.hostRead = some r) :
    c.queue = r := by
  unfold queue
  rw [h]
  rfl

/-- A connection without failures stands for the pipes `p` to the tunnel and `q` to the host. -/
structure Refines (relay : Relay) (c : Connection) (p q : Pipe UInt8) : Prop where
  offset_le : c.pendingOffset ≤ c.pendingToTunnel.length
  buffered : p.buffered = c.pendingToTunnel.drop c.pendingOffset ++ c.queue.chunks.flatten
  ended : p.ended = c.queue.eof
  closed : p.closed = c.tunnelWriteShutdown
  received : q.buffered = c.tunnel.received
  fin : q.ended = c.tunnel.eof
  shut : q.closed = c.hostWriteShutdown
  connected_of_fin : c.tunnel.eof = true → c.tunnel.connected = true
  error_eq : c.queue.error = ""
  failed_eq : c.tunnel.failed = false
  chunks_ne : [] ∉ c.queue.chunks
  unread : relay = .socksProxy → c.replied = false → c.hostRead = none
  complete : c.finished = true → p.ended = true ∧ p.buffered = [] ∧ q.ended = true ∧
    q.buffered = [] ∧ q.closed = true

/-- The outputs `os` lead from `c` to `c'` as actions of the two pipes. -/
def Advances (relay : Relay) (c : Connection) (os : List RelayOutput) (c' : Connection) : Prop :=
  ∀ p q, Refines relay c p q → ∃ p' q', p.steps (os.filterMap hostToTunnel) = some p' ∧
    q.steps (os.filterMap tunnelToHost) = some q' ∧ Refines relay c' p' q'

variable {relay : Relay} {c c' c'' : Connection} {os os' : List RelayOutput}

theorem Advances.refl : Advances relay c [] c := fun p q h => ⟨p, q, rfl, rfl, h⟩

theorem Advances.trans (h : Advances relay c os c') (h' : Advances relay c' os' c'') :
    Advances relay c (os ++ os') c'' := by
  intro p q hr
  obtain ⟨p₁, q₁, hp₁, hq₁, hr₁⟩ := h p q hr
  obtain ⟨p₂, q₂, hp₂, hq₂, hr₂⟩ := h' p₁ q₁ hr₁
  refine ⟨p₂, q₂, ?_, ?_, hr₂⟩
  · rw [List.filterMap_append, Pipe.steps_append, hp₁]
    exact hp₂
  · rw [List.filterMap_append, Pipe.steps_append, hq₁]
    exact hq₂

/-! ## The parts of `service` -/

open Connection

/-- The proxy's answer is no part of the streams. -/
theorem replyOnce_advances (hf : c.finished = false) :
    (c.replyOnce relay false).2.2 = false ∧ (c.replyOnce relay false).1.finished = false ∧
      Advances relay c (c.replyOnce relay false).2.1 (c.replyOnce relay false).1 := by
  unfold replyOnce
  split
  · rename_i hreply
    refine ⟨rfl, hf, fun p q h => ⟨p, q, rfl, rfl, ?_⟩⟩
    have hnone := h.unread hreply.1 (Bool.not_eq_true _ ▸ hreply.2)
    have hqueue := queue_of_none hnone
    exact
      { h with
        buffered := by rw [h.buffered, hqueue]; rfl
        ended := by rw [h.ended, hqueue]; rfl
        error_eq := rfl
        chunks_ne := by rintro ⟨⟩
        unread := fun _ hr => absurd hr (by simp) }
  · exact ⟨rfl, hf, .refl⟩

/-- What the tunnel received is handed on to the host. -/
theorem writeReceived_advances (hf : c.finished = false) :
    (c.writeReceived none).2.2 = false ∧ (c.writeReceived none).1.finished = false ∧
      (c.writeReceived none).1.tunnel.received = [] ∧
      Advances relay c (c.writeReceived none).2.1 (c.writeReceived none).1 := by
  unfold writeReceived
  dsimp only
  split
  · rename_i hnone
    refine ⟨rfl, hf, rfl, fun p q h => ⟨p, q, rfl, rfl, ?_⟩⟩
    exact { h with received := h.received.trans hnone }
  · refine ⟨rfl, hf, rfl, fun p q h => ?_⟩
    have hgive : q.buffered = c.tunnel.received ++ [] :=
      h.received.trans (List.append_nil _).symm
    obtain ⟨q', hs, hb, he, hc⟩ := Pipe.step_give hgive
    refine ⟨p, q', rfl, (Pipe.steps_singleton q _).trans hs, ?_⟩
    exact
      { h with
        received := hb
        fin := he.trans h.fin
        shut := hc.trans h.shut
        complete := fun hfin => absurd (hf.symm.trans hfin) Bool.false_ne_true }

/-- Taking a chunk from the queue is no action: what is under way stays what it is. -/
theorem refines_take {p q : Pipe UInt8} (h : Refines relay c p q) {hostRead : HostReadState}
    (hread : c.hostRead = some hostRead) (hall : c.pendingOffset = c.pendingToTunnel.length) :
    Refines relay { c with
      pendingToTunnel := hostRead.chunks.headD []
      pendingOffset := 0
      hostRead := some { hostRead with chunks := hostRead.chunks.tail } } p q := by
  have hqueue := queue_of_some hread
  have hb := h.buffered
  rw [hall, List.drop_length, List.nil_append, hqueue] at hb
  exact
    { h with
      offset_le := Nat.zero_le _
      buffered := hb.trans (flatten_eq_headD_append hostRead.chunks)
      ended := h.ended.trans (congrArg HostReadState.eof hqueue : c.queue.eof = hostRead.eof)
      error_eq := hqueue ▸ h.error_eq
      chunks_ne := fun hmem => h.chunks_ne (hqueue ▸ List.mem_of_mem_tail hmem)
      unread := fun hr hn => absurd (hread.symm.trans (h.unread hr hn)) (by simp) }

/-- No chunk is empty: when none is taken, the queue was empty. -/
theorem chunks_eq_nil {p q : Pipe UInt8} (h : Refines relay c p q)
    (he : c.queue.chunks.headD [] = []) : c.queue.chunks = [] := by
  cases hl : c.queue.chunks with
  | nil => rfl
  | cons chunk chunks =>
    rw [hl] at he
    refine absurd ?_ h.chunks_ne
    rw [hl, show chunk = [] from he]
    exact List.mem_cons_self

/-- A chunk moves from the queue to what is pending; or nothing is left, and the tunnel is shut
down for writing when the host has ended. -/
theorem takeHostChunk_advances (hf : c.finished = false) (hok : c.queue.error = "") :
    (c.takeHostChunk relay false).2.2 = false ∧
      (c.takeHostChunk relay false).1.finished = false ∧
      Advances relay c (c.takeHostChunk relay false).2.1 (c.takeHostChunk relay false).1 := by
  unfold takeHostChunk
  cases hread : c.hostRead with
  | none => exact ⟨rfl, hf, .refl⟩
  | some hostRead =>
    have hqueue := queue_of_some hread
    rw [hqueue] at hok
    dsimp only
    split
    · exact ⟨rfl, hf, .refl⟩
    rename_i hall
    rw [not_not] at hall
    rw [if_neg (not_not.mpr hok)]
    split
    · rename_i hs
      obtain ⟨hempty, heof, -, hopen⟩ := hs
      refine ⟨rfl, hf, fun p q h => ?_⟩
      -- The stream has ended and everything has been taken, so the pipe may be closed.
      have h₁ := refines_take h hread hall
      have hnone : p.buffered = [] := by
        have hchunks : hostRead.chunks = [] := by
          rw [← hqueue] at hempty ⊢
          exact chunks_eq_nil h hempty
        rw [h.buffered, hqueue, hchunks, hall, List.drop_length]
        rfl
      obtain ⟨p', hstep, hb, he, hc⟩ := Pipe.step_sinkEnd (h₁.ended.trans heof) hnone
        (h₁.closed.trans (Bool.not_eq_true _ ▸ hopen))
      refine ⟨p', q, (Pipe.steps_singleton p _).trans hstep, rfl, ?_⟩
      exact
        { h₁ with
          buffered := hb.trans h₁.buffered
          ended := he.trans h₁.ended
          closed := hc
          complete := fun hfin => absurd (hf.symm.trans hfin) Bool.false_ne_true }
    · exact ⟨rfl, hf, fun p q h => ⟨p, q, rfl, rfl, refines_take h hread hall⟩⟩

/-- What is pending is handed on to the tunnel, as much of it as it accepts. -/
theorem writePending_advances (hf : c.finished = false) (n : ℕ) :
    (c.writePending (some n)).2.2 = false ∧ (c.writePending (some n)).1.finished = false ∧
      Advances relay c (c.writePending (some n)).2.1 (c.writePending (some n)).1 := by
  unfold writePending
  split
  · refine ⟨rfl, hf, fun p q h => ?_⟩
    set accepted := (c.pendingToTunnel.drop c.pendingOffset).take n with ha
    have hsplit : c.pendingToTunnel.drop c.pendingOffset =
        accepted ++ c.pendingToTunnel.drop (c.pendingOffset + accepted.length) := by
      rw [ha, drop_accepted, List.take_append_drop]
    have hgive := h.buffered
    rw [hsplit, List.append_assoc] at hgive
    obtain ⟨p', hs, hb, he, hc⟩ := Pipe.step_give hgive
    refine ⟨p', q, (Pipe.steps_singleton p _).trans hs, rfl, ?_⟩
    exact
      { h with
        offset_le := add_length_accepted_le h.offset_le n
        buffered := hb
        ended := he.trans h.ended
        closed := hc.trans h.closed
        complete := fun hfin => absurd (hf.symm.trans hfin) Bool.false_ne_true }
  · exact ⟨rfl, hf, .refl⟩

/-- The host is shut down for writing when the tunnel has ended and everything was handed on. -/
theorem shutdownHost_advances (hf : c.finished = false) (hr : c.tunnel.received = []) :
    (c.shutdownHost false).2.2 = false ∧ (c.shutdownHost false).1.finished = false ∧
      (c.shutdownHost false).1.tunnel = c.tunnel ∧
      (c.tunnel.eof = true → (c.shutdownHost false).1.hostWriteShutdown = true) ∧
      Advances relay c (c.shutdownHost false).2.1 (c.shutdownHost false).1 := by
  unfold shutdownHost
  split
  · rename_i hs
    refine ⟨rfl, hf, rfl, fun _ => rfl, fun p q h => ?_⟩
    obtain ⟨q', hstep, hb, he, hc⟩ := Pipe.step_sinkEnd (h.fin.trans hs.1) (h.received.trans hr)
      (h.shut.trans (Bool.not_eq_true _ ▸ hs.2))
    refine ⟨p, q', rfl, (Pipe.steps_singleton q _).trans hstep, ?_⟩
    exact
      { h with
        received := hb.trans h.received
        fin := he.trans h.fin
        shut := hc
        complete := fun hfin => absurd (hf.symm.trans hfin) Bool.false_ne_true }
  · rename_i hs
    refine ⟨rfl, hf, rfl, fun he => ?_, .refl⟩
    by_contra hn
    exact hs ⟨he, hn⟩

/-- The connection is finished when both pipes are done. -/
theorem endService_advances (hf : c.finished = false)
    (hd : (c.tunnel.received = [] ∧ (c.tunnel.eof = true → c.hostWriteShutdown = true)) ∨
      c.tunnel.connected = false) :
    Advances relay c c.endService.2 c.endService.1 := by
  unfold endService
  split
  · exact .refl
  · rename_i hostRead hread
    have hqueue := queue_of_some hread
    split
    · rename_i hc
      obtain ⟨heof, hhost, hchunks, hall⟩ := hc.resolve_right (hf ▸ Bool.false_ne_true)
      intro p q h
      obtain ⟨hreceived, hshut⟩ := hd.resolve_right (by simp [h.connected_of_fin heof])
      refine ⟨p, q, rfl, rfl, ?_⟩
      refine { h with complete := fun _ => ⟨?_, ?_, h.fin.trans heof, h.received.trans hreceived,
        h.shut.trans (hshut heof)⟩ }
      · rw [h.ended, hqueue, hhost]
      · rw [h.buffered, hqueue, hchunks, hall, List.drop_length]
        rfl
    · exact .refl

/-! ## Steps -/

/-- What a call of `service` relies on at the point that it has reached. -/
def AtPoint (s : RelayState) : Prop :=
  match s.point with
  | .idle => True
  | .taking => s.connection.finished = false ∧ s.connection.tunnel.received = []
  | .checking => s.connection.finished = false ∧
    ((s.connection.tunnel.received = [] ∧
        (s.connection.tunnel.eof = true → s.connection.hostWriteShutdown = true)) ∨
      s.connection.tunnel.connected = false)

/-- Two parts of `service`, when the first one goes on. -/
theorem andThen_advances {p : Part} {f : Connection → Part} (hgo : p.2.2 = false)
    (h : Advances relay c p.2.1 p.1) (h' : Advances relay p.1 (f p.1).2.1 (f p.1).1) :
    (p.andThen f).2.2 = (f p.1).2.2 ∧ (p.andThen f).1 = (f p.1).1 ∧
      Advances relay c (p.andThen f).2.1 (p.andThen f).1 := by
  have he : p.andThen f = ((f p.1).1, p.2.1 ++ (f p.1).2.1, (f p.1).2.2) :=
    if_neg (hgo ▸ Bool.false_ne_true)
  rw [he]
  exact ⟨rfl, rfl, h.trans h'⟩

theorem beginService_advances (hfailed : c.tunnel.failed = false) :
    Advances relay c (c.beginService relay false none).2.1 (c.beginService relay false none).1 ∧
      AtPoint { connection := (c.beginService relay false none).1
                point := (c.beginService relay false none).2.2 } := by
  unfold beginService
  split
  · exact ⟨.refl, trivial⟩
  rename_i hf
  have hf := Bool.not_eq_true _ ▸ hf
  rw [if_neg (hfailed ▸ Bool.false_ne_true)]
  split
  · rename_i hwait
    split
    · exact ⟨.refl, trivial⟩
    · exact ⟨.refl, hf, .inr (Bool.not_eq_true _ ▸ hwait.2)⟩
  · obtain ⟨hgo, hf₁, h₁⟩ := @replyOnce_advances relay _ hf
    obtain ⟨hgo', hf₂, hr, h₂⟩ := @writeReceived_advances relay _ hf₁
    obtain ⟨hstop, hconn, h⟩ := andThen_advances hgo h₁ h₂
    dsimp only
    rw [hstop, hgo', if_neg Bool.false_ne_true]
    exact ⟨h, by rw [hconn]; exact hf₂, by rw [hconn]; exact hr⟩

theorem middleService_advances (hf : c.finished = false) (hok : c.queue.error = "")
    (hr : c.tunnel.received = []) (n : ℕ) :
    (c.middleService relay false (some n) false).2.2 = false ∧
      Advances relay c (c.middleService relay false (some n) false).2.1
        (c.middleService relay false (some n) false).1 ∧
      AtPoint { connection := (c.middleService relay false (some n) false).1
                point := .checking } := by
  obtain ⟨hgo₁, hf₁, h₁⟩ := @takeHostChunk_advances relay _ hf hok
  obtain ⟨hgo₂, hf₂, h₂⟩ := @writePending_advances relay _ hf₁ n
  have ht₁ := (takeHostChunk_frame relay false c).1
  have ht₂ := (writePending_frame (some n) (c.takeHostChunk relay false).1).1
  obtain ⟨hgo, hconn, h⟩ := andThen_advances hgo₁ h₁ h₂
  rw [← hconn] at hf₂ ht₂
  have ht := ht₂.trans ht₁
  obtain ⟨hgo₃, hf₃, ht₃, hshut, h₃⟩ := @shutdownHost_advances relay _ hf₂
    ((congrArg Tunnel.received ht).trans hr)
  obtain ⟨hgo', hconn', h'⟩ := andThen_advances (hgo.trans hgo₂) h h₃
  unfold middleService
  refine ⟨hgo'.trans hgo₃, h', ?_⟩
  dsimp only [AtPoint]
  rw [hconn']
  refine ⟨hf₃, .inl ⟨?_, fun he => hshut ?_⟩⟩
  · exact (congrArg Tunnel.received (ht₃.trans ht)).trans hr
  · exact (congrArg Tunnel.eof ht₃).symm.trans he

/-- A chunk that was read is under way. -/
theorem hostRead_advances {chunk : List UInt8} (hc : chunk ≠ []) {r : HostReadState}
    (hr : c.hostRead = some r) (heof : r.eof = false) :
    Advances relay c [.hostRead chunk]
      { c with hostRead := some { r with chunks := r.chunks ++ [chunk] } } := by
  intro p q h
  have hqueue := queue_of_some hr
  have hopen : p.ended = false := h.ended.trans (hqueue ▸ heof)
  obtain ⟨p', hs, hb, he, hcl⟩ := Pipe.step_push hopen chunk
  refine ⟨p', q, (Pipe.steps_singleton p _).trans hs, rfl, ?_⟩
  exact
    { h with
      buffered := by
        rw [hb, h.buffered, hqueue, List.append_assoc]
        simp [Connection.queue]
      ended := he.trans (h.ended.trans (hqueue ▸ rfl))
      closed := hcl.trans h.closed
      error_eq := hqueue ▸ h.error_eq
      chunks_ne := by
        intro hmem
        rcases List.mem_append.mp hmem with hmem | hmem
        · exact h.chunks_ne (hqueue ▸ hmem)
        · exact hc (List.mem_singleton.mp hmem).symm
      unread := fun hk hn => absurd (hr.symm.trans (h.unread hk hn)) (by simp)
      complete := fun hfin => absurd (hopen.symm.trans (h.complete hfin).1) Bool.false_ne_true }

/-- The host has ended. -/
theorem hostEof_advances {r : HostReadState} (hr : c.hostRead = some r) (heof : r.eof = false) :
    Advances relay c [.hostEof] { c with hostRead := some { r with eof := true } } := by
  intro p q h
  have hqueue := queue_of_some hr
  have hopen : p.ended = false := h.ended.trans (hqueue ▸ heof)
  obtain ⟨p', hs, hb, he, hcl⟩ := Pipe.step_sourceEnd hopen
  refine ⟨p', q, (Pipe.steps_singleton p _).trans hs, rfl, ?_⟩
  exact
    { h with
      buffered := hb.trans (h.buffered.trans (hqueue ▸ rfl))
      ended := he
      closed := hcl.trans h.closed
      error_eq := hqueue ▸ h.error_eq
      chunks_ne := hqueue ▸ h.chunks_ne
      unread := fun hk hn => absurd (hr.symm.trans (h.unread hk hn)) (by simp)
      complete := fun hfin => absurd (hopen.symm.trans (h.complete hfin).1) Bool.false_ne_true }

/-- What the tunnel received is under way. -/
theorem tunnelReceive_advances (octets : List UInt8) (heof : c.tunnel.eof = false) :
    Advances relay c [.tunnelReceived octets]
      { c with tunnel := { c.tunnel with received := c.tunnel.received ++ octets } } := by
  intro p q h
  have hopen : q.ended = false := h.fin.trans heof
  obtain ⟨q', hs, hb, he, hcl⟩ := Pipe.step_push hopen octets
  refine ⟨p, q', rfl, (Pipe.steps_singleton q _).trans hs, ?_⟩
  exact
    { h with
      received := hb.trans (congrArg (· ++ octets) h.received)
      fin := he.trans h.fin
      shut := hcl.trans h.shut
      complete := fun hfin => absurd (hopen.symm.trans (h.complete hfin).2.2.1) Bool.false_ne_true }

/-- The tunnel has ended. -/
theorem tunnelFin_advances (hconn : c.tunnel.connected = true) (heof : c.tunnel.eof = false) :
    Advances relay c [.tunnelFin] { c with tunnel := { c.tunnel with eof := true } } := by
  intro p q h
  have hopen : q.ended = false := h.fin.trans heof
  obtain ⟨q', hs, hb, he, hcl⟩ := Pipe.step_sourceEnd hopen
  refine ⟨p, q', rfl, (Pipe.steps_singleton q _).trans hs, ?_⟩
  exact
    { h with
      received := hb.trans h.received
      fin := he
      shut := hcl.trans h.shut
      connected_of_fin := fun _ => hconn
      complete := fun hfin => absurd (hopen.symm.trans (h.complete hfin).2.2.1) Bool.false_ne_true }

theorem atPoint_of_idle {s : RelayState} (h : s.point = .idle) : AtPoint s := by
  unfold AtPoint
  rw [h]
  trivial

/-- **One step** performs actions of the two pipes, when nothing fails. -/
theorem relay_step {s s' : RelayState} {e : RelayEvent} {p q : Pipe UInt8} (hf : e.Faultless)
    (h : Refines relay s.connection p q) (hp : AtPoint s)
    (hs : (relayMachine relay).step s e = some (s', os)) :
    Advances relay s.connection os s'.connection ∧ AtPoint s' := by
  -- What fails is excluded, and each part of `service` has a lemma of its own.
  cases relayMachine_step hs with
  | hostRead hne hread heof => exact ⟨hostRead_advances hne hread heof, hp⟩
  | hostEof hread heof => exact ⟨hostEof_advances hread heof, hp⟩
  | hostError hread heof => exact absurd hf not_false
  | tunnelConnected hidle =>
    refine ⟨fun p q h => ⟨p, q, rfl, rfl, ?_⟩, atPoint_of_idle hidle⟩
    exact { h with connected_of_fin := fun _ => rfl }
  | tunnelReceive hidle hconnected heof =>
    exact ⟨tunnelReceive_advances _ heof, atPoint_of_idle hidle⟩
  | tunnelFin hidle hconnected heof =>
    exact ⟨tunnelFin_advances hconnected heof, atPoint_of_idle hidle⟩
  | tunnelFail hidle => exact absurd hf not_false
  | beginService hidle =>
    obtain ⟨rfl, rfl⟩ := hf
    exact beginService_advances h.failed_eq
  | @middleService shutdownThrows accepts hostShutdownThrows htaking =>
    obtain ⟨rfl, hsome, rfl⟩ := hf
    obtain ⟨n, rfl⟩ := Option.isSome_iff_exists.mp hsome
    unfold AtPoint at hp
    rw [htaking] at hp
    obtain ⟨hgo, ha, hat⟩ := @middleService_advances relay _ hp.1 h.error_eq hp.2 n
    dsimp only
    rw [hgo, if_neg Bool.false_ne_true]
    exact ⟨ha, hat⟩
  | endService hchecking =>
    unfold AtPoint at hp
    rw [hchecking] at hp
    exact ⟨endService_advances hp.1 hp.2, atPoint_of_idle rfl⟩

/-! ## Runs -/

/-- A new connection stands for two empty pipes. -/
theorem refines_new (relay : Relay) : Refines relay (.new relay) .empty .empty := by
  cases relay with
  | servedTcpPorts =>
    constructor <;> simp [Connection.new, Connection.queue, Pipe.empty]
  | localTcpForwarder =>
    constructor <;> simp [Connection.new, Connection.queue, Pipe.empty]
  | socksProxy =>
    constructor <;> simp [Connection.new, Connection.queue, Pipe.empty]

/-- **Every run of a connection is a run of two pipes**, as long as nothing fails. -/
theorem relay_refines {es : List RelayEvent} {s : RelayState}
    (hr : (relayMachine relay).Runs es s os) (hf : ∀ e ∈ es, e.Faultless) :
    ∃ p q, Pipe.empty.steps (os.filterMap hostToTunnel) = some p ∧
      Pipe.empty.steps (os.filterMap tunnelToHost) = some q ∧
      Refines relay s.connection p q ∧ AtPoint s := by
  refine hr.trace_invariant (I := fun es s os => (∀ e ∈ es, e.Faultless) →
    ∃ p q, Pipe.empty.steps (os.filterMap hostToTunnel) = some p ∧
      Pipe.empty.steps (os.filterMap tunnelToHost) = some q ∧
      Refines relay s.connection p q ∧ AtPoint s) ?_ ?_ hf
  · exact fun _ => ⟨.empty, .empty, rfl, rfl, refines_new relay, trivial⟩
  · rintro es s os e s' os' - hI hs hf
    obtain ⟨p, q, hp, hq, hrel, hat⟩ := hI fun e he => hf e (List.mem_append_left _ he)
    have hfe := hf e (List.mem_append_right _ (List.mem_singleton_self e))
    obtain ⟨ha, hat'⟩ := relay_step hfe hrel hat hs
    obtain ⟨p', q', hp', hq', hrel'⟩ := ha p q hrel
    refine ⟨p', q', ?_, ?_, hrel', hat'⟩
    · rw [List.filterMap_append, Pipe.steps_append, hp]
      exact hp'
    · rw [List.filterMap_append, Pipe.steps_append, hq]
      exact hq'

/-- **Relays are transparent in both directions**, whatever the reader thread, the tunnel and the
calls of `service` do, in any order, as long as nothing fails. The octets that the tunnel accepted
are a prefix of those read from the host, and the tunnel is shut down for writing only when the host
had ended and the tunnel had accepted them all; the octets written to the host are a prefix of those
that the tunnel received, and the host is shut down for writing only when the tunnel had ended and
they had all been written. A connection is finished only when both directions are complete. -/
theorem relay_transparent (relay : Relay) {es : List RelayEvent} {s : RelayState}
    {os : List RelayOutput} (hr : (relayMachine relay).Runs es s os)
    (hf : ∀ e ∈ es, e.Faultless) :
    let toTunnel := os.filterMap hostToTunnel
    let toHost := os.filterMap tunnelToHost
    given toTunnel <+: pushed toTunnel ∧
    (∀ before after, toTunnel = before ++ .sinkEnd :: after →
      .sourceEnd ∈ before ∧ given before = pushed toTunnel) ∧
    given toHost <+: pushed toHost ∧
    (∀ before after, toHost = before ++ .sinkEnd :: after →
      .sourceEnd ∈ before ∧ given before = pushed toHost) ∧
    (s.connection.finished = true →
      (.sourceEnd ∈ toTunnel ∧ given toTunnel = pushed toTunnel) ∧
        .sourceEnd ∈ toHost ∧ given toHost = pushed toHost ∧ .sinkEnd ∈ toHost) := by
  intro toTunnel toHost
  obtain ⟨p, q, hp, hq, hrel, -⟩ := relay_refines hr hf
  have htunnel : Transparent toTunnel := ⟨p, hp⟩
  have hhost : Transparent toHost := ⟨q, hq⟩
  refine ⟨htunnel.given_prefix, fun before after he => ?_, hhost.given_prefix,
    fun before after he => ?_, fun hfin => ?_⟩
  · rw [he]
    exact Transparent.sinkEnd (he ▸ htunnel)
  · rw [he]
    exact Transparent.sinkEnd (he ▸ hhost)
  · -- At the end both pipes are empty, so that everything was given.
    obtain ⟨hpended, hpempty, hqended, hqempty, hqclosed⟩ := hrel.complete hfin
    obtain ⟨hpushed, hend, -⟩ := Pipe.steps_eq_some hp
    obtain ⟨hpushed', hend', hclosed'⟩ := Pipe.steps_eq_some hq
    rw [hpempty, List.append_nil] at hpushed
    rw [hqempty, List.append_nil] at hpushed'
    exact ⟨⟨hend.mp hpended, hpushed.symm⟩, hend'.mp hqended, hpushed'.symm, hclosed'.mp hqclosed⟩

/-- Three octets in one direction, accepted in two pieces, and one in the other. -/
theorem relay_transparent_example :
    let es : List RelayEvent := [.tunnelConnected, .beginService false none, .hostRead [1, 2, 3],
      .middleService false (some 2) false, .hostEof, .endService, .tunnelReceive [9], .tunnelFin,
      .beginService false none, .middleService false (some 8) false, .endService]
    let os : List RelayOutput := [.reply 0, .hostRead [1, 2, 3], .toTunnel [1, 2], .hostEof,
      .tunnelReceived [9], .tunnelFin, .toHost [9], .toTunnel [3], .hostShutdown, .closed]
    ∃ s, (relayMachine .socksProxy).Runs es s os ∧ s.connection.finished = true ∧
      given (os.filterMap hostToTunnel) = [1, 2, 3] := by
  intro es os
  have hf : ∀ e ∈ es, e.Faultless := by simp [es, RelayEvent.Faultless]
  obtain ⟨s, hr, hfin⟩ : ∃ s, (relayMachine .socksProxy).Runs es s os ∧
      s.connection.finished = true := ⟨_, rfl, rfl⟩
  exact ⟨s, hr, hfin, ((relay_transparent .socksProxy hr hf).2.2.2.2 hfin).1.2⟩

end Tailcat
