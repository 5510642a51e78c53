import Tailcat.Base.Delivery
import Tailcat.Relay.Transparent

/-!
# Errors of the host

A host stream may end with an error, and writing to the host may fail. Whatever the reader thread
had queued until then is still under way to the tunnel. `service` looks at the error whenever it
takes a chunk from the queue, and gives up the connection at once: that chunk and all that follow it
never reach the tunnel.

## Main definitions

* `Connection.left`: what is under way to the tunnel
* `deliveries`: reading the host, writing to the tunnel and closing, as actions at a pipe's ends
* `KeepsLeft`: a step does not end the connection on account of the host with something under way

## Main results

* `replyOnce_conveys`, `takeHostChunk_conveys`, …: no part of `service` loses octets
* `read_error_iff`: everything that was read is delivered before the connection is closed, just if
  every step meets `KeepsLeft`
-/

namespace Tailcat

open Connection

/-- What is under way to the tunnel: the rest of the pending chunk, then the queued chunks. -/
def Connection.left (c : Connection) : List UInt8 :=
  c.pendingToTunnel.drop c.pendingOffset ++ c.queue.chunks.flatten

/-- What `service` writes to the tunnel next: the pending chunk, or the first one of the queue. -/
def Connection.piece (c : Connection) : List UInt8 :=
  if c.pendingOffset = c.pendingToTunnel.length then c.queue.chunks.headD []
  else c.pendingToTunnel.drop c.pendingOffset

/-- `take_host_chunk` looks at the queue, and finds that reading has failed. -/
def Connection.SeesError (c : Connection) : Prop :=
  c.pendingOffset = c.pendingToTunnel.length ∧ c.queue.error ≠ ""

/-- The host refuses the answer of the proxy, or what the tunnel received. -/
def Connection.Refused (relay : Relay) (replyThrows : Bool) (written : Option ℕ) (c : Connection) :
    Prop :=
  c.finished = false ∧ (relay ≠ .servedTcpPorts → c.tunnel.connected = true) ∧
    ((relay = .socksProxy ∧ c.replied = false ∧ replyThrows = true) ∨
      (c.tunnel.received ≠ [] ∧ written.isSome))

/-- The host refuses to be shut down for writing. -/
def Connection.ShutdownRefused (hostShutdownThrows : Bool) (c : Connection) : Prop :=
  c.tunnel.eof = true ∧ c.hostWriteShutdown = false ∧ hostShutdownThrows = true

/-- The connection does not end on account of the host while something is under way, and the host
gives nothing more after its end. -/
def Connection.KeepsLeft (relay : Relay) (c : Connection) : RelayEvent → Prop
  | .hostRead _ => c.finished = false
  | .beginService replyThrows written => c.Refused relay replyThrows written → c.left = []
  | .middleService _ accepts hostShutdownThrows =>
    -- The forwarders close the connection when they see the error, the proxy at the end of the call.
    (c.SeesError → relay ≠ .socksProxy ∨ c.ShutdownRefused hostShutdownThrows → c.left = []) ∧
      (¬ c.SeesError → c.ShutdownRefused hostShutdownThrows →
        c.left = c.piece ∧ c.piece.length ≤ accepts.getD 0)
  | .endService => c.finished = true → c.left = []
  | _ => True

/-- The tunnel does not fail: neither its stream nor a call on it. -/
def RelayEvent.TunnelHolds : RelayEvent → Prop
  | .tunnelFail => False
  | .middleService shutdownThrows accepts _ => shutdownThrows = false ∧ accepts.isSome
  | _ => True

/-- Reading the host, writing to the tunnel and closing, as actions at the ends of a pipe. -/
def deliveries : RelayOutput → Option (PipeAction UInt8)
  | .hostRead chunk => some (.push chunk)
  | .toTunnel octets => some (.give octets)
  | .closed => some .sinkEnd
  | _ => none

theorem sinkEnd_mem_deliveries {os : List RelayOutput} :
    .sinkEnd ∈ os.filterMap deliveries ↔ .closed ∈ os := by
  rw [List.mem_filterMap]
  constructor
  · rintro ⟨o, ho, he⟩
    cases o <;> simp_all [deliveries]
  · intro h
    exact ⟨.closed, h, rfl⟩

/-! ## The parts of `service` -/

variable {relay : Relay} {c c' : Connection} {os os' : List RelayOutput}

/-- What holds of every connection whose tunnel has not failed. -/
structure Sound (relay : Relay) (c : Connection) : Prop where
  offset_le : c.pendingOffset ≤ c.pendingToTunnel.length
  unread : relay = .socksProxy → c.replied = false → c.hostRead = none
  pending_of_unread : c.hostRead = none → c.pendingToTunnel = []
  eof_of_error : c.queue.error ≠ "" → c.queue.eof = true
  failed_eq : c.tunnel.failed = false

theorem sound_new (relay : Relay) : Sound relay (.new relay) := by
  cases relay with
  | servedTcpPorts => constructor <;> simp [Connection.new, Connection.queue]
  | localTcpForwarder => constructor <;> simp [Connection.new, Connection.queue]
  | socksProxy => constructor <;> simp [Connection.new, Connection.queue]

/-- From `c` to `c'` with the outputs `os`, nothing of what is under way is lost. -/
structure Conveys (relay : Relay) (c : Connection) (os : List RelayOutput) (c' : Connection) :
    Prop where
  sound : Sound relay c'
  conserves : Conserves c.left (os.filterMap deliveries) c'.left
  eof_eq : c'.queue.eof = c.queue.eof
  finished_of : c.finished = true → c'.finished = true

theorem Conveys.refl (h : Sound relay c) : Conveys relay c [] c :=
  ⟨h, .nil _, rfl, id⟩

theorem Conveys.trans {c'' : Connection} (h : Conveys relay c os c') (hopen : .closed ∉ os)
    (h' : Conveys relay c' os' c'') : Conveys relay c (os ++ os') c'' := by
  refine ⟨h'.sound, ?_, h'.eof_eq.trans h.eof_eq, fun hf => h'.finished_of (h.finished_of hf)⟩
  rw [List.filterMap_append]
  exact h.conserves.append (mt sinkEnd_mem_deliveries.mp hopen) h'.conserves

/-- A part of `service` that keeps what is under way, and that ends `service` just if it closes the
connection. -/
structure Settles (relay : Relay) (c : Connection) (p : Part) : Prop where
  conveys : Conveys relay c p.2.1 p.1
  closed_iff : .closed ∈ p.2.1 ↔ p.2.2 = true
  finished_of_closed : p.2.2 = true → p.1.finished = true

/-- A part that leaves alone what is under way. -/
theorem Settles.quiet (h : Sound relay c') (hleft : c'.left = c.left)
    (heof : c'.queue.eof = c.queue.eof) (hfin : c.finished = true → c'.finished = true)
    (hos : os.filterMap deliveries = []) : Settles relay c (c', os, false) := by
  refine ⟨⟨h, ?_, heof, hfin⟩, iff_of_false ?_ Bool.false_ne_true, fun hs => by cases hs⟩
  · rw [hleft]
    dsimp only
    rw [hos]
    exact .nil _
  · intro hm
    have := sinkEnd_mem_deliveries.mpr hm
    rw [hos] at this
    simp at this

theorem Settles.refl (h : Sound relay c) : Settles relay c (c, [], false) :=
  .quiet h rfl rfl id rfl

/-- Ending `service` is closing the connection. -/
theorem Settles.stop (h : Sound relay c') (hleft : c'.left = c.left)
    (heof : c'.queue.eof = c.queue.eof) (hos : os.filterMap deliveries = []) :
    Settles relay c (c'.stop os) := by
  refine ⟨⟨{ h with }, ?_, heof, fun _ => rfl⟩, by simp [Connection.stop], fun _ => rfl⟩
  rw [show (c'.stop os).2.1 = os ++ [.closed] from rfl, List.filterMap_append, hos]
  refine .singleton ?_
  rw [← hleft]
  exact List.append_nil _

theorem Settles.andThen {p : Part} {f : Connection → Part} (h : Settles relay c p)
    (h' : p.2.2 = false → Settles relay p.1 (f p.1)) : Settles relay c (p.andThen f) := by
  unfold Part.andThen
  split
  · exact h
  · rename_i hgo
    rw [Bool.not_eq_true] at hgo
    have hopen : .closed ∉ p.2.1 := fun hm =>
      absurd (h.closed_iff.mp hm) (hgo ▸ Bool.false_ne_true)
    have h' := h' hgo
    refine ⟨h.conveys.trans hopen h'.conveys, ?_, h'.finished_of_closed⟩
    rw [List.mem_append, or_iff_right hopen]
    exact h'.closed_iff

theorem andThen_stopped {p : Part} {f : Connection → Part} (h : p.2.2 = true) : p.andThen f = p :=
  if_pos h

theorem andThen_going {p : Part} {f : Connection → Part} (h : p.2.2 = false) :
    p.andThen f = ((f p.1).1, p.2.1 ++ (f p.1).2.1, (f p.1).2.2) :=
  if_neg (h ▸ Bool.false_ne_true)

theorem replyOnce_settles (h : Sound relay c) (throws : Bool) :
    Settles relay c (c.replyOnce relay throws) ∧ (c.replyOnce relay throws).1.left = c.left ∧
      ((c.replyOnce relay throws).2.2 = true ↔
        relay = .socksProxy ∧ c.replied = false ∧ throws = true) ∧
      ((c.replyOnce relay throws).2.2 = false →
        (c.replyOnce relay throws).1.tunnel = c.tunnel ∧
          (c.replyOnce relay throws).1.finished = c.finished) := by
  unfold replyOnce
  split
  · rename_i hr
    rw [Bool.not_eq_true] at hr
    split
    · rename_i ht
      exact ⟨.stop h rfl rfl rfl, rfl, iff_of_true rfl ⟨hr.1, hr.2, ht⟩, fun hn => by cases hn⟩
    · rename_i ht
      -- Nothing was read before the answer.
      have hnone := h.unread hr.1 hr.2
      have hpending := h.pending_of_unread hnone
      have hleft : ({ c with replied := true, hostRead := some {} } : Connection).left = c.left := by
        simp [Connection.left, Connection.queue, hnone, hpending]
      refine ⟨.quiet ?_ hleft ?_ id rfl, hleft,
        iff_of_false Bool.false_ne_true fun hs => ht hs.2.2, fun _ => ⟨rfl, rfl⟩⟩
      · exact
          { h with
            unread := fun _ hn => by cases hn
            pending_of_unread := fun hn => by cases hn
            eof_of_error := fun hn => absurd rfl hn }
      · simp [Connection.queue, hnone]
  · rename_i hr
    rw [Bool.not_eq_true] at hr
    exact ⟨.refl h, rfl, iff_of_false Bool.false_ne_true fun hs => hr ⟨hs.1, hs.2.1⟩,
      fun _ => ⟨rfl, rfl⟩⟩

theorem writeReceived_settles (h : Sound relay c) (written : Option ℕ) :
    Settles relay c (c.writeReceived written) ∧ (c.writeReceived written).1.left = c.left ∧
      ((c.writeReceived written).2.2 = true ↔ c.tunnel.received ≠ [] ∧ written.isSome) ∧
      ((c.writeReceived written).2.2 = false →
        (c.writeReceived written).1.finished = c.finished) := by
  have hread : Sound relay { c with tunnel := { c.tunnel with received := [] } } :=
    { h with }
  unfold writeReceived
  dsimp only
  split
  · rename_i hr
    exact ⟨.quiet hread rfl rfl id rfl, rfl, iff_of_false Bool.false_ne_true fun hs => hs.1 hr,
      fun _ => rfl⟩
  · rename_i hr
    split
    · exact ⟨.quiet hread rfl rfl id rfl, rfl,
        iff_of_false Bool.false_ne_true fun hs => Bool.false_ne_true hs.2, fun _ => rfl⟩
    · exact ⟨.stop hread rfl rfl rfl, rfl, iff_of_true rfl ⟨hr, rfl⟩, fun hn => by cases hn⟩

/-- **Before the first lock** nothing moves to the tunnel, and the connection is closed just if the
host refuses something. -/
theorem beginService_settles (h : Sound relay c) (replyThrows : Bool) (written : Option ℕ) :
    let r := c.beginService relay replyThrows written
    Conveys relay c r.2.1 r.1 ∧ r.1.left = c.left ∧
      (.closed ∈ r.2.1 ↔ c.Refused relay replyThrows written) ∧
      (.closed ∈ r.2.1 → r.1.finished = true ∧ r.2.2 = .idle) ∧
      (.closed ∉ r.2.1 → r.1.finished = c.finished) ∧
      (r.2.2 ≠ .idle → r.1.finished = false) ∧ (c.finished = true → r.2.1 = []) := by
  intro r
  have hr : r = c.beginService relay replyThrows written := rfl
  clear_value r
  unfold beginService at hr
  split at hr
  · rename_i hf
    subst hr
    exact ⟨.refl h, rfl, iff_of_false (by simp) fun hn => by simp [hn.1] at hf, by simp,
      fun _ => rfl, fun hn => absurd rfl hn, fun _ => rfl⟩
  rename_i hf
  rw [Bool.not_eq_true] at hf
  rw [if_neg (h.failed_eq ▸ Bool.false_ne_true)] at hr
  split at hr
  · -- The client is still waiting for the connection: nothing is written to it.
    rename_i hwait
    have hrefused : ¬ c.Refused relay replyThrows written := fun hn =>
      hwait.2 (hn.2.1 hwait.1)
    split at hr
    · subst hr
      exact ⟨.refl h, rfl, iff_of_false (by simp) hrefused, by simp, fun _ => rfl,
        fun hn => absurd rfl hn, fun _ => rfl⟩
    · subst hr
      exact ⟨.refl h, rfl, iff_of_false (by simp) hrefused, by simp, fun _ => rfl, fun _ => hf,
        fun _ => rfl⟩
  · rename_i hready
    have hready : relay ≠ .servedTcpPorts → c.tunnel.connected = true := fun hn =>
      not_not.mp fun hc => hready ⟨hn, hc⟩
    subst hr
    dsimp only
    obtain ⟨h₁, hleft₁, hstop₁, hgo₁⟩ := replyOnce_settles h replyThrows
    obtain ⟨h₂, hleft₂, hstop₂, hgo₂⟩ := writeReceived_settles h₁.conveys.sound written
    have h₁₂ := h₁.andThen fun _ => h₂
    -- The service stops at the part that throws, and the write is only tried after the reply.
    have hboth : (((c.replyOnce relay replyThrows).andThen (writeReceived written)).2.2 = true ↔
          c.Refused relay replyThrows written) ∧
        ((c.replyOnce relay replyThrows).andThen (writeReceived written)).1.left = c.left ∧
        (((c.replyOnce relay replyThrows).andThen (writeReceived written)).2.2 = false →
          ((c.replyOnce relay replyThrows).andThen (writeReceived written)).1.finished =
            c.finished) := by
      unfold Part.andThen Connection.Refused
      split
      · rename_i hs
        exact ⟨iff_of_true hs ⟨hf, hready, .inl (hstop₁.mp hs)⟩, hleft₁,
          fun hn => absurd (hn.symm.trans hs) Bool.false_ne_true⟩
      · rename_i hs
        rw [Bool.not_eq_true] at hs
        refine ⟨?_, hleft₂.trans hleft₁, fun hn => (hgo₂ hn).trans (hgo₁ hs).2⟩
        dsimp only
        rw [hstop₂, (hgo₁ hs).1]
        constructor
        · exact fun hw => ⟨hf, hready, .inr hw⟩
        · rintro ⟨-, -, hn | hw⟩
          · exact absurd (hstop₁.mpr hn) (hs ▸ Bool.false_ne_true)
          · exact hw
    obtain ⟨hstop, hleft, hgo⟩ := hboth
    refine ⟨h₁₂.conveys, hleft, h₁₂.closed_iff.trans hstop, fun hm => ?_, fun hm => ?_,
      fun hn => ?_, fun hn => absurd (hf.symm.trans hn) Bool.false_ne_true⟩
    · have hs := h₁₂.closed_iff.mp hm
      exact ⟨h₁₂.finished_of_closed hs, if_pos hs⟩
    · exact hgo (Bool.eq_false_iff.mpr (mt h₁₂.closed_iff.mpr hm))
    · have hs := Bool.eq_false_iff.mpr fun hs => hn (if_pos hs)
      exact (hgo hs).trans hf

/-- **Taking a chunk**: what is under way stays what it is. The forwarders close the connection when
they see the error; the proxy finishes it. -/
theorem takeHostChunk_settles (h : Sound relay c) :
    let p := c.takeHostChunk relay false
    Settles relay c p ∧ p.1.left = c.left ∧ (p.2.2 = true ↔ relay ≠ .socksProxy ∧ c.SeesError) ∧
      (c.SeesError → p.1.finished = true) ∧
      (¬ c.SeesError → p.1.finished = c.finished ∧
        p.1.pendingToTunnel.drop p.1.pendingOffset = c.piece) := by
  intro p
  have hp : p = c.takeHostChunk relay false := rfl
  clear_value p
  unfold takeHostChunk at hp
  cases hread : c.hostRead with
  | none =>
    -- Before the first read there is no queue, so there is no error in it.
    have hqueue := queue_of_none hread
    have hpiece : c.pendingToTunnel.drop c.pendingOffset = c.piece := by
      simp [Connection.piece, hqueue, h.pending_of_unread hread]
    have herror : ¬ c.SeesError := fun hn => hn.2 (by rw [hqueue])
    rw [hread] at hp
    subst hp
    exact ⟨.refl h, rfl, iff_of_false Bool.false_ne_true fun hn => herror hn.2,
      fun hn => absurd hn herror, fun _ => ⟨rfl, hpiece⟩⟩
  | some hostRead =>
    have hqueue := queue_of_some hread
    rw [hread] at hp
    dsimp only at hp
    split at hp
    · -- The piece before is not written yet, and the error behind it is not looked at.
      rename_i hall
      have herror : ¬ c.SeesError := fun hn => hall hn.1
      subst hp
      exact ⟨.refl h, rfl, iff_of_false Bool.false_ne_true fun hn => herror hn.2,
        fun hn => absurd hn herror, fun _ => ⟨rfl, (if_neg hall).symm⟩⟩
    rename_i hall
    rw [not_not] at hall
    have hleft : c.left = hostRead.chunks.headD [] ++ hostRead.chunks.tail.flatten := by
      rw [Connection.left, hqueue, hall, List.drop_length, List.nil_append, flatten_eq_headD_append]
    have hpiece : hostRead.chunks.headD [] = c.piece := by
      rw [Connection.piece, if_pos hall, hqueue]
    have htaken : Sound relay { c with
        pendingToTunnel := hostRead.chunks.headD []
        pendingOffset := 0
        hostRead := some { hostRead with chunks := hostRead.chunks.tail } } :=
      { h with
        offset_le := Nat.zero_le _
        unread := fun hr hn => absurd (hread.symm.trans (h.unread hr hn)) (by simp)
        pending_of_unread := fun hn => by cases hn
        eof_of_error := fun hn => by
          have := h.eof_of_error
          rw [hqueue] at this
          exact this hn }
    split at hp
    · rename_i herror
      have hsees : c.SeesError := ⟨hall, hqueue ▸ herror⟩
      -- A proxy finishes and goes on to the end of the service; the other relays close.
      split at hp
      · rename_i hsocks
        subst hp
        refine ⟨.quiet { htaken with } hleft.symm (hqueue ▸ rfl) (fun _ => rfl) rfl, hleft.symm,
          iff_of_false Bool.false_ne_true fun hn => hn.1 hsocks, fun _ => rfl,
          fun hn => absurd hsees hn⟩
      · rename_i hsocks
        subst hp
        exact ⟨.stop htaken hleft.symm (hqueue ▸ rfl) rfl, hleft.symm, iff_of_true rfl ⟨hsocks, hsees⟩,
          fun _ => rfl, fun hn => absurd hsees hn⟩
    · rename_i herror
      have hsees : ¬ c.SeesError := fun hn => herror (hqueue ▸ hn.2)
      rw [if_neg Bool.false_ne_true] at hp
      split at hp
      · subst hp
        exact ⟨.quiet { htaken with } hleft.symm (hqueue ▸ rfl) id rfl, hleft.symm,
          iff_of_false Bool.false_ne_true fun hn => hsees hn.2, fun hn => absurd hn hsees,
          fun _ => ⟨rfl, hpiece⟩⟩
      · subst hp
        exact ⟨.quiet { htaken with } hleft.symm (hqueue ▸ rfl) id rfl, hleft.symm,
          iff_of_false Bool.false_ne_true fun hn => hsees hn.2, fun hn => absurd hn hsees,
          fun _ => ⟨rfl, hpiece⟩⟩

/-- **Writing what is pending**: the tunnel accepts the first octets of it. -/
theorem writePending_settles (h : Sound relay c) (n : ℕ) :
    let p := c.writePending (some n)
    Settles relay c p ∧ p.2.2 = false ∧ p.1.finished = c.finished ∧
      (c.finished = true → p.1.left = c.left) ∧
      (c.finished = false →
        p.1.left = (c.pendingToTunnel.drop c.pendingOffset).drop n ++ c.queue.chunks.flatten) := by
  intro p
  have hp : p = c.writePending (some n) := rfl
  clear_value p
  unfold writePending at hp
  -- What the tunnel accepts is taken off the octets that are left.
  split at hp
  · rename_i hgo
    dsimp only at hp
    have hf : c.finished = false := Bool.not_eq_true _ ▸ hgo.1
    have hleft : ({ c with pendingOffset := c.pendingOffset +
        ((c.pendingToTunnel.drop c.pendingOffset).take n).length } : Connection).left =
        (c.pendingToTunnel.drop c.pendingOffset).drop n ++ c.queue.chunks.flatten :=
      congrArg (· ++ c.queue.chunks.flatten) (drop_accepted _ _ n)
    subst hp
    refine ⟨⟨⟨?_, ?_, rfl, id⟩, by simp, fun hs => by cases hs⟩, rfl, rfl, ?_, fun _ => hleft⟩
    · exact { h with offset_le := add_length_accepted_le h.offset_le n }
    · refine .singleton ?_
      rw [hleft, Connection.left]
      simp [pushed, given, ← List.append_assoc]
    · exact fun hn => absurd (hf.symm.trans hn) Bool.false_ne_true
  · rename_i hgo
    subst hp
    refine ⟨.refl h, rfl, rfl, fun _ => rfl, fun hf => ?_⟩
    have hnone : c.pendingToTunnel.drop c.pendingOffset = [] :=
      List.drop_eq_nil_of_le (Nat.not_lt.mp fun hlt => hgo ⟨by simp [hf], hlt⟩)
    simp [Connection.left, hnone]

/-- **Shutting the host down** leaves alone what is under way. -/
theorem shutdownHost_settles (h : Sound relay c) (throws : Bool) :
    let p := c.shutdownHost throws
    Settles relay c p ∧ p.1.left = c.left ∧ (p.2.2 = true ↔ c.ShutdownRefused throws) ∧
      (p.2.2 = false → p.1.finished = c.finished) := by
  intro p
  have hp : p = c.shutdownHost throws := rfl
  clear_value p
  unfold shutdownHost at hp
  split at hp
  · rename_i hs
    rw [Bool.not_eq_true] at hs
    split at hp
    · rename_i ht
      subst hp
      exact ⟨.stop h rfl rfl rfl, rfl, iff_of_true rfl ⟨hs.1, hs.2, ht⟩, fun hn => by cases hn⟩
    · rename_i ht
      subst hp
      exact ⟨.quiet { h with } rfl rfl id rfl, rfl,
        iff_of_false Bool.false_ne_true fun hn => ht hn.2.2, fun _ => rfl⟩
  · rename_i hs
    rw [Bool.not_eq_true] at hs
    subst hp
    exact ⟨.refl h, rfl, iff_of_false Bool.false_ne_true fun hn => hs ⟨hn.1, hn.2.1⟩, fun _ => rfl⟩

/-- **From the first lock to the second one**: what is under way afterwards, and when the connection
is closed. -/
theorem middleService_settles (h : Sound relay c) (hf : c.finished = false) (n : ℕ)
    (hostShutdownThrows : Bool) :
    let p := c.middleService relay false (some n) hostShutdownThrows
    Settles relay c p ∧
      (p.2.2 = true ↔ (relay ≠ .socksProxy ∧ c.SeesError) ∨ c.ShutdownRefused hostShutdownThrows) ∧
      (c.SeesError → p.1.left = c.left) ∧
      (¬ c.SeesError → (p.1.left = [] ↔ c.left = c.piece ∧ c.piece.length ≤ n)) ∧
      (p.2.2 = false → (p.1.finished = true ↔ c.SeesError)) := by
  intro p
  obtain ⟨h₁, hleft₁, hstop₁, hsees₁, hgo₁⟩ := takeHostChunk_settles h
  obtain ⟨h₂, hstop₂, hfin₂, hleft₂, hwritten₂⟩ := writePending_settles h₁.conveys.sound n
  obtain ⟨htunnel₁, hshut₁⟩ := takeHostChunk_frame relay false c
  obtain ⟨htunnel₂, hshut₂⟩ := writePending_frame (some n) (c.takeHostChunk relay false).1
  obtain ⟨h₃, hleft₃, hstop₃, hgo₃⟩ := shutdownHost_settles h₂.conveys.sound hostShutdownThrows
  by_cases hs : (c.takeHostChunk relay false).2.2 = true
  · -- The first part has closed the connection: it is all there is of the service.
    have hp : p = c.takeHostChunk relay false := by
      change ((c.takeHostChunk relay false).andThen _).andThen _ = _
      rw [andThen_stopped hs, andThen_stopped hs]
    have hclosed := hstop₁.mp hs
    rw [hp]
    exact ⟨h₁, iff_of_true hs (.inl hclosed), fun _ => hleft₁, fun hn => absurd hclosed.2 hn,
      fun hn => absurd (hn.symm.trans hs) Bool.false_ne_true⟩
  · have hgo := Bool.eq_false_iff.mpr hs
    have hsocks : ¬ (relay ≠ .socksProxy ∧ c.SeesError) := fun hn => hs (hstop₁.mpr hn)
    set taken := c.takeHostChunk relay false
    set written := taken.1.writePending (some n)
    set shut := written.1.shutdownHost hostShutdownThrows
    have hp : p = (shut.1, (taken.2.1 ++ written.2.1) ++ shut.2.1, shut.2.2) := by
      change (taken.andThen _).andThen _ = _
      rw [andThen_going hgo]
      exact andThen_going hstop₂
    have hsettles : Settles relay c p := by
      refine (h₁.andThen fun _ => h₂).andThen fun _ => ?_
      rw [andThen_going hgo]
      exact h₃
    -- What the third part looks at has not been changed by the others.
    have hrefused : written.1.ShutdownRefused hostShutdownThrows ↔
        c.ShutdownRefused hostShutdownThrows := by
      unfold Connection.ShutdownRefused
      rw [htunnel₂, htunnel₁, hshut₂, hshut₁]
    have hfin : p.2.2 = false → p.1.finished = taken.1.finished := by
      rw [hp]
      exact fun hn => (hgo₃ hn).trans hfin₂
    have hleft : p.1.left = written.1.left := by
      rw [hp]
      exact hleft₃
    refine ⟨hsettles, ?_, fun hsees => ?_, fun hsees => ?_, fun hn => ?_⟩
    · rw [hp, or_iff_right hsocks]
      exact hstop₃.trans hrefused
    · rw [hleft, hleft₂ (hsees₁ hsees), hleft₁]
    · -- Nothing is left when the piece was the last one and has been written.
      obtain ⟨hfin₁, hpiece⟩ := hgo₁ hsees
      have hall : c.left = c.piece ++ taken.1.queue.chunks.flatten := by
        rw [← hleft₁, ← hpiece]
        rfl
      rw [hleft, hwritten₂ (hfin₁.trans hf), hpiece, hall]
      simp [and_comm]
    · rw [hfin hn]
      constructor
      · intro hf'
        by_contra hsees
        exact absurd (hf'.symm.trans ((hgo₁ hsees).1.trans hf)) (by simp)
      · exact hsees₁

/-- `KeepsLeft` says that nothing is under way when the connection is closed. -/
theorem middleService_keepsLeft (h : Sound relay c) (hf : c.finished = false) (n : ℕ)
    (hostShutdownThrows : Bool) :
    let p := c.middleService relay false (some n) hostShutdownThrows
    let e := .middleService false (some n) hostShutdownThrows
    (.closed ∈ p.2.1 → (p.1.left = [] ↔ c.KeepsLeft relay e)) ∧
      (.closed ∉ p.2.1 → c.KeepsLeft relay e) := by
  intro p e
  obtain ⟨hset, hstop, hsees, hunseen, -⟩ := middleService_settles h hf n hostShutdownThrows
  constructor
  · intro hm
    have hp := hstop.mp (hset.closed_iff.mp hm)
    -- The error is seen before anything is written, a refused shutdown after it.
    by_cases hseen : c.SeesError
    · rw [hsees hseen]
      constructor
      · exact fun hleft => ⟨fun _ _ => hleft, fun hn => absurd hseen hn⟩
      · exact fun hk => hk.1 hseen (hp.imp_left And.left)
    · rw [hunseen hseen]
      have hrefused := hp.resolve_left fun hn => hseen hn.2
      constructor
      · exact fun hleft => ⟨fun hn => absurd hn hseen, fun _ _ => hleft⟩
      · exact fun hk => hk.2 hseen hrefused
  · intro hm
    have hp := mt (fun hp => hset.closed_iff.mpr (hstop.mpr hp)) hm
    rw [not_or] at hp
    refine ⟨fun hseen hends => ?_, fun _ hrefused => absurd hrefused hp.2⟩
    rcases hends with hsocks | hrefused
    · exact absurd ⟨hsocks, hseen⟩ hp.1
    · exact absurd hrefused hp.2

/-- **From the second lock on**: the connection is closed when both directions are done, with
nothing under way, or when the proxy has seen an error. -/
theorem endService_settles (h : Sound relay c) :
    Conveys relay c c.endService.2 c.endService.1 ∧ c.endService.1.left = c.left ∧
      (.closed ∈ c.endService.2 → c.endService.1.finished = true ∧
        (c.left = [] ↔ (c.finished = true → c.left = []))) ∧
      (.closed ∉ c.endService.2 → c.endService.1.finished = c.finished ∧
        (c.finished = true → c.left = [] ∧ c.queue.eof = false)) := by
  unfold endService
  split
  · rename_i hnone
    have hleft : c.left = [] := by
      simp [Connection.left, queue_of_none hnone, h.pending_of_unread hnone]
    have heof : c.queue.eof = false := by rw [queue_of_none hnone]
    exact ⟨.refl h, rfl, fun hm => by simp at hm, fun _ => ⟨rfl, fun _ => ⟨hleft, heof⟩⟩⟩
  · rename_i hostRead hread
    have hqueue := queue_of_some hread
    split
    · rename_i hdone
      refine ⟨⟨{ h with }, .singleton ?_, rfl, fun _ => rfl⟩, rfl, fun _ => ⟨rfl, ?_⟩, ?_⟩
      · exact List.append_nil _
      · constructor
        · exact fun hleft _ => hleft
        · intro himp
          -- The service ends at the end of the stream or because the connection is finished.
          rcases hdone with ⟨-, -, hchunks, hall⟩ | hfin
          · simp [Connection.left, hqueue, hchunks, hall]
          · exact himp hfin
      · exact fun hm => absurd (List.mem_singleton_self _) hm
    · rename_i hdone
      refine ⟨.refl h, rfl, fun hm => by simp at hm, fun _ => ⟨rfl, fun hfin => ?_⟩⟩
      exact absurd (.inr hfin) hdone

/-! ## Steps -/

/-- What a run knows of the connection: what is under way, and whether it was closed. -/
structure Tracked (relay : Relay) (s : RelayState) (os : List RelayOutput) : Prop where
  sound : Sound relay s.connection
  pushed_eq : pushed (os.filterMap deliveries) =
    given (os.filterMap deliveries) ++ s.connection.left
  idle_of_closed : .closed ∈ os → s.connection.finished = true ∧ s.point = .idle
  finished : s.connection.finished = true → .closed ∈ os ∨
    (s.connection.queue.eof = true ∧ s.point = .checking)
  taking : s.point = .taking → s.connection.finished = false

variable {s s' : RelayState}

theorem Tracked.pushed_snoc (h : Tracked relay s os)
    (hc : Conserves s.connection.left (os'.filterMap deliveries) s'.connection.left) :
    pushed ((os ++ os').filterMap deliveries) =
      given ((os ++ os').filterMap deliveries) ++ s'.connection.left := by
  rw [List.filterMap_append, pushed_append, given_append, h.pushed_eq, List.append_assoc,
    hc.conserved, List.append_assoc]

/-- A step that does not close the connection. -/
theorem Tracked.complete_open (h : Tracked relay s os) (hopen : .closed ∉ os') :
    Complete ((os ++ os').filterMap deliveries) ↔ Complete (os.filterMap deliveries) ∧
      (.closed ∈ os → pushed (os'.filterMap deliveries) = []) := by
  have hopen' := mt sinkEnd_mem_deliveries.mp hopen
  rw [List.filterMap_append]
  by_cases hm : .closed ∈ os
  · have hgiven : given (os.filterMap deliveries) <+: pushed (os.filterMap deliveries) :=
      h.pushed_eq ▸ List.prefix_append _ _
    rw [complete_append_of_mem (sinkEnd_mem_deliveries.mpr hm) hgiven hopen']
    simp [hm]
  · have hm' := mt sinkEnd_mem_deliveries.mp hm
    refine iff_of_true (complete_of_not_mem ?_) ⟨complete_of_not_mem hm', fun hn => absurd hn hm⟩
    exact fun hn => (List.mem_append.mp hn).elim hm' hopen'

/-- A step that closes the connection. -/
theorem Tracked.complete_closed (h : Tracked relay s os) (hopen : .closed ∉ os)
    {left : List UInt8} (hc : Conserves s.connection.left (os'.filterMap deliveries) left)
    (hm : .closed ∈ os') : Complete ((os ++ os').filterMap deliveries) ↔
      Complete (os.filterMap deliveries) ∧ left = [] := by
  have hopen' := mt sinkEnd_mem_deliveries.mp hopen
  rw [List.filterMap_append, complete_append_of_closing h.pushed_eq hopen' hc
    (sinkEnd_mem_deliveries.mpr hm), and_iff_right (complete_of_not_mem hopen')]

/-- A step of the reader thread. -/
theorem tracked_readHost (h : Tracked relay s os) {r r' : HostReadState}
    (hr : s.connection.hostRead = some r)
    (hleft : Conserves s.connection.left (os'.filterMap deliveries)
      { s.connection with hostRead := some r' : Connection }.left)
    (hopen : .closed ∉ os') (heof : r.eof = true → r'.eof = true)
    (herror : r'.error ≠ "" → r.error ≠ "" ∨ r'.eof = true) :
    Tracked relay { s with connection := { s.connection with hostRead := some r' } }
      (os ++ os') := by
  have hqueue := queue_of_some hr
  refine ⟨?_, h.pushed_snoc hleft, fun hm => ?_, fun hf => ?_, h.taking⟩
  · exact
      { h.sound with
        unread := fun hk hn => absurd (hr.symm.trans (h.sound.unread hk hn)) (by simp)
        pending_of_unread := fun hn => by cases hn
        eof_of_error := fun hn => by
          rcases herror hn with hr' | he
          · have := h.sound.eof_of_error
            rw [hqueue] at this
            exact heof (this hr')
          · exact he }
  · exact h.idle_of_closed ((List.mem_append.mp hm).resolve_right hopen)
  · rcases h.finished hf with hm | ⟨he, hp⟩
    · exact .inl (List.mem_append_left _ hm)
    · exact .inr ⟨heof (hqueue ▸ he), hp⟩

/-- A move of the tunnel that does not fail. -/
theorem tracked_tunnel {t : Tunnel} (h : Tracked relay s os)
    (hfailed : t.failed = false) (hos : os'.filterMap deliveries = []) :
    Tracked relay { s with connection := { s.connection with tunnel := t } } (os ++ os') := by
  have hopen : .closed ∉ os' := fun hm => by simpa [hos] using sinkEnd_mem_deliveries.mpr hm
  refine ⟨{ h.sound with failed_eq := hfailed }, ?_, fun hm => ?_, fun hf => ?_, h.taking⟩
  · exact h.pushed_snoc (hos ▸ .nil _)
  · exact h.idle_of_closed ((List.mem_append.mp hm).resolve_right hopen)
  · exact (h.finished hf).imp_left (List.mem_append_left _)

/-- A part of `service`. -/
theorem Tracked.service (h : Tracked relay s os) (hc : Conveys relay s.connection os' c')
    {point : ServicePoint} (hclosed : .closed ∈ os' → c'.finished = true ∧ point = .idle)
    (hdone : .closed ∈ os → point = .idle)
    (hfin : c'.finished = true → .closed ∈ os ∨ .closed ∈ os' ∨
      (c'.queue.eof = true ∧ point = .checking))
    (htaking : point = .taking → c'.finished = false) :
    Tracked relay { connection := c', point } (os ++ os') := by
  refine ⟨hc.sound, h.pushed_snoc hc.conserves, fun hm => ?_, fun hf => ?_, htaking⟩
  · rcases List.mem_append.mp hm with hm | hm
    · exact ⟨hc.finished_of (h.idle_of_closed hm).1, hdone hm⟩
    · exact hclosed hm
  · rcases hfin hf with hm | hm | hm
    · exact .inl (List.mem_append_left _ hm)
    · exact .inl (List.mem_append_right _ hm)
    · exact .inr hm

/-- A step of the reader thread or of the tunnel: the connection is not closed. -/
theorem Tracked.iff_open (h : Tracked relay s os) (hopen : .closed ∉ os')
    {C : Prop} (hC : (.closed ∈ os → pushed (os'.filterMap deliveries) = []) ↔ C) :
    Complete ((os ++ os').filterMap deliveries) ↔ Complete (os.filterMap deliveries) ∧ C := by
  rw [h.complete_open hopen, hC]

/-- **One step**: the trace stays complete just if the step meets `KeepsLeft`. -/
theorem tracked_step {e : RelayEvent} (h : Tracked relay s os) (hT : e.TunnelHolds)
    (hs : (relayMachine relay).step s e = some (s', os')) :
    Tracked relay s' (os ++ os') ∧ (Complete ((os ++ os').filterMap deliveries) ↔
      Complete (os.filterMap deliveries) ∧ s.connection.KeepsLeft relay e) := by
  cases relayMachine_step hs with
  | @hostRead chunk r hne hr heof =>
    have hqueue := queue_of_some hr
    have hopen : .closed ∉ [RelayOutput.hostRead chunk] := by simp
    refine ⟨tracked_readHost h hr (.singleton ?_) hopen id .inl, h.iff_open hopen ?_⟩
    · simp [pushed, given, Connection.left, Connection.queue, hr]
    · constructor
      · intro hm
        by_contra hf
        -- A finished connection was closed, unless the host has ended, which it has not.
        rw [KeepsLeft, Bool.not_eq_false] at hf
        rcases h.finished hf with hc | ⟨he, -⟩
        · exact hne (by simpa [pushed, deliveries] using hm hc)
        · exact absurd (heof.symm.trans (hqueue ▸ he)) Bool.false_ne_true
      · intro hf hm
        exact absurd (hf.symm.trans (h.idle_of_closed hm).1) Bool.false_ne_true
  | @hostEof r hr =>
    have hopen : .closed ∉ [RelayOutput.hostEof] := by simp
    have hleft : ({ s.connection with hostRead := some { r with eof := true } } : Connection).left =
        s.connection.left := by simp [Connection.left, Connection.queue, hr]
    refine ⟨tracked_readHost h hr ?_ hopen (fun _ => rfl) fun _ => .inr rfl,
      h.iff_open hopen (iff_of_true (fun _ => rfl) trivial)⟩
    exact hleft ▸ .nil _
  | @hostError what r hr =>
    have hopen : .closed ∉ ([] : List RelayOutput) := by simp
    have hleft : ({ s.connection with
        hostRead := some { r with error := what, eof := true } } : Connection).left =
        s.connection.left := by simp [Connection.left, Connection.queue, hr]
    refine ⟨tracked_readHost h hr ?_ hopen (fun _ => rfl) fun _ => .inr rfl,
      h.iff_open hopen (iff_of_true (fun _ => rfl) trivial)⟩
    exact hleft ▸ .nil _
  | tunnelConnected =>
    exact ⟨tracked_tunnel h h.sound.failed_eq rfl,
      h.iff_open (by simp) (iff_of_true (fun _ => rfl) trivial)⟩
  | tunnelReceive =>
    exact ⟨tracked_tunnel h h.sound.failed_eq rfl,
      h.iff_open (by simp) (iff_of_true (fun _ => rfl) trivial)⟩
  | tunnelFin =>
    exact ⟨tracked_tunnel h h.sound.failed_eq rfl,
      h.iff_open (by simp) (iff_of_true (fun _ => rfl) trivial)⟩
  | tunnelFail => exact absurd hT not_false
  | @beginService replyThrows written hidle =>
    obtain ⟨hc, hleft, hiff, hclosed, hopen, hgo, hdone⟩ :=
      beginService_settles h.sound replyThrows written
    have hfinished : s.connection.finished = true → .closed ∈ os := fun hf =>
      (h.finished hf).resolve_right fun hn => absurd (hidle.symm.trans hn.2) (by decide)
    refine ⟨h.service hc hclosed (fun hm => ?_) (fun hf => ?_) fun hp => ?_, ?_⟩
    · by_contra hn
      exact absurd ((hgo hn).symm.trans (hc.finished_of (h.idle_of_closed hm).1))
        Bool.false_ne_true
    · by_cases hm : .closed ∈ (s.connection.beginService relay replyThrows written).2.1
      · exact .inr (.inl hm)
      · exact .inl (hfinished ((hopen hm).symm.trans hf))
    · exact hgo (hp ▸ by decide)
    · by_cases hr : s.connection.Refused relay replyThrows written
      · have hnotyet : .closed ∉ os := fun hm =>
          absurd (hr.1.symm.trans (h.idle_of_closed hm).1) Bool.false_ne_true
        rw [h.complete_closed hnotyet hc.conserves (hiff.mpr hr), hleft]
        exact and_congr_right fun _ => ⟨fun hn _ => hn, fun hn => hn hr⟩
      · refine h.iff_open (mt hiff.mp hr) (iff_of_true (fun hm => ?_) fun hn => absurd hn hr)
        rw [hdone (h.idle_of_closed hm).1]
        rfl
  | @middleService shutdownThrows accepts hostShutdownThrows hpoint =>
    -- No call on the tunnel throws: it is shut down, and accepts a number of octets.
    obtain ⟨rfl, hsome⟩ := hT
    obtain ⟨n, rfl⟩ := Option.isSome_iff_exists.mp hsome
    obtain ⟨hset, -, -, -, hfin⟩ :=
      middleService_settles h.sound (h.taking hpoint) n hostShutdownThrows
    have hkeeps := middleService_keepsLeft h.sound (h.taking hpoint) n hostShutdownThrows
    have hnotyet : .closed ∉ os := fun hm =>
      absurd (hpoint.symm.trans (h.idle_of_closed hm).2) (by decide)
    refine ⟨h.service hset.conveys (fun hm => ?_) (fun hm => absurd hm hnotyet) (fun hf => ?_)
      fun hp => ?_, ?_⟩
    · have hp := hset.closed_iff.mp hm
      exact ⟨hset.finished_of_closed hp, if_pos hp⟩
    · by_cases hm : .closed ∈
        (s.connection.middleService relay false (some n) hostShutdownThrows).2.1
      · exact .inr (.inl hm)
      · -- The proxy is finished and not closed yet: it has seen an error, and so an end.
        have hp := Bool.eq_false_iff.mpr (mt hset.closed_iff.mpr hm)
        refine .inr (.inr ⟨?_, if_neg (mt hset.closed_iff.mpr hm)⟩)
        rw [hset.conveys.eof_eq]
        exact h.sound.eof_of_error ((hfin hp).mp hf).2
    · split at hp
      · cases hp
      · cases hp
    · by_cases hm : .closed ∈
        (s.connection.middleService relay false (some n) hostShutdownThrows).2.1
      · rw [h.complete_closed hnotyet hset.conveys.conserves hm]
        exact and_congr_right fun _ => hkeeps.1 hm
      · exact h.iff_open hm (iff_of_true (fun hn => absurd hn hnotyet) (hkeeps.2 hm))
  | endService hpoint =>
    obtain ⟨hc, hleft, hclosed, hopen⟩ := endService_settles h.sound
    have hnotyet : .closed ∉ os := fun hm =>
      absurd (hpoint.symm.trans (h.idle_of_closed hm).2) (by decide)
    refine ⟨h.service hc (fun hm => ⟨(hclosed hm).1, rfl⟩) (fun _ => rfl) (fun hf => ?_)
      (fun hp => by cases hp), ?_⟩
    · by_cases hm : .closed ∈ s.connection.endService.2
      · exact .inr (.inl hm)
      · obtain ⟨hsame, hnone⟩ := hopen hm
        have hf := hsame.symm.trans hf
        refine (h.finished hf).imp_right fun he => ?_
        exact absurd ((hnone hf).2.symm.trans he.1) Bool.false_ne_true
    · by_cases hm : .closed ∈ s.connection.endService.2
      · rw [h.complete_closed hnotyet hc.conserves hm, hleft]
        exact and_congr_right fun _ => (hclosed hm).2
      · exact h.iff_open hm (iff_of_true (fun hn => absurd hn hnotyet)
          fun hf => ((hopen hm).2 hf).1)

/-! ## Runs -/

theorem relay_tracked {es : List RelayEvent} (hr : (relayMachine relay).Runs es s os)
    (hT : ∀ e ∈ es, e.TunnelHolds) : Tracked relay s os := by
  refine hr.trace_invariant (I := fun es s os => (∀ e ∈ es, e.TunnelHolds) → Tracked relay s os)
    ?_ ?_ hT
  · refine fun _ => ⟨sound_new relay, ?_, by simp, fun hf => ?_, fun hp => by cases hp⟩
    · cases relay <;> rfl
    · cases relay <;> cases hf
  · intro es s os e s' os' _ hI hs hT
    have h := hI fun e he => hT e (List.mem_append_left _ he)
    exact (tracked_step h (hT e (by simp)) hs).1

/-- **What a host sent before an error**: in runs whose tunnel does not fail, everything that the
reader thread ever queues has been accepted by the tunnel when the connection is closed, just if
every step meets `KeepsLeft`: whenever the connection ends because reading the host has failed or
because writing to it fails, nothing is under way any more. -/
theorem read_error_iff (relay : Relay) {es : List RelayEvent} {s : RelayState}
    {os : List RelayOutput} (hr : (relayMachine relay).Runs es s os)
    (hT : ∀ e ∈ es, e.TunnelHolds) :
    Complete (os.filterMap deliveries) ↔
      (relayMachine relay).Meets (fun s e => s.connection.KeepsLeft relay e) es := by
  refine hr.iff_meets_of (P := fun _ os => Complete (os.filterMap deliveries))
    (complete_of_not_mem (by simp)) ?_ hT
  intro es s os e s' os' hr hes he hs
  exact (tracked_step (relay_tracked hr hes) he hs).2

/-- The host sends an octet and fails after the tunnel has accepted it. -/
theorem read_error_iff_example :
    let es : List RelayEvent := [.hostRead [1], .beginService false none,
      .middleService false (some 8) false, .endService, .hostError "recv failed",
      .beginService false none, .middleService false (some 8) false]
    let os : List RelayOutput := [.hostRead [1], .toTunnel [1], .closed]
    ∃ s, (relayMachine .servedTcpPorts).Runs es s os ∧
      (relayMachine .servedTcpPorts).Meets (fun s e => s.connection.KeepsLeft .servedTcpPorts e)
        es := by
  intro es os
  obtain ⟨s, hr⟩ : ∃ s, (relayMachine .servedTcpPorts).Runs es s os := ⟨_, rfl⟩
  have hT : ∀ e ∈ es, e.TunnelHolds := by simp [es, RelayEvent.TunnelHolds]
  have hcomplete : Complete ([.push [1], .give [1]] ++ [(.sinkEnd : PipeAction UInt8)]) :=
    (complete_append_of_closing (List.append_nil _).symm (by simp) (.singleton rfl)
      (by simp)).mpr rfl
  exact ⟨s, hr, (read_error_iff .servedTcpPorts hr hT).mp hcomplete⟩

/-- A chunk is queued, then the error recorded, and then `service` looks: in all three classes the
connection is closed with nothing written to the tunnel, which would have accepted eight octets. -/
theorem read_error_loses :
    (∃ s, (relayMachine .servedTcpPorts).Runs [.hostRead [1, 2], .hostError "recv failed",
      .beginService false none, .middleService false (some 8) false] s
      [.hostRead [1, 2], .closed]) ∧
    (∃ s, (relayMachine .localTcpForwarder).Runs [.tunnelConnected, .hostRead [1, 2],
      .hostError "recv failed", .beginService false none, .middleService false (some 8) false] s
      [.hostRead [1, 2], .closed]) ∧
    (∃ s, (relayMachine .socksProxy).Runs [.tunnelConnected, .beginService false none,
      .hostRead [1, 2], .hostError "recv failed", .middleService false (some 8) false,
      .endService] s [.reply 0, .hostRead [1, 2], .closed]) ∧
    ¬ Complete ([.hostRead [1, 2], .closed].filterMap deliveries) ∧
    ¬ Complete ([.reply 0, .hostRead [1, 2], .closed].filterMap deliveries) := by
  have hlost : ¬ Complete [.push [1, 2], (.sinkEnd : PipeAction UInt8)] := by
    intro h
    have hall := h [.push [1, 2]] [] rfl
    exact absurd hall (by decide)
  exact ⟨⟨_, rfl⟩, ⟨_, rfl⟩, ⟨_, rfl⟩, hlost, hlost⟩

end Tailcat
