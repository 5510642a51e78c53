import Tailcat.Relay.Transparent

/-!
# Relays whose calls fail

A read of the host may fail, a write to either side, a shutdown, or the tunnel itself; `service`
then gives the connection up. Whatever fails and when, no relay ever hands on anything else than the
next octets that it has read: what one side has got is a prefix of what the other one has given.

## Main definitions

* `octetsToTunnel`, `octetsToHost`: the octets of a connection, without the ends of the streams
* `Follows`: what is under way in a connection that is not given up yet

## Main results

* `service_moves`: the parts of `service` hand on what is under way
* `relay_hands_on`: what either side gets is a prefix of what the other one gives
-/

namespace Tailcat

open Connection

/-- What goes through the pipe to the tunnel, without its ends. -/
def octetsToTunnel : RelayOutput → Option (PipeAction UInt8)
  | .hostRead chunk => some (.push chunk)
  | .toTunnel octets => some (.give octets)
  | _ => none

/-- What goes through the pipe to the host socket, without its ends. -/
def octetsToHost : RelayOutput → Option (PipeAction UInt8)
  | .tunnelReceived octets => some (.push octets)
  | .toHost octets => some (.give octets)
  | _ => none

/-- Two pipes hold what is under way in a connection until it is finished; then nothing is handed on
any more. -/
structure Follows (relay : Relay) (c : Connection) (p q : Pipe UInt8) : Prop where
  offset_le : c.pendingOffset ≤ c.pendingToTunnel.length
  toTunnel : c.finished = false →
    p.buffered = c.pendingToTunnel.drop c.pendingOffset ++ c.queue.chunks.flatten
  toHost : c.finished = false → q.buffered = c.tunnel.received
  unended : p.ended = false ∧ q.ended = false
  unread : relay = .socksProxy → c.replied = false → c.hostRead = none

/-- The outputs `os` hand on octets between `c` and `c'`. -/
def Moves (relay : Relay) (c : Connection) (os : List RelayOutput) (c' : Connection) : Prop :=
  ∀ p q, Follows relay c p q → ∃ p' q', p.steps (os.filterMap octetsToTunnel) = some p' ∧
    q.steps (os.filterMap octetsToHost) = some q' ∧ Follows relay c' p' q'

variable {relay : Relay} {c c' c'' : Connection} {os os' : List RelayOutput}

theorem Moves.refl : Moves relay c [] c := fun p q h => ⟨p, q, rfl, rfl, h⟩

theorem Moves.trans (h : Moves relay c os c') (h' : Moves relay c' os' c'') :
    Moves relay c (os ++ os') c'' := by
  intro p q hr
  obtain ⟨p₁, q₁, hp₁, hq₁, hr₁⟩ := h p q hr
  obtain ⟨p₂, q₂, hp₂, hq₂, hr₂⟩ := h' p₁ q₁ hr₁
  refine ⟨p₂, q₂, ?_, ?_, hr₂⟩
  · rw [List.filterMap_append, Pipe.steps_append, hp₁]
    exact hp₂
  · rw [List.filterMap_append, Pipe.steps_append, hq₁]
    exact hq₂

/-! ## The parts of `service` -/

/-- Outputs that are no octets, when what is under way stays what it is. -/
theorem Moves.silent (hs : os.filterMap octetsToTunnel = [] ∧ os.filterMap octetsToHost = [])
    (h : ∀ p q, Follows relay c p q → Follows relay c' p q) : Moves relay c os c' :=
  fun p q hf => ⟨p, q, by rw [hs.1]; rfl, by rw [hs.2]; rfl, h p q hf⟩

/-- A connection that is finished holds nothing back. -/
theorem follows_finish {p q : Pipe UInt8} (h : Follows relay c p q) :
    Follows relay { c with finished := true } p q :=
  { h with
    toTunnel := nofun
    toHost := nofun }

/-- Giving a connection up. -/
theorem Moves.stop (h : Moves relay c os c') : Moves relay c (c'.stop os).2.1 (c'.stop os).1 :=
  h.trans (.silent ⟨rfl, rfl⟩ fun _ _ => follows_finish)

/-- The end of the stream is sent apart from the octets. -/
theorem moves_tunnelShutdown (c : Connection) :
    Moves relay c [.tunnelShutdown] { c with tunnelWriteShutdown := true } :=
  .silent ⟨rfl, rfl⟩ fun _ _ h => { h with }

theorem Moves.andThen {p : Part} {f : Connection → Part} (h : Moves relay c p.2.1 p.1)
    (h' : Moves relay p.1 (f p.1).2.1 (f p.1).1) :
    Moves relay c (p.andThen f).2.1 (p.andThen f).1 := by
  unfold Part.andThen
  split
  · exact h
  · exact h.trans h'

theorem replyOnce_moves (throws : Bool) :
    Moves relay c (c.replyOnce relay throws).2.1 (c.replyOnce relay throws).1 := by
  unfold replyOnce
  split
  · rename_i hreply
    split
    · have hsent : Moves relay c [.reply 0x00] c := .silent ⟨rfl, rfl⟩ fun _ _ => id
      exact hsent.stop
    · refine .silent ⟨rfl, rfl⟩ fun p q h => ?_
      have hqueue := queue_of_none (h.unread hreply.1 (Bool.not_eq_true _ ▸ hreply.2))
      exact { h with
        toTunnel := fun hf => by rw [h.toTunnel hf, hqueue]; rfl
        unread := fun _ hr => nomatch hr }
  · exact .refl

/-- What the tunnel received is handed on to the host, or a part of it when writing throws. -/
theorem writeReceived_moves (written : Option ℕ) (hopen : c.finished = false) :
    Moves relay c (c.writeReceived written).2.1 (c.writeReceived written).1 := by
  unfold writeReceived
  dsimp only
  split
  · rename_i hnone
    exact .silent ⟨rfl, rfl⟩ fun p q h => { h with toHost := fun hf => (h.toHost hf).trans hnone }
  · cases written with
    | none =>
      intro p q h
      have hall : q.buffered = c.tunnel.received ++ [] :=
        (h.toHost hopen).trans (List.append_nil _).symm
      obtain ⟨q', hs, hb, he, -⟩ := Pipe.step_give hall
      refine ⟨p, q', rfl, (Pipe.steps_singleton q _).trans hs, ?_⟩
      exact { h with
        toHost := fun _ => hb
        unended := ⟨h.unended.1, he.trans h.unended.2⟩ }
    | some k =>
      intro p q h
      obtain ⟨q', hs, -, he, -⟩ := Pipe.step_give
        ((h.toHost hopen).trans (List.take_append_drop k c.tunnel.received).symm)
      refine ⟨p, q', rfl, (Pipe.steps_singleton q _).trans hs, ?_⟩
      exact { h with
        toTunnel := nofun
        toHost := nofun
        unended := ⟨h.unended.1, he.trans h.unended.2⟩ }

theorem follows_take {p q : Pipe UInt8} (h : Follows relay c p q) {hostRead : HostReadState}
    (hread : c.hostRead = some hostRead) (hall : c.pendingOffset = c.pendingToTunnel.length) :
    Follows relay { c with
      pendingToTunnel := hostRead.chunks.headD []
      pendingOffset := 0
      hostRead := some { hostRead with chunks := hostRead.chunks.tail } } p q :=
  { h with
    offset_le := Nat.zero_le _
    toTunnel := fun hf => by
      have hb := h.toTunnel hf
      rw [hall, List.drop_length, List.nil_append, queue_of_some hread] at hb
      exact hb.trans (flatten_eq_headD_append hostRead.chunks)
    unread := fun hr hn => absurd (hread.symm.trans (h.unread hr hn)) (by simp) }

theorem takeHostChunk_moves (shutdownThrows : Bool) :
    Moves relay c (c.takeHostChunk relay shutdownThrows).2.1
      (c.takeHostChunk relay shutdownThrows).1 := by
  unfold takeHostChunk
  cases hread : c.hostRead with
  | none => exact .refl
  | some hostRead =>
    dsimp only
    split
    · exact .refl
    rename_i hall
    have htake : Moves relay c [] { c with
        pendingToTunnel := hostRead.chunks.headD []
        pendingOffset := 0
        hostRead := some { hostRead with chunks := hostRead.chunks.tail } } :=
      .silent ⟨rfl, rfl⟩ fun p q h => follows_take h hread (not_not.mp hall)
    split
    · split
      · exact htake.stop
      · exact htake.stop
    split
    · split
      · exact htake.stop
      · exact htake.trans (moves_tunnelShutdown _)
    · exact htake

theorem writePending_moves (accepts : Option ℕ) :
    Moves relay c (c.writePending accepts).2.1 (c.writePending accepts).1 := by
  unfold writePending
  split
  · rename_i hpending
    cases accepts with
    | none => exact Moves.refl.stop
    | some n =>
      intro p q h
      obtain ⟨p', hs, hb, he, -⟩ :=
        Pipe.step_take (h.toTunnel (Bool.not_eq_true _ ▸ hpending.1)) n
      refine ⟨p', q, (Pipe.steps_singleton p _).trans hs, rfl, ?_⟩
      exact { h with
        offset_le := add_length_accepted_le h.offset_le n
        toTunnel := fun _ => by rw [hb, List.drop_drop]; rfl
        unended := ⟨he.trans h.unended.1, h.unended.2⟩ }
  · exact .refl

theorem shutdownHost_moves (throws : Bool) :
    Moves relay c (c.shutdownHost throws).2.1 (c.shutdownHost throws).1 := by
  unfold shutdownHost
  split
  · split
    · exact Moves.refl.stop
    · exact .silent ⟨rfl, rfl⟩ fun p q h => { h with }
  · exact .refl

/-- `service` up to the first lock. -/
theorem beginService_moves (replyThrows : Bool) (written : Option ℕ) :
    Moves relay c (c.beginService relay replyThrows written).2.1
      (c.beginService relay replyThrows written).1 := by
  unfold beginService
  split
  · exact .refl
  rename_i hopen
  split
  · apply Moves.stop
    split
    · exact .silent ⟨rfl, rfl⟩ fun _ _ => id
    · exact .refl
  split
  · split <;> exact .refl
  · -- What the tunnel received is written when the proxy has answered, or has no need to.
    have hreplied : (c.replyOnce relay replyThrows).2.2 = true ∨
        (c.replyOnce relay replyThrows).1.finished = false := by
      unfold replyOnce
      split
      · split
        · exact .inl rfl
        · exact .inr (Bool.not_eq_true _ ▸ hopen)
      · exact .inr (Bool.not_eq_true _ ▸ hopen)
    show Moves relay c ((c.replyOnce relay replyThrows).andThen (writeReceived written)).2.1
      ((c.replyOnce relay replyThrows).andThen (writeReceived written)).1
    rcases hreplied with hstop | hgo
    · unfold Part.andThen
      rw [if_pos hstop]
      exact replyOnce_moves replyThrows
    · exact (replyOnce_moves replyThrows).andThen (writeReceived_moves written hgo)

/-- `service` from the first lock to the second one. -/
theorem middleService_moves (shutdownThrows : Bool) (accepts : Option ℕ)
    (hostShutdownThrows : Bool) :
    Moves relay c (c.middleService relay shutdownThrows accepts hostShutdownThrows).2.1
      (c.middleService relay shutdownThrows accepts hostShutdownThrows).1 :=
  ((takeHostChunk_moves shutdownThrows).andThen (writePending_moves accepts)).andThen
    (shutdownHost_moves hostShutdownThrows)

/-- `service` from the second lock on. -/
theorem endService_moves : Moves relay c c.endService.2 c.endService.1 := by
  unfold endService
  split
  · exact .refl
  · split
    · exact .silent ⟨rfl, rfl⟩ fun _ _ => follows_finish
    · exact .refl

/-! ## Steps -/

/-- **A step of a connection** hands on what is under way, whatever fails. -/
theorem relay_moves {s s' : RelayState} {e : RelayEvent}
    (hs : (relayMachine relay).step s e = some (s', os)) :
    Moves relay s.connection os s'.connection := by
  cases relayMachine_step hs with
  | hostRead hne hread heof =>
    intro p q h
    obtain ⟨p', hp, hb, he, -⟩ := Pipe.step_push h.unended.1 _
    refine ⟨p', q, (Pipe.steps_singleton p _).trans hp, rfl, ?_⟩
    exact { h with
      toTunnel := fun hf => by
        rw [hb, h.toTunnel hf, queue_of_some hread, List.append_assoc]
        simp [queue]
      unended := ⟨he.trans h.unended.1, h.unended.2⟩
      unread := fun hr hn => absurd (hread.symm.trans (h.unread hr hn)) (by simp) }
  | hostEof hread heof =>
    refine .silent ⟨rfl, rfl⟩ fun p q h => { h with
      toTunnel := fun hf => ?_
      unread := fun hr hn => absurd (hread.symm.trans (h.unread hr hn)) (by simp) }
    rw [h.toTunnel hf, queue_of_some hread]
    rfl
  | hostError hread heof =>
    refine .silent ⟨rfl, rfl⟩ fun p q h => { h with
      toTunnel := fun hf => ?_
      unread := fun hr hn => absurd (hread.symm.trans (h.unread hr hn)) (by simp) }
    rw [h.toTunnel hf, queue_of_some hread]
    rfl
  | tunnelConnected hidle => exact .silent ⟨rfl, rfl⟩ fun p q h => { h with }
  | tunnelReceive hidle hconnected heof =>
    intro p q h
    obtain ⟨q', hq, hb, he, -⟩ := Pipe.step_push h.unended.2 _
    refine ⟨p, q', rfl, (Pipe.steps_singleton q _).trans hq, ?_⟩
    exact { h with
      toHost := fun hf => hb.trans (congrArg (· ++ _) (h.toHost hf))
      unended := ⟨h.unended.1, he.trans h.unended.2⟩ }
  | tunnelFin hidle hconnected heof => exact .silent ⟨rfl, rfl⟩ fun p q h => { h with }
  | tunnelFail hidle => exact .silent ⟨rfl, rfl⟩ fun p q h => { h with }
  | beginService hidle => exact beginService_moves _ _
  | middleService htaking => exact middleService_moves _ _ _
  | endService hchecking => exact endService_moves

/-! ## Runs -/

theorem follows_new (relay : Relay) : Follows relay (.new relay) .empty .empty := by
  cases relay <;> constructor <;> simp [Connection.new, Connection.queue, Pipe.empty]

/-- The pipes behind a run in which anything may fail. -/
theorem relay_follows {es : List RelayEvent} {s : RelayState}
    (hr : (relayMachine relay).Runs es s os) :
    ∃ p q, Pipe.empty.steps (os.filterMap octetsToTunnel) = some p ∧
      Pipe.empty.steps (os.filterMap octetsToHost) = some q ∧ Follows relay s.connection p q := by
  refine hr.trace_invariant (I := fun _ s os => ∃ p q,
    Pipe.empty.steps (os.filterMap octetsToTunnel) = some p ∧
      Pipe.empty.steps (os.filterMap octetsToHost) = some q ∧ Follows relay s.connection p q) ?_ ?_
  · exact ⟨.empty, .empty, rfl, rfl, follows_new relay⟩
  · rintro es s os e s' os' - ⟨p, q, hp, hq, h⟩ hs
    obtain ⟨p', q', hp', hq', h'⟩ := relay_moves hs p q h
    refine ⟨p', q', ?_, ?_, h'⟩
    · rw [List.filterMap_append, Pipe.steps_append, hp]
      exact hp'
    · rw [List.filterMap_append, Pipe.steps_append, hq]
      exact hq'

/-- The octets of a connection are those that its pipes move. -/
theorem octets_eq (os : List RelayOutput) :
    (pushed (os.filterMap octetsToTunnel) = pushed (os.filterMap hostToTunnel) ∧
      given (os.filterMap octetsToTunnel) = given (os.filterMap hostToTunnel)) ∧
    pushed (os.filterMap octetsToHost) = pushed (os.filterMap tunnelToHost) ∧
      given (os.filterMap octetsToHost) = given (os.filterMap tunnelToHost) := by
  refine ⟨⟨?_, ?_⟩, ?_, ?_⟩
  · exact pushed_filterMap_congr fun o => by cases o <;> rfl
  · exact given_filterMap_congr fun o => by cases o <;> rfl
  · exact pushed_filterMap_congr fun o => by cases o <;> rfl
  · exact given_filterMap_congr fun o => by cases o <;> rfl

/-- **Nothing is garbled**, whatever fails in a run of a connection: what the tunnel has accepted is
a prefix of what was read from the host, and what was written to the host is a prefix of what the
tunnel has received. -/
theorem relay_hands_on (relay : Relay) {es : List RelayEvent} {s : RelayState}
    {os : List RelayOutput} (hr : (relayMachine relay).Runs es s os) :
    given (os.filterMap hostToTunnel) <+: pushed (os.filterMap hostToTunnel) ∧
      given (os.filterMap tunnelToHost) <+: pushed (os.filterMap tunnelToHost) := by
  obtain ⟨p, q, hp, hq, -⟩ := relay_follows hr
  obtain ⟨⟨hpushed, hgiven⟩, hpushed', hgiven'⟩ := octets_eq os
  rw [← hpushed, ← hgiven, ← hpushed', ← hgiven']
  exact ⟨Transparent.given_prefix ⟨p, hp⟩, Transparent.given_prefix ⟨q, hq⟩⟩

end Tailcat
