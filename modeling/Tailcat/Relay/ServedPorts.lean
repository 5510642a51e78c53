import Mathlib.Data.List.Sort
import Tailcat.Base.Exceptions
import Tailcat.Relay.Forward
import Tailcat.Relay.Table

/-!
# Served ports

`ServedTcpPorts` listens at ports of the tunnel. The IP stack accepts streams and queues them at
their listeners, where they may receive octets already. `poll` connects a host socket for each of
them, and then relays between the two.

## Main definitions

* `ServedTcpPorts`: the listeners with their queues, and the connections
* `ServedTcpPorts.new`: the constructor
* `servedPortsMachine`: served ports, with the IP stack, the readers and the calls of `poll`

## Main results

* `servedPortsMachine_step`: what a step can do
* `served_order`: streams are connected in turn
* `served_iff`: which mappings the constructor accepts, and what it serves then
* `served_relays`: each stream has a connection of its own, which runs as if it was alone, to the
  host port of its mapping
-/

namespace Tailcat

/-- A port of the tunnel, and the port of the server's host that it stands for. -/
structure ServedTcpMapping where
  tailcatPort : UInt16
  hostPort : UInt16
  deriving DecidableEq

/-- `std::sort` by the ports of the tunnel. It does not say how mappings of one port are ordered. -/
structure MappingSort where
  sort : List ServedTcpMapping → List ServedTcpMapping
  perm : ∀ mappings, (sort mappings).Perm mappings
  sorted : ∀ mappings, (sort mappings).Pairwise fun a b => a.tailcatPort ≤ b.tailcatPort

instance : Std.Total fun a b : ServedTcpMapping => a.tailcatPort ≤ b.tailcatPort :=
  ⟨fun a b => UInt16.le_total a.tailcatPort b.tailcatPort⟩

instance : IsTrans ServedTcpMapping fun a b => a.tailcatPort ≤ b.tailcatPort :=
  ⟨fun _ _ _ hab hbc => UInt16.le_trans hab hbc⟩

/-- A sort that leaves mappings of one port in their order. -/
def MappingSort.stable : MappingSort where
  sort := List.insertionSort fun a b => a.tailcatPort ≤ b.tailcatPort
  perm := List.perm_insertionSort _
  sorted := List.pairwise_insertionSort _

/-- A listener, with the streams that the IP stack has accepted. The relay of a stream has not
started, but the stream moves. -/
structure ServedListener (K : Type) where
  mapping : ServedTcpMapping
  accepted : List (K × RelayState) := []
  deriving DecidableEq

/-- Ports that are served, to streams that are told apart by `K`. -/
structure ServedTcpPorts (K : Type) extends Relaying K ℕ where
  listeners : List (ServedListener K)
  /-- The streams that there were so far. -/
  seen : List K := []
  deriving DecidableEq

/-- What happens at the ports. A stream is closed when no host socket can be connected. -/
inductive ServedOutput (K : Type)
  | arrived (listener : ℕ) (stream : K) (port : UInt16)
  | connected (listener : ℕ) (stream : K) (hostPort : UInt16)
  | closed (listener : ℕ) (stream : K)
  | connection (stream : K) (o : RelayOutput)
  deriving DecidableEq

/-- What the IP stack does, what `poll` does, and what happens at a stream. -/
inductive ServedEvent (K : Type)
  | arrive (listener : ℕ) (stream : K)
  | poll
  | next
  | connect (throws : Bool)
  | connection (stream : K) (e : RelayEvent)
  | erase

namespace ServedTcpPorts

variable {K : Type}

/-- The mappings of the constructor, after that of the port `previous`. -/
def openListeners (listen : UInt16 → Except Exn Unit) :
    Option UInt16 → List ServedTcpMapping → Except Exn (List (ServedListener K))
  | _, [] => .ok []
  | previous, m :: mappings =>
    if m.tailcatPort = 0 ∨ m.hostPort = 0 then
      .error (.invalidArgument "cannot serve TCP port zero")
    else if previous = some m.tailcatPort then
      .error (.invalidArgument "duplicate served Tailcat TCP port")
    else do
      listen m.tailcatPort
      let listeners ← openListeners listen (some m.tailcatPort) mappings
      return { mapping := m } :: listeners

/-- Listeners for the ports, with what listening at each of them gives. -/
def new (S : MappingSort) (listen : UInt16 → Except Exn Unit) (mappings : List ServedTcpMapping) :
    Except Exn (ServedTcpPorts K) :=
  if mappings.isEmpty then
    .error (.invalidArgument "serve requires at least one TCP port")
  else do
    let listeners ← openListeners listen none (S.sort mappings)
    return { listeners }

/-- `mappings` and `ports`. -/
def mappings (s : ServedTcpPorts K) : List ServedTcpMapping :=
  s.listeners.map ServedListener.mapping

/-- The ports of the tunnel, in the order of the listeners. -/
def ports (s : ServedTcpPorts K) : List UInt16 := s.mappings.map ServedTcpMapping.tailcatPort

variable [DecidableEq K]

/-- The IP stack accepts a stream at a listener. -/
def arrive (s : ServedTcpPorts K) (listener : ℕ) (stream : K) :
    Option (ServedTcpPorts K × List (ServedOutput K)) :=
  match s.listeners[listener]? with
  | none => none
  | some l =>
    if s.phase = .outside ∧ stream ∉ s.seen then
      let accepted := l.accepted ++ [(stream, (relayMachine .servedTcpPorts).init)]
      some ({ s with
        listeners := s.listeners.set listener { l with accepted }
        seen := stream :: s.seen }, [.arrived listener stream l.mapping.tailcatPort])
    else
      none

/-- `accept_new` goes on when the queue of a listener is empty. -/
def next (s : ServedTcpPorts K) : Option (ServedTcpPorts K × List (ServedOutput K)) :=
  match s.phase with
  | .accepting listener =>
    match s.listeners[listener]? with
    | none => some ({ s with phase := .servicing 0 }, [])
    | some l =>
      if l.accepted.isEmpty then some ({ s with phase := .accepting (listener + 1) }, []) else none
  | _ => none

/-- `accept_new` connects a host socket for the next stream. -/
def connect (s : ServedTcpPorts K) (throws : Bool) :
    Option (ServedTcpPorts K × List (ServedOutput K)) :=
  match s.phase with
  | .accepting listener =>
    match s.listeners[listener]? with
    | none => none
    | some l =>
      match l.accepted with
      | [] => none
      | (stream, r) :: accepted =>
        let s := { s with listeners := s.listeners.set listener { l with accepted } }
        if throws then
          some (s, [.closed listener stream])
        else
          some ({ s with connections := s.connections ++ [(stream, r)] },
            [.connected listener stream l.mapping.hostPort])
  | _ => none

/-- The streams in the queues. -/
def queued (s : ServedTcpPorts K) : List (K × RelayState) :=
  s.listeners.flatMap ServedListener.accepted

/-- A stream moves in its queue. -/
def queueStep (s : ServedTcpPorts K) (stream : K) (e : RelayEvent) :
    Option (ServedTcpPorts K × List RelayOutput) :=
  if e.party = .tunnel ∧ s.phase = .outside then
    (s.queued.lookup stream).bind fun r =>
      ((relayMachine .servedTcpPorts).step r e).map fun (r', os) =>
        ({ s with listeners := s.listeners.map fun l =>
            { l with accepted := Relaying.put stream r' l.accepted } }, os)
  else
    none

end ServedTcpPorts

/-- Served ports, from the state that the constructor has left. -/
def servedPortsMachine {K : Type} [DecidableEq K] (p : ServedTcpPorts K) :
    Machine (ServedTcpPorts K) (ServedEvent K) (ServedOutput K) where
  init := p
  step s
    | .arrive listener stream => s.arrive listener stream
    | .poll => if s.phase = .outside then some ({ s with phase := .accepting 0 }, []) else none
    | .next => s.next
    | .connect throws => s.connect throws
    | .connection stream e =>
      if (s.connections.lookup stream).isSome then
        (s.connectionStep .servedTcpPorts stream e).map fun (r, os) =>
          ({ s with toRelaying := r }, os.map (.connection stream))
      else
        (s.queueStep stream e).map fun (s, os) => (s, os.map (.connection stream))
    | .erase => s.toRelaying.erase.map fun r => ({ s with toRelaying := r }, [])

/-! ## What a step can do -/

section Steps

variable {K : Type} [DecidableEq K]

/-- What a step of served ports can do, and when. -/
inductive ServedStep (s : ServedTcpPorts K) :
    ServedEvent K → ServedTcpPorts K → List (ServedOutput K) → Prop
  | arrive {before after : List (ServedListener K)} {l : ServedListener K} {stream : K}
      (hl : s.listeners = before ++ l :: after) (hphase : s.phase = .outside)
      (hnew : stream ∉ s.seen) :
    ServedStep s (.arrive before.length stream)
      { s with
        listeners := before ++ { l with
          accepted := l.accepted ++ [(stream, (relayMachine .servedTcpPorts).init)] } :: after
        seen := stream :: s.seen } [.arrived before.length stream l.mapping.tailcatPort]
  | poll (hphase : s.phase = .outside) :
    ServedStep s .poll { s with phase := .accepting 0 } []
  | serve {listener : ℕ} (hphase : s.phase = .accepting listener) :
    ServedStep s .next { s with phase := .servicing 0 } []
  | next {listener : ℕ} (hphase : s.phase = .accepting listener) :
    ServedStep s .next { s with phase := .accepting (listener + 1) } []
  | refuse {before after : List (ServedListener K)} {l : ServedListener K} {stream : K}
      {r : RelayState} {accepted : List (K × RelayState)} (hl : s.listeners = before ++ l :: after)
      (hphase : s.phase = .accepting before.length)
      (hqueue : l.accepted = (stream, r) :: accepted) :
    ServedStep s (.connect true)
      { s with listeners := before ++ { l with accepted } :: after }
      [.closed before.length stream]
  | connect {before after : List (ServedListener K)} {l : ServedListener K} {stream : K}
      {r : RelayState} {accepted : List (K × RelayState)} (hl : s.listeners = before ++ l :: after)
      (hphase : s.phase = .accepting before.length)
      (hqueue : l.accepted = (stream, r) :: accepted) :
    ServedStep s (.connect false)
      { s with
        listeners := before ++ { l with accepted } :: after
        connections := s.connections ++ [(stream, r)] }
      [.connected before.length stream l.mapping.hostPort]
  | connection {stream : K} {e : RelayEvent} {r : Relaying K ℕ} {os : List RelayOutput}
      (hs : s.connectionStep .servedTcpPorts stream e = some (r, os)) :
    ServedStep s (.connection stream e) { s with toRelaying := r } (os.map (.connection stream))
  | queued {stream : K} {e : RelayEvent} {r r' : RelayState} {os : List RelayOutput}
      (hr : s.queued.lookup stream = some r)
      (hs : (relayMachine .servedTcpPorts).step r e = some (r', os)) :
    ServedStep s (.connection stream e)
      { s with listeners := s.listeners.map fun l =>
          { l with accepted := Relaying.put stream r' l.accepted } } (os.map (.connection stream))
  | erase {r : Relaying K ℕ} (hs : s.toRelaying.erase = some r) :
    ServedStep s .erase { s with toRelaying := r } []

theorem servedPortsMachine_step {p s s' : ServedTcpPorts K} {e : ServedEvent K}
    {os : List (ServedOutput K)}
    (hs : (servedPortsMachine p).step s e = some (s', os)) : ServedStep s e s' os := by
  cases e with
  | arrive listener stream =>
    dsimp only [servedPortsMachine, ServedTcpPorts.arrive] at hs
    split at hs
    · cases hs
    rename_i l hl
    split at hs
    · rename_i hnew
      obtain ⟨rfl, rfl⟩ := Prod.mk.inj (Option.some.inj hs)
      obtain ⟨before, after, hsplit, rfl, hset⟩ := exists_split_of_getElem? hl
      rw [hset]
      exact .arrive hsplit hnew.1 hnew.2
    · cases hs
  | poll =>
    dsimp only [servedPortsMachine] at hs
    split at hs
    · rename_i hphase
      obtain ⟨rfl, rfl⟩ := Prod.mk.inj (Option.some.inj hs)
      exact .poll hphase
    · cases hs
  | next =>
    dsimp only [servedPortsMachine, ServedTcpPorts.next] at hs
    split at hs
    · rename_i listener hphase
      split at hs
      · obtain ⟨rfl, rfl⟩ := Prod.mk.inj (Option.some.inj hs)
        exact .serve hphase
      split at hs
      · obtain ⟨rfl, rfl⟩ := Prod.mk.inj (Option.some.inj hs)
        exact .next hphase
      · cases hs
    · cases hs
  | connect throws =>
    dsimp only [servedPortsMachine, ServedTcpPorts.connect] at hs
    split at hs
    · rename_i listener hphase
      split at hs
      · cases hs
      rename_i l hl
      split at hs
      · cases hs
      rename_i stream r accepted hqueue
      obtain ⟨before, after, hsplit, rfl, hset⟩ := exists_split_of_getElem? hl
      cases throws <;> obtain ⟨rfl, rfl⟩ := Prod.mk.inj (Option.some.inj hs) <;> rw [hset]
      · exact .connect hsplit hphase hqueue
      · exact .refuse hsplit hphase hqueue
    · cases hs
  | connection stream e =>
    dsimp only [servedPortsMachine] at hs
    split at hs
    · obtain ⟨⟨r, os'⟩, hr, h⟩ := Option.map_eq_some_iff.mp hs
      obtain ⟨rfl, rfl⟩ := Prod.mk.inj h
      exact .connection hr
    · obtain ⟨⟨t, os'⟩, ht, h⟩ := Option.map_eq_some_iff.mp hs
      obtain ⟨rfl, rfl⟩ := Prod.mk.inj h
      unfold ServedTcpPorts.queueStep at ht
      split at ht
      · obtain ⟨r, hr, h⟩ := Option.bind_eq_some_iff.mp ht
        obtain ⟨⟨r', os'⟩, hstep, h⟩ := Option.map_eq_some_iff.mp h
        obtain ⟨rfl, rfl⟩ := Prod.mk.inj h
        exact .queued hr hstep
      · cases ht
  | erase =>
    obtain ⟨r, hr, h⟩ := Option.map_eq_some_iff.mp hs
    obtain ⟨rfl, rfl⟩ := Prod.mk.inj h
    exact .erase hr

end Steps

/-! ## The connections -/

section Connections

variable {K : Type} [DecidableEq K] {p s s' : ServedTcpPorts K} {e : ServedEvent K}
  {es : List (ServedEvent K)} {os : List (ServedOutput K)}

/-- The members of served ports are the streams in the queues and the connections. -/
def ServedTcpPorts.roster (s : ServedTcpPorts K) : Roster K RelayState where
  members := s.queued ++ s.connections
  unborn := {k | k ∉ s.seen}

/-- What happens at a stream. -/
def ServedOutput.relayOutput : ServedOutput K → Option (K × RelayOutput)
  | .connection stream o => some (stream, o)
  | _ => none

/-- What an event is to the stream that it happens at. -/
def ServedEvent.relayEvent : ServedEvent K → Option (K × RelayEvent)
  | .connection stream e => some (stream, e)
  | _ => none

omit [DecidableEq K] in
/-- What a listener holds is queued. -/
theorem queued_split {before after : List (ServedListener K)} {l : ServedListener K}
    (hl : s.listeners = before ++ l :: after) :
    s.queued.Perm (l.accepted ++ (before.flatMap ServedListener.accepted ++
      after.flatMap ServedListener.accepted)) := by
  unfold ServedTcpPorts.queued
  rw [hl]
  exact flatMap_split _ before after l

omit [DecidableEq K] in
/-- A stream comes into a queue. -/
theorem queued_put {before after : List (ServedListener K)} {l : ServedListener K}
    (hl : s.listeners = before ++ l :: after) (a : K × RelayState) :
    ((before ++ { l with accepted := l.accepted ++ [a] } :: after).flatMap
      ServedListener.accepted).Perm (a :: s.queued) := by
  refine (flatMap_split _ before after _).trans (List.Perm.trans ?_ ((queued_split hl).symm.cons a))
  rw [List.append_assoc]
  exact List.perm_middle

omit [DecidableEq K] in
/-- The first stream of a queue leaves it. -/
theorem queued_take {before after : List (ServedListener K)} {l : ServedListener K}
    {a : K × RelayState} {accepted : List (K × RelayState)}
    (hl : s.listeners = before ++ l :: after) (hqueue : l.accepted = a :: accepted) :
    s.queued.Perm
      (a :: (before ++ { l with accepted } :: after).flatMap ServedListener.accepted) := by
  refine (queued_split hl).trans (List.Perm.trans ?_ ((flatMap_split _ before after _).symm.cons a))
  rw [hqueue]
  rfl

/-- Who leaves is finished, or was closed without a host. -/
def Dropped (os : List (ServedOutput K)) (k : K) (r : RelayState) : Prop :=
  r.connection.finished = true ∨ ∃ i, .closed i k ∈ os

theorem ServedStep.roster (h : ServedStep s e s' os) (hwf : s.roster.WellFormed) :
    Roster.Step (relayMachine .servedTcpPorts) (Dropped os) s.roster e.relayEvent s'.roster
      (os.filterMap ServedOutput.relayOutput) := by
  have hrelay (stream : K) (ps : List RelayOutput) :
      (ps.map (ServedOutput.connection stream)).filterMap ServedOutput.relayOutput =
        ps.map (Prod.mk stream) := by
    rw [List.filterMap_map]
    exact congrFun List.filterMap_eq_map ps
  have hnodup : ((s.queued ++ s.connections).map Prod.fst).Nodup := hwf.nodup
  rw [List.map_append] at hnodup
  cases h with
  | @arrive before after l stream hl hphase hnew =>
    refine .join (k := stream) hnew ?_ ?_
    · exact (queued_put hl _).append_right _
    · ext k
      simp [ServedTcpPorts.roster, and_comm]
  | @refuse before after l stream r accepted hl hphase hqueue =>
    have hmembers : s.roster.members.Perm ([(stream, r)] ++ (_ ++ s.connections)) :=
      (queued_take hl hqueue).append_right _
    refine .leave hmembers rfl fun k t hk => ?_
    obtain ⟨rfl, rfl⟩ := Prod.mk.inj (List.mem_singleton.mp hk)
    exact .inr ⟨_, List.mem_singleton_self _⟩
  | @connect before after l stream r accepted hl hphase hqueue =>
    refine .rest (List.Perm.trans ?_ ((queued_take hl hqueue).symm.append_right _)) rfl
    exact (List.perm_append_singleton _ _).append_left _ |>.trans List.perm_middle
  | @connection stream e t ps hr =>
    obtain ⟨r₁, r₂, hlookup, hstep, hput, -⟩ := Relaying.connectionStep_eq_some hr
    obtain ⟨others, hbefore, hafter⟩ := Relaying.put_perm r₂ hnodup.of_append_right hlookup
    rw [hrelay]
    have hmembers : s.roster.members.Perm ((stream, r₁) :: (s.queued ++ others)) :=
      (hbefore.append_left _).trans List.perm_middle
    exact .move hstep hmembers
      ((((List.Perm.of_eq hput).trans hafter).append_left _).trans List.perm_middle) rfl
  | @queued stream e r r' ps hr hstep =>
    obtain ⟨others, hbefore, hafter⟩ := Relaying.put_perm r' hnodup.of_append_left hr
    have hput : (s.listeners.map fun l =>
        { l with accepted := Relaying.put stream r' l.accepted }).flatMap ServedListener.accepted =
          Relaying.put stream r' s.queued := by
      unfold ServedTcpPorts.queued Relaying.put
      rw [List.flatMap_map, List.map_flatMap]
    rw [hrelay]
    have hmembers : s.roster.members.Perm ((stream, r) :: (others ++ s.connections)) :=
      hbefore.append_right _
    exact .move hstep hmembers (((List.Perm.of_eq hput).trans hafter).append_right _) rfl
  | erase hr =>
    obtain ⟨-, -, gone, hmembers, hfinished, -⟩ := Relaying.erase_eq_some hr
    have hall : s.roster.members.Perm (gone ++ (s.queued ++ _)) :=
      (hmembers.append_left _).trans (List.perm_append_comm_assoc _ _ _)
    exact .leave hall rfl fun k r hk => .inl (hfinished _ hk)
  | _ => exact .rest (List.Perm.refl _) rfl

/-! ## The order of the streams -/

/-- The streams that a listener has accepted, and those that were connected or closed. -/
def arrivedAt (listener : ℕ) : ServedOutput K → Option K
  | .arrived other stream _ => if other = listener then some stream else none
  | _ => none

/-- The stream of this listener that an output takes off its queue. -/
def servedAt (listener : ℕ) : ServedOutput K → Option K
  | .connected other stream _ => if other = listener then some stream else none
  | .closed other stream => if other = listener then some stream else none
  | _ => none

namespace ServedOutput

/-- The stream that the IP stack has accepted. -/
def arrivedStream : ServedOutput K → Option K
  | .arrived _ stream _ => some stream
  | _ => none

/-- The stream that an output takes off a queue. -/
def servedStream : ServedOutput K → Option K
  | .connected _ stream _ => some stream
  | .closed _ stream => some stream
  | _ => none

end ServedOutput

open ServedOutput

namespace ServedTcpPorts

/-- The streams in the queues, and in the queue of a listener. -/
def waiting (s : ServedTcpPorts K) : List K := s.queued.map Prod.fst

/-- The streams that wait at a listener. -/
def pendingAt (s : ServedTcpPorts K) (listener : ℕ) : List K :=
  queueAt (fun l => l.accepted.map Prod.fst) s.listeners listener

end ServedTcpPorts

omit [DecidableEq K] in
/-- What is said of a stream is nothing about its place in the queue. -/
theorem filterMap_connection {g : ServedOutput K → Option K}
    (hg : ∀ stream o, g (.connection stream o) = none) (stream : K) (ps : List RelayOutput) :
    (ps.map (ServedOutput.connection stream)).filterMap g = [] := by
  rw [List.filterMap_map]
  exact List.filterMap_eq_nil_iff.mpr fun o _ => hg stream o

/-- Streams are handed on from where they wait, the first ones first. -/
theorem ServedStep.order (h : ServedStep s e s' os) (i : ℕ) :
    s.pendingAt i ++ os.filterMap (arrivedAt i) =
      os.filterMap (servedAt i) ++ s'.pendingAt i := by
  unfold ServedTcpPorts.pendingAt
  cases h with
  | @arrive before after l stream hl hphase hnew =>
    rw [queueAt_split _ before after l, hl]
    by_cases hi : before.length = i
    · subst hi
      simp [arrivedAt, servedAt, queueAt_length]
    · simp [arrivedAt, servedAt, hi]
  | @refuse before after l stream r accepted hl hphase hqueue =>
    rw [queueAt_split _ before after l, hl]
    by_cases hi : before.length = i
    · subst hi
      simp [arrivedAt, servedAt, queueAt_length, hqueue]
    · simp [arrivedAt, servedAt, hi]
  | @connect before after l stream r accepted hl hphase hqueue =>
    rw [queueAt_split _ before after l, hl]
    by_cases hi : before.length = i
    · subst hi
      simp [arrivedAt, servedAt, queueAt_length, hqueue]
    · simp [arrivedAt, servedAt, hi]
  | connection hs =>
    rw [filterMap_connection (fun _ _ => rfl), filterMap_connection (fun _ _ => rfl),
      List.append_nil]
    rfl
  | @queued stream e r r' ps hr hs =>
    rw [filterMap_connection (fun _ _ => rfl), filterMap_connection (fun _ _ => rfl),
      List.append_nil]
    unfold queueAt
    rw [List.getElem?_map, Option.map_map]
    simp only [Function.comp_def, Relaying.map_fst_put]
    rfl
  | _ => exact List.append_nil _

/-- The streams that wait and the new ones are handled or wait. -/
theorem ServedStep.handsOn (h : ServedStep s e s' os) :
    Machine.HandsOn s.waiting s'.waiting s.seen s'.seen (os.filterMap arrivedStream)
      (os.filterMap servedStream) := by
  have hsame (hwaiting : s'.waiting = s.waiting) (hseen : s'.seen = s.seen)
      (harrived : os.filterMap arrivedStream = []) (hserved : os.filterMap servedStream = []) :
      Machine.HandsOn s.waiting s'.waiting s.seen s'.seen (os.filterMap arrivedStream)
        (os.filterMap servedStream) := by
    rw [harrived, hserved, hwaiting, hseen]
    exact ⟨by simp, rfl, List.nodup_nil, nofun⟩
  cases h with
  | arrive hl hphase hnew =>
    refine ⟨?_, rfl, List.nodup_singleton _, fun k hk => List.mem_singleton.mp hk ▸ hnew⟩
    refine (List.perm_append_singleton _ _).trans ?_
    exact ((queued_put hl (_, (relayMachine .servedTcpPorts).init)).map Prod.fst).symm
  | refuse hl hphase hqueue =>
    refine ⟨?_, rfl, List.nodup_nil, nofun⟩
    exact (List.append_nil _).symm ▸ (queued_take hl hqueue).map Prod.fst
  | connect hl hphase hqueue =>
    refine ⟨?_, rfl, List.nodup_nil, nofun⟩
    exact (List.append_nil _).symm ▸ (queued_take hl hqueue).map Prod.fst
  | connection hs =>
    exact hsame rfl rfl (filterMap_connection (fun _ _ => rfl) _ _)
      (filterMap_connection (fun _ _ => rfl) _ _)
  | @queued stream e r r' ps hr hs =>
    refine hsame ?_ rfl (filterMap_connection (fun _ _ => rfl) _ _)
      (filterMap_connection (fun _ _ => rfl) _ _)
    unfold ServedTcpPorts.waiting ServedTcpPorts.queued
    rw [List.flatMap_map, List.map_flatMap, List.map_flatMap]
    simp only [Relaying.map_fst_put]
  | erase hs => exact hsame rfl rfl rfl rfl
  | _ => exact hsame rfl rfl rfl rfl

end Connections

/-! ## The constructor -/

section Constructor

variable {K : Type} {S : MappingSort} {listen : UInt16 → Except Exn Unit}
  {mappings : List ServedTcpMapping} {p : ServedTcpPorts K}

/-- The mappings of sorted ports are accepted when the ports grow. -/
theorem openListeners_eq_ok_iff {previous : Option UInt16} {listeners : List (ServedListener K)}
    (hsorted : mappings.Pairwise fun a b => a.tailcatPort ≤ b.tailcatPort)
    (hprevious : ∀ port ∈ previous, ∀ m ∈ mappings, port ≤ m.tailcatPort) :
    ServedTcpPorts.openListeners listen previous mappings = .ok listeners ↔
      listeners = mappings.map (fun m => { mapping := m }) ∧
      (∀ m ∈ mappings, m.tailcatPort ≠ 0 ∧ m.hostPort ≠ 0 ∧ listen m.tailcatPort = .ok ()) ∧
      (mappings.Pairwise fun a b => a.tailcatPort < b.tailcatPort) ∧
      ∀ port ∈ previous, ∀ m ∈ mappings, port < m.tailcatPort := by
  induction mappings generalizing previous listeners with
  | nil =>
    simp [ServedTcpPorts.openListeners, eq_comm]
  | cons m mappings ih =>
    obtain ⟨hle, hsorted⟩ := List.pairwise_cons.mp hsorted
    have ih' {ls : List (ServedListener K)} :
        ServedTcpPorts.openListeners listen (some m.tailcatPort) mappings = .ok ls ↔ _ :=
      ih hsorted fun port hport => Option.mem_some.mp hport ▸ hle
    constructor
    · intro h
      unfold ServedTcpPorts.openListeners at h
      split at h
      · cases h
      rename_i hzero
      split at h
      · cases h
      rename_i hsame
      obtain ⟨u, hlisten, h⟩ := Except.bind_eq_ok_iff.mp h
      obtain ⟨ls, hls, h⟩ := Except.bind_eq_ok_iff.mp h
      obtain rfl := Except.ok.inj h
      obtain ⟨rfl, hall, hpair, hlt⟩ := ih'.mp hls
      have hlt' := hlt m.tailcatPort rfl
      refine ⟨rfl, ?_, List.pairwise_cons.mpr ⟨hlt', hpair⟩, fun port hport => ?_⟩
      · refine List.forall_mem_cons.mpr ⟨⟨?_, ?_, hlisten⟩, hall⟩
        · exact fun h => hzero (.inl h)
        · exact fun h => hzero (.inr h)
      · have hfirst : port < m.tailcatPort := by
          refine UInt16.lt_of_le_of_ne (hprevious port hport m (by simp)) ?_
          rintro rfl
          exact hsame hport
        exact List.forall_mem_cons.mpr ⟨hfirst, fun m' hm' => UInt16.lt_trans hfirst (hlt' m' hm')⟩
    · rintro ⟨rfl, hall, hpair, hlt⟩
      obtain ⟨⟨htailcat, hhost, hlisten⟩, hall⟩ := List.forall_mem_cons.mp hall
      obtain ⟨hlt', hpair⟩ := List.pairwise_cons.mp hpair
      unfold ServedTcpPorts.openListeners
      rw [if_neg (not_or.mpr ⟨htailcat, hhost⟩), if_neg, hlisten]
      · refine Except.bind_eq_ok_iff.mpr ⟨(), rfl, Except.bind_eq_ok_iff.mpr ⟨_, ih'.mpr ?_, rfl⟩⟩
        exact ⟨rfl, hall, hpair, fun port hport => Option.mem_some.mp hport ▸ hlt'⟩
      · rintro rfl
        exact UInt16.lt_irrefl _ (hlt m.tailcatPort rfl m (by simp))

/-- What the constructor accepts, and what it serves then. -/
theorem new_served : ServedTcpPorts.new S listen mappings = .ok p ↔
    p = { listeners := (S.sort mappings).map fun m => { mapping := m } } ∧ mappings ≠ [] ∧
      (∀ m ∈ mappings, m.tailcatPort ≠ 0 ∧ m.hostPort ≠ 0 ∧ listen m.tailcatPort = .ok ()) ∧
      (mappings.map ServedTcpMapping.tailcatPort).Nodup := by
  have hiff {ls : List (ServedListener K)} :
      ServedTcpPorts.openListeners listen none (S.sort mappings) = .ok ls ↔ _ :=
    openListeners_eq_ok_iff (S.sorted mappings) nofun
  have hmem (m : ServedTcpMapping) : m ∈ S.sort mappings ↔ m ∈ mappings := (S.perm mappings).mem_iff
  have hnodup : (mappings.map ServedTcpMapping.tailcatPort).Nodup ↔
      (S.sort mappings).Pairwise fun a b => a.tailcatPort ≠ b.tailcatPort := by
    rw [← ((S.perm mappings).map _).nodup_iff, List.Nodup, List.pairwise_map]
  unfold ServedTcpPorts.new
  constructor
  · intro h
    split at h
    · cases h
    rename_i hne
    obtain ⟨ls, hls, h⟩ := Except.bind_eq_ok_iff.mp h
    obtain rfl := Except.ok.inj h
    obtain ⟨rfl, hall, hpair, -⟩ := hiff.mp hls
    refine ⟨rfl, fun h => hne (List.isEmpty_iff.mpr h), fun m hm => hall m ((hmem m).mpr hm), ?_⟩
    exact hnodup.mpr (hpair.imp UInt16.ne_of_lt)
  · rintro ⟨rfl, hne, hall, hports⟩
    rw [if_neg fun h => hne (List.isEmpty_iff.mp h)]
    refine Except.bind_eq_ok_iff.mpr ⟨_, hiff.mpr ⟨rfl, ?_, ?_, nofun⟩, rfl⟩
    · exact fun m hm => hall m ((hmem m).mp hm)
    · exact ((S.sorted mappings).and (hnodup.mp hports)).imp fun h =>
        UInt16.lt_of_le_of_ne h.1 h.2

/-- The mappings that are served, in the order of their ports. -/
theorem mappings_of_new (h : ServedTcpPorts.new S listen mappings = .ok p) :
    p.mappings = S.sort mappings := by
  obtain ⟨rfl, -⟩ := new_served.mp h
  unfold ServedTcpPorts.mappings
  rw [List.map_map]
  exact List.map_id _

/-- **What is served**: the constructor throws for no mapping, for the port zero and for two
mappings of one port, and otherwise it serves every mapping, in the order of their ports. -/
theorem served_iff (K : Type) (S : MappingSort) (listen : UInt16 → Except Exn Unit)
    (mappings : List ServedTcpMapping) :
    ((∃ p : ServedTcpPorts K, ServedTcpPorts.new S listen mappings = .ok p) ↔ mappings ≠ [] ∧
      (∀ m ∈ mappings, m.tailcatPort ≠ 0 ∧ m.hostPort ≠ 0 ∧ listen m.tailcatPort = .ok ()) ∧
      (mappings.map ServedTcpMapping.tailcatPort).Nodup) ∧
    ∀ p : ServedTcpPorts K, ServedTcpPorts.new S listen mappings = .ok p →
      p.mappings.Perm mappings ∧ p.ports.Pairwise (· < ·) := by
  constructor
  · constructor
    · rintro ⟨p, h⟩
      exact (new_served.mp h).2
    · intro h
      exact ⟨_, new_served.mpr ⟨rfl, h⟩⟩
  · intro p h
    obtain ⟨-, -, -, hnodup⟩ := new_served.mp h
    have hperm := S.perm mappings
    unfold ServedTcpPorts.ports
    rw [mappings_of_new h, List.pairwise_map]
    rw [← (hperm.map _).nodup_iff, List.Nodup, List.pairwise_map] at hnodup
    exact ⟨hperm, ((S.sorted mappings).and hnodup).imp fun h => UInt16.lt_of_le_of_ne h.1 h.2⟩

/-- Two mappings, the second one with the lower port. -/
theorem served_iff_example : ∃ p : ServedTcpPorts ℕ,
    ServedTcpPorts.new .stable (fun _ => .ok ()) [⟨443, 8443⟩, ⟨80, 3000⟩] = .ok p ∧
      p.mappings.Perm [⟨443, 8443⟩, ⟨80, 3000⟩] ∧ p.ports.Pairwise (· < ·) := by
  obtain ⟨hnew, hports⟩ := served_iff ℕ .stable (fun _ => .ok ()) [⟨443, 8443⟩, ⟨80, 3000⟩]
  obtain ⟨p, hp⟩ := hnew.mpr ⟨List.cons_ne_nil _ _, by simp, by decide⟩
  exact ⟨p, hp, hports p hp⟩

end Constructor

/-! ## Runs -/

section Runs

variable {K : Type} [DecidableEq K] {S : MappingSort} {listen : UInt16 → Except Exn Unit}
  {mappings : List ServedTcpMapping} {p s s' : ServedTcpPorts K} {e : ServedEvent K}
  {es : List (ServedEvent K)} {os : List (ServedOutput K)}

open ServedOutput

/-- Ports at which nothing has happened. -/
structure ServedTcpPorts.IsNew (p : ServedTcpPorts K) : Prop where
  connections : p.connections = []
  seen : p.seen = []
  accepted : ∀ l ∈ p.listeners, l.accepted = []

omit [DecidableEq K] in
theorem isNew_of_new (h : ServedTcpPorts.new S listen mappings = .ok p) : p.IsNew := by
  obtain ⟨rfl, -⟩ := new_served.mp h
  refine ⟨rfl, rfl, fun l hl => ?_⟩
  obtain ⟨m, -, rfl⟩ := List.mem_map.mp hl
  rfl

omit [DecidableEq K] in
theorem queued_of_isNew (hp : p.IsNew) : p.queued = [] := List.flatMap_eq_nil_iff.mpr hp.accepted

/-- **Each stream is handled once**, and those that were handled do not wait. -/
theorem served_handled (hp : p.IsNew) (h : (servedPortsMachine p).Runs es s os) :
    (os.filterMap servedStream ++ s.waiting).Nodup ∧
      ∀ k ∈ os.filterMap servedStream ++ s.waiting, k ∈ s.seen := by
  refine h.handled_once ServedTcpPorts.waiting (fun s => s.seen) arrivedStream _ ?_
    fun _ _ _ _ hs => (servedPortsMachine_step hs).handsOn
  show p.queued.map Prod.fst = []
  rw [queued_of_isNew hp, List.map_nil]

/-- Streams are served in turn. -/
theorem served_order (hp : p.IsNew) (h : (servedPortsMachine p).Runs es s os) (i : ℕ) :
    os.filterMap (arrivedAt i) = os.filterMap (servedAt i) ++ s.pendingAt i := by
  refine h.in_turn (fun s => s.pendingAt i) _ _ ?_ fun s e s' os hs =>
    (servedPortsMachine_step hs).order i
  show ((p.listeners[i]?).map _).getD [] = []
  cases hl : p.listeners[i]? with
  | none => rfl
  | some l => exact congrArg (List.map Prod.fst) (hp.accepted l (List.mem_of_getElem? hl))

/-- The history of each stream. -/
theorem served_histories (hp : p.IsNew) (h : (servedPortsMachine p).Runs es s os) :
    s.roster.WellFormed ∧ ∀ k, s.roster.Tells (relayMachine .servedTcpPorts) Dropped k
      (atKey ServedEvent.relayEvent k es) (atKey relayOutput k os) os := by
  have hnew : p.roster = ⟨[], Set.univ⟩ := by
    unfold ServedTcpPorts.roster
    rw [hp.connections, hp.seen, queued_of_isNew hp]
    congr 1
    exact Set.eq_univ_of_forall fun k => List.not_mem_nil
  exact h.member ServedTcpPorts.roster ServedEvent.relayEvent relayOutput hnew
    fun _ _ _ _ _ _ _ hwf hs => (servedPortsMachine_step hs).roster hwf

theorem ServedStep.keeps_mappings (h : ServedStep s e s' os) : s'.mappings = s.mappings := by
  unfold ServedTcpPorts.mappings
  cases h <;> simp_all [Function.comp_def]

/-- Streams arrive at the port of a mapping, and are connected to the host port of it. -/
theorem served_mapped (h : (servedPortsMachine p).Runs es s os) :
    s.mappings = p.mappings ∧
      (∀ i stream port, .arrived i stream port ∈ os →
        p.mappings[i]?.map ServedTcpMapping.tailcatPort = some port) ∧
      ∀ i stream port, .connected i stream port ∈ os →
        p.mappings[i]?.map ServedTcpMapping.hostPort = some port := by
  refine h.trace_invariant (I := fun _ s os => s.mappings = p.mappings ∧
    (∀ i stream port, .arrived i stream port ∈ os →
      p.mappings[i]?.map ServedTcpMapping.tailcatPort = some port) ∧
    ∀ i stream port, .connected i stream port ∈ os →
      p.mappings[i]?.map ServedTcpMapping.hostPort = some port) ⟨rfl, nofun, nofun⟩ ?_
  rintro es s os e s' os' - ⟨hmappings, harrived, hconnected⟩ hs
  have hstep := servedPortsMachine_step hs
  refine ⟨hstep.keeps_mappings.trans hmappings, fun i stream port hmem => ?_,
    fun i stream port hmem => ?_⟩
  · rcases List.mem_append.mp hmem with hmem | hmem
    · exact harrived i stream port hmem
    · cases hstep with
      | arrive hl hphase hnew =>
        obtain ⟨rfl, rfl, rfl⟩ := ServedOutput.arrived.inj (List.mem_singleton.mp hmem)
        rw [← hmappings, ServedTcpPorts.mappings, hl]
        simp
      | _ => simp at hmem
  · rcases List.mem_append.mp hmem with hmem | hmem
    · exact hconnected i stream port hmem
    · cases hstep with
      | connect hl hphase hqueue =>
        obtain ⟨rfl, rfl, rfl⟩ := ServedOutput.connected.inj (List.mem_singleton.mp hmem)
        rw [← hmappings, ServedTcpPorts.mappings, hl]
        simp
      | _ => simp at hmem

omit [DecidableEq K] in
theorem mem_arrivedAt {i : ℕ} {k : K} : k ∈ os.filterMap (arrivedAt i) ↔
    ∃ port, .arrived i k port ∈ os := by
  constructor
  · intro h
    obtain ⟨o, ho, he⟩ := List.mem_filterMap.mp h
    unfold arrivedAt at he
    split at he
    · split at he
      · rename_i hi
        obtain rfl := Option.some.inj he
        exact ⟨_, hi ▸ ho⟩
      · cases he
    · cases he
  · rintro ⟨port, h⟩
    exact List.mem_filterMap.mpr ⟨_, h, if_pos rfl⟩

/-- A stream is connected to the host port of the mapping at whose port it has arrived. -/
theorem served_source (hnew : ServedTcpPorts.new S listen mappings = .ok p)
    (h : (servedPortsMachine p).Runs es s os) {i : ℕ} {stream : K} {hostPort : UInt16}
    (hconnected : .connected i stream hostPort ∈ os) :
    ∃ m ∈ mappings, p.mappings[i]? = some m ∧ m.hostPort = hostPort ∧
      .arrived i stream m.tailcatPort ∈ os := by
  have harrived : stream ∈ os.filterMap (arrivedAt i) := by
    rw [served_order (isNew_of_new hnew) h i]
    exact List.mem_append_left _ (List.mem_filterMap.mpr ⟨_, hconnected, if_pos rfl⟩)
  obtain ⟨port, hport⟩ := mem_arrivedAt.mp harrived
  obtain ⟨-, hports, hhosts⟩ := served_mapped h
  obtain ⟨m, hm, rfl⟩ := Option.map_eq_some_iff.mp (hhosts i stream hostPort hconnected)
  have hsame := hports i stream port hport
  rw [hm] at hsame
  obtain rfl := Option.some.inj hsame
  have hmem := List.mem_of_getElem? hm
  rw [mappings_of_new hnew] at hmem
  exact ⟨m, (S.perm mappings).mem_iff.mp hmem, hm, rfl, hport⟩

/-- A stream has arrived when the IP stack has accepted it. -/
theorem served_arrived (h : (servedPortsMachine p).Runs es s os) {i : ℕ} {stream : K}
    {port : UInt16} (harrived : .arrived i stream port ∈ os) : .arrive i stream ∈ es := by
  refine h.trace_invariant (I := fun es _ os => ∀ i stream port, .arrived i stream port ∈ os →
    .arrive i stream ∈ es) nofun ?_ i stream port harrived
  intro es s os e s' os' _ hI hs i stream port hmem
  rcases List.mem_append.mp hmem with hmem | hmem
  · exact List.mem_append_left _ (hI i stream port hmem)
  · cases servedPortsMachine_step hs with
    | arrive hl hphase hnew =>
      obtain ⟨rfl, rfl, rfl⟩ := ServedOutput.arrived.inj (List.mem_singleton.mp hmem)
      exact List.mem_append_right _ (List.mem_singleton_self _)
    | _ => simp at hmem

/-- **Each served stream runs as if it was alone**: whatever happens at the other streams, what
happens at one is a run of a relay, so that no octet of another stream gets into it. The stream is
connected to the host port of the mapping at whose port it has arrived, and once it is connected,
it is kept until it was closed. -/
theorem served_relays (hnew : ServedTcpPorts.new S listen mappings = .ok p)
    (h : (servedPortsMachine p).Runs es s os) (stream : K) :
    ∃ r, (relayMachine .servedTcpPorts).Runs (atKey ServedEvent.relayEvent stream es) r
        (atKey relayOutput stream os) ∧
      given ((atKey relayOutput stream os).filterMap hostToTunnel) <+:
        pushed ((atKey relayOutput stream os).filterMap hostToTunnel) ∧
      given ((atKey relayOutput stream os).filterMap tunnelToHost) <+:
        pushed ((atKey relayOutput stream os).filterMap tunnelToHost) ∧
      (∀ r', (stream, r') ∈ s.connections → r' = r) ∧
      ∀ i hostPort, .connected i stream hostPort ∈ os →
        ((stream, r) ∈ s.connections ∨ .closed ∈ atKey relayOutput stream os) ∧
          ∃ m ∈ mappings, m.hostPort = hostPort ∧ .arrived i stream m.tailcatPort ∈ os := by
  have hp := isNew_of_new hnew
  obtain ⟨-, htells⟩ := served_histories hp h
  obtain ⟨r, hr, -, halive, hgone⟩ := htells stream
  obtain ⟨hgiven, hgiven'⟩ := relay_hands_on .servedTcpPorts hr
  refine ⟨r, hr, hgiven, hgiven', fun r' hr' => halive r' (List.mem_append_right _ hr'), ?_⟩
  intro i hostPort hconnected
  obtain ⟨hnodup, hseen⟩ := served_handled hp h
  have hserved : stream ∈ os.filterMap servedStream := List.mem_filterMap.mpr ⟨_, hconnected, rfl⟩
  constructor
  · by_cases hstay : ∃ t, (stream, t) ∈ s.queued ++ s.connections
    · obtain ⟨t, ht⟩ := hstay
      obtain rfl := halive t ht
      refine .inl ((List.mem_append.mp ht).resolve_left fun hqueued => ?_)
      exact (List.nodup_append.mp hnodup).2.2 stream hserved stream
        (List.mem_map.mpr ⟨_, hqueued, rfl⟩) rfl
    · have hborn : stream ∉ s.roster.unborn :=
        fun hnew => hnew (hseen stream (List.mem_append_left _ hserved))
      obtain ⟨qs, hqs, hfin | ⟨j, hclosed⟩⟩ := hgone hborn fun t ht => hstay ⟨t, ht⟩
      · have hrelay : Relay.servedTcpPorts ≠ .socksProxy := nofun
        exact .inr (closed_of_finished hrelay hr hfin)
      · -- A stream that a host was connected for was not closed without one.
        have heq := eq_of_nodup_filterMap hnodup.of_append_left hconnected (hqs hclosed) rfl rfl
        cases heq
  · obtain ⟨m, hm, -, hhost, harrived⟩ := served_source hnew h hconnected
    exact ⟨m, hm, hhost, harrived⟩

/-- A stream that receives two octets before it is connected. -/
def exampleServed : ServedTcpPorts ℕ where
  listeners := [{ mapping := ⟨80, 8080⟩ }]

/-- A stream that arrives with octets, is connected and served. -/
def exampleArrivals : List (ServedEvent ℕ) :=
  [.arrive 0 3, .connection 3 (.tunnelReceive [1, 2]), .poll, .connect false, .next, .next,
    .connection 3 (.beginService false none), .connection 3 (.middleService false (some 8) false),
    .connection 3 .endService, .erase]

theorem served_relays_example : ∃ s os,
    (servedPortsMachine exampleServed).Runs exampleArrivals s os ∧
    given ((atKey relayOutput 3 os).filterMap tunnelToHost) = [1, 2] ∧
    given ((atKey relayOutput 3 os).filterMap tunnelToHost) <+:
      pushed ((atKey relayOutput 3 os).filterMap tunnelToHost) := by
  obtain ⟨s, os, hr, hgiven⟩ : ∃ s os,
      (servedPortsMachine exampleServed).Runs exampleArrivals s os ∧
      given ((atKey relayOutput 3 os).filterMap tunnelToHost) = [1, 2] := ⟨_, _, rfl, by decide⟩
  have hnew : ServedTcpPorts.new .stable (fun _ => .ok ()) [⟨80, 8080⟩] = .ok exampleServed := by
    rfl
  obtain ⟨r, -, -, hinitial, -⟩ := served_relays hnew hr 3
  exact ⟨s, os, hr, hgiven, hinitial⟩

end Runs

end Tailcat
