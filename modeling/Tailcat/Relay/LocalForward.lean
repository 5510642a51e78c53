import Tailcat.Base.Exceptions
import Tailcat.Relay.Forward
import Tailcat.Relay.Table

/-!
# The local forwarder

`LocalTcpForwarder` listens at local ports. A thread for each listener accepts sockets and queues
them. `poll` takes the sockets of one queue after the other, dials a tunnel for each of them, and
then relays between the socket and the tunnel. The threads accept at any time, and the readers of
the sockets read at any time.

## Main definitions

* `LocalTcpForwarder`: the listeners with their queues, and the connections
* `LocalTcpForwarder.new`: the constructor
* `localForwarderMachine`: a forwarder with its threads, its tunnels and the calls of `poll`

## Main results

* `localForwarderMachine_step`: what a step can do
* `forwarder_relays`: each socket has a connection of its own, which runs as if it was alone
* `forwarder_keeps`: no accepted socket is lost, and none is dialed twice or out of turn
-/

namespace Tailcat

/-- A port of the client's host, and the port of the tunnel that it stands for. -/
structure TcpForwardMapping where
  localPort : UInt16
  remotePort : UInt16
  deriving DecidableEq

/-- A listener: the sockets in its queue, and what has ended its thread. -/
structure ForwardListener (K : Type) where
  mapping : TcpForwardMapping
  sockets : List K := []
  error : Option String := none
  deriving DecidableEq

/-- Where `accept_new` stands: at a listener, before its lock or with the sockets that it has taken
from the queue and has not dialed for yet. -/
structure Accepting (K : Type) where
  listener : ℕ := 0
  taken : Option (List K) := none
  deriving DecidableEq

/-- A forwarder of sockets that are told apart by `K`. -/
structure LocalTcpForwarder (K : Type) extends Relaying K (Accepting K) where
  listeners : List (ForwardListener K)
  /-- The sockets that there were so far. -/
  seen : List K := []
  deriving DecidableEq

/-- What happens at a forwarder. A socket is closed where dialing throws, and where `accept_new`
throws and it had been taken from the queue. -/
inductive ForwarderOutput (K : Type)
  | accepted (listener : ℕ) (socket : K)
  | dialed (listener : ℕ) (socket : K) (port : UInt16)
  | closed (listener : ℕ) (socket : K)
  | connection (socket : K) (o : RelayOutput)
  | thrown (e : Exn)
  deriving DecidableEq

/-- What the threads do, what `poll` does, and what happens at a connection. -/
inductive ForwarderEvent (K : Type)
  | accept (listener : ℕ) (socket : K)
  | acceptFails (listener : ℕ) (what : String)
  | poll
  | lock
  | dial (throws : Bool)
  | connection (socket : K) (e : RelayEvent)
  | erase

namespace LocalTcpForwarder

variable {K : Type}

/-- One mapping of the constructor, with the port of the socket that listens, if it does. -/
def openListener (m : TcpForwardMapping × Except Exn UInt16) : Except Exn (ForwardListener K) :=
  if m.1.remotePort = 0 then
    .error (.invalidArgument "remote forward port must be non-zero")
  else do
    let port ← m.2
    return { mapping := if m.1.localPort = 0 then { m.1 with localPort := port } else m.1 }

/-- Listeners for the ports, with what opening each of them gives. -/
def new (mappings : List (TcpForwardMapping × Except Exn UInt16)) :
    Except Exn (LocalTcpForwarder K) :=
  if mappings.isEmpty then
    .error (.invalidArgument "forward requires at least one port mapping")
  else do
    let listeners ← mappings.mapM openListener
    return { listeners }

variable [DecidableEq K]

/-- The thread of a listener has accepted a socket. -/
def accept (s : LocalTcpForwarder K) (listener : ℕ) (socket : K) :
    Option (LocalTcpForwarder K × List (ForwarderOutput K)) :=
  match s.listeners[listener]? with
  | none => none
  | some l =>
    if l.error = none ∧ socket ∉ s.seen then
      some ({ s with
        listeners := s.listeners.set listener { l with sockets := l.sockets ++ [socket] }
        seen := socket :: s.seen }, [.accepted listener socket])
    else
      none

/-- It has thrown. -/
def acceptFails (s : LocalTcpForwarder K) (listener : ℕ) (what : String) :
    Option (LocalTcpForwarder K × List (ForwarderOutput K)) :=
  match s.listeners[listener]? with
  | none => none
  | some l =>
    if l.error = none then
      some ({ s with listeners := s.listeners.set listener { l with error := some what } }, [])
    else
      none

/-- The exception of a `poll` at a listener that has failed. -/
def pollError (what : String) : Exn := .runtimeError ("local TCP listener failed: " ++ what)

/-- `accept_new` comes to the next listener and takes what is in its queue. -/
def lock (s : LocalTcpForwarder K) : Option (LocalTcpForwarder K × List (ForwarderOutput K)) :=
  match s.phase with
  | .accepting ⟨listener, none⟩ =>
    match s.listeners[listener]? with
    | none => some ({ s with phase := .servicing 0 }, [])
    | some l =>
      let s := { s with listeners := s.listeners.set listener { l with sockets := [] } }
      if l.error.getD "" ≠ "" then
        some ({ s with phase := .thrown },
          l.sockets.map (.closed listener) ++ [.thrown (pollError (l.error.getD ""))])
      else
        some ({ s with phase := .accepting ⟨listener, some l.sockets⟩ }, [])
  | .accepting ⟨listener, some []⟩ =>
    some ({ s with phase := .accepting ⟨listener + 1, none⟩ }, [])
  | _ => none

/-- `accept_new` dials for the next socket. -/
def dial (s : LocalTcpForwarder K) (throws : Bool) :
    Option (LocalTcpForwarder K × List (ForwarderOutput K)) :=
  match s.phase with
  | .accepting ⟨listener, some (socket :: taken)⟩ =>
    match s.listeners[listener]? with
    | none => none
    | some l =>
      let s := { s with phase := .accepting ⟨listener, some taken⟩ }
      if throws then
        some (s, [.closed listener socket])
      else
        some ({ s with
          connections := s.connections ++ [(socket, (relayMachine .localTcpForwarder).init)] },
          [.dialed listener socket l.mapping.remotePort])
  | _ => none

end LocalTcpForwarder

/-- A forwarder, from the state that its constructor has left. -/
def localForwarderMachine {K : Type} [DecidableEq K] (f : LocalTcpForwarder K) :
    Machine (LocalTcpForwarder K) (ForwarderEvent K) (ForwarderOutput K) where
  init := f
  step s
    | .accept listener socket => s.accept listener socket
    | .acceptFails listener what => s.acceptFails listener what
    | .poll => if s.phase = .outside then some ({ s with phase := .accepting {} }, []) else none
    | .lock => s.lock
    | .dial throws => s.dial throws
    | .connection socket e =>
      (s.connectionStep .localTcpForwarder socket e).map fun (r, os) =>
        ({ s with toRelaying := r }, os.map (.connection socket))
    | .erase => s.toRelaying.erase.map fun r => ({ s with toRelaying := r }, [])

/-! ## What a step can do -/

section Steps

variable {K : Type} [DecidableEq K]

/-- What a step of a forwarder can do, and when. -/
inductive ForwarderStep (s : LocalTcpForwarder K) :
    ForwarderEvent K → LocalTcpForwarder K → List (ForwarderOutput K) → Prop
  | accept {before after : List (ForwardListener K)} {l : ForwardListener K} {socket : K}
      (hl : s.listeners = before ++ l :: after) (hnew : socket ∉ s.seen) :
    ForwarderStep s (.accept before.length socket)
      { s with
        listeners := before ++ { l with sockets := l.sockets ++ [socket] } :: after
        seen := socket :: s.seen } [.accepted before.length socket]
  | acceptFails {before after : List (ForwardListener K)} {l : ForwardListener K} {what : String}
      (hl : s.listeners = before ++ l :: after) :
    ForwarderStep s (.acceptFails before.length what)
      { s with listeners := before ++ { l with error := some what } :: after } []
  | poll (hphase : s.phase = .outside) :
    ForwarderStep s .poll { s with phase := .accepting {} } []
  | serve {listener : ℕ} (hphase : s.phase = .accepting ⟨listener, none⟩)
      (hlast : s.listeners.length ≤ listener) :
    ForwarderStep s .lock { s with phase := .servicing 0 } []
  | next {listener : ℕ} (hphase : s.phase = .accepting ⟨listener, some []⟩) :
    ForwarderStep s .lock { s with phase := .accepting ⟨listener + 1, none⟩ } []
  | throw {before after : List (ForwardListener K)} {l : ForwardListener K} {e : Exn}
      (hl : s.listeners = before ++ l :: after)
      (hphase : s.phase = .accepting ⟨before.length, none⟩) :
    ForwarderStep s .lock
      { s with listeners := before ++ { l with sockets := [] } :: after, phase := .thrown }
      (l.sockets.map (.closed before.length) ++ [.thrown e])
  | take {before after : List (ForwardListener K)} {l : ForwardListener K}
      (hl : s.listeners = before ++ l :: after)
      (hphase : s.phase = .accepting ⟨before.length, none⟩) :
    ForwarderStep s .lock
      { s with
        listeners := before ++ { l with sockets := [] } :: after
        phase := .accepting ⟨before.length, some l.sockets⟩ } []
  | refuse {listener : ℕ} {socket : K} {taken : List K}
      (hphase : s.phase = .accepting ⟨listener, some (socket :: taken)⟩) :
    ForwarderStep s (.dial true) { s with phase := .accepting ⟨listener, some taken⟩ }
      [.closed listener socket]
  | dial {listener : ℕ} {socket : K} {taken : List K} {l : ForwardListener K}
      (hphase : s.phase = .accepting ⟨listener, some (socket :: taken)⟩)
      (hl : s.listeners[listener]? = some l) :
    ForwarderStep s (.dial false)
      { s with
        phase := .accepting ⟨listener, some taken⟩
        connections := s.connections ++ [(socket, (relayMachine .localTcpForwarder).init)] }
      [.dialed listener socket l.mapping.remotePort]
  | connection {socket : K} {e : RelayEvent} {r : Relaying K (Accepting K)}
      {os : List RelayOutput}
      (hs : s.connectionStep .localTcpForwarder socket e = some (r, os)) :
    ForwarderStep s (.connection socket e) { s with toRelaying := r } (os.map (.connection socket))
  | erase {r : Relaying K (Accepting K)} (hs : s.toRelaying.erase = some r) :
    ForwarderStep s .erase { s with toRelaying := r } []

theorem localForwarderMachine_step {f s s' : LocalTcpForwarder K} {e : ForwarderEvent K}
    {os : List (ForwarderOutput K)}
    (hs : (localForwarderMachine f).step s e = some (s', os)) : ForwarderStep s e s' os := by
  cases e with
  | accept listener socket =>
    dsimp only [localForwarderMachine, LocalTcpForwarder.accept] at hs
    split at hs
    · cases hs
    rename_i l hl
    split at hs
    · rename_i hnew
      obtain ⟨rfl, rfl⟩ := Prod.mk.inj (Option.some.inj hs)
      obtain ⟨before, after, hsplit, rfl, hset⟩ := exists_split_of_getElem? hl
      rw [hset]
      exact .accept hsplit hnew.2
    · cases hs
  | acceptFails listener what =>
    dsimp only [localForwarderMachine, LocalTcpForwarder.acceptFails] at hs
    split at hs
    · cases hs
    rename_i l hl
    split at hs
    · obtain ⟨rfl, rfl⟩ := Prod.mk.inj (Option.some.inj hs)
      obtain ⟨before, after, hsplit, rfl, hset⟩ := exists_split_of_getElem? hl
      rw [hset]
      exact .acceptFails hsplit
    · cases hs
  | poll =>
    dsimp only [localForwarderMachine] at hs
    split at hs
    · rename_i hphase
      obtain ⟨rfl, rfl⟩ := Prod.mk.inj (Option.some.inj hs)
      exact .poll hphase
    · cases hs
  | lock =>
    dsimp only [localForwarderMachine, LocalTcpForwarder.lock] at hs
    split at hs
    · rename_i listener hphase
      split at hs
      · rename_i hnone
        obtain ⟨rfl, rfl⟩ := Prod.mk.inj (Option.some.inj hs)
        exact .serve hphase (List.getElem?_eq_none_iff.mp hnone)
      rename_i l hl
      obtain ⟨before, after, hsplit, rfl, hset⟩ := exists_split_of_getElem? hl
      split at hs <;> obtain ⟨rfl, rfl⟩ := Prod.mk.inj (Option.some.inj hs) <;> rw [hset]
      · exact .throw hsplit hphase
      · exact .take hsplit hphase
    · rename_i listener hphase
      obtain ⟨rfl, rfl⟩ := Prod.mk.inj (Option.some.inj hs)
      exact .next hphase
    · cases hs
  | dial throws =>
    dsimp only [localForwarderMachine, LocalTcpForwarder.dial] at hs
    split at hs
    · rename_i listener socket taken hphase
      split at hs
      · cases hs
      rename_i l hl
      cases throws <;> obtain ⟨rfl, rfl⟩ := Prod.mk.inj (Option.some.inj hs)
      · exact .dial hphase hl
      · exact .refuse hphase
    · cases hs
  | connection socket e =>
    obtain ⟨⟨r, os'⟩, hr, h⟩ := Option.map_eq_some_iff.mp hs
    obtain ⟨rfl, rfl⟩ := Prod.mk.inj h
    exact .connection hr
  | erase =>
    obtain ⟨r, hr, h⟩ := Option.map_eq_some_iff.mp hs
    obtain ⟨rfl, rfl⟩ := Prod.mk.inj h
    exact .erase hr

end Steps

/-! ## The order of the sockets -/

section Order

variable {K : Type} [DecidableEq K] {f s s' : LocalTcpForwarder K} {e : ForwarderEvent K}
  {es : List (ForwarderEvent K)} {os : List (ForwarderOutput K)}

namespace LocalTcpForwarder

/-- The sockets that `accept_new` has taken and not dialed for yet. -/
def taken (s : LocalTcpForwarder K) : List K :=
  match s.phase with
  | .accepting ⟨_, some taken⟩ => taken
  | _ => []

/-- Those of a listener. -/
def takenAt (s : LocalTcpForwarder K) (listener : ℕ) : List K :=
  match s.phase with
  | .accepting ⟨other, some taken⟩ => if other = listener then taken else []
  | _ => []

/-- The sockets of a listener that wait, the first one to be handled first. -/
def pendingAt (s : LocalTcpForwarder K) (listener : ℕ) : List K :=
  s.takenAt listener ++ queueAt ForwardListener.sockets s.listeners listener

omit [DecidableEq K] in
theorem takenAt_eq {listener : ℕ} {taken : List K}
    (h : s.phase = .accepting ⟨listener, some taken⟩) (i : ℕ) :
    s.takenAt i = if listener = i then taken else [] := by
  rw [takenAt, h]

omit [DecidableEq K] in
theorem takenAt_eq_nil (h : ∀ listener taken, s.phase ≠ .accepting ⟨listener, some taken⟩)
    (i : ℕ) : s.takenAt i = [] := by
  unfold takenAt
  split
  · rename_i hphase
    exact absurd hphase (h _ _)
  · rfl

end LocalTcpForwarder

/-- The sockets that a listener has accepted, and those that were dialed for or closed. -/
def acceptedAt (listener : ℕ) : ForwarderOutput K → Option K
  | .accepted at' socket => if at' = listener then some socket else none
  | _ => none

/-- The socket of this listener that an output takes off its queue. -/
def handledAt (listener : ℕ) : ForwarderOutput K → Option K
  | .dialed at' socket _ => if at' = listener then some socket else none
  | .closed at' socket => if at' = listener then some socket else none
  | _ => none

/-- What happens at a connection is no matter of the sockets' order. -/
theorem takenAt_connectionStep {socket : K} {e : RelayEvent} {r : Relaying K (Accepting K)}
    {ps : List RelayOutput} (hs : s.connectionStep .localTcpForwarder socket e = some (r, ps)) :
    ({ s with toRelaying := r } : LocalTcpForwarder K).taken = s.taken ∧
      ∀ i, ({ s with toRelaying := r } : LocalTcpForwarder K).takenAt i = s.takenAt i := by
  obtain ⟨-, r', -, -, -, hphase⟩ := Relaying.connectionStep_eq_some hs
  unfold LocalTcpForwarder.taken LocalTcpForwarder.takenAt
  rw [hphase, Relaying.next]
  cases s.phase <;> exact ⟨rfl, fun _ => rfl⟩

theorem takenAt_erase {r : Relaying K (Accepting K)} (hs : s.toRelaying.erase = some r) :
    ({ s with toRelaying := r } : LocalTcpForwarder K).taken = s.taken ∧
      ∀ i, ({ s with toRelaying := r } : LocalTcpForwarder K).takenAt i = s.takenAt i := by
  obtain ⟨hservicing, houtside, -⟩ := Relaying.erase_eq_some hs
  unfold LocalTcpForwarder.taken LocalTcpForwarder.takenAt
  rw [hservicing, houtside]
  exact ⟨rfl, fun _ => rfl⟩

/-- A step hands sockets on from where they wait, the first ones first. -/
theorem ForwarderStep.order (h : ForwarderStep s e s' os) (i : ℕ) :
    s.pendingAt i ++ os.filterMap (acceptedAt i) =
      os.filterMap (handledAt i) ++ s'.pendingAt i := by
  unfold LocalTcpForwarder.pendingAt
  rw [← List.append_assoc (os.filterMap (handledAt i))]
  cases h with
  | @accept before after l socket hl hnew =>
    have hphase : ({ s with
        listeners := before ++ { l with sockets := l.sockets ++ [socket] } :: after
        seen := socket :: s.seen } : LocalTcpForwarder K).takenAt i = s.takenAt i := rfl
    rw [hphase, queueAt_split _ before after l, hl, List.append_assoc]
    by_cases hi : before.length = i
    · subst hi
      simp [acceptedAt, handledAt, queueAt_length]
    · simp [acceptedAt, handledAt, hi]
  | @acceptFails before after l what hl =>
    have hphase : ({ s with listeners := before ++ { l with error := some what } :: after } :
        LocalTcpForwarder K).takenAt i = s.takenAt i := rfl
    rw [hphase, queueAt_split _ before after l, hl]
    by_cases hi : before.length = i
    · subst hi
      simp [queueAt_length]
    · simp [hi]
  | poll hphase =>
    rw [LocalTcpForwarder.takenAt_eq_nil (by simp [hphase]),
      LocalTcpForwarder.takenAt_eq_nil (by simp)]
    simp
  | serve hphase hlast =>
    rw [LocalTcpForwarder.takenAt_eq_nil (by simp [hphase]),
      LocalTcpForwarder.takenAt_eq_nil (by simp)]
    simp
  | next hphase =>
    rw [LocalTcpForwarder.takenAt_eq hphase, LocalTcpForwarder.takenAt_eq_nil (by simp)]
    simp
  | @throw before after l e hl hphase =>
    rw [LocalTcpForwarder.takenAt_eq_nil (by simp [hphase]),
      LocalTcpForwarder.takenAt_eq_nil (by simp), queueAt_split _ before after l, hl]
    by_cases hi : before.length = i
    · subst hi
      simp [acceptedAt, handledAt, queueAt_length, List.filterMap_map, Function.comp_def,
        List.filterMap_cons]
    · simp [acceptedAt, handledAt, hi, List.filterMap_map, Function.comp_def, List.filterMap_cons]
  | @take before after l hl hphase =>
    rw [LocalTcpForwarder.takenAt_eq_nil (by simp [hphase]),
      LocalTcpForwarder.takenAt_eq rfl, queueAt_split _ before after l, hl]
    by_cases hi : before.length = i
    · subst hi
      simp [queueAt_length]
    · simp [hi]
  | @refuse listener socket taken hphase =>
    rw [LocalTcpForwarder.takenAt_eq hphase, LocalTcpForwarder.takenAt_eq rfl]
    by_cases hi : listener = i <;> simp [acceptedAt, handledAt, hi]
  | @dial listener socket taken l hphase hl =>
    rw [LocalTcpForwarder.takenAt_eq hphase, LocalTcpForwarder.takenAt_eq rfl]
    by_cases hi : listener = i <;> simp [acceptedAt, handledAt, hi]
  | connection hs =>
    rw [(takenAt_connectionStep hs).2 i]
    simp [acceptedAt, handledAt, List.filterMap_map, Function.comp_def]
  | erase hs =>
    rw [(takenAt_erase hs).2 i]
    simp

/-- A forwarder that has done nothing. -/
structure LocalTcpForwarder.IsNew (f : LocalTcpForwarder K) : Prop where
  connections : f.connections = []
  phase : f.phase = .outside
  seen : f.seen = []
  sockets : ∀ l ∈ f.listeners, l.sockets = []

/-- **Sockets are served in turn**: what a listener has accepted was dialed for or closed, or waits
behind that, in the order in which it was accepted. -/
theorem forwarder_order (hf : f.IsNew) (h : (localForwarderMachine f).Runs es s os) (i : ℕ) :
    os.filterMap (acceptedAt i) = os.filterMap (handledAt i) ++ s.pendingAt i := by
  refine h.in_turn (fun s => s.pendingAt i) _ _ ?_ fun s e s' os hs =>
    (localForwarderMachine_step hs).order i
  have hqueue : queueAt ForwardListener.sockets f.listeners i = [] := by
    unfold queueAt
    cases hl : f.listeners[i]? with
    | none => rfl
    | some l => exact hf.sockets l (List.mem_of_getElem? hl)
  show f.takenAt i ++ queueAt ForwardListener.sockets f.listeners i = []
  rw [hqueue, LocalTcpForwarder.takenAt_eq_nil (by simp [hf.phase])]
  rfl

/-- The mappings of the listeners stay what they are. -/
theorem ForwarderStep.mappings (h : ForwarderStep s e s' os) :
    s'.listeners.map ForwardListener.mapping = s.listeners.map ForwardListener.mapping := by
  cases h <;> simp_all

/-- Every tunnel is dialed to the port that the mapping of the listener says. -/
theorem forwarder_ports (h : (localForwarderMachine f).Runs es s os) {i : ℕ} {socket : K}
    {port : UInt16} (hdialed : .dialed i socket port ∈ os) :
    (f.listeners.map ForwardListener.mapping)[i]?.map TcpForwardMapping.remotePort =
      some port := by
  have hinv := h.trace_invariant (I := fun _ s os =>
    s.listeners.map ForwardListener.mapping = f.listeners.map ForwardListener.mapping ∧
      ∀ i socket port, .dialed i socket port ∈ os →
        (f.listeners.map ForwardListener.mapping)[i]?.map TcpForwardMapping.remotePort =
          some port) ⟨rfl, nofun⟩ ?_
  · exact hinv.2 i socket port hdialed
  intro es s os e s' os' _ ⟨hmappings, hports⟩ hs
  have hstep := localForwarderMachine_step hs
  refine ⟨hstep.mappings.trans hmappings, fun i socket port hmem => ?_⟩
  rcases List.mem_append.mp hmem with hmem | hmem
  · exact hports i socket port hmem
  · cases hstep with
    | dial hphase hl =>
      obtain ⟨rfl, rfl, rfl⟩ := ForwarderOutput.dialed.inj (List.mem_singleton.mp hmem)
      rw [← hmappings, List.getElem?_map, hl]
      rfl
    | _ => simp at hmem

end Order

/-! ## The connections -/

section Connections

variable {K : Type} [DecidableEq K] {f s s' : LocalTcpForwarder K} {e : ForwarderEvent K}
  {es : List (ForwarderEvent K)} {os : List (ForwarderOutput K)}

/-- The sockets that wait for a tunnel. -/
def LocalTcpForwarder.waiting (s : LocalTcpForwarder K) : List K :=
  s.listeners.flatMap ForwardListener.sockets ++ s.taken

/-- The members of a forwarder are its connections. -/
def LocalTcpForwarder.roster (s : LocalTcpForwarder K) : Roster K RelayState where
  members := s.connections
  unborn := {k | k ∈ s.waiting ∨ k ∉ s.seen}

namespace ForwarderOutput

/-- The socket that a listener's thread has accepted. -/
def acceptedSocket : ForwarderOutput K → Option K
  | .accepted _ socket => some socket
  | _ => none

/-- The socket that an output takes off a queue. -/
def handledSocket : ForwarderOutput K → Option K
  | .dialed _ socket _ => some socket
  | .closed _ socket => some socket
  | _ => none

/-- What happens at a connection. -/
def relayOutput : ForwarderOutput K → Option (K × RelayOutput)
  | .connection socket o => some (socket, o)
  | _ => none

end ForwarderOutput

/-- What an event is to the connection that it happens at. -/
def ForwarderEvent.relayEvent : ForwarderEvent K → Option (K × RelayEvent)
  | .connection socket e => some (socket, e)
  | _ => none

open ForwarderOutput

omit [DecidableEq K] in
/-- What is said of sockets that are closed when `accept_new` throws. -/
theorem filterMap_thrown {β : Type} (g : ForwarderOutput K → Option β) {e : Exn}
    (hg : g (thrown e) = none) (listener : ℕ) (sockets : List K) :
    (sockets.map (closed listener) ++ [thrown e]).filterMap g =
      sockets.filterMap fun k => g (closed listener k) := by
  rw [List.filterMap_append, List.filterMap_map, List.filterMap_cons_none hg, List.filterMap_nil,
    List.append_nil]
  rfl

omit [DecidableEq K] in
/-- What a listener holds waits. -/
theorem waiting_split {before after : List (ForwardListener K)} {l : ForwardListener K}
    (hl : s.listeners = before ++ l :: after) :
    s.waiting.Perm (l.sockets ++ (before.flatMap ForwardListener.sockets ++
      after.flatMap ForwardListener.sockets ++ s.taken)) := by
  unfold LocalTcpForwarder.waiting
  rw [hl, ← List.append_assoc l.sockets]
  exact (flatMap_split _ before after l).append_right _

/-- In a step, those that wait and the new ones are handled or wait. -/
theorem ForwarderStep.waits (h : ForwarderStep s e s' os) :
    (s.waiting ++ os.filterMap acceptedSocket).Perm (os.filterMap handledSocket ++ s'.waiting) := by
  cases h with
  | @accept before after l socket hl hnew =>
    refine ((waiting_split hl).append_right [socket]).trans (List.Perm.trans ?_
      (waiting_split (l := { l with sockets := l.sockets ++ [socket] }) rfl).symm)
    show List.Perm _ (l.sockets ++ [socket] ++ (_ ++ s.taken))
    rw [List.append_assoc, List.append_assoc l.sockets]
    exact List.perm_append_comm.append_left _
  | @acceptFails before after l what hl =>
    have heq : ({ s with listeners := before ++ { l with error := some what } :: after } :
        LocalTcpForwarder K).waiting = s.waiting := by
      simp [LocalTcpForwarder.waiting, LocalTcpForwarder.taken, hl]
    simp [heq]
  | poll hphase => simp [LocalTcpForwarder.waiting, LocalTcpForwarder.taken, hphase]
  | serve hphase hlast => simp [LocalTcpForwarder.waiting, LocalTcpForwarder.taken, hphase]
  | next hphase => simp [LocalTcpForwarder.waiting, LocalTcpForwarder.taken, hphase]
  | @throw before after l e hl hphase =>
    rw [filterMap_thrown _ rfl, filterMap_thrown _ rfl]
    have haccepted : (l.sockets.filterMap fun _ => none) = ([] : List K) :=
      List.filterMap_eq_nil_iff.mpr fun _ _ => rfl
    show List.Perm (s.waiting ++ l.sockets.filterMap fun _ => none) (l.sockets.filterMap some ++ _)
    rw [haccepted, List.append_nil, List.filterMap_some]
    refine (waiting_split hl).trans (List.Perm.append_left _ (List.Perm.trans ?_
      (waiting_split (l := { l with sockets := [] }) rfl).symm))
    simp [LocalTcpForwarder.taken, hphase]
  | @take before after l hl hphase =>
    show List.Perm (s.waiting ++ []) _
    rw [List.append_nil]
    refine (waiting_split hl).trans (List.Perm.trans ?_
      (waiting_split (l := { l with sockets := [] }) rfl).symm)
    simp only [LocalTcpForwarder.taken, hphase, List.append_nil, List.nil_append]
    exact List.perm_append_comm
  | @refuse listener socket taken hphase =>
    show List.Perm (s.waiting ++ []) (socket :: _)
    simp [LocalTcpForwarder.waiting, LocalTcpForwarder.taken, hphase]
  | @dial listener socket taken l hphase hl =>
    show List.Perm (s.waiting ++ []) (socket :: _)
    simp [LocalTcpForwarder.waiting, LocalTcpForwarder.taken, hphase]
  | @connection socket e r os hs =>
    have heq : ({ s with toRelaying := r } : LocalTcpForwarder K).waiting = s.waiting := by
      unfold LocalTcpForwarder.waiting
      rw [(takenAt_connectionStep hs).1]
    have hnone (g : ForwarderOutput K → Option K) (hg : ∀ o, g (.connection socket o) = none) :
        (os.map (ForwarderOutput.connection socket)).filterMap g = [] := by
      rw [List.filterMap_map]
      exact List.filterMap_eq_nil_iff.mpr fun o _ => hg o
    rw [heq, hnone _ fun _ => rfl, hnone _ fun _ => rfl, List.append_nil]
    rfl
  | erase hs =>
    have heq := congrArg (s.listeners.flatMap ForwardListener.sockets ++ ·) (takenAt_erase hs).1
    show List.Perm (s.waiting ++ []) _
    rw [List.append_nil]
    exact List.Perm.of_eq heq.symm

/-- **No socket is lost** in a step, and only a new one is accepted. -/
theorem ForwarderStep.handsOn (h : ForwarderStep s e s' os) :
    Machine.HandsOn s.waiting s'.waiting s.seen s'.seen (os.filterMap acceptedSocket)
      (os.filterMap handledSocket) := by
  have hnone (hl : ∀ o ∈ os, acceptedSocket o = none) (hseen : s'.seen = s.seen) :
      Machine.HandsOn s.waiting s'.waiting s.seen s'.seen (os.filterMap acceptedSocket)
        (os.filterMap handledSocket) := by
    refine ⟨h.waits, ?_, ?_, ?_⟩ <;> rw [List.filterMap_eq_nil_iff.mpr hl]
    · exact hseen
    · exact List.nodup_nil
    · nofun
  cases h with
  | accept hl hnew =>
    exact ⟨(ForwarderStep.accept hl hnew).waits, rfl, List.nodup_singleton _,
      fun k hk => List.mem_singleton.mp hk ▸ hnew⟩
  | throw hl hphase =>
    refine hnone (fun o ho => ?_) rfl
    rcases List.mem_append.mp ho with ho | ho
    · obtain ⟨k, -, rfl⟩ := List.mem_map.mp ho
      rfl
    · obtain rfl := List.mem_singleton.mp ho
      rfl
  | connection hs =>
    refine hnone (fun o ho => ?_) rfl
    obtain ⟨o, -, rfl⟩ := List.mem_map.mp ho
    rfl
  | refuse hphase => exact hnone (by simp [acceptedSocket]) rfl
  | dial hphase hl => exact hnone (by simp [acceptedSocket]) rfl
  | _ => exact hnone nofun rfl

omit [DecidableEq K] in
theorem waiting_of_isNew (hf : f.IsNew) : f.waiting = [] := by
  unfold LocalTcpForwarder.waiting LocalTcpForwarder.taken
  rw [hf.phase, List.append_nil]
  exact List.flatMap_eq_nil_iff.mpr hf.sockets

/-- **Each socket is handled once**, and those that were handled do not wait. -/
theorem forwarder_handled (hf : f.IsNew) (h : (localForwarderMachine f).Runs es s os) :
    (os.filterMap handledSocket ++ s.waiting).Nodup ∧
      ∀ k ∈ os.filterMap handledSocket ++ s.waiting, k ∈ s.seen :=
  h.handled_once LocalTcpForwarder.waiting (fun s => s.seen) _ _ (waiting_of_isNew hf)
    fun _ _ _ _ hs => (localForwarderMachine_step hs).handsOn

/-- A step that handles no socket leaves those that are new as they are. -/
theorem ForwarderStep.unborn (h : ForwarderStep s e s' os)
    (hnone : os.filterMap handledSocket = []) : s'.roster.unborn = s.roster.unborn := by
  obtain ⟨hwaits, hseen, -, hfresh⟩ := h.handsOn
  rw [hnone, List.nil_append] at hwaits
  ext k
  show k ∈ s'.waiting ∨ k ∉ s'.seen ↔ k ∈ s.waiting ∨ k ∉ s.seen
  rw [← hwaits.mem_iff, hseen, List.mem_append, List.mem_append, not_or]
  constructor
  · rintro ((hk | hk) | hk)
    · exact .inl hk
    · exact .inr (hfresh k hk)
    · exact .inr hk.2
  · rintro (hk | hk)
    · exact .inl (.inl hk)
    · by_cases hnew : k ∈ os.filterMap acceptedSocket
      · exact .inl (.inr hnew)
      · exact .inr ⟨hnew, hk⟩

/-- Who leaves is finished, or was closed without a tunnel. -/
def Left (os : List (ForwarderOutput K)) (k : K) (r : RelayState) : Prop :=
  r.connection.finished = true ∨ ∃ i, .closed i k ∈ os

/-- Sockets that are closed leave without having joined. -/
theorem ForwarderStep.dismiss (h : ForwarderStep s e s' os)
    (hconnections : s'.connections = s.connections)
    (hclosed : ∀ k ∈ os.filterMap handledSocket, ∃ i, .closed i k ∈ os)
    (hseen : s'.seen = s.seen) (haccepted : os.filterMap acceptedSocket = []) :
    Roster.Step (relayMachine .localTcpForwarder) (Left os) s.roster none s'.roster [] := by
  have hwaits := h.waits
  rw [haccepted, List.append_nil] at hwaits
  refine .dismiss (List.Perm.of_eq hconnections) ?_ ?_
  · rintro k (hk | hk)
    · exact .inl (hwaits.mem_iff.mpr (List.mem_append_right _ hk))
    · exact .inr (hseen ▸ hk)
  · rintro k (hk | hk) hgone
    · rcases List.mem_append.mp (hwaits.mem_iff.mp hk) with hmem | hmem
      · exact .inr (hclosed k hmem)
      · exact absurd (.inl hmem) hgone
    · exact absurd (.inr (hseen ▸ hk)) hgone

theorem ForwarderStep.roster (h : ForwarderStep s e s' os)
    (hs : s.waiting.Nodup ∧ ∀ k ∈ s.waiting, k ∈ s.seen)
    (hwf : s.roster.WellFormed) :
    Roster.Step (relayMachine .localTcpForwarder) (Left os) s.roster e.relayEvent s'.roster
      (os.filterMap relayOutput) := by
  have hrest (hhandled : os.filterMap handledSocket = []) (hevent : e.relayEvent = none)
      (hrelay : os.filterMap relayOutput = []) (hmembers : s'.connections = s.connections) :
      Roster.Step (relayMachine .localTcpForwarder) (Left os) s.roster e.relayEvent s'.roster
        (os.filterMap relayOutput) := by
    rw [hevent, hrelay]
    exact .rest (List.Perm.of_eq hmembers) (h.unborn hhandled)
  cases h with
  | @connection socket e r ps hr =>
    have hhandled : (ps.map (ForwarderOutput.connection socket)).filterMap handledSocket = [] := by
      rw [List.filterMap_map]
      exact List.filterMap_eq_nil_iff.mpr fun _ _ => rfl
    have hrelay : (ps.map (ForwarderOutput.connection socket)).filterMap relayOutput =
        ps.map (Prod.mk socket) := by
      rw [List.filterMap_map]
      exact congrFun List.filterMap_eq_map ps
    obtain ⟨r₁, r₂, hlookup, hstep, hput, -⟩ := Relaying.connectionStep_eq_some hr
    obtain ⟨others, hbefore, hafter⟩ := Relaying.put_perm r₂ hwf.nodup hlookup
    rw [hrelay]
    exact .move hstep hbefore ((List.Perm.of_eq hput).trans hafter)
      ((ForwarderStep.connection hr).unborn hhandled)
  | erase hr =>
    obtain ⟨-, -, gone, hmembers, hfinished, -⟩ := Relaying.erase_eq_some hr
    exact .leave hmembers ((ForwarderStep.erase hr).unborn rfl)
      fun k r hk => .inl (hfinished _ hk)
  | @dial listener socket taken l hphase hl =>
    have hjoin := ForwarderStep.dial hphase hl
    have hwaits := hjoin.waits
    change List.Perm (s.waiting ++ []) (socket :: _) at hwaits
    rw [List.append_nil] at hwaits
    have hsocket := hwaits.mem_iff.mpr (List.mem_cons_self ..)
    obtain ⟨hnot, -⟩ := List.nodup_cons.mp (hwaits.nodup_iff.mp hs.1)
    refine .join (k := socket) (.inl hsocket) (List.perm_append_singleton _ _) ?_
    ext k
    rw [Set.mem_sdiff, Set.mem_singleton_iff]
    constructor
    · rintro (hk | hk)
      · exact ⟨.inl (hwaits.mem_iff.mpr (List.mem_cons_of_mem _ hk)), fun he => hnot (he ▸ hk)⟩
      · exact ⟨.inr hk, fun he => hk (he ▸ hs.2 socket hsocket)⟩
    · rintro ⟨hk | hk, hne⟩
      · exact .inl ((List.mem_cons.mp (hwaits.mem_iff.mp hk)).resolve_left hne)
      · exact .inr hk
  | refuse hphase =>
    refine (ForwarderStep.refuse hphase).dismiss rfl ?_ rfl rfl
    intro k hk
    obtain rfl := List.mem_singleton.mp hk
    exact ⟨_, List.mem_singleton_self _⟩
  | @throw before after l e hl hphase =>
    have hrelay : (l.sockets.filterMap fun k => relayOutput (closed before.length k)) = [] :=
      List.filterMap_eq_nil_iff.mpr fun _ _ => rfl
    rw [filterMap_thrown _ rfl, hrelay]
    refine (ForwarderStep.throw hl hphase).dismiss rfl ?_ rfl ?_
    · rw [filterMap_thrown _ rfl]
      intro k hk
      refine ⟨before.length, List.mem_append_left _ (List.mem_map.mpr ⟨k, ?_, rfl⟩)⟩
      rwa [show (l.sockets.filterMap fun k => handledSocket (closed before.length k)) =
        l.sockets from List.filterMap_some] at hk
    · rw [filterMap_thrown _ rfl]
      exact List.filterMap_eq_nil_iff.mpr fun _ _ => rfl
  | _ => exact hrest rfl rfl rfl rfl

/-- The history of each socket. -/
theorem forwarder_histories (hf : f.IsNew) (h : (localForwarderMachine f).Runs es s os) :
    s.roster.WellFormed ∧ ∀ k, s.roster.Tells (relayMachine .localTcpForwarder) Left k
      (atKey ForwarderEvent.relayEvent k es) (atKey relayOutput k os) os := by
  have hnew : f.roster = ⟨[], Set.univ⟩ := by
    unfold LocalTcpForwarder.roster
    rw [hf.connections, hf.seen]
    congr 1
    exact Set.eq_univ_of_forall fun k => .inr List.not_mem_nil
  refine h.member LocalTcpForwarder.roster ForwarderEvent.relayEvent relayOutput hnew ?_
  intro es s os e s' os' hr hwf hs
  obtain ⟨hnodup, hseen⟩ := forwarder_handled hf hr
  exact (localForwarderMachine_step hs).roster
    ⟨hnodup.of_append_right, fun k hk => hseen k (List.mem_append_right _ hk)⟩ hwf

omit [DecidableEq K] in
/-- What the constructor makes of a mapping. -/
theorem openListener_eq_ok {m : TcpForwardMapping × Except Exn UInt16} {l : ForwardListener K}
    (h : LocalTcpForwarder.openListener m = .ok l) : m.1.remotePort ≠ 0 ∧ l.sockets = [] ∧
      l.mapping.remotePort = m.1.remotePort := by
  unfold LocalTcpForwarder.openListener at h
  split at h
  · cases h
  · rename_i hport
    obtain ⟨port, -, h⟩ := Except.bind_eq_ok_iff.mp h
    obtain rfl := Except.ok.inj h
    refine ⟨hport, rfl, ?_⟩
    show (if m.1.localPort = 0 then { m.1 with localPort := port } else m.1).remotePort = _
    split <;> rfl

omit [DecidableEq K] in
theorem new_eq_ok {mappings : List (TcpForwardMapping × Except Exn UInt16)}
    (h : LocalTcpForwarder.new mappings = .ok f) : f.IsNew ∧
      ∀ (i : ℕ) (port : UInt16),
        (f.listeners.map ForwardListener.mapping)[i]?.map TcpForwardMapping.remotePort =
          some port → port ≠ 0 ∧ ∃ m, mappings[i]? = some m ∧ m.1.remotePort = port := by
  unfold LocalTcpForwarder.new at h
  split at h
  · cases h
  obtain ⟨listeners, hlisteners, h⟩ := Except.bind_eq_ok_iff.mp h
  obtain rfl := Except.ok.inj h
  have hall := Except.mapM_eq_ok_iff.mp hlisteners
  refine ⟨⟨rfl, rfl, rfl, fun l hl => ?_⟩, fun i port hport => ?_⟩
  · obtain ⟨i, hi, rfl⟩ := List.mem_iff_getElem.mp hl
    exact (openListener_eq_ok (hall.get (hall.length_eq ▸ hi) hi)).2.1
  · rw [List.getElem?_map] at hport
    obtain ⟨mapping, hmapping, rfl⟩ := Option.map_eq_some_iff.mp hport
    obtain ⟨l, hl, rfl⟩ := Option.map_eq_some_iff.mp hmapping
    obtain ⟨hi, rfl⟩ := List.getElem?_eq_some_iff.mp hl
    have hi' : i < mappings.length := hall.length_eq ▸ hi
    obtain ⟨hne, -, hremote⟩ := openListener_eq_ok (hall.get hi' hi)
    exact ⟨fun h => hne (hremote ▸ h), _, List.getElem?_eq_getElem hi', hremote.symm⟩

/-- **Each connection runs as if it was alone**: whatever happens at the other sockets, what happens
at the connection of one is a run of a relay. So no octet of another connection gets into it, what
is written to its tunnel and to its host is what the other side has sent, in order, and once a
tunnel was dialed for the socket, the forwarder keeps the connection until it has closed it. -/
theorem forwarder_relays {mappings : List (TcpForwardMapping × Except Exn UInt16)}
    (hnew : LocalTcpForwarder.new mappings = .ok f)
    (h : (localForwarderMachine f).Runs es s os) (socket : K) :
    ∃ r, (relayMachine .localTcpForwarder).Runs (atKey ForwarderEvent.relayEvent socket es) r
        (atKey relayOutput socket os) ∧
      given ((atKey relayOutput socket os).filterMap hostToTunnel) <+:
        pushed ((atKey relayOutput socket os).filterMap hostToTunnel) ∧
      given ((atKey relayOutput socket os).filterMap tunnelToHost) <+:
        pushed ((atKey relayOutput socket os).filterMap tunnelToHost) ∧
      (∀ r', (socket, r') ∈ s.connections → r' = r) ∧
      ∀ i port, .dialed i socket port ∈ os →
        (socket, r) ∈ s.connections ∨ .closed ∈ atKey relayOutput socket os := by
  obtain ⟨hf, -⟩ := new_eq_ok hnew
  obtain ⟨-, htells⟩ := forwarder_histories hf h
  obtain ⟨r, hr, -, halive, hgone⟩ := htells socket
  obtain ⟨hgiven, hgiven'⟩ := relay_hands_on .localTcpForwarder hr
  refine ⟨r, hr, hgiven, hgiven', halive, fun i port hdialed => ?_⟩
  obtain ⟨hnodup, hseen⟩ := forwarder_handled hf h
  have hhandled : socket ∈ os.filterMap handledSocket :=
    List.mem_filterMap.mpr ⟨_, hdialed, rfl⟩
  have hborn : socket ∉ s.roster.unborn := by
    rintro (hwait | hnew)
    · exact (List.nodup_append.mp hnodup).2.2 socket hhandled socket hwait rfl
    · exact hnew (hseen socket (List.mem_append_left _ hhandled))
  by_cases hstay : ∃ t, (socket, t) ∈ s.connections
  · obtain ⟨t, ht⟩ := hstay
    exact .inl (halive t ht ▸ ht)
  · obtain ⟨qs, hqs, hfin | ⟨j, hclosed⟩⟩ := hgone hborn fun t ht => hstay ⟨t, ht⟩
    · have hrelay : Relay.localTcpForwarder ≠ .socksProxy := nofun
      exact .inr (closed_of_finished hrelay hr hfin)
    · -- A socket that a tunnel was dialed for was not closed without one.
      have heq := eq_of_nodup_filterMap hnodup.of_append_left hdialed (hqs hclosed) rfl rfl
      cases heq

/-- Two sockets at two listeners, the first of which sends two octets. -/
def exampleMappings : List (TcpForwardMapping × Except Exn UInt16) :=
  [(⟨8080, 80⟩, .ok 8080), (⟨0, 22⟩, .ok 40000)]

/-- A forwarder with two ports. -/
def exampleForwarder : LocalTcpForwarder ℕ where
  listeners := [{ mapping := ⟨8080, 80⟩ }, { mapping := ⟨40000, 22⟩ }]

/-- Three sockets at two listeners, the last of which is still waiting. -/
def exampleForwards : List (ForwarderEvent ℕ) :=
  [.accept 0 5, .accept 1 7, .poll, .lock, .dial false, .lock, .lock, .dial false, .lock, .lock,
    .connection 5 (.hostRead [1, 2]), .connection 5 (.beginService false none),
    .connection 5 .endService, .connection 7 (.beginService false none), .connection 7 .endService,
    .erase, .accept 0 9, .connection 5 .tunnelConnected]

theorem forwarder_relays_example : ∃ s os,
    (localForwarderMachine exampleForwarder).Runs exampleForwards s os ∧
    pushed ((atKey relayOutput 5 os).filterMap hostToTunnel) = [1, 2] ∧
    given ((atKey relayOutput 5 os).filterMap hostToTunnel) <+:
      pushed ((atKey relayOutput 5 os).filterMap hostToTunnel) := by
  obtain ⟨s, os, hr, hpushed⟩ : ∃ s os,
      (localForwarderMachine exampleForwarder).Runs exampleForwards s os ∧
      pushed ((atKey relayOutput 5 os).filterMap hostToTunnel) = [1, 2] :=
    ⟨_, _, rfl, by decide⟩
  have hnew : LocalTcpForwarder.new exampleMappings = .ok exampleForwarder := by rfl
  obtain ⟨r, -, hgiven, -⟩ := forwarder_relays hnew hr 5
  exact ⟨s, os, hr, hpushed, hgiven⟩

/-- **No socket is lost**: what a listener has accepted was dialed for or closed, in the order in
which it was accepted, and waits otherwise; nothing is handled twice; and every tunnel is dialed to
the port that the mapping of the listener says, which is not zero. -/
theorem forwarder_keeps {mappings : List (TcpForwardMapping × Except Exn UInt16)}
    (hnew : LocalTcpForwarder.new mappings = .ok f)
    (h : (localForwarderMachine f).Runs es s os) (i : ℕ) :
    os.filterMap (acceptedAt i) = os.filterMap (handledAt i) ++ s.pendingAt i ∧
      (os.filterMap handledSocket).Nodup ∧
      ∀ socket port, .dialed i socket port ∈ os →
        port ≠ 0 ∧ ∃ m, mappings[i]? = some m ∧ m.1.remotePort = port := by
  obtain ⟨hf, hports⟩ := new_eq_ok hnew
  refine ⟨forwarder_order hf h i, (forwarder_handled hf h).1.of_append_left, ?_⟩
  exact fun socket port hdialed => hports i port (forwarder_ports h hdialed)

theorem forwarder_keeps_example : ∃ s os,
    (localForwarderMachine exampleForwarder).Runs exampleForwards s os ∧
    os.filterMap (acceptedAt 0) = [5, 9] ∧
    os.filterMap (acceptedAt 0) = os.filterMap (handledAt 0) ++ s.pendingAt 0 := by
  obtain ⟨s, os, hr, haccepted⟩ : ∃ s os,
      (localForwarderMachine exampleForwarder).Runs exampleForwards s os ∧
      os.filterMap (acceptedAt 0) = [5, 9] := ⟨_, _, rfl, by decide⟩
  have hnew : LocalTcpForwarder.new exampleMappings = .ok exampleForwarder := by rfl
  exact ⟨s, os, hr, haccepted, (forwarder_keeps hnew hr 0).1⟩

end Connections

end Tailcat
