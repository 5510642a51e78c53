import Tailcat.Cli.RunClient

/-!
# The pipe of a server

Without a command, the server listens on port 1 and copies the first stream that arrives there to
stdout, until the client ends it. Streams that arrive later stay in the queue of the listener: they
receive, but nobody reads them.

## Main definitions

* `DefaultServer`: the streams of the listener, in the order of their arrival
* `defaultServerMachine`: the command
* `firstToStdout`: the pipe from the first stream to stdout

## Main results

* `DefaultServer.step_feeds`: a step of the command keeps the pipe going
* `defaultServer_feeds`, `defaultServer_succeeds`: the pipe goes on in every run, whatever arrives
  on other streams, and success means that stdout has got everything
-/

namespace Tailcat

/-- The variables of the default server, and whether it is still running. -/
structure DefaultServer where
  /-- The streams that have arrived; the first one is the one that is accepted. -/
  streams : List TcpStream := []
  /-- The first stream was taken off the queue of the listener. -/
  accepted : Bool := false
  running : Bool := true
  deriving DecidableEq

/-- What arrives on the streams, by their numbers, and what the command does. -/
inductive DefaultServerOutput
  | arrived
  | received (stream : ℕ) (octets : List UInt8)
  | fin (stream : ℕ)
  | toStdout (octets : List UInt8)
  | closed
  | returned (result : Except Exn ℤ)
  deriving DecidableEq

/-- A stream arrives at the listener, something happens to a stream, the data plane throws while it
is pumped, or the loop takes a turn. -/
inductive DefaultServerEvent
  | arrive
  | stream (i : ℕ) (e : StreamEvent)
  | pumpThrows (x : Exn)
  | turn (stdout : Option (ℕ × Exn))

namespace DefaultServer

/-- What of an event at the stream `i` can be seen. -/
def outputs (i : ℕ) : StreamEvent → List DefaultServerOutput
  | .receive octets => [.received i octets]
  | .fin => [.fin i]
  | _ => []

/-- The command ends, with the result. -/
def returns (c : DefaultServer) (result : Except Exn ℤ) :
    DefaultServer × List DefaultServerOutput :=
  ({ c with running := false }, [.returned result])

/-- A turn of the loop, after the pumping. -/
def turn (stdout : Option (ℕ × Exn)) (c : DefaultServer) :
    DefaultServer × List DefaultServerOutput :=
  match c.streams with
  | [] => (c, [])
  | stream :: waiting =>
    let copied := copyToStdout stdout stream
    let c := { c with streams := copied.1 :: waiting, accepted := true }
    let written := (copied.2.1.map .toStdout).toList
    match copied.2.2 with
    | .error x => ((c.returns (.error x)).1, written ++ (c.returns (.error x)).2)
    | .ok () =>
      if copied.1.eof then
        ((c.returns (.ok 0)).1, written ++ .closed :: (c.returns (.ok 0)).2)
      else
        (c, written)

/-- A turn of one of the two loops, or an event at the listener or at a stream. -/
def step (c : DefaultServer) : DefaultServerEvent →
    Option (DefaultServer × List DefaultServerOutput)
  | .arrive =>
    if c.running then
      some ({ c with streams := c.streams ++ [{ connected := true }] }, [.arrived])
    else
      none
  | .stream i e =>
    if c.running then
      match c.streams[i]? with
      | none => none
      | some stream =>
        (stream.move e).map fun stream =>
          ({ c with streams := c.streams.set i stream }, outputs i e)
    else
      none
  | .pumpThrows x => if c.running then some (c.returns (.error x)) else none
  | .turn stdout => if c.running then some (c.turn stdout) else none

end DefaultServer

/-- `run_default_server` from the call of `listen` on. -/
def defaultServerMachine : Machine DefaultServer DefaultServerEvent DefaultServerOutput where
  init := {}
  step := DefaultServer.step

/-! ## The pipe to stdout -/

/-- What goes through the pipe from the first stream to stdout. Returning successfully ends it. -/
def firstToStdout : DefaultServerOutput → Option (PipeAction UInt8)
  | .received 0 octets => some (.push octets)
  | .fin 0 => some .sourceEnd
  | .toStdout octets => some (.give octets)
  | .returned (.ok _) => some .sinkEnd
  | _ => none

theorem fin_zero_of_sourceEnd {os : List DefaultServerOutput}
    (h : .sourceEnd ∈ os.filterMap firstToStdout) : .fin 0 ∈ os := by
  obtain ⟨o, ho, he⟩ := List.mem_filterMap.mp h
  cases o with
  | fin i => cases i with
    | zero => exact ho
    | succ i => cases he
  | received i octets => cases i <;> simp [firstToStdout] at he
  | returned result => cases result <;> simp [firstToStdout] at he
  | _ => simp [firstToStdout] at he

namespace DefaultServer

/-- The first stream, or what it will be when it arrives. -/
def first (c : DefaultServer) : TcpStream := c.streams.head?.getD { connected := true }

/-- The command stands for the pipe `q`. -/
structure Copies (c : DefaultServer) (q : Pipe UInt8) : Prop where
  feeds : c.first.Feeds q
  unreturned : q.closed = false

variable {c c' : DefaultServer} {os : List DefaultServerOutput}

/-- Only what arrives on the first stream is for stdout. -/
theorem outputs_filterMap (i : ℕ) (e : StreamEvent) :
    (outputs i e).filterMap firstToStdout = if i = 0 then e.actions else [] := by
  cases i <;> cases e <;> rfl

/-- **A turn of the loop** writes what the first stream has received. It succeeds when that stream
has ended, and then stdout has got everything. -/
theorem turn_feeds (stdout : Option (ℕ × Exn)) {q : Pipe UInt8} (hc : c.Copies q) :
    ∃ q', q.steps ((c.turn stdout).2.filterMap firstToStdout) = some q' ∧
      ((c.turn stdout).1.running = true → (c.turn stdout).1.Copies q') := by
  unfold turn
  split
  · exact ⟨q, rfl, fun _ => hc⟩
  rename_i stream waiting hstreams
  have hfirst : c.first = stream := by
    unfold first
    rw [hstreams]
    rfl
  obtain ⟨q', hq, hok⟩ := copyToStdout_feeds stdout (hfirst ▸ hc.feeds)
  have hwritten :
      ((copyToStdout stdout stream).2.1.map DefaultServerOutput.toStdout).toList.filterMap
        firstToStdout = ((copyToStdout stdout stream).2.1.map .give).toList := by
    cases (copyToStdout stdout stream).2.1 <;> rfl
  dsimp only
  split
  · refine ⟨q', ?_, nofun⟩
    rw [List.filterMap_append, hwritten]
    exact (List.append_nil _).symm ▸ hq
  · rename_i hdone
    obtain ⟨hfeeds, hnone, hclosed⟩ := hok hdone
    split
    · rename_i heof
      obtain ⟨q'', hend, -⟩ := Pipe.step_sinkEnd (hfeeds.fin.trans heof)
        (hfeeds.received.trans hnone) (hclosed.trans hc.unreturned)
      refine ⟨q'', ?_, nofun⟩
      rw [List.filterMap_append, hwritten, Pipe.steps_append, hq]
      exact (Pipe.steps_singleton q' _).trans hend
    · exact ⟨q', by rw [hwritten]; exact hq, fun _ => ⟨hfeeds, hclosed.trans hc.unreturned⟩⟩

/-- **A step of the command** performs actions of the pipe, which goes on unless it returns. -/
theorem step_feeds {e : DefaultServerEvent} (hs : c.step e = some (c', os)) {q : Pipe UInt8}
    (hc : c.Copies q) :
    ∃ q', q.steps (os.filterMap firstToStdout) = some q' ∧
      (c'.running = true → c'.Copies q') := by
  cases e with
  | arrive =>
    dsimp only [step] at hs
    split_ifs at hs
    obtain ⟨rfl, rfl⟩ := Prod.mk.inj (Option.some.inj hs)
    refine ⟨q, rfl, fun _ => ⟨?_, hc.unreturned⟩⟩
    -- A stream that arrives first has not received anything yet.
    have hfirst : DefaultServer.first { c with streams := c.streams ++ [{ connected := true }] } =
        c.first := by
      unfold first
      cases c.streams <;> rfl
    rw [hfirst]
    exact hc.feeds
  | stream i e =>
    dsimp only [step] at hs
    split_ifs at hs
    split at hs
    · cases hs
    rename_i stream hstream
    obtain ⟨stream', hmove, heq⟩ := Option.map_eq_some_iff.mp hs
    obtain ⟨rfl, rfl⟩ := Prod.mk.inj heq
    rw [outputs_filterMap]
    cases i with
    | zero =>
      obtain ⟨waiting, hstreams⟩ : ∃ waiting, c.streams = stream :: waiting := by
        cases hc : c.streams with
        | nil => simp [hc] at hstream
        | cons s waiting =>
          rw [hc] at hstream
          exact ⟨waiting, by rw [Option.some.inj hstream]⟩
      have hfirst : c.first = stream := by
        unfold first
        rw [hstreams]
        rfl
      obtain ⟨q', hq, hfeeds, hclosed, -⟩ := TcpStream.move_feeds hmove (hfirst ▸ hc.feeds)
      refine ⟨q', hq, fun _ => ⟨?_, hclosed.trans hc.unreturned⟩⟩
      unfold first
      rw [hstreams]
      exact hfeeds
    | succ i =>
      refine ⟨q, rfl, fun _ => ⟨?_, hc.unreturned⟩⟩
      have hfirst : DefaultServer.first { c with streams := c.streams.set (i + 1) stream' } =
          c.first := by
        unfold first
        cases c.streams <;> rfl
      rw [hfirst]
      exact hc.feeds
  | pumpThrows x =>
    dsimp only [step] at hs
    split_ifs at hs
    obtain ⟨rfl, rfl⟩ := Prod.mk.inj (Option.some.inj hs)
    exact ⟨q, rfl, nofun⟩
  | turn stdout =>
    dsimp only [step] at hs
    split_ifs at hs
    obtain ⟨rfl, rfl⟩ := Prod.mk.inj (Option.some.inj hs)
    exact turn_feeds stdout hc

/-- Nothing happens after the command has returned. -/
theorem running_of_step {e : DefaultServerEvent} (hs : c.step e = some (c', os)) :
    c.running = true := by
  by_contra hr
  cases e <;> simp [step, hr] at hs

/-- The stream and the listener are closed when the command succeeds, and only then. -/
theorem closed_of_step {e : DefaultServerEvent} (hs : c.step e = some (c', os)) :
    .closed ∈ os ↔ ∃ n, .returned (.ok n) ∈ os := by
  cases e with
  | turn stdout =>
    dsimp only [step] at hs
    split_ifs at hs
    have hos : os = (c.turn stdout).2 := (congrArg Prod.snd (Option.some.inj hs)).symm
    rw [hos]
    unfold turn
    split
    · simp
    dsimp only
    split
    · cases (copyToStdout stdout _).2.1 <;> simp [returns]
    · split
      · cases (copyToStdout stdout _).2.1 <;> simp [returns]
      · cases (copyToStdout stdout _).2.1 <;> simp
  | stream i e =>
    dsimp only [step] at hs
    split_ifs at hs
    split at hs
    · cases hs
    · obtain ⟨stream', -, heq⟩ := Option.map_eq_some_iff.mp hs
      obtain ⟨rfl, rfl⟩ := Prod.mk.inj heq
      cases e <;> simp [outputs]
  | pumpThrows x =>
    dsimp only [step] at hs
    split_ifs at hs
    obtain ⟨rfl, rfl⟩ := Prod.mk.inj (Option.some.inj hs)
    simp
  | arrive =>
    dsimp only [step] at hs
    split_ifs at hs
    obtain ⟨rfl, rfl⟩ := Prod.mk.inj (Option.some.inj hs)
    simp

end DefaultServer

/-! ## Runs -/

section Runs

variable {es : List DefaultServerEvent} {c : DefaultServer} {os : List DefaultServerOutput}

/-- The pipe behind what has happened, and the command, which stands for it until it returns. -/
theorem defaultServer_feeds (h : defaultServerMachine.Runs es c os) :
    ∃ q, Pipe.empty.steps (os.filterMap firstToStdout) = some q ∧
      (c.running = true → c.Copies q) := by
  refine h.trace_invariant (I := fun _ c os => ∃ q,
    Pipe.empty.steps (os.filterMap firstToStdout) = some q ∧
      (c.running = true → c.Copies q)) ?_ ?_
  · exact ⟨.empty, rfl, fun _ => ⟨⟨rfl, rfl⟩, rfl⟩⟩
  · rintro es c os e c' os' - ⟨q, hq, hc⟩ hs
    obtain ⟨q', hq', hc'⟩ := DefaultServer.step_feeds hs (hc (DefaultServer.running_of_step hs))
    refine ⟨q', ?_, hc'⟩
    rw [List.filterMap_append, Pipe.steps_append, hq]
    exact hq'

theorem defaultServer_closed (h : defaultServerMachine.Runs es c os) :
    .closed ∈ os ↔ ∃ n, .returned (.ok n) ∈ os := by
  refine h.trace_invariant (I := fun _ _ os => .closed ∈ os ↔ ∃ n, .returned (.ok n) ∈ os)
    (by simp) ?_
  intro es c os e c' os' _ hI hs
  simp only [List.mem_append, hI, DefaultServer.closed_of_step hs, exists_or]

/-- When the command succeeds, the first stream has ended, and stdout has got everything. -/
theorem defaultServer_succeeds (h : defaultServerMachine.Runs es c os) {n : ℤ}
    (hn : .returned (.ok n) ∈ os) : .fin 0 ∈ os ∧
      given (os.filterMap firstToStdout) = pushed (os.filterMap firstToStdout) := by
  obtain ⟨q, hq, -⟩ := defaultServer_feeds h
  obtain ⟨hgiven, hended, hclosed⟩ := Pipe.steps_eq_some hq
  obtain ⟨he, hb⟩ := q.done_of_closed (hclosed.mpr (List.mem_filterMap.mpr ⟨_, hn, rfl⟩))
  exact ⟨fin_zero_of_sourceEnd (hended.mp he), by rw [hgiven, hb, List.append_nil]⟩

end Runs

end Tailcat
