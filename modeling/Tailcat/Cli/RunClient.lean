import Tailcat.Base.Pipe
import Tailcat.Derp.Transport
import Tailcat.Relay.Connection

/-!
# The pipe of a client

`run_client` dials a port of the server, waits for the connection, and then copies stdin to the
stream and the stream to stdout, until the peer ends the stream. A thread of its own reads stdin and
queues what it reads, as the reader threads of the relays do. The stream moves while the loop pumps
the data plane, between the turns of the loop.

## Main definitions

* `TcpStream`, `StreamEvent`: a stream with the text of its error, and what happens to it
* `copyToStdout`: the copying that the commands share which write to stdout
* `RunClient`, `RunClient.turn`: the variables of `run_client`, and a turn of its loop
* `runClientMachine`: the command, with the thread that reads stdin and the events of the stream

## Main results

* `RunClient.step_advances`: a step of the command keeps its two pipes going
* `runClient_relays`: both pipes are transparent in every run, also in one that fails
-/

namespace Tailcat

/-! ## Streams and stdout -/

/-- A stream of the tunnel with what its `error()` returns. -/
structure TcpStream extends Tunnel where
  error : String := ""
  deriving DecidableEq

/-- What happens to a stream while the data plane is pumped. -/
inductive StreamEvent
  | connected
  | receive (octets : List UInt8)
  | fin
  | fail (error : String)

/-- A stream receives while it is connected, has not ended and has not failed. -/
def TcpStream.move (s : TcpStream) : StreamEvent → Option TcpStream
  | .connected => if ¬ s.connected ∧ ¬ s.failed then some { s with connected := true } else none
  | .receive octets =>
    if s.connected ∧ ¬ s.eof ∧ ¬ s.failed then
      some { s with received := s.received ++ octets }
    else
      none
  | .fin => if s.connected ∧ ¬ s.eof ∧ ¬ s.failed then some { s with eof := true } else none
  | .fail error => if ¬ s.failed then some { s with failed := true, error } else none

/-- The exception for a stream that has failed, with the stream's own text. -/
def streamFailed (error : String) : Exn :=
  .runtimeError ("Tailcat TCP stream failed: " ++ error)

/-- What the stream has received goes to stdout, unless the stream has failed. `stdout` is how much
of it was written before writing threw, if it did. -/
def copyToStdout (stdout : Option (ℕ × Exn)) (s : TcpStream) :
    TcpStream × Option (List UInt8) × Except Exn Unit :=
  if s.failed then
    (s, none, .error (streamFailed s.error))
  else
    let read := { s with received := [] }
    if s.received = [] then
      (read, none, .ok ())
    else
      match stdout with
      | none => (read, some s.received, .ok ())
      | some (k, x) => (read, some (s.received.take k), .error x)

/-- The stream has failed, nothing has arrived, everything is written, or writing throws. -/
theorem copyToStdout_cases (stdout : Option (ℕ × Exn)) (s : TcpStream) :
    (∃ x, copyToStdout stdout s = (s, none, .error x)) ∨
    (s.received = [] ∧ copyToStdout stdout s = (s, none, .ok ())) ∨
    copyToStdout stdout s = ({ s with received := [] }, some s.received, .ok ()) ∨
    ∃ k x, copyToStdout stdout s =
      ({ s with received := [] }, some (s.received.take k), .error x) := by
  unfold copyToStdout
  split
  · exact .inl ⟨_, rfl⟩
  dsimp only
  split
  · rename_i hnone
    refine .inr (.inl ⟨hnone, ?_⟩)
    rw [← hnone]
  · rcases stdout with _ | ⟨k, x⟩
    · exact .inr (.inr (.inl rfl))
    · exact .inr (.inr (.inr ⟨k, x, rfl⟩))

/-- What a pipe gets from a stream. -/
def StreamEvent.actions : StreamEvent → List (PipeAction UInt8)
  | .receive octets => [.push octets]
  | .fin => [.sourceEnd]
  | _ => []

/-- What the stream has received is under way in the pipe, which has ended with the stream. -/
structure TcpStream.Feeds (s : TcpStream) (q : Pipe UInt8) : Prop where
  received : q.buffered = s.received
  fin : q.ended = s.eof

/-- What the stream receives, and its end, are what the pipe gets. -/
theorem TcpStream.move_feeds {s s' : TcpStream} {e : StreamEvent} {q : Pipe UInt8}
    (h : s.move e = some s') (hq : s.Feeds q) :
    ∃ q', q.steps e.actions = some q' ∧ s'.Feeds q' ∧ q'.closed = q.closed ∧
      (s.eof = true → s'.received = s.received ∧ s'.eof = true) := by
  cases e with
  | connected =>
    dsimp only [move] at h
    split_ifs at h
    obtain rfl := Option.some.inj h
    exact ⟨q, rfl, { hq with }, rfl, fun heof => ⟨rfl, heof⟩⟩
  | fail error =>
    dsimp only [move] at h
    split_ifs at h
    obtain rfl := Option.some.inj h
    exact ⟨q, rfl, { hq with }, rfl, fun heof => ⟨rfl, heof⟩⟩
  | receive octets =>
    dsimp only [move] at h
    split_ifs at h with hopen
    obtain rfl := Option.some.inj h
    have heof : s.eof = false := Bool.not_eq_true _ ▸ hopen.2.1
    obtain ⟨q', hs, hb, he, hclosed⟩ := Pipe.step_push (hq.fin.trans heof) octets
    refine ⟨q', (Pipe.steps_singleton q _).trans hs, ⟨?_, he.trans hq.fin⟩, hclosed, ?_⟩
    · exact hb.trans (congrArg (· ++ octets) hq.received)
    · exact fun h => absurd h hopen.2.1
  | fin =>
    dsimp only [move] at h
    split_ifs at h with hopen
    obtain rfl := Option.some.inj h
    have heof : s.eof = false := Bool.not_eq_true _ ▸ hopen.2.1
    obtain ⟨q', hs, hb, he, hclosed⟩ := Pipe.step_sourceEnd (hq.fin.trans heof)
    refine ⟨q', (Pipe.steps_singleton q _).trans hs, ⟨hb.trans hq.received, he⟩, hclosed, ?_⟩
    exact fun _ => ⟨rfl, rfl⟩

/-- What is written to stdout is what is under way, and nothing is under way after that. -/
theorem copyToStdout_feeds (stdout : Option (ℕ × Exn)) {s : TcpStream} {q : Pipe UInt8}
    (hq : s.Feeds q) :
    ∃ q', q.steps ((copyToStdout stdout s).2.1.map .give).toList = some q' ∧
      ((copyToStdout stdout s).2.2 = .ok () → (copyToStdout stdout s).1.Feeds q' ∧
        (copyToStdout stdout s).1.received = [] ∧ q'.closed = q.closed) := by
  rcases copyToStdout_cases stdout s with ⟨x, he⟩ | ⟨hnone, he⟩ | he | ⟨k, x, he⟩ <;> rw [he]
  · exact ⟨q, rfl, nofun⟩
  · exact ⟨q, rfl, fun _ => ⟨hq, hnone, rfl⟩⟩
  · have hall : q.buffered = s.received ++ [] := hq.received.trans (List.append_nil _).symm
    obtain ⟨q', hs, hb, he, hclosed⟩ := Pipe.step_give hall
    exact ⟨q', (Pipe.steps_singleton q _).trans hs, fun _ => ⟨⟨hb, he.trans hq.fin⟩, rfl, hclosed⟩⟩
  · obtain ⟨q', hs, -⟩ := Pipe.step_give
      (hq.received.trans (List.take_append_drop k s.received).symm)
    exact ⟨q', (Pipe.steps_singleton q _).trans hs, nofun⟩

/-- Reading leaves the end of the stream as it is. -/
theorem copyToStdout_eof (stdout : Option (ℕ × Exn)) (s : TcpStream) :
    (copyToStdout stdout s).1.eof = s.eof := by
  rcases copyToStdout_cases stdout s with ⟨x, he⟩ | ⟨-, he⟩ | he | ⟨k, x, he⟩ <;> rw [he]

/-! ## `run_client` -/

/-- What the thread that reads stdin has read. -/
structure InputState where
  chunks : List (List UInt8) := []
  done : Bool := false
  error : String := ""
  deriving DecidableEq

/-- What the two ends of the command give and get, and how it returns. Closing is closing of the
stream. -/
inductive RunClientOutput
  | stdinRead (chunk : List UInt8)
  | stdinEnd
  | received (octets : List UInt8)
  | fin
  | toTunnel (octets : List UInt8)
  | tunnelShutdown
  | toStdout (octets : List UInt8)
  | tunnelClosed
  | returned (result : Except Exn ℤ)
  deriving DecidableEq

/-- Where `run_client` stands: waiting for the connection, copying, pumping for a last quarter of a
second, or nowhere any more. -/
inductive RunClientPoint
  | connecting (deadline : ℤ)
  | relaying
  | draining (deadline : ℤ)
  | returned
  deriving DecidableEq

/-- The variables of `run_client`, and where in its body it stands. -/
structure RunClient where
  stream : TcpStream
  point : RunClientPoint
  /-- Absent until the thread that reads stdin is started. -/
  input : Option InputState := none
  pending : List UInt8 := []
  pendingOffset : ℕ := 0
  writeShutdown : Bool := false
  deriving DecidableEq

namespace RunClient

/-- What a part of a turn does: the variables after it, what happened, and the exception that it
ended with, if any. -/
abbrev Part := RunClient × List RunClientOutput × Except Exn Unit

/-- A part of a turn, and the next one unless the first one threw. -/
def Part.andThen (p : Part) (f : RunClient → Part) : Part :=
  match p.2.2 with
  | .error _ => p
  | .ok () => ((f p.1).1, p.2.1 ++ (f p.1).2.1, (f p.1).2.2)

/-- What was received is written to stdout, as far as stdout takes it. -/
def copyReceived (stdout : Option (ℕ × Exn)) (c : RunClient) : Part :=
  let copied := copyToStdout stdout c.stream
  ({ c with stream := copied.1 }, (copied.2.1.map .toStdout).toList, copied.2.2)

/-- The next chunk from stdin, under the lock. `shutdown` is what `shutdown_write` does. -/
def takeChunk (shutdown : Except Exn Unit) (c : RunClient) : Part :=
  match c.input with
  | none => (c, [], .ok ())
  | some input =>
    if c.pendingOffset = c.pending.length then
      let c := { c with pending := [], pendingOffset := 0 }
      if input.error ≠ "" then
        (c, [], .error (.runtimeError input.error))
      else
        match input.chunks with
        | chunk :: chunks =>
          ({ c with pending := chunk, input := some { input with chunks } }, [], .ok ())
        | [] =>
          if input.done ∧ ¬ c.writeShutdown then
            match shutdown with
            | .error x => (c, [], .error x)
            | .ok () => ({ c with writeShutdown := true }, [.tunnelShutdown], .ok ())
          else
            (c, [], .ok ())
    else
      (c, [], .ok ())

/-- What is pending is written to the stream. `write` is how many octets of it the stream accepts,
and the exception that writing throws, which may come after that. -/
def writePending (write : ℕ × Option Exn) (c : RunClient) : Part :=
  if c.pendingOffset < c.pending.length then
    let accepted := (c.pending.drop c.pendingOffset).take write.1
    match write.2 with
    | some x => (c, [.toTunnel accepted], .error x)
    | none =>
      ({ c with pendingOffset := c.pendingOffset + accepted.length }, [.toTunnel accepted], .ok ())
  else
    (c, [], .ok ())

/-- The stream is closed when the peer has ended it, whatever is still pending. -/
def closeEnded (now : ℤ) (c : RunClient) : Part :=
  if c.stream.eof then
    ({ c with point := .draining (now + nanoseconds 250) }, [.tunnelClosed], .ok ())
  else
    (c, [], .ok ())

/-- A turn of the loop, after the pumping. -/
def turn (stdout : Option (ℕ × Exn)) (shutdown : Except Exn Unit) (write : ℕ × Option Exn)
    (now : ℤ) (c : RunClient) : Part :=
  (((c.copyReceived stdout).andThen (takeChunk shutdown)).andThen (writePending write)).andThen
    (closeEnded now)

/-- `run_client` returns or throws. -/
def returns (c : RunClient) (result : Except Exn ℤ) : RunClient × List RunClientOutput :=
  ({ c with point := .returned }, [.returned result])

end RunClient

/-! ## The command -/

/-- A step of the thread that reads stdin, an event of the stream, an exception of the data plane
while it is pumped, or a turn of one of the three loops, with what its calls do. -/
inductive RunClientEvent
  | stdinRead (chunk : List UInt8)
  | stdinError (strerror : String)
  | stdinEnd
  | stream (e : StreamEvent)
  | pumpThrows (x : Exn)
  | connectTurn (now : ℤ)
  | turn (stdout : Option (ℕ × Exn)) (shutdown : Except Exn Unit) (write : ℕ × Option Exn) (now : ℤ)
  | drainTurn (now : ℤ)

/-- What of an event can be seen. -/
def StreamEvent.outputs : StreamEvent → List RunClientOutput
  | .receive octets => [.received octets]
  | .fin => [.fin]
  | _ => []

namespace RunClient

/-- The reader of stdin works until it is done. -/
def readStdin (c : RunClient) (allowed : InputState → Prop) [DecidablePred allowed]
    (f : InputState → InputState) (os : InputState → List RunClientOutput) :
    Option (RunClient × List RunClientOutput) :=
  match c.input with
  | none => none
  | some input =>
    if c.point ≠ .returned ∧ allowed input then some ({ c with input := some (f input) }, os input)
    else none

/-- A turn of one of the three loops, a step of the thread that reads stdin, or an event at the
stream. -/
def step (c : RunClient) : RunClientEvent → Option (RunClient × List RunClientOutput)
  | .stdinRead chunk =>
    c.readStdin (fun i => ¬ i.done ∧ i.error = "" ∧ chunk ≠ [])
      (fun i => { i with chunks := i.chunks ++ [chunk] }) fun _ => [.stdinRead chunk]
  | .stdinError strerror =>
    c.readStdin (fun i => ¬ i.done ∧ i.error = "")
      (fun i => { i with error := "stdin read failed: " ++ strerror }) fun _ => []
  | .stdinEnd =>
    -- The reader is done after an error as well, which is no end of stdin.
    c.readStdin (fun i => ¬ i.done) (fun i => { i with done := true }) fun i =>
      if i.error = "" then [.stdinEnd] else []
  | .stream e =>
    match c.point with
    | .connecting _ | .relaying =>
      (c.stream.move e).map fun stream => ({ c with stream }, e.outputs)
    -- A closed stream has no callbacks any more.
    | .draining _ | .returned => none
  | .pumpThrows x => if c.point = .returned then none else some (c.returns (.error x))
  | .connectTurn now =>
    match c.point with
    | .connecting deadline =>
      if c.stream.connected then
        some ({ c with point := .relaying, input := some {} }, [])
      else if c.stream.failed then
        some (c.returns (.error (.runtimeError ("TCP connect failed: " ++ c.stream.error))))
      else if now ≥ deadline then
        some (c.returns (.error (.runtimeError "timed out establishing Tailcat TCP stream")))
      else
        some (c, [])
    | _ => none
  | .turn stdout shutdown write now =>
    if c.point = .relaying then
      let (c, os, result) := c.turn stdout shutdown write now
      match result with
      | .ok () => some (c, os)
      | .error x => some ((c.returns (.error x)).1, os ++ (c.returns (.error x)).2)
    else
      none
  | .drainTurn now =>
    match c.point with
    | .draining deadline => if now < deadline then some (c, []) else some (c.returns (.ok 0))
    | _ => none

end RunClient

/-- `run_client` from the call of `dial` on, at the time `started`. -/
def runClientMachine (started : ℤ) : Machine RunClient RunClientEvent RunClientOutput where
  init := { stream := { connected := false }, point := .connecting (started + nanoseconds 15000) }
  step := RunClient.step

/-! ## The two pipes -/

/-- The end at the tunnel is its shutdown for writing. That the stream is closed, once the peer has
ended it, is not an end of this pipe. -/
def stdinToTunnel : RunClientOutput → Option (PipeAction UInt8)
  | .stdinRead chunk => some (.push chunk)
  | .stdinEnd => some .sourceEnd
  | .toTunnel octets => some (.give octets)
  | .tunnelShutdown => some .sinkEnd
  | _ => none

/-- Returning successfully is the end of what is written to stdout. -/
def tunnelToStdout : RunClientOutput → Option (PipeAction UInt8)
  | .received octets => some (.push octets)
  | .fin => some .sourceEnd
  | .toStdout octets => some (.give octets)
  | .returned (.ok _) => some .sinkEnd
  | _ => none

theorem stdinEnd_of_sourceEnd {os : List RunClientOutput}
    (h : .sourceEnd ∈ os.filterMap stdinToTunnel) : .stdinEnd ∈ os := by
  obtain ⟨o, ho, he⟩ := List.mem_filterMap.mp h
  cases o with
  | stdinEnd => exact ho
  | _ => simp [stdinToTunnel] at he

theorem fin_of_sourceEnd {os : List RunClientOutput}
    (h : .sourceEnd ∈ os.filterMap tunnelToStdout) : .fin ∈ os := by
  obtain ⟨o, ho, he⟩ := List.mem_filterMap.mp h
  cases o with
  | fin => exact ho
  | returned result => cases result <;> simp [tunnelToStdout] at he
  | _ => simp [tunnelToStdout] at he

namespace RunClient

/-- What the thread shares with the loop, which is nothing before it is started. -/
def queue (c : RunClient) : InputState := c.input.getD {}

/-- The command stands for the pipes `p` to the tunnel and `q` to stdout. -/
structure Copies (c : RunClient) (p q : Pipe UInt8) : Prop where
  offset_le : c.pendingOffset ≤ c.pending.length
  buffered : p.buffered = c.pending.drop c.pendingOffset ++ c.queue.chunks.flatten
  ended : p.ended = true ↔ c.queue.done = true ∧ c.queue.error = ""
  closed : p.closed = c.writeShutdown
  feeds : c.stream.Feeds q
  unreturned : q.closed = false
  unread : (∃ deadline, c.point = .connecting deadline) → c.input = none
  drained : (∃ deadline, c.point = .draining deadline) →
    c.stream.eof = true ∧ c.stream.received = []

/-- A part of a turn performs actions of the two pipes. -/
def Advances (c : RunClient) (r : Part) : Prop :=
  ∀ p q, c.Copies p q → ∃ p' q', p.steps (r.2.1.filterMap stdinToTunnel) = some p' ∧
    q.steps (r.2.1.filterMap tunnelToStdout) = some q' ∧ (r.2.2 = .ok () → r.1.Copies p' q')

variable {c : RunClient}

theorem Advances.andThen {r : Part} {f : RunClient → Part} (h : c.Advances r)
    (h' : r.2.2 = .ok () → r.1.Advances (f r.1)) : c.Advances (r.andThen f) := by
  obtain ⟨c₁, os, result⟩ := r
  intro p q hc
  obtain ⟨p₁, q₁, hp, hq, hc₁⟩ := h p q hc
  unfold Part.andThen
  cases result with
  | error x => exact ⟨p₁, q₁, hp, hq, nofun⟩
  | ok u =>
    obtain ⟨p₂, q₂, hp', hq', hc₂⟩ := h' rfl p₁ q₁ (hc₁ rfl)
    refine ⟨p₂, q₂, ?_, ?_, hc₂⟩
    · rw [List.filterMap_append, Pipe.steps_append, hp]
      exact hp'
    · rw [List.filterMap_append, Pipe.steps_append, hq]
      exact hq'

/-- What the second part does, it does when the first one did not throw. -/
theorem Part.mem_andThen {r : Part} {f : RunClient → Part} {o : RunClientOutput}
    (h : o ∈ (r.andThen f).2.1) :
    o ∈ r.2.1 ∨ o ∈ (f r.1).2.1 ∧ (r.andThen f).1 = (f r.1).1 ∧
      (r.andThen f).2.2 = (f r.1).2.2 := by
  obtain ⟨c₁, os, result⟩ := r
  unfold Part.andThen at h ⊢
  cases result with
  | error x => exact .inl h
  | ok u => exact (List.mem_append.mp h).imp_right fun ho => ⟨ho, rfl, rfl⟩

/-- What holds after a part that did not throw, and then after the next one. -/
theorem Part.ok_andThen {r : Part} {f : RunClient → Part} {P : RunClient → Prop}
    (h : r.2.2 = .ok () → P r.1) (h' : ∀ c, P c → (f c).2.2 = .ok () → P (f c).1)
    (hok : (r.andThen f).2.2 = .ok ()) : P (r.andThen f).1 := by
  obtain ⟨c₁, os, result⟩ := r
  unfold Part.andThen at hok ⊢
  cases result with
  | error x => cases hok
  | ok u => exact h' c₁ (h rfl) hok

theorem copyReceived_advances (stdout : Option (ℕ × Exn)) : c.Advances (c.copyReceived stdout) := by
  intro p q h
  obtain ⟨q', hq, hok⟩ := copyToStdout_feeds stdout h.feeds
  refine ⟨p, q', ?_, ?_, fun hr => ?_⟩
  · show p.steps (List.filterMap stdinToTunnel
      ((copyToStdout stdout c.stream).2.1.map .toStdout).toList) = some p
    cases (copyToStdout stdout c.stream).2.1 <;> rfl
  · show q.steps (List.filterMap tunnelToStdout
      ((copyToStdout stdout c.stream).2.1.map .toStdout).toList) = some q'
    generalize (copyToStdout stdout c.stream).2.1 = written at hq
    cases written <;> exact hq
  · obtain ⟨hfeeds, hnone, hclosed⟩ := hok hr
    exact { h with
      feeds := hfeeds
      unreturned := hclosed.trans h.unreturned
      drained := fun hd => ⟨(copyToStdout_eof stdout c.stream).trans (h.drained hd).1, hnone⟩ }

theorem takeChunk_advances (shutdown : Except Exn Unit) : c.Advances (c.takeChunk shutdown) := by
  intro p q h
  unfold takeChunk
  split
  · exact ⟨p, q, rfl, rfl, fun _ => h⟩
  rename_i input hinput
  have hqueue : c.queue = input := by
    unfold queue
    rw [hinput]
    rfl
  split
  · rename_i hall
    have hbuffered := h.buffered
    rw [hall, List.drop_length, hqueue, List.nil_append] at hbuffered
    dsimp only
    split
    · exact ⟨p, q, rfl, rfl, nofun⟩
    rename_i herror
    split
    · -- What was queued first is pending now.
      rename_i chunk chunks hchunks
      refine ⟨p, q, rfl, rfl, fun _ => ?_⟩
      exact { h with
        offset_le := Nat.zero_le _
        buffered := by rw [hbuffered, hchunks]; rfl
        ended := by rw [h.ended, hqueue]; rfl
        unread := fun hp => absurd (hinput.symm.trans (h.unread hp)) (Option.some_ne_none _) }
    · rename_i hchunks
      rw [hchunks, List.flatten_nil] at hbuffered
      have hempty : { c with pending := [], pendingOffset := 0 }.Copies p q :=
        { h with
          offset_le := le_rfl
          buffered := by
            rw [hbuffered]
            show [] = [] ++ c.queue.chunks.flatten
            rw [hqueue, hchunks]
            rfl }
      split
      · rename_i hdone
        cases shutdown with
        | error x => exact ⟨p, q, rfl, rfl, nofun⟩
        | ok u =>
          -- Everything was handed on, and stdin has ended without an error.
          have hended : p.ended = true := h.ended.mpr ⟨hqueue ▸ hdone.1, hqueue ▸ not_not.mp herror⟩
          obtain ⟨p', hp, hb, he, hc⟩ := Pipe.step_sinkEnd hended hbuffered
            (h.closed.trans (Bool.not_eq_true _ ▸ hdone.2))
          refine ⟨p', q, (Pipe.steps_singleton p _).trans hp, rfl, fun _ => ?_⟩
          exact { hempty with
            buffered := hb.trans hempty.buffered
            ended := by rw [he]; exact hempty.ended
            closed := hc }
      · exact ⟨p, q, rfl, rfl, fun _ => hempty⟩
  · exact ⟨p, q, rfl, rfl, fun _ => h⟩

theorem takeChunk_stream (shutdown : Except Exn Unit) (c : RunClient) :
    (c.takeChunk shutdown).1.stream = c.stream := by
  unfold takeChunk
  split
  · rfl
  dsimp only
  split
  · split
    · rfl
    split
    · rfl
    · split
      · cases shutdown <;> rfl
      · rfl
  · rfl

theorem writePending_advances (write : ℕ × Option Exn) : c.Advances (c.writePending write) := by
  intro p q h
  obtain ⟨n, throws⟩ := write
  unfold writePending
  split
  · obtain ⟨p', hp, hb, he, hc⟩ := Pipe.step_take h.buffered n
    cases throws with
    | some x => exact ⟨p', q, (Pipe.steps_singleton p _).trans hp, rfl, nofun⟩
    | none =>
      refine ⟨p', q, (Pipe.steps_singleton p _).trans hp, rfl, fun _ => ?_⟩
      exact { h with
        offset_le := add_length_accepted_le h.offset_le n
        buffered := by rw [hb, List.drop_drop]; rfl
        ended := by rw [he]; exact h.ended
        closed := hc.trans h.closed }
  · exact ⟨p, q, rfl, rfl, fun _ => h⟩

theorem writePending_stream (write : ℕ × Option Exn) (c : RunClient) :
    (c.writePending write).1.stream = c.stream := by
  obtain ⟨n, throws⟩ := write
  unfold writePending
  split
  · cases throws <;> rfl
  · rfl

theorem closeEnded_advances (now : ℤ) (hall : c.stream.received = []) :
    c.Advances (c.closeEnded now) := by
  intro p q h
  unfold closeEnded
  split
  · rename_i heof
    refine ⟨p, q, rfl, rfl, fun _ => ?_⟩
    exact { h with
      unread := by simp
      drained := fun _ => ⟨heof, hall⟩ }
  · exact ⟨p, q, rfl, rfl, fun _ => h⟩

/-- Everything that was received is written to stdout by then. -/
theorem copyReceived_received (stdout : Option (ℕ × Exn)) (c : RunClient)
    (hok : (c.copyReceived stdout).2.2 = .ok ()) :
    (c.copyReceived stdout).1.stream.received = [] := by
  unfold copyReceived at hok ⊢
  rcases copyToStdout_cases stdout c.stream with ⟨x, he⟩ | ⟨hnone, he⟩ | he | ⟨k, x, he⟩ <;>
    rw [he] at hok ⊢
  · cases hok
  · exact hnone

/-- **A turn of the loop** keeps the pipes going, and hands on everything that was received. -/
theorem turn_advances (stdout : Option (ℕ × Exn)) (shutdown : Except Exn Unit)
    (write : ℕ × Option Exn) (now : ℤ) : c.Advances (c.turn stdout shutdown write now) := by
  refine Advances.andThen (Advances.andThen (Advances.andThen (copyReceived_advances stdout)
    fun _ => takeChunk_advances shutdown) fun _ => writePending_advances write) fun hok => ?_
  apply closeEnded_advances
  refine Part.ok_andThen (P := fun c => c.stream.received = []) (Part.ok_andThen
    (P := fun c => c.stream.received = []) (copyReceived_received stdout c) ?_) ?_ hok
  · intro c hc _
    rw [takeChunk_stream, hc]
  · intro c hc _
    rw [writePending_stream, hc]

/-- What the parts of a turn do before the last one: neither closing nor returning. -/
def Plain (os : List RunClientOutput) : Prop :=
  ∀ o ∈ os, o ≠ .tunnelClosed ∧ ∀ result, o ≠ .returned result

theorem copyReceived_plain (stdout : Option (ℕ × Exn)) (c : RunClient) :
    Plain (c.copyReceived stdout).2.1 := by
  unfold copyReceived Plain
  rcases copyToStdout_cases stdout c.stream with ⟨x, he⟩ | ⟨-, he⟩ | he | ⟨k, x, he⟩ <;> simp [he]

theorem takeChunk_plain (shutdown : Except Exn Unit) (c : RunClient) :
    Plain (c.takeChunk shutdown).2.1 := by
  unfold takeChunk Plain
  grind

theorem writePending_plain (write : ℕ × Option Exn) (c : RunClient) :
    Plain (c.writePending write).2.1 := by
  unfold writePending Plain
  grind

/-- A turn returns nothing, and closing the stream, which has ended, is the last thing it does. -/
theorem turn_closes {stdout : Option (ℕ × Exn)} {shutdown : Except Exn Unit}
    {write : ℕ × Option Exn} {now : ℤ} {o : RunClientOutput}
    (ho : o ∈ (c.turn stdout shutdown write now).2.1) :
    (∀ result, o ≠ .returned result) ∧
      (o = .tunnelClosed → (c.turn stdout shutdown write now).1.stream.eof = true ∧
        (c.turn stdout shutdown write now).1.point ≠ .returned ∧
        (c.turn stdout shutdown write now).2.2 = .ok ()) := by
  have hplain {os : List RunClientOutput} (hos : Plain os) (ho : o ∈ os) {P : Prop} :
      (∀ result, o ≠ .returned result) ∧ (o = .tunnelClosed → P) :=
    ⟨(hos o ho).2, fun h => absurd h (hos o ho).1⟩
  rcases Part.mem_andThen ho with h | ⟨h, he, hok⟩
  · rcases Part.mem_andThen h with h | ⟨h, -⟩
    · rcases Part.mem_andThen h with h | ⟨h, -⟩
      · exact hplain (copyReceived_plain stdout c) h
      · exact hplain (takeChunk_plain shutdown _) h
    · exact hplain (writePending_plain write _) h
  · unfold turn
    rw [he, hok]
    unfold closeEnded at h ⊢
    split at h
    · rename_i heof
      rw [if_pos heof]
      obtain rfl := List.mem_singleton.mp h
      exact ⟨nofun, fun _ => ⟨heof, nofun, rfl⟩⟩
    · cases h

/-! ## Steps -/

variable {c' : RunClient} {os : List RunClientOutput}

theorem readStdin_eq_some {allowed : InputState → Prop} [DecidablePred allowed]
    {f : InputState → InputState} {out : InputState → List RunClientOutput}
    (h : c.readStdin allowed f out = some (c', os)) :
    ∃ input, c.input = some input ∧ allowed input ∧ c' = { c with input := some (f input) } ∧
      os = out input := by
  unfold readStdin at h
  split at h
  · cases h
  · rename_i input hinput
    split at h
    · rename_i hallowed
      obtain ⟨rfl, rfl⟩ := Prod.mk.inj (Option.some.inj h)
      exact ⟨input, hinput, hallowed.2, rfl, rfl⟩
    · cases h

/-- What the reader of stdin has queued is read by the pipe to the tunnel. -/
theorem stdin_advances {allowed : InputState → Prop} [DecidablePred allowed]
    {f : InputState → InputState} {out : InputState → List RunClientOutput}
    (hf : ∀ i (p : Pipe UInt8), allowed i → (p.ended = true ↔ i.done = true ∧ i.error = "") →
      (out i).filterMap tunnelToStdout = [] ∧
      ∃ p' rest, p.steps ((out i).filterMap stdinToTunnel) = some p' ∧
        (f i).chunks.flatten = i.chunks.flatten ++ rest ∧ p'.buffered = p.buffered ++ rest ∧
        (p'.ended = true ↔ (f i).done = true ∧ (f i).error = "") ∧ p'.closed = p.closed)
    (h : c.readStdin allowed f out = some (c', os)) : c.Advances (c', os, .ok ()) := by
  obtain ⟨input, hinput, hallowed, rfl, rfl⟩ := readStdin_eq_some h
  have hqueue : c.queue = input := by
    unfold queue
    rw [hinput]
    rfl
  intro p q hc
  obtain ⟨hq, p', rest, hp, hchunks, hbuffered, hended, hclosed⟩ :=
    hf input p hallowed (hqueue ▸ hc.ended)
  refine ⟨p', q, hp, by rw [hq]; rfl, fun _ => ?_⟩
  exact { hc with
    buffered := by
      rw [hbuffered, hc.buffered, hqueue, List.append_assoc, ← hchunks]
      rfl
    ended := hended
    closed := hclosed.trans hc.closed
    unread := fun hp => absurd (hinput.symm.trans (hc.unread hp)) (Option.some_ne_none _) }

/-- What the stream receives, and its end, are what the pipe to stdout gets. -/
theorem stream_advances {e : StreamEvent} {stream : TcpStream}
    (h : c.stream.move e = some stream) : c.Advances ({ c with stream }, e.outputs, .ok ()) := by
  intro p q hc
  obtain ⟨q', hq, hfeeds, hclosed, hended⟩ := TcpStream.move_feeds h hc.feeds
  refine ⟨p, q', ?_, ?_, fun _ => ?_⟩
  · cases e <;> rfl
  · cases e <;> exact hq
  · exact { hc with
      feeds := hfeeds
      unreturned := hclosed.trans hc.unreturned
      drained := fun hd =>
        have hdone := hended (hc.drained hd).1
        ⟨hdone.2, hdone.1.trans (hc.drained hd).2⟩ }

/-- **A step of the command** performs actions of the two pipes, and they go on unless it
returns. -/
theorem step_advances {e : RunClientEvent} (hs : c.step e = some (c', os)) {p q : Pipe UInt8}
    (hc : c.Copies p q) :
    ∃ p' q', p.steps (os.filterMap stdinToTunnel) = some p' ∧
      q.steps (os.filterMap tunnelToStdout) = some q' ∧
      (c'.point ≠ .returned → c'.Copies p' q') := by
  have hgoes : c.Advances (c', os, .ok ()) → ∃ p' q',
      p.steps (os.filterMap stdinToTunnel) = some p' ∧
      q.steps (os.filterMap tunnelToStdout) = some q' ∧
      (c'.point ≠ .returned → c'.Copies p' q') := by
    intro h
    obtain ⟨p', q', hp, hq, hc'⟩ := h p q hc
    exact ⟨p', q', hp, hq, fun _ => hc' rfl⟩
  cases e with
  | stdinRead chunk =>
    refine hgoes (stdin_advances ?_ hs)
    intro i p hi hended
    have hopen : p.ended = false := Bool.not_eq_true _ ▸ fun he => hi.1 (hended.mp he).1
    obtain ⟨p', hp, hb, he, hclosed⟩ := Pipe.step_push hopen chunk
    refine ⟨rfl, p', chunk, (Pipe.steps_singleton p _).trans hp, by simp, hb, ?_, hclosed⟩
    rw [he]
    exact hended
  | stdinError strerror =>
    refine hgoes (stdin_advances ?_ hs)
    intro i p hi hended
    refine ⟨rfl, p, [], rfl, (List.append_nil _).symm, (List.append_nil _).symm, ?_, rfl⟩
    refine iff_of_false (fun he => hi.1 (hended.mp he).1) fun hd => ?_
    simp at hd
  | stdinEnd =>
    refine hgoes (stdin_advances ?_ hs)
    intro i p hi hended
    have hopen : p.ended = false := Bool.not_eq_true _ ▸ fun he => hi (hended.mp he).1
    by_cases herror : i.error = ""
    · obtain ⟨p', hp, hb, he, hclosed⟩ := Pipe.step_sourceEnd hopen
      rw [if_pos herror]
      refine ⟨rfl, p', [], (Pipe.steps_singleton p _).trans hp, (List.append_nil _).symm,
        hb.trans (List.append_nil _).symm, ?_, hclosed⟩
      exact iff_of_true he ⟨rfl, herror⟩
    · rw [if_neg herror]
      refine ⟨rfl, p, [], rfl, (List.append_nil _).symm, (List.append_nil _).symm, ?_, rfl⟩
      exact iff_of_false (hopen ▸ Bool.false_ne_true) fun hd => herror hd.2
  | stream e =>
    dsimp only [step] at hs
    split at hs
    all_goals first
      | cases hs
      | obtain ⟨stream, hmove, he⟩ := Option.map_eq_some_iff.mp hs
        obtain ⟨rfl, rfl⟩ := Prod.mk.inj he
        exact hgoes (stream_advances hmove)
  | pumpThrows x =>
    dsimp only [step] at hs
    split_ifs at hs
    obtain ⟨rfl, rfl⟩ := Prod.mk.inj (Option.some.inj hs)
    exact ⟨p, q, rfl, rfl, fun hp => absurd rfl hp⟩
  | connectTurn now =>
    dsimp only [step] at hs
    split at hs
    · rename_i deadline hpoint
      have hnone := hc.unread ⟨deadline, hpoint⟩
      split_ifs at hs <;> obtain ⟨rfl, rfl⟩ := Prod.mk.inj (Option.some.inj hs)
      · -- The reader of stdin starts with an empty queue.
        have hqueue : c.queue = {} := by
          unfold queue
          rw [hnone]
          rfl
        refine ⟨p, q, rfl, rfl, fun _ => ?_⟩
        exact { hc with
          buffered := by rw [hc.buffered, hqueue]; rfl
          ended := by rw [hc.ended, hqueue]; rfl
          unread := by simp
          drained := by simp }
      · exact ⟨p, q, rfl, rfl, fun hp => absurd rfl hp⟩
      · exact ⟨p, q, rfl, rfl, fun hp => absurd rfl hp⟩
      · exact ⟨p, q, rfl, rfl, fun _ => hc⟩
    · cases hs
  | turn stdout shutdown write now =>
    dsimp only [step] at hs
    split_ifs at hs
    have hturn := turn_advances stdout shutdown write now p q hc
    generalize c.turn stdout shutdown write now = r at hs hturn
    obtain ⟨c₁, os₁, x | u⟩ := r
    · obtain ⟨rfl, rfl⟩ := Prod.mk.inj (Option.some.inj hs)
      obtain ⟨p', q', hp, hq, -⟩ := hturn
      refine ⟨p', q', ?_, ?_, fun hp => absurd rfl hp⟩
      · rw [List.filterMap_append]
        exact (List.append_nil _).symm ▸ hp
      · rw [List.filterMap_append]
        exact (List.append_nil _).symm ▸ hq
    · obtain ⟨rfl, rfl⟩ := Prod.mk.inj (Option.some.inj hs)
      obtain ⟨p', q', hp, hq, hc'⟩ := hturn
      exact ⟨p', q', hp, hq, fun _ => hc' rfl⟩
  | drainTurn now =>
    dsimp only [step] at hs
    split at hs
    · rename_i deadline hpoint
      obtain ⟨heof, hall⟩ := hc.drained ⟨deadline, hpoint⟩
      split_ifs at hs
      · obtain ⟨rfl, rfl⟩ := Prod.mk.inj (Option.some.inj hs)
        exact ⟨p, q, rfl, rfl, fun _ => hc⟩
      · -- The stream has ended, and stdout has got everything.
        obtain ⟨rfl, rfl⟩ := Prod.mk.inj (Option.some.inj hs)
        obtain ⟨q', hq, -⟩ :=
          Pipe.step_sinkEnd (hc.feeds.fin.trans heof) (hc.feeds.received.trans hall)
          hc.unreturned
        exact ⟨p, q', rfl, (Pipe.steps_singleton q _).trans hq, fun hp => absurd rfl hp⟩
    · cases hs

/-- Nothing happens after the command has returned. -/
theorem point_of_step {e : RunClientEvent} (hs : c.step e = some (c', os)) :
    c.point ≠ .returned := by
  intro hp
  cases e <;> simp [step, readStdin, hp] at hs
  all_goals
    split at hs <;> cases hs

/-- A step neither closes nor returns, or it just returns, or it is a turn of the loop. -/
theorem outputs_of_step {e : RunClientEvent} (hs : c.step e = some (c', os)) :
    Plain os ∨ (∃ result, (c', os) = c.returns result) ∨
      ∃ stdout shutdown write now, e = .turn stdout shutdown write now := by
  cases e with
  | stdinRead chunk =>
    obtain ⟨input, -, -, -, rfl⟩ := readStdin_eq_some hs
    exact .inl (by simp [Plain])
  | stdinError strerror =>
    obtain ⟨input, -, -, -, rfl⟩ := readStdin_eq_some hs
    exact .inl (by simp [Plain])
  | stdinEnd =>
    obtain ⟨input, -, -, -, rfl⟩ := readStdin_eq_some hs
    exact .inl (by split <;> simp [Plain])
  | stream e =>
    dsimp only [step] at hs
    have he : Plain e.outputs := by cases e <;> simp [Plain, StreamEvent.outputs]
    split at hs
    all_goals first
      | cases hs
      | obtain ⟨stream, -, heq⟩ := Option.map_eq_some_iff.mp hs
        exact .inl ((Prod.mk.inj heq).2 ▸ he)
  | pumpThrows x =>
    dsimp only [step] at hs
    split_ifs at hs
    exact .inr (.inl ⟨_, (Option.some.inj hs).symm⟩)
  | turn stdout shutdown write now => exact .inr (.inr ⟨stdout, shutdown, write, now, rfl⟩)
  | connectTurn now =>
    dsimp only [step] at hs
    split at hs
    · split_ifs at hs
      · exact .inl ((Prod.mk.inj (Option.some.inj hs)).2 ▸ nofun)
      · exact .inr (.inl ⟨_, (Option.some.inj hs).symm⟩)
      · exact .inr (.inl ⟨_, (Option.some.inj hs).symm⟩)
      · exact .inl ((Prod.mk.inj (Option.some.inj hs)).2 ▸ nofun)
    · cases hs
  | drainTurn now =>
    dsimp only [step] at hs
    split at hs
    · split_ifs at hs
      · exact .inl ((Prod.mk.inj (Option.some.inj hs)).2 ▸ nofun)
      · exact .inr (.inl ⟨_, (Option.some.inj hs).symm⟩)
    · cases hs

/-- The stream is closed when the peer has ended it, and returning is the last thing that the
command does. -/
theorem step_closes {e : RunClientEvent} (hs : c.step e = some (c', os)) :
    (.tunnelClosed ∈ os → c'.stream.eof = true ∧ c'.point ≠ .returned) ∧
      ∀ before result after, os = before ++ .returned result :: after →
        c'.point = .returned ∧ after = [] := by
  rcases outputs_of_step hs with hplain | ⟨result, he⟩ | ⟨stdout, shutdown, write, now, rfl⟩
  · refine ⟨fun h => absurd rfl (hplain _ h).1, ?_⟩
    rintro before result after rfl
    exact absurd rfl ((hplain (.returned result) (by simp)).2 result)
  · obtain ⟨rfl, rfl⟩ := Prod.mk.inj he
    refine ⟨by simp, ?_⟩
    intro before result' after hos
    rcases List.cons_eq_append_iff.mp hos with ⟨rfl, h⟩ | ⟨before', -, h⟩
    · exact ⟨rfl, (List.cons.inj h).2⟩
    · simp at h
  · dsimp only [step] at hs
    split_ifs at hs
    have hturn := fun o (ho : o ∈ (c.turn stdout shutdown write now).2.1) => turn_closes ho
    generalize c.turn stdout shutdown write now = r at hs hturn
    obtain ⟨c₁, os₁, x | u⟩ := r <;> obtain ⟨rfl, rfl⟩ := Prod.mk.inj (Option.some.inj hs)
    · refine ⟨fun h => ?_, ?_⟩
      · have hok := ((hturn _ (by simpa [returns] using h)).2 rfl).2.2
        cases hok
      intro before result after hos
      refine ⟨rfl, ?_⟩
      rcases List.eq_nil_or_concat after with rfl | ⟨after, o, rfl⟩
      · rfl
      · -- The turn itself would have returned.
        rw [List.concat_eq_append, ← List.cons_append, ← List.append_assoc] at hos
        obtain ⟨rfl, -⟩ := List.append_inj' hos rfl
        exact absurd rfl ((hturn (.returned result) (by simp)).1 result)
    · refine ⟨fun h => ⟨((hturn _ h).2 rfl).1, ((hturn _ h).2 rfl).2.1⟩, ?_⟩
      rintro before result after rfl
      exact absurd rfl ((hturn (.returned result) (by simp)).1 result)

end RunClient

/-! ## Runs -/

section Runs

variable {started : ℤ} {es : List RunClientEvent} {c : RunClient} {os : List RunClientOutput}

/-- The two pipes behind what has happened, and the command, which stands for them until it
returns. -/
theorem runClient_copies (h : (runClientMachine started).Runs es c os) :
    ∃ p q, Pipe.empty.steps (os.filterMap stdinToTunnel) = some p ∧
      Pipe.empty.steps (os.filterMap tunnelToStdout) = some q ∧
      (c.point ≠ .returned → c.Copies p q) := by
  refine h.trace_invariant (I := fun _ c os => ∃ p q,
    Pipe.empty.steps (os.filterMap stdinToTunnel) = some p ∧
      Pipe.empty.steps (os.filterMap tunnelToStdout) = some q ∧
      (c.point ≠ .returned → c.Copies p q)) ?_ ?_
  · refine ⟨.empty, .empty, rfl, rfl, fun _ => ?_⟩
    exact ⟨le_rfl, rfl, by simp [Pipe.empty, runClientMachine, RunClient.queue], rfl, ⟨rfl, rfl⟩,
      rfl, fun _ => rfl, by simp [runClientMachine]⟩
  · rintro es c os e c' os' - ⟨p, q, hp, hq, hc⟩ hs
    obtain ⟨p', q', hp', hq', hc'⟩ :=
      RunClient.step_advances hs (hc (RunClient.point_of_step hs))
    refine ⟨p', q', ?_, ?_, hc'⟩
    · rw [List.filterMap_append, Pipe.steps_append, hp]
      exact hp'
    · rw [List.filterMap_append, Pipe.steps_append, hq]
      exact hq'

/-- The stream is closed only after its end was seen. -/
theorem runClient_closes (h : (runClientMachine started).Runs es c os)
    (hclosed : .tunnelClosed ∈ os) : .fin ∈ os := by
  refine h.trace_invariant (I := fun _ _ os => .tunnelClosed ∈ os → .fin ∈ os) nofun ?_ hclosed
  intro es c os e c' os' hr hI hs hclosed
  rcases List.mem_append.mp hclosed with hbefore | hnow
  · exact List.mem_append_left _ (hI hbefore)
  · obtain ⟨heof, hpoint⟩ := (RunClient.step_closes hs).1 hnow
    obtain ⟨p, q, -, hq, hc⟩ := runClient_copies (hr.snoc hs)
    exact fin_of_sourceEnd ((Pipe.steps_eq_some hq).2.1.mp ((hc hpoint).feeds.fin.trans heof))

/-- When the command succeeds, the peer has ended the stream, and stdout has got everything. -/
theorem runClient_succeeds (h : (runClientMachine started).Runs es c os) {n : ℤ}
    (hn : .returned (.ok n) ∈ os) : .fin ∈ os ∧
      given (os.filterMap tunnelToStdout) = pushed (os.filterMap tunnelToStdout) := by
  obtain ⟨p, q, -, hq, -⟩ := runClient_copies h
  obtain ⟨hgiven, hended, hclosed⟩ := Pipe.steps_eq_some hq
  obtain ⟨he, hb⟩ := q.done_of_closed (hclosed.mpr (List.mem_filterMap.mpr ⟨_, hn, rfl⟩))
  exact ⟨fin_of_sourceEnd (hended.mp he), by rw [hgiven, hb, List.append_nil]⟩

/-- **What `run_client` does to the two streams**, in every run, also when it fails: the tunnel gets
what stdin gave, in order, and is shut down for writing only after all of it; stdout gets what the
tunnel gave. The stream is closed only after the peer had ended it, whatever is left of stdin. When
the command succeeds, the peer had ended the stream and stdout had got everything. Returning is the
last thing that happens. -/
theorem runClient_relays (h : (runClientMachine started).Runs es c os) :
    Transparent (os.filterMap stdinToTunnel) ∧ Transparent (os.filterMap tunnelToStdout) ∧
      (.tunnelClosed ∈ os → .fin ∈ os) ∧
      ((∃ n, .returned (.ok n) ∈ os) → .fin ∈ os ∧
        given (os.filterMap tunnelToStdout) = pushed (os.filterMap tunnelToStdout)) ∧
      ∀ before result after, os = before ++ .returned result :: after → after = [] := by
  obtain ⟨p, q, hp, hq, -⟩ := runClient_copies h
  refine ⟨⟨p, hp⟩, ⟨q, hq⟩, runClient_closes h, fun ⟨n, hn⟩ => runClient_succeeds h hn, ?_⟩
  have hlast : ∀ before result after, os = before ++ .returned result :: after →
      c.point = .returned ∧ after = [] := by
    refine h.trace_invariant (I := fun _ c os => ∀ before result after,
      os = before ++ .returned result :: after → c.point = .returned ∧ after = []) (by simp) ?_
    intro es c os e c' os' _ hI hs before result after hos
    have hnone (result) : .returned result ∉ os := by
      intro hmem
      obtain ⟨before, after, hsplit⟩ := List.mem_iff_append.mp hmem
      exact RunClient.point_of_step hs (hI before result after hsplit).1
    rcases List.append_eq_append_iff.mp hos with ⟨rest, -, h⟩ | ⟨rest, h, h'⟩
    · exact (RunClient.step_closes hs).2 rest result after h
    · cases rest with
      | nil => exact (RunClient.step_closes hs).2 [] result after h'.symm
      | cons o rest =>
        obtain ⟨rfl, -⟩ := List.cons.inj h'
        exact absurd (h ▸ List.mem_append_right _ List.mem_cons_self) (hnone result)
  exact fun before result after hos => (hlast before result after hos).2

/-- A line from stdin, answered by the peer with another one. -/
theorem runClient_relays_example :
    let es : List RunClientEvent := [.stream .connected, .connectTurn 5, .stdinRead [104, 105],
      .turn none (.ok ()) (1, none) 6, .stdinEnd, .turn none (.ok ()) (8, none) 7,
      .turn none (.ok ()) (8, none) 8, .stream (.receive [111, 107]), .stream .fin,
      .turn none (.ok ()) (8, none) 9, .drainTurn 10, .drainTurn (nanoseconds 251)]
    ∃ c os, (runClientMachine 0).Runs es c os ∧ .tunnelShutdown ∈ os ∧
      given (os.filterMap stdinToTunnel) = [104, 105] ∧
      given (os.filterMap tunnelToStdout) = [111, 107] ∧
      given (os.filterMap tunnelToStdout) = pushed (os.filterMap tunnelToStdout) := by
  intro es
  obtain ⟨c, os, hr, hshutdown, hstdin, hstdout, hreturned⟩ : ∃ c os,
      (runClientMachine 0).Runs es c os ∧ .tunnelShutdown ∈ os ∧
      given (os.filterMap stdinToTunnel) = [104, 105] ∧
      given (os.filterMap tunnelToStdout) = [111, 107] ∧ .returned (.ok 0) ∈ os :=
    ⟨_, _, rfl, by decide, by decide, by decide, by decide⟩
  exact ⟨c, os, hr, hshutdown, hstdin, hstdout, ((runClient_relays hr).2.2.2.1 ⟨0, hreturned⟩).2⟩

end Runs

end Tailcat
