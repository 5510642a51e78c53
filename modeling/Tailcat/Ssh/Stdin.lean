import Tailcat.Base.Pipe

/-!
# The input of an SSH session

`channel_data` writes what the client sends to the standard input of the session's process, as much
of it as the process takes at once, and leaves the rest to libssh: the library keeps it, and offers
it again in front of the next data. At the end of the client's input `channel_eof` closes the
standard input, and sees nothing of what the library keeps.

The process is one on a POSIX system. Its descriptors do not block.

## Main definitions

* `ChildProcess.writeStdin`, `ChildProcess.closeStdin`: the standard input of the process
* `channelData`, `channelEof`: the callbacks
* `stdinMachine`: a session with its library
* `Session.Flushed`: the library keeps nothing where `channel_eof` closes the standard input

## Main results

* `performs_stdin`: what one step does to the pipe from the client to the process
* `stdin_complete_iff`: when the process gets all that the client sent
-/

namespace Tailcat.Ssh

/-- Why `write` failed: with `EAGAIN`, `EWOULDBLOCK` or `EINTR`, or for another reason. -/
inductive Errno
  | again
  | other
  deriving DecidableEq

/-- The process of a session, with whether its descriptors are open. -/
structure ChildProcess where
  stdinFd : Bool := false
  ptyMasterFd : Bool := false
  ptyMode : Bool := false
  started : Bool := false
  stdinClosed : Bool := false
  deriving DecidableEq

namespace ChildProcess

/-- `fails` is the text of the exception when a system call fails. -/
def start (usePty : Bool) (fails : Option String) (c : ChildProcess) :
    Except String ChildProcess :=
  if c.started then
    .error "SSH session process already started"
  else
    match fails with
    | some what => .error what
    | none =>
      if usePty then
        .ok { c with ptyMasterFd := true, ptyMode := true, started := true }
      else
        .ok { c with stdinFd := true, started := true }

/-- The second component is whether the descriptor of the standard input is closed. -/
def closeStdin (c : ChildProcess) : ChildProcess × Bool :=
  if c.stdinClosed then
    (c, false)
  else
    ({ c with stdinFd := false, stdinClosed := true }, ! c.ptyMode && c.stdinFd)

/-- The descriptor that the input is written to. -/
def inputFd (c : ChildProcess) : Bool := if c.ptyMode then c.ptyMasterFd else c.stdinFd

/-- A terminal stays open when writing fails. -/
def writeFailed (c : ChildProcess) : ChildProcess := if c.ptyMode then c else c.closeStdin.1

/-- What is written of the data, where `write` takes at most 2³¹ - 4096 octets. -/
def writeStdin (data : List UInt8) (write : Except Errno ℕ) (c : ChildProcess) :
    ChildProcess × List UInt8 :=
  if ¬ c.started ∨ c.stdinClosed ∨ data = [] then
    (c, [])
  else if ¬ c.inputFd then
    (c, [])
  else
    match write with
    | .ok n =>
      let written := (data.take 0x7ffff000).take n
      if written ≠ [] then (c, written) else (c.writeFailed, [])
    | .error .again => (c, [])
    | .error .other => (c.writeFailed, [])

end ChildProcess

/-- The fields of a session that the input of its process depends on. -/
structure SessionContext where
  process : Option ChildProcess := none
  ptyRequested : Bool := false
  error : String := ""
  deriving DecidableEq

namespace SessionContext

/-- A terminal for the process, before there is one. -/
def channelPty (c : SessionContext) : SessionContext :=
  if c.process.isSome then c else { c with ptyRequested := true }

/-- `channel_shell` and `channel_exec`. -/
def startSessionProcess (fails : Option String) (c : SessionContext) : SessionContext :=
  if c.process.isSome then
    c
  else
    match ChildProcess.start c.ptyRequested fails {} with
    | .ok process => { c with process := some process }
    | .error what => { c with error := what }

/-- The second component is what is consumed of the data. -/
def channelData (data : List UInt8) (isStderr : Bool) (write : Except Errno ℕ)
    (c : SessionContext) : SessionContext × List UInt8 :=
  match c.process with
  | none => (c, [])
  | some process =>
    if isStderr then
      (c, [])
    else
      ({ c with process := (process.writeStdin data write).1 }, (process.writeStdin data write).2)

/-- The second component is whether the standard input of the process is closed. -/
def channelEof (c : SessionContext) : SessionContext × Bool :=
  match c.process with
  | none => (c, false)
  | some process => ({ c with process := process.closeStdin.1 }, process.closeStdin.2)

end SessionContext

/-! ## A session with its library -/

/-- The callbacks of a channel, with what `write` gives. -/
inductive StdinEvent
  | channelPty
  | startSessionProcess (fails : Option String)
  | channelData (octets : List UInt8) (isStderr : Bool) (write : Except Errno ℕ)
  | channelEof

/-- What the client has sent, and what the process has got. -/
inductive StdinOutput
  | received (octets : List UInt8)
  | receivedEof
  | written (octets : List UInt8)
  | stdinClosed
  deriving DecidableEq

/-- A session, and what the library keeps of its input. Data of the other kind is never consumed. -/
structure Session where
  context : SessionContext := {}
  kept : List UInt8 := []
  eof : Bool := false
  deriving DecidableEq

/-- The client sends nothing after the end of its input. -/
def Session.step (s : Session) : StdinEvent → Option (Session × List StdinOutput)
  | .channelPty => some ({ s with context := s.context.channelPty }, [])
  | .startSessionProcess fails =>
    some ({ s with context := s.context.startSessionProcess fails }, [])
  | .channelData octets isStderr write =>
    if s.eof then
      none
    else if isStderr then
      some ({ s with context := (s.context.channelData octets true write).1 }, [])
    else
      let data := s.kept ++ octets
      let (context, consumed) := s.context.channelData data false write
      some ({ s with context, kept := data.drop consumed.length },
        [.received octets, .written consumed])
  | .channelEof =>
    if s.eof then
      none
    else
      let (context, closed) := s.context.channelEof
      some ({ s with context, eof := true },
        .receivedEof :: if closed then [.stdinClosed] else [])

/-- A session before its process is started. -/
def stdinMachine : Machine Session StdinEvent StdinOutput where
  init := {}
  step := Session.step

/-! ## The pipe from the client to the process -/

/-- What goes through the pipe from the client to the stdin of the process. -/
def clientToProcess : StdinOutput → Option (PipeAction UInt8)
  | .received octets => some (.push octets)
  | .receivedEof => some .sourceEnd
  | .written octets => some (.give octets)
  | .stdinClosed => some .sinkEnd

/-- A session stands for a pipe that has under way what the library keeps. -/
structure Session.Holds (s : Session) (p : Pipe UInt8) : Prop where
  buffered : p.buffered = s.kept
  ended : p.ended = s.eof

/-- The library keeps nothing when the client's input ends, if the session has a process without a
terminal whose standard input is open. -/
def Session.Flushed (s : Session) : StdinEvent → Prop
  | .channelEof => ∀ process, s.context.process = some process → process.stdinClosed = false →
    process.ptyMode = false → process.stdinFd = true → s.kept = []
  | _ => True

theorem ChildProcess.writeStdin_prefix (data : List UInt8) (write : Except Errno ℕ)
    (c : ChildProcess) : (c.writeStdin data write).2 <+: data := by
  unfold writeStdin
  split_ifs
  · exact List.nil_prefix
  · split
    · dsimp only
      split_ifs
      · exact (List.take_prefix ..).trans (List.take_prefix ..)
      · exact List.nil_prefix
    · exact List.nil_prefix
    · exact List.nil_prefix
  · exact List.nil_prefix

theorem SessionContext.channelData_prefix (data : List UInt8) (isStderr : Bool)
    (write : Except Errno ℕ) (c : SessionContext) :
    (c.channelData data isStderr write).2 <+: data := by
  unfold channelData
  split
  · exact List.nil_prefix
  · split_ifs
    · exact List.nil_prefix
    · exact ChildProcess.writeStdin_prefix data write _

/-- The standard input is closed in `channel_eof` when it is open and not a terminal. -/
theorem SessionContext.channelEof_closes {c : SessionContext} :
    c.channelEof.2 = true ↔ ∃ process, c.process = some process ∧ process.stdinClosed = false ∧
      process.ptyMode = false ∧ process.stdinFd = true := by
  unfold channelEof ChildProcess.closeStdin
  split
  · rename_i hnone
    simp [hnone]
  · rename_i process hsome
    split_ifs with hclosed
    · simp [hsome, hclosed]
    · simp [hsome, hclosed]

/-- **What one step does to the pipe from the client.** -/
theorem performs_stdin (e : StdinEvent) :
    Performs stdinMachine clientToProcess Session.Holds Session.Flushed e := by
  cases e with
  | channelPty =>
    apply Performs.of_true (fun _ => trivial)
    intro s s' os p hR hs
    obtain ⟨rfl, rfl⟩ := Prod.mk.inj (Option.some.inj hs)
    exact ⟨p, rfl, hR.buffered, hR.ended⟩
  | startSessionProcess fails =>
    apply Performs.of_true (fun _ => trivial)
    intro s s' os p hR hs
    obtain ⟨rfl, rfl⟩ := Prod.mk.inj (Option.some.inj hs)
    exact ⟨p, rfl, hR.buffered, hR.ended⟩
  | channelData octets isStderr write =>
    apply Performs.of_true (fun _ => trivial)
    intro s s' os p hR hs
    dsimp only [stdinMachine, Session.step] at hs
    split_ifs at hs with heof hstderr
    · obtain ⟨rfl, rfl⟩ := Prod.mk.inj (Option.some.inj hs)
      exact ⟨p, rfl, hR.buffered, hR.ended⟩
    · obtain ⟨rfl, rfl⟩ := Prod.mk.inj (Option.some.inj hs)
      obtain ⟨q, hq, hbuffered, hended, -⟩ :=
        Pipe.step_push (hR.ended.trans (Bool.not_eq_true _ ▸ heof)) octets
      -- What is consumed is the start of what is kept and new.
      have hsplit := List.prefix_iff_eq_append.mp
        (s.context.channelData_prefix (s.kept ++ octets) false write)
      rw [hR.buffered, ← hsplit] at hbuffered
      obtain ⟨q', hq', hbuffered', hended', -⟩ := Pipe.step_give hbuffered
      refine ⟨q', ?_, hbuffered', (hended'.trans hended).trans hR.ended⟩
      exact Pipe.steps_pair hq hq'
  | channelEof =>
    intro s s' os p hR hs
    dsimp only [stdinMachine, Session.step] at hs
    split at hs
    · cases hs
    rename_i heof
    obtain ⟨rfl, rfl⟩ := Prod.mk.inj (Option.some.inj hs)
    obtain ⟨q, hq, hbuffered, hended, hclosed⟩ :=
      Pipe.step_sourceEnd (hR.ended.trans (Bool.not_eq_true _ ▸ heof))
    have hflushed : s.Flushed .channelEof ↔ (s.context.channelEof.2 = true → s.kept = []) := by
      rw [SessionContext.channelEof_closes]
      simp only [Session.Flushed, forall_exists_index, and_imp]
    rw [hflushed]
    -- A pipe whose sink is closed has ended before.
    have hopen : p.closed = false := by
      by_contra h
      exact heof (hR.ended.symm.trans (p.done_of_closed (Bool.not_eq_false _ ▸ h)).1)
    split_ifs with hcloses
    · constructor
      · intro hkept
        have hnil : q.buffered = [] := (hbuffered.trans hR.buffered).trans (hkept hcloses)
        obtain ⟨q', hq', hbuffered', hended', -⟩ :=
          Pipe.step_sinkEnd hended hnil (hclosed.trans hopen)
        refine ⟨q', ?_, ?_, hended'.trans hended⟩
        · exact Pipe.steps_pair hq hq'
        · exact (hbuffered'.trans hbuffered).trans hR.buffered
      · intro hleft
        refine ⟨[.sourceEnd], [], q, rfl, (Pipe.steps_singleton p _).trans hq, fun hnil => ?_⟩
        exact hleft fun _ => hR.buffered.symm.trans (hbuffered.symm.trans hnil)
    · refine ⟨fun _ => ⟨q, ?_, hbuffered.trans hR.buffered, hended⟩, fun hn => ?_⟩
      · exact (Pipe.steps_singleton p _).trans hq
      · exact absurd (fun h => absurd h hcloses) hn

/-- **Input of a process**: `channel_eof` closes the standard input only after everything that the
client sent was written to it, just if the library keeps nothing then. -/
theorem stdin_complete_iff {es : List StdinEvent} {s : Session} {os : List StdinOutput}
    (hr : stdinMachine.Runs es s os) :
    (Complete (os.filterMap clientToProcess) ↔ stdinMachine.Meets Session.Flushed es) ∧
    (Transparent (os.filterMap clientToProcess) ↔ stdinMachine.Meets Session.Flushed es) := by
  have h₀ : stdinMachine.init.Holds .empty := ⟨rfl, rfl⟩
  have hstep : ∀ e, True → Performs stdinMachine clientToProcess Session.Holds Session.Flushed e :=
    fun e _ => performs_stdin e
  exact ⟨complete_iff_meets h₀ hstep hr fun _ _ => trivial,
    transparent_iff_meets h₀ hstep hr fun _ _ => trivial⟩

/-- The rest of the first data is written with the second. -/
theorem stdin_complete_iff_example :
    let es : List StdinEvent := [.startSessionProcess none, .channelData [1, 2] false (.ok 1),
      .channelData [3] false (.ok 8), .channelEof]
    let os : List StdinOutput := [.received [1, 2], .written [1], .received [3], .written [2, 3],
      .receivedEof, .stdinClosed]
    ∃ s, stdinMachine.Runs es s os ∧ stdinMachine.Meets Session.Flushed es := by
  intro es os
  obtain ⟨s, hr⟩ : ∃ s, stdinMachine.Runs es s os := ⟨_, rfl⟩
  refine ⟨s, hr, (stdin_complete_iff hr).2.mp ?_⟩
  exact Option.isSome_iff_exists.mp (by decide +kernel)

/-- One octet of two is written, and the library keeps the other one. -/
theorem stdin_lost : ∃ s, stdinMachine.Runs
    [.startSessionProcess none, .channelData [1, 2] false (.ok 1), .channelEof] s
    [.received [1, 2], .written [1], .receivedEof, .stdinClosed] ∧ s.kept = [2] ∧
    ¬ Complete ([.received [1, 2], .written [1], .receivedEof, .stdinClosed].filterMap
      clientToProcess) := by
  refine ⟨_, rfl, rfl, fun h => ?_⟩
  have hall := h [.push [1, 2], .give [1], .sourceEnd] [] rfl
  exact absurd hall (by decide)

end Tailcat.Ssh
