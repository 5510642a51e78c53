import Tailcat.Protocol.Types
import Tailcat.Ssh.Stdin

/-!
# The requests of an SSH session

The client of a session may set variables, ask for a terminal, change its size, and start a shell or
a command. Each request is a callback on the context of the session, and they come in any order.
When a process is started, it is given the variables and the terminal that were asked for before.
Starting may fail, and then the session has no process.

The context keeps two of the things that a request sets, whether there is a process and whether it
gets a terminal, in the part that `channel_data` and `channel_eof` use too.

## Main definitions

* `RequestContext.handle`: the callbacks of the requests
* `requestMachine`: a session
* `acceptedPairs`: the variables of the requests that were accepted

## Main results

* `requests_guarded`: what a process is given, and what is refused when there is one
-/

namespace Tailcat.Ssh

/-- A string that ends with a null octet, without it. -/
abbrev CString := List UInt8

/-- The variables that a client may set. -/
def acceptedEnv (key : CString) : Bool :=
  key == ascii "TERM" || key == ascii "LANG" || (ascii "LC_").isPrefixOf key

/-- `winsize`. -/
structure Winsize where
  col : UInt16
  row : UInt16
  deriving DecidableEq

/-- What is asked of the system. -/
inductive SystemCall
  | openpty (window : Winsize)
  | spawn (command : CString) (environment : List (CString × CString))
  | setWinsize (window : Winsize)
  deriving DecidableEq

namespace ChildProcess

/-- The size of a terminal, in 16 bits. -/
def winsize (width height : Int32) : Winsize where
  col := (max width 1).toUInt32.toUInt16
  row := (max height 1).toUInt32.toUInt16

/-- What `start` asks of the system, if it does not fail or fails after the terminal is opened. -/
def startCalls (command : CString) (environment : List (CString × CString)) (usePty : Bool)
    (width height : Int32) (fails : Option String) : List SystemCall :=
  (if usePty then [.openpty (winsize width height)] else []) ++
    if fails.isNone then [.spawn command environment] else []

/-- A new size for the terminal of a process that has one. -/
def resize (width height : Int32) (c : ChildProcess) : List SystemCall :=
  if ¬ c.ptyMode ∨ ¬ c.ptyMasterFd then [] else [.setWinsize (winsize width height)]

end ChildProcess

/-- The context of a session, as far as requests go. -/
structure RequestContext extends SessionContext where
  channel : Bool := false
  environment : List (CString × CString) := []
  ptyWidth : Int32 := 80
  ptyHeight : Int32 := 24
  deriving DecidableEq

/-- A request of the client. A missing string is a null pointer. -/
inductive Request
  | env (name value : Option CString)
  | pty (term : Option CString) (width height : Int32)
  | window (width height : Int32)
  | shell
  | exec (command : Option CString)
  | subsystem
  deriving DecidableEq

/-- The requests that prepare a process or start one. -/
def Request.BeforeStart : Request → Prop
  | .env .. => True
  | .pty .. => True
  | .shell => True
  | .exec _ => True
  | .window .. => False
  | .subsystem => False

namespace RequestContext

variable (c : RequestContext)

/-- The last component of what a callback returns is whether it returns `SSH_OK`. -/
abbrev Answer := RequestContext × List SystemCall × Bool

/-- A variable for the process, before there is one. -/
def channelEnv (name value : Option CString) : Answer :=
  match name, value with
  | some name, some value =>
    if ¬ acceptedEnv name ∨ c.process.isSome then
      (c, [], false)
    else
      ({ c with environment := c.environment ++ [(name, value)] }, [], true)
  | _, _ => (c, [], false)

/-- A terminal of a known kind sets the variable `TERM`. -/
def termPair : Option CString → List (CString × CString)
  | some term => if term = [] then [] else [(ascii "TERM", term)]
  | none => []

/-- A terminal for the process, before there is one. -/
def channelPty (term : Option CString) (width height : Int32) : Answer :=
  if c.process.isSome then
    (c, [], false)
  else
    ({ c with
      toSessionContext := c.toSessionContext.channelPty
      ptyWidth := if 0 < width then width else 80
      ptyHeight := if 0 < height then height else 24
      environment := c.environment ++ termPair term }, [], true)

/-- A new size of the window, which a running process is told. -/
def channelWindow (width height : Int32) : Answer :=
  let ptyWidth := if 0 < width then width else c.ptyWidth
  let ptyHeight := if 0 < height then height else c.ptyHeight
  ({ c with ptyWidth, ptyHeight }, match c.process with
    | some process => process.resize ptyWidth ptyHeight
    | none => [], true)

/-- A null pointer stands for no command. -/
def startSessionProcess (command : Option CString) (fails : Option String) : Answer :=
  if c.process.isSome then
    (c, [], false)
  else
    let started := c.toSessionContext.startSessionProcess fails
    ({ c with toSessionContext := started },
      ChildProcess.startCalls (command.getD []) c.environment c.ptyRequested c.ptyWidth c.ptyHeight
        fails,
      started.process.isSome)

/-- The login shell. -/
def channelShell (fails : Option String) : Answer := c.startSessionProcess none fails

/-- A command. -/
def channelExec (command : Option CString) (fails : Option String) : Answer :=
  c.startSessionProcess command fails

/-- There are no subsystems. -/
def channelSubsystem : Answer := (c, [], false)

/-- `fails` is what becomes of starting a process, where the request does. -/
def handle (fails : Option String) : Request → Answer
  | .env name value => c.channelEnv name value
  | .pty term width height => c.channelPty term width height
  | .window width height => c.channelWindow width height
  | .shell => c.channelShell fails
  | .exec command => c.channelExec command fails
  | .subsystem => c.channelSubsystem

/-- The second component is whether a channel is opened. `created` and `callbacks` are whether
libssh makes the channel and takes the callbacks. -/
def channelOpen (created callbacks : Bool) : RequestContext × Bool :=
  if c.channel then
    (c, false)
  else if ¬ created then
    (c, false)
  else if ¬ callbacks then
    ({ c with channel := false }, false)
  else
    ({ c with channel := true }, true)

end RequestContext

/-! ## A session -/

/-- What a client does in its session; `fails` is what starting a process fails with. -/
inductive SessionEvent
  | request (r : Request) (fails : Option String)
  | data (octets : List UInt8) (isStderr : Bool) (write : Except Errno ℕ)
  | eof
  | openChannel (created callbacks : Bool)

/-- What a session does: a request is answered, with system calls made, or a channel is opened. -/
inductive SessionOutput
  | handled (r : Request) (calls : List SystemCall) (accepted : Bool)
  | channelOpened
  deriving DecidableEq

/-- The callback for an event. -/
def RequestContext.step (c : RequestContext) :
    SessionEvent → Option (RequestContext × List SessionOutput)
  | .request r fails =>
    let (c', calls, accepted) := c.handle fails r
    some (c', [.handled r calls accepted])
  | .data octets isStderr write =>
    let context := (c.toSessionContext.channelData octets isStderr write).1
    some ({ c with toSessionContext := context }, [])
  | .eof => some ({ c with toSessionContext := c.toSessionContext.channelEof.1 }, [])
  | .openChannel created callbacks =>
    let (c', opened) := c.channelOpen created callbacks
    some (c', if opened then [.channelOpened] else [])

/-- A session without channels. -/
def requestMachine : Machine RequestContext SessionEvent SessionOutput where
  init := {}
  step := RequestContext.step

/-! ## What is seen of a session -/

/-- The environment of a process that is started. -/
def SystemCall.environment : SystemCall → Option (List (CString × CString))
  | .spawn _ environment => some environment
  | _ => none

namespace SessionOutput

/-- The variables that a request sets, if it is accepted. -/
def pairs : SessionOutput → List (CString × CString)
  | .handled (.env (some name) (some value)) _ true => [(name, value)]
  | .handled (.pty (some term) _ _) _ true => if term = [] then [] else [(ascii "TERM", term)]
  | _ => []

/-- The system calls that were made. -/
def calls : SessionOutput → List SystemCall
  | .handled _ calls _ => calls
  | .channelOpened => []

/-- The environments of the processes that are started. -/
def spawned (o : SessionOutput) : List (List (CString × CString)) :=
  o.calls.filterMap SystemCall.environment

end SessionOutput

/-- The variables of the requests that were accepted. -/
def acceptedPairs (os : List SessionOutput) : List (CString × CString) :=
  os.flatMap SessionOutput.pairs

@[simp] theorem acceptedPairs_append (os ps : List SessionOutput) :
    acceptedPairs (os ++ ps) = acceptedPairs os ++ acceptedPairs ps := List.flatMap_append

@[simp] theorem acceptedPairs_singleton (o : SessionOutput) : acceptedPairs [o] = o.pairs :=
  List.flatMap_singleton _ _

/-- `TERM`, `LANG`, and what begins with `LC_`. -/
def AcceptedName (key : CString) : Prop :=
  key = ascii "TERM" ∨ key = ascii "LANG" ∨ ascii "LC_" <+: key

theorem acceptedEnv_iff (key : CString) : acceptedEnv key = true ↔ AcceptedName key := by
  simp [acceptedEnv, AcceptedName, or_assoc]

/-! ## What one step does -/

namespace RequestContext

variable {c c' : RequestContext} {e : SessionEvent} {os : List SessionOutput}

/-- What is seen of a request. -/
def output (fails : Option String) (r : Request) (c : RequestContext) : SessionOutput :=
  .handled r (c.handle fails r).2.1 (c.handle fails r).2.2

/-- What neither requests nor channels are about stays. -/
structure Same (c c' : RequestContext) : Prop where
  environment : c'.environment = c.environment
  process : c'.process.isSome = c.process.isSome
  channel : c'.channel = c.channel
  ptyWidth : c'.ptyWidth = c.ptyWidth
  ptyHeight : c'.ptyHeight = c.ptyHeight

theorem channelData_isSome (octets : List UInt8) (isStderr : Bool) (write : Except Errno ℕ)
    (c : SessionContext) :
    (c.channelData octets isStderr write).1.process.isSome = c.process.isSome := by
  unfold SessionContext.channelData
  rcases hprocess : c.process with _ | process
  · simp [hprocess]
  · cases isStderr <;> simp [hprocess]

theorem channelEof_isSome (c : SessionContext) :
    c.channelEof.1.process.isSome = c.process.isSome := by
  unfold SessionContext.channelEof
  rcases hprocess : c.process with _ | process <;> simp [hprocess]

theorem channelOpen_cases (c : RequestContext) (created callbacks : Bool) :
    ((c.channelOpen created callbacks).2 = true ∧ c.channel = false ∧
      (c.channelOpen created callbacks).1 = { c with channel := true }) ∨
    ((c.channelOpen created callbacks).2 = false ∧ c.Same (c.channelOpen created callbacks).1) := by
  unfold channelOpen
  split_ifs with hchannel hcreated hcallbacks
  · exact .inr ⟨rfl, rfl, rfl, rfl, rfl, rfl⟩
  · exact .inl ⟨rfl, Bool.not_eq_true _ ▸ hchannel, rfl⟩
  · exact .inr ⟨rfl, rfl, rfl, (Bool.not_eq_true _ ▸ hchannel).symm, rfl, rfl⟩
  · exact .inr ⟨rfl, rfl, rfl, rfl, rfl, rfl⟩

/-- A step handles a request, or opens a channel, or shows nothing. -/
theorem step_cases (h : c.step e = some (c', os)) :
    (∃ r fails, c' = (c.handle fails r).1 ∧ os = [c.output fails r]) ∨
    (c.channel = false ∧ c' = { c with channel := true } ∧ os = [.channelOpened]) ∨
    (c.Same c' ∧ os = []) := by
  cases e with
  | request r fails =>
    obtain ⟨rfl, rfl⟩ := Prod.mk.inj (Option.some.inj h)
    exact .inl ⟨r, fails, rfl, rfl⟩
  | data octets isStderr write =>
    obtain ⟨rfl, rfl⟩ := Prod.mk.inj (Option.some.inj h)
    exact .inr (.inr ⟨⟨rfl, channelData_isSome octets isStderr write _, rfl, rfl, rfl⟩, rfl⟩)
  | eof =>
    obtain ⟨rfl, rfl⟩ := Prod.mk.inj (Option.some.inj h)
    exact .inr (.inr ⟨⟨rfl, channelEof_isSome _, rfl, rfl, rfl⟩, rfl⟩)
  | openChannel created callbacks =>
    replace h : some ((c.channelOpen created callbacks).1,
        if (c.channelOpen created callbacks).2 then [.channelOpened] else []) = some (c', os) := h
    obtain ⟨rfl, rfl⟩ := Prod.mk.inj (Option.some.inj h)
    rcases channelOpen_cases c created callbacks with ⟨hopened, hchannel, he⟩ | ⟨hopened, hsame⟩
    · exact .inr (.inl ⟨hchannel, he, if_pos hopened⟩)
    · exact .inr (.inr ⟨hsame, if_neg (Bool.not_eq_true _ ▸ hopened)⟩)

variable (fails : Option String) (r : Request)

/-- A request adds the variables that it sets. -/
theorem handle_environment :
    (c.handle fails r).1.environment = c.environment ++ (c.output fails r).pairs ∧
      ∀ p ∈ (c.output fails r).pairs, AcceptedName p.1 := by
  unfold output
  cases r with
  | env name value =>
    rcases name with _ | name
    · simp [handle, channelEnv, SessionOutput.pairs]
    rcases value with _ | value
    · simp [handle, channelEnv, SessionOutput.pairs]
    -- The variable is added to the others, or the request is refused.
    by_cases hrefused : ¬ acceptedEnv name ∨ c.process.isSome
    · rw [handle, channelEnv, if_pos hrefused]
      simp [SessionOutput.pairs]
    · rw [handle, channelEnv, if_neg hrefused]
      push Not at hrefused
      simpa [SessionOutput.pairs] using (acceptedEnv_iff name).mp hrefused.1
  | pty term width height =>
    by_cases hprocess : c.process.isSome
    · rw [handle, channelPty, if_pos hprocess]
      simp [SessionOutput.pairs]
    · rw [handle, channelPty, if_neg hprocess]
      rcases term with _ | term
      · simp [SessionOutput.pairs, termPair]
      · by_cases hempty : term = [] <;> simp [SessionOutput.pairs, termPair, hempty, AcceptedName]
  | window width height => simp [handle, channelWindow, SessionOutput.pairs]
  | shell =>
    by_cases hprocess : c.process.isSome <;>
      simp [handle, channelShell, startSessionProcess, SessionOutput.pairs, hprocess]
  | exec command =>
    by_cases hprocess : c.process.isSome <;>
      simp [handle, channelExec, startSessionProcess, SessionOutput.pairs, hprocess]
  | subsystem => simp [handle, channelSubsystem, SessionOutput.pairs]

theorem startSessionProcess_spawned (command : Option CString) :
    ((c.startSessionProcess command fails).2.1.filterMap SystemCall.environment = [] ∧
      (c.startSessionProcess command fails).1.process.isSome = c.process.isSome) ∨
    ((c.startSessionProcess command fails).2.1.filterMap SystemCall.environment = [c.environment] ∧
      c.process.isSome = false ∧ (c.startSessionProcess command fails).1.process.isSome = true) := by
  unfold startSessionProcess
  by_cases hprocess : c.process.isSome
  · rw [if_pos hprocess]
    exact .inl ⟨rfl, rfl⟩
  rw [if_neg hprocess]
  have hnone : c.process.isSome = false := Bool.not_eq_true _ ▸ hprocess
  unfold SessionContext.startSessionProcess
  rw [if_neg hprocess]
  -- The terminal makes no difference to what is started.
  cases fails with
  | none =>
    refine .inr ⟨?_, hnone, ?_⟩
    · cases c.ptyRequested <;> rfl
    · cases c.ptyRequested <;> rfl
  | some what =>
    refine .inl ⟨?_, ?_⟩
    · cases c.ptyRequested <;> rfl
    · exact hnone.symm ▸ hnone

/-- A request that starts a process gives it the variables that are set. -/
theorem handle_spawned :
    ((c.output fails r).spawned = [] ∧
      (c.handle fails r).1.process.isSome = c.process.isSome) ∨
    ((c.output fails r).spawned = [c.environment] ∧ c.process.isSome = false ∧
      (c.handle fails r).1.process.isSome = true) := by
  -- Only `shell` and `exec` start a process.
  cases r with
  | env name value =>
    refine .inl ?_
    rcases name with _ | name <;> rcases value with _ | value <;> try exact ⟨rfl, rfl⟩
    dsimp only [output, handle, channelEnv]
    split_ifs <;> exact ⟨rfl, rfl⟩
  | pty term width height =>
    refine .inl ?_
    dsimp only [output, handle, channelPty, SessionContext.channelPty]
    split_ifs <;> exact ⟨rfl, rfl⟩
  | window width height =>
    refine .inl ⟨?_, rfl⟩
    dsimp only [output, handle, channelWindow, SessionOutput.spawned, SessionOutput.calls]
    rcases c.process with _ | process
    · rfl
    · dsimp only [ChildProcess.resize]
      split_ifs <;> rfl
  | shell => exact c.startSessionProcess_spawned fails none
  | exec command => exact c.startSessionProcess_spawned fails command
  | subsystem => exact .inl ⟨rfl, rfl⟩

theorem handle_channel : (c.handle fails r).1.channel = c.channel := by
  cases r with
  | env name value =>
    rcases name with _ | name <;> rcases value with _ | value <;> try rfl
    dsimp only [handle, channelEnv]
    split_ifs <;> rfl
  | pty term width height =>
    dsimp only [handle, channelPty]
    split_ifs <;> rfl
  | window width height => rfl
  | shell =>
    dsimp only [handle, channelShell, startSessionProcess]
    split_ifs <;> rfl
  | exec command =>
    dsimp only [handle, channelExec, startSessionProcess]
    split_ifs <;> rfl
  | subsystem => rfl

/-- When there is a process, what prepares one or starts one is refused. -/
theorem handle_of_process (hprocess : c.process.isSome = true) (hr : r.BeforeStart) :
    c.handle fails r = (c, [], false) := by
  cases r with
  | env name value =>
    rcases name with _ | name <;> rcases value with _ | value <;> try rfl
    exact if_pos (.inr hprocess)
  | pty term width height => exact if_pos hprocess
  | shell => exact if_pos hprocess
  | exec command => exact if_pos hprocess
  | window width height => exact hr.elim
  | subsystem => exact hr.elim

/-! ## Runs -/

/-- What has been seen of a session tells its variables, whether it has a process and a channel, and
what the process was given. -/
structure Seen (c : RequestContext) (os : List SessionOutput) : Prop where
  environment : c.environment = acceptedPairs os
  names : ∀ p ∈ acceptedPairs os, AcceptedName p.1
  process : (os.flatMap SessionOutput.spawned).length = c.process.isSome.toNat
  given : Machine.Throughout (fun before o => ∀ environment ∈ o.spawned,
    environment = acceptedPairs before) os
  channel : os.count .channelOpened = c.channel.toNat

theorem seen_init : requestMachine.init.Seen [] where
  environment := rfl
  names := by simp [acceptedPairs]
  process := rfl
  given := Machine.throughout_nil
  channel := rfl

theorem Seen.request (h : c.Seen os) :
    (c.handle fails r).1.Seen (os ++ [c.output fails r]) := by
  obtain ⟨henvironment, hnames⟩ := handle_environment (c := c) fails r
  have hspawned := handle_spawned (c := c) fails r
  refine ⟨?_, ?_, ?_, Machine.throughout_snoc.mpr ⟨h.given, fun environment hmem => ?_⟩, ?_⟩
  · rw [henvironment, h.environment, acceptedPairs_append, acceptedPairs_singleton]
  · intro p hp
    rw [acceptedPairs_append, acceptedPairs_singleton] at hp
    exact (List.mem_append.mp hp).elim (h.names p) (hnames p)
  · rw [List.flatMap_append, List.flatMap_singleton, List.length_append, h.process]
    rcases hspawned with ⟨hnone, hsame⟩ | ⟨hone, hbefore, hafter⟩
    · rw [hnone, hsame]
      rfl
    · rw [hone, hbefore, hafter]
      rfl
  · rcases hspawned with ⟨hnone, -⟩ | ⟨hone, -, -⟩
    · rw [hnone] at hmem
      cases hmem
    · rw [hone] at hmem
      exact (List.mem_singleton.mp hmem).trans h.environment
  · rw [List.count_append, h.channel, handle_channel]
    rfl

theorem Seen.same (h : c.Seen os) (hsame : c.Same c') : c'.Seen os where
  environment := hsame.environment.trans h.environment
  names := h.names
  process := hsame.process.symm ▸ h.process
  given := h.given
  channel := hsame.channel.symm ▸ h.channel

theorem Seen.channelOpened (h : c.Seen os) (hchannel : c.channel = false) :
    ({ c with channel := true } : RequestContext).Seen (os ++ [.channelOpened]) where
  environment := by
    rw [acceptedPairs_append, ← h.environment]
    exact (List.append_nil _).symm
  names p hp := h.names p (by simpa [SessionOutput.pairs] using hp)
  process := by
    rw [List.flatMap_append, List.length_append, h.process]
    rfl
  given := Machine.throughout_snoc.mpr ⟨h.given, fun _ hmem => by cases hmem⟩
  channel := by
    rw [List.count_append, h.channel, hchannel]
    rfl

/-- Every run keeps what has been seen and the context together. -/
theorem seen_of_runs {es : List SessionEvent} (hr : requestMachine.Runs es c os) : c.Seen os := by
  refine hr.trace_invariant (I := fun _ c os => c.Seen os) seen_init ?_
  intro es c os e c' os' _ h hs
  rcases step_cases hs with ⟨r, fails, rfl, rfl⟩ | ⟨hchannel, rfl, rfl⟩ | ⟨hsame, rfl⟩
  · exact h.request fails r
  · exact h.channelOpened hchannel
  · rw [List.append_nil]
    exact h.same hsame

end RequestContext

/-- **The requests of a session**, in any order: at most one process is started, and it is given the
variables of the requests that were accepted before, all of which a client may set. Once it is
started, setting variables, asking for a terminal and starting another process are refused, and
change nothing. At most one channel is opened. -/
theorem requests_guarded {es : List SessionEvent} {c : RequestContext} {os : List SessionOutput}
    (hr : requestMachine.Runs es c os) :
    (os.flatMap SessionOutput.spawned).length ≤ 1 ∧
    (∀ before o after, os = before ++ o :: after → ∀ environment ∈ o.spawned,
      environment = acceptedPairs before ∧ ∀ p ∈ environment, AcceptedName p.1) ∧
    (os.flatMap SessionOutput.spawned ≠ [] → ∀ (r : Request) (fails : Option String),
      r.BeforeStart → requestMachine.step c (.request r fails) = some (c, [.handled r [] false])) ∧
    os.count .channelOpened ≤ 1 := by
  have h := RequestContext.seen_of_runs hr
  refine ⟨?_, fun before o after hos environment hmem => ?_, fun hspawned r fails hbefore => ?_, ?_⟩
  · rw [h.process]
    exact Bool.toNat_le _
  · have hgiven := h.given before o after hos environment hmem
    refine ⟨hgiven, fun p hp => h.names p ?_⟩
    rw [hos, acceptedPairs_append]
    exact List.mem_append_left _ (hgiven ▸ hp)
  · -- Something has been started, so there is a process, which refuses the others.
    have hprocess : c.process.isSome = true := by
      by_contra hnone
      have hlength := h.process
      rw [Bool.eq_false_iff.mpr hnone] at hlength
      exact hspawned (List.eq_nil_of_length_eq_zero hlength)
    have hhandle := RequestContext.handle_of_process fails r hprocess hbefore
    change some ((c.handle fails r).1, [c.output fails r]) = _
    rw [RequestContext.output, hhandle]
  · rw [h.channel]
    exact Bool.toNat_le _

/-- A start that fails leaves the variables for the next one, after which no shell is started. -/
theorem requests_guarded_example :
    let term : CString := ascii "xterm"
    let before : List SessionOutput := [.channelOpened, .handled (.pty (some term) 100 40) [] true,
      .handled (.env (some (ascii "LD_PRELOAD")) (some [])) [] false,
      .handled .shell [.openpty ⟨100, 40⟩] false]
    let environment := [(ascii "TERM", term)]
    let start := SessionOutput.handled .shell [.openpty ⟨100, 40⟩, .spawn [] environment] true
    ∃ c, requestMachine.Runs [.openChannel true true, .request (.pty (some term) 100 40) none,
        .request (.env (some (ascii "LD_PRELOAD")) (some [])) none,
        .request .shell (some "fork: Resource temporarily unavailable"), .request .shell none]
        c (before ++ [start]) ∧
      ((before ++ [start]).flatMap SessionOutput.spawned).length ≤ 1 ∧
      (environment = acceptedPairs before ∧ ∀ p ∈ environment, AcceptedName p.1) ∧
      requestMachine.step c (.request .shell none) = some (c, [.handled .shell [] false]) ∧
      (before ++ [start]).count .channelOpened ≤ 1 := by
  intro term before environment start
  obtain ⟨c, hr⟩ : ∃ c, requestMachine.Runs [.openChannel true true,
      .request (.pty (some term) 100 40) none,
      .request (.env (some (ascii "LD_PRELOAD")) (some [])) none,
      .request .shell (some "fork: Resource temporarily unavailable"), .request .shell none]
      c (before ++ [start]) := ⟨_, rfl⟩
  obtain ⟨hone, hgiven, hrefused, hchannel⟩ := requests_guarded hr
  exact ⟨c, hr, hone, hgiven before start [] rfl environment (by decide),
    hrefused (by decide) .shell none trivial, hchannel⟩

end Tailcat.Ssh
