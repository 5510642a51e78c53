import Tailcat.Base.Joint
import Tailcat.Cli.DefaultServer

/-!
# From stdin to stdout

A client whose stream is the first one at a server, and the server: what the one reads from stdin is
what the other one writes to stdout. The stream between them is a pair of wires, as TCP provides
them: whatever the data plane does, octets arrive in order and the end of the stream after them, or
the stream fails.

## Main definitions

* `clientPort`, `serverPort`: what the two ends of the stream give to the wires and take off them
* `pipeMachine`: the client and the server

## Main results

* `pipe_delivers`: stdout gets a prefix of stdin, and all of it when one of the commands succeeds
-/

namespace Tailcat

/-- The stream that `run_client` dials. -/
def clientPort : Port RunClientOutput UInt8 where
  sends
    | .toTunnel octets => some (.give octets)
    | .tunnelShutdown => some .sinkEnd
    | .tunnelClosed => some .sinkEnd
    | _ => none
  receives
    | .received octets => some (.push octets)
    | .fin => some .sourceEnd
    | _ => none

/-- The first stream of `run_default_server`, which never writes to it. -/
def serverPort : Port DefaultServerOutput UInt8 where
  sends
    | .closed => some .sinkEnd
    | _ => none
  receives
    | .received 0 octets => some (.push octets)
    | .fin 0 => some .sourceEnd
    | _ => none

/-- The client and the default server, with the two wires of the stream between them. -/
def pipeMachine (started : ℤ) :
    Machine (Joint RunClient DefaultServer UInt8) (RunClientEvent ⊕ DefaultServerEvent)
      (RunClientOutput ⊕ DefaultServerOutput) :=
  (runClientMachine started).joint defaultServerMachine clientPort serverPort

/-- What the client has read, and what the server has written. -/
def stdinOctets (os : List RunClientOutput) : List UInt8 := pushed (os.filterMap stdinToTunnel)

/-- What the server has written to stdout. -/
def stdoutOctets (os : List DefaultServerOutput) : List UInt8 := given (os.filterMap firstToStdout)

/-! ## The ends of the stream -/

section Ends

variable {os : List RunClientOutput} {ps : List DefaultServerOutput}

/-- The wire gets what the pipe of the client hands on. -/
theorem given_clientPort : given (os.filterMap clientPort.sends) =
    given (os.filterMap stdinToTunnel) :=
  given_filterMap_congr fun o => by cases o <;> rfl

theorem pushed_clientPort : pushed (os.filterMap clientPort.receives) =
    pushed (os.filterMap tunnelToStdout) := by
  apply pushed_filterMap_congr
  intro o
  rcases o with _ | _ | _ | _ | _ | _ | _ | _ | (_ | _) <;> rfl

/-- The pipe of the server takes what comes off the wire. -/
theorem pushed_serverPort : pushed (ps.filterMap serverPort.receives) =
    pushed (ps.filterMap firstToStdout) := by
  apply pushed_filterMap_congr
  intro o
  rcases o with _ | ⟨_ | _, _⟩ | (_ | _) | _ | _ | (_ | _) <;> rfl

theorem given_serverPort : given (ps.filterMap serverPort.sends) = [] := by
  induction ps with
  | nil => rfl
  | cons o ps ih => cases o <;> exact ih

theorem sinkEnd_clientPort : .sinkEnd ∈ os.filterMap clientPort.sends ↔
    .tunnelShutdown ∈ os ∨ .tunnelClosed ∈ os := by
  constructor
  · intro h
    obtain ⟨o, ho, he⟩ := List.mem_filterMap.mp h
    cases o <;> simp_all [clientPort]
  · rintro (h | h) <;> exact List.mem_filterMap.mpr ⟨_, h, rfl⟩

theorem sinkEnd_serverPort : .sinkEnd ∈ ps.filterMap serverPort.sends ↔ .closed ∈ ps := by
  constructor
  · intro h
    obtain ⟨o, ho, he⟩ := List.mem_filterMap.mp h
    cases o <;> simp_all [serverPort]
  · exact fun h => List.mem_filterMap.mpr ⟨_, h, rfl⟩

theorem sourceEnd_clientPort (h : .fin ∈ os) : .sourceEnd ∈ os.filterMap clientPort.receives :=
  List.mem_filterMap.mpr ⟨_, h, rfl⟩

theorem sourceEnd_serverPort (h : .fin 0 ∈ ps) : .sourceEnd ∈ ps.filterMap serverPort.receives :=
  List.mem_filterMap.mpr ⟨_, h, rfl⟩

end Ends

/-! ## Runs -/

section Runs

variable {started : ℤ} {es : List (RunClientEvent ⊕ DefaultServerEvent)}
  {s : Joint RunClient DefaultServer UInt8} {os : List (RunClientOutput ⊕ DefaultServerOutput)}

/-- **Who ends first**: the client has shut down its stream when anything has ended. The server
closes it only after that, and the client closes it only after the server. -/
theorem pipe_ended (h : (pipeMachine started).Runs es s os) (hended : s.toRight.ended = true) :
    .tunnelShutdown ∈ Machine.lefts os := by
  refine h.trace_invariant (I := fun _ s os => s.toRight.ended = true →
    .tunnelShutdown ∈ Machine.lefts os) (fun h => absurd h Bool.false_ne_true) ?_ hended
  intro es s os e s' os' hr hI hs hended
  have hleft := (hr.snoc hs).left
  have hsent := (hr.snoc hs).carried.1.ended_iff.mp hended
  rcases sinkEnd_clientPort.mp hsent with hshutdown | hclosed
  · exact hshutdown
  have hfin := runClient_closes hleft hclosed
  rw [Machine.lefts_append]
  apply List.mem_append_left
  apply hI
  rcases e with e | e
  · -- The server was done before this step of the client.
    obtain ⟨os₁, rfl, -⟩ := Machine.joint_step_inl hs
    have hended := ((hr.snoc hs).carried.2.sourceEnd (sourceEnd_clientPort hfin)).1
    rw [Machine.rights_append, Machine.rights_inl, List.append_nil, sinkEnd_serverPort] at hended
    obtain ⟨n, hn⟩ := (defaultServer_closed hr.right).mp hended
    obtain ⟨hseen, -⟩ := defaultServer_succeeds hr.right hn
    exact (hr.carried.1.done (sourceEnd_serverPort hseen)).1
  · obtain ⟨os₂, rfl, -⟩ := Machine.joint_step_inr hs
    rw [Machine.lefts_append, Machine.lefts_inr, List.append_nil] at hsent
    exact hr.carried.1.ended_iff.mpr hsent

/-- When the server succeeds, stdin has ended and stdout has got everything. -/
theorem pipe_complete (h : (pipeMachine started).Runs es s os) {n : ℤ}
    (hn : .returned (.ok n) ∈ Machine.rights os) :
    .stdinEnd ∈ Machine.lefts os ∧
      stdoutOctets (Machine.rights os) = stdinOctets (Machine.lefts os) := by
  obtain ⟨hfin, hall⟩ := defaultServer_succeeds h.right hn
  obtain ⟨hended, htaken⟩ := h.carried.1.sourceEnd (sourceEnd_serverPort hfin)
  have hshutdown := pipe_ended h (h.carried.1.ended_iff.mpr hended)
  obtain ⟨p, q, hp, -, -⟩ := runClient_copies h.left
  obtain ⟨hgiven, hsource, hsink⟩ := Pipe.steps_eq_some hp
  obtain ⟨he, hb⟩ := p.done_of_closed (hsink.mpr (List.mem_filterMap.mpr ⟨_, hshutdown, rfl⟩))
  refine ⟨stdinEnd_of_sourceEnd (hsource.mp he), ?_⟩
  calc stdoutOctets (Machine.rights os)
      = pushed ((Machine.rights os).filterMap serverPort.receives) := by
        rw [pushed_serverPort]
        exact hall
    _ = given ((Machine.lefts os).filterMap stdinToTunnel) := by rw [htaken, given_clientPort]
    _ = stdinOctets (Machine.lefts os) := by
        unfold stdinOctets
        rw [hgiven, hb, List.append_nil]

/-- **From stdin to stdout**: in every run of a client and a server, whatever fails, what the server
writes to stdout is a prefix of what the client has read from stdin. When the client or the server
succeeds, stdin has ended and stdout has got all of it. Nothing is written to the stdout of the
client. -/
theorem pipe_delivers (h : (pipeMachine started).Runs es s os) :
    stdoutOctets (Machine.rights os) <+: stdinOctets (Machine.lefts os) ∧
      ((∃ n, .returned (.ok n) ∈ Machine.lefts os ∨ .returned (.ok n) ∈ Machine.rights os) →
        .stdinEnd ∈ Machine.lefts os ∧
          stdoutOctets (Machine.rights os) = stdinOctets (Machine.lefts os)) ∧
      given ((Machine.lefts os).filterMap tunnelToStdout) = [] := by
  obtain ⟨p, q, hp, hq, -⟩ := runClient_copies h.left
  obtain ⟨r, hr, -⟩ := defaultServer_feeds h.right
  refine ⟨?_, ?_, ?_⟩
  · calc stdoutOctets (Machine.rights os)
        <+: pushed ((Machine.rights os).filterMap firstToStdout) := Transparent.given_prefix ⟨r, hr⟩
      _ = pushed ((Machine.rights os).filterMap serverPort.receives) := pushed_serverPort.symm
      _ <+: given ((Machine.lefts os).filterMap clientPort.sends) := h.carried.1.pushed_initial
      _ = given ((Machine.lefts os).filterMap stdinToTunnel) := given_clientPort
      _ <+: stdinOctets (Machine.lefts os) := Transparent.given_prefix ⟨p, hp⟩
  · rintro ⟨n, hn | hn⟩
    · -- The client has seen the end of the stream, so that the server has succeeded.
      have hfin := (runClient_succeeds h.left hn).1
      have hclosed := sinkEnd_serverPort.mp
        (h.carried.2.sourceEnd (sourceEnd_clientPort hfin)).1
      obtain ⟨k, hk⟩ := (defaultServer_closed h.right).mp hclosed
      exact pipe_complete h hk
    · exact pipe_complete h hn
  · have hnone := h.carried.2.pushed_initial
    rw [given_serverPort, List.prefix_nil, pushed_clientPort] at hnone
    exact List.prefix_nil.mp (hnone ▸ Transparent.given_prefix ⟨q, hq⟩)

/-- Two octets that arrive one after the other, while another client has connected as well. -/
theorem pipe_delivers_example :
    let es : List (RunClientEvent ⊕ DefaultServerEvent) := [.inr .arrive,
      .inl (.stream .connected), .inl (.connectTurn 5), .inl (.stdinRead [104, 105]),
      .inl (.turn none (.ok ()) (8, none) 6), .inr (.stream 0 (.receive [104])), .inr .arrive,
      .inr (.stream 1 (.receive [33])), .inr (.turn none), .inr (.stream 0 (.receive [105])),
      .inl .stdinEnd, .inl (.turn none (.ok ()) (8, none) 7), .inr (.stream 0 .fin),
      .inr (.turn none), .inl (.stream .fin), .inl (.turn none (.ok ()) (8, none) 8),
      .inl (.drainTurn (nanoseconds 251))]
    ∃ s os, (pipeMachine 0).Runs es s os ∧
      stdoutOctets (Machine.rights os) = stdinOctets (Machine.lefts os) := by
  intro es
  obtain ⟨s, os, hr, hreturned⟩ : ∃ s os, (pipeMachine 0).Runs es s os ∧
      .returned (.ok 0) ∈ Machine.lefts os := ⟨_, _, rfl, by decide⟩
  exact ⟨s, os, hr, ((pipe_delivers hr).2.1 ⟨0, .inl hreturned⟩).2⟩

end Runs

end Tailcat
