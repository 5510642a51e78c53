import Tailcat.Base.Joint
import Tailcat.Relay.Faulty

/-!
# Forwarded connections

A connection that a client forwards, as `LocalTcpForwarder` or `SocksProxy` do it, and the
connection of `ServedTcpPorts` at the other end of its tunnel: between the program that has
connected to the client and the one that the server has connected to, octets travel through two
relays and the wires of the tunnel.

## Main definitions

* `relayPort`: what a relay gives to the wires and takes off them
* `forwardMachine`: the two relays

## Main results

* `forward_delivers`: what either program gets is a prefix of what the other one has sent, whatever
  fails
* `forward_completes`: a program sees the end of its stream only when it has got everything
-/

namespace Tailcat

open Connection

/-- Closing a stream ends what is written to it, as shutting it down does. -/
def relayPort : Port RelayOutput UInt8 where
  sends
    | .toTunnel octets => some (.give octets)
    | .tunnelShutdown => some .sinkEnd
    | .closed => some .sinkEnd
    | _ => none
  receives
    | .tunnelReceived octets => some (.push octets)
    | .tunnelFin => some .sourceEnd
    | _ => none

/-- The relay `relay` of the client, and that of the server. -/
def forwardMachine (relay relay' : Relay) :
    Machine (Joint RelayState RelayState UInt8) (RelayEvent ⊕ RelayEvent)
      (RelayOutput ⊕ RelayOutput) :=
  (relayMachine relay).joint (relayMachine relay') relayPort relayPort

/-- What the program at a relay has sent, and what it has got. -/
def sentOctets (os : List RelayOutput) : List UInt8 := pushed (os.filterMap hostToTunnel)

/-- What the program at a host socket has got. -/
def gotOctets (os : List RelayOutput) : List UInt8 := given (os.filterMap tunnelToHost)

/-! ## The ends of the stream -/

section Ends

variable {os : List RelayOutput}

theorem given_relayPort : given (os.filterMap relayPort.sends) =
    given (os.filterMap hostToTunnel) :=
  given_filterMap_congr fun o => by cases o <;> rfl

theorem pushed_relayPort : pushed (os.filterMap relayPort.receives) =
    pushed (os.filterMap tunnelToHost) :=
  pushed_filterMap_congr fun o => by cases o <;> rfl

theorem sinkEnd_relayPort : .sinkEnd ∈ os.filterMap relayPort.sends ↔
    .tunnelShutdown ∈ os ∨ .closed ∈ os := by
  constructor
  · intro h
    obtain ⟨o, ho, he⟩ := List.mem_filterMap.mp h
    cases o <;> simp_all [relayPort]
  · rintro (h | h) <;> exact List.mem_filterMap.mpr ⟨_, h, rfl⟩

theorem sourceEnd_relayPort : .sourceEnd ∈ os.filterMap tunnelToHost →
    .sourceEnd ∈ os.filterMap relayPort.receives := by
  intro h
  obtain ⟨o, ho, he⟩ := List.mem_filterMap.mp h
  cases o with
  | tunnelFin => exact List.mem_filterMap.mpr ⟨_, ho, rfl⟩
  | _ => cases he

end Ends

/-! ## Closed connections -/

section Closed

variable {relay : Relay} {c c' c'' : Connection} {os os' : List RelayOutput}

/-- A connection stays finished, and it is finished when it is closed. -/
def Ends (c : Connection) (os : List RelayOutput) (c' : Connection) : Prop :=
  c.finished = true ∨ .closed ∈ os → c'.finished = true

theorem Ends.andThen {p : Part} {f : Connection → Part} (h : Ends c p.2.1 p.1)
    (h' : Ends p.1 (f p.1).2.1 (f p.1).1) : Ends c (p.andThen f).2.1 (p.andThen f).1 := by
  unfold Part.andThen
  split
  · exact h
  · rintro (hf | hos)
    · exact h' (.inl (h (.inl hf)))
    · exact h' ((List.mem_append.mp hos).imp_left fun hos => h (.inr hos))

theorem relay_ends {s s' : RelayState} {e : RelayEvent}
    (hs : (relayMachine relay).step s e = some (s', os)) : Ends s.connection os s'.connection := by
  cases relayMachine_step hs with
  | beginService hidle =>
    have hreply (throws : Bool) : Ends s.connection (s.connection.replyOnce relay throws).2.1
        (s.connection.replyOnce relay throws).1 := by
      unfold replyOnce Ends
      grind [stop]
    have hwrite (c : Connection) (written : Option ℕ) : Ends c (c.writeReceived written).2.1
        (c.writeReceived written).1 := by
      unfold writeReceived Ends
      grind [stop]
    unfold beginService
    split
    · rintro (h | h)
      · exact h
      · cases h
    split
    · exact fun _ => rfl
    split
    · split <;> simp [Ends]
    · exact (hreply _).andThen (hwrite _ _)
  | middleService htaking =>
    refine Ends.andThen (Ends.andThen ?_ ?_) ?_
    · unfold takeHostChunk Ends
      grind [stop]
    · unfold writePending Ends
      grind [stop]
    · unfold shutdownHost Ends
      grind [stop]
  | endService hchecking =>
    unfold endService Ends
    grind
  | _ => simp [Ends]

/-- A connection that was closed is finished. -/
theorem finished_of_closed {es : List RelayEvent} {s : RelayState}
    (hr : (relayMachine relay).Runs es s os) (hclosed : .closed ∈ os) :
    s.connection.finished = true := by
  refine hr.trace_invariant (I := fun _ s os => .closed ∈ os → s.connection.finished = true)
    nofun ?_ hclosed
  intro es s os e s' os' _ hI hs hclosed
  exact relay_ends hs ((List.mem_append.mp hclosed).imp_left hI)

end Closed

/-! ## One direction -/

section Direction

variable {relay relay' : Relay} {es es' : List RelayEvent} {s s' : RelayState}
  {os os' : List RelayOutput} {w : Wire UInt8}

/-- What one program gets, the other one has sent. -/
theorem got_prefix_sent (hr : (relayMachine relay).Runs es s os)
    (hr' : (relayMachine relay').Runs es' s' os')
    (hw : Carried (os.filterMap relayPort.sends) (os'.filterMap relayPort.receives) w) :
    gotOctets os' <+: sentOctets os := by
  calc gotOctets os'
      <+: pushed (os'.filterMap tunnelToHost) := (relay_hands_on relay' hr').2
    _ = pushed (os'.filterMap relayPort.receives) := pushed_relayPort.symm
    _ <+: given (os.filterMap relayPort.sends) := hw.pushed_initial
    _ = given (os.filterMap hostToTunnel) := given_relayPort
    _ <+: sentOctets os := (relay_hands_on relay hr).1

/-- A relay without failures ends what it writes to the tunnel when the host has ended, and the
tunnel has accepted everything. -/
theorem sent_of_sinkEnd (hr : (relayMachine relay).Runs es s os) (hf : ∀ e ∈ es, e.Faultless)
    (hend : .sinkEnd ∈ os.filterMap relayPort.sends) :
    .hostEof ∈ os ∧ given (os.filterMap hostToTunnel) = sentOctets os := by
  obtain ⟨p, q, hp, -, hrel, -⟩ := relay_refines hr hf
  obtain ⟨hgiven, hended, hclosed⟩ := Pipe.steps_eq_some hp
  have hdone : p.ended = true ∧ p.buffered = [] := by
    rcases sinkEnd_relayPort.mp hend with h | h
    · exact p.done_of_closed (hclosed.mpr (List.mem_filterMap.mpr ⟨_, h, rfl⟩))
    · obtain ⟨he, hb, -⟩ := hrel.complete (finished_of_closed hr h)
      exact ⟨he, hb⟩
  refine ⟨?_, ?_⟩
  · obtain ⟨o, ho, he⟩ := List.mem_filterMap.mp (hended.mp hdone.1)
    cases o with
    | hostEof => exact ho
    | _ => cases he
  · unfold sentOctets
    rw [hgiven, hdone.2, List.append_nil]

/-- The host of a relay without failures is shut down when it has got everything. -/
theorem got_of_hostShutdown (hr' : (relayMachine relay').Runs es' s' os')
    (hf' : ∀ e ∈ es', e.Faultless) (hshut : .hostShutdown ∈ os') :
    .sourceEnd ∈ os'.filterMap relayPort.receives ∧
      gotOctets os' = pushed (os'.filterMap relayPort.receives) := by
  obtain ⟨-, q, -, hq, -, -⟩ := relay_refines hr' hf'
  obtain ⟨hgiven, hended, hclosed⟩ := Pipe.steps_eq_some hq
  obtain ⟨he, hb⟩ := q.done_of_closed (hclosed.mpr (List.mem_filterMap.mpr ⟨_, hshut, rfl⟩))
  refine ⟨sourceEnd_relayPort (hended.mp he), ?_⟩
  rw [pushed_relayPort, hgiven, hb, List.append_nil]
  rfl

/-- One program is told the end of the stream when the other one has ended it, and got
everything. -/
theorem got_eq_sent (hr : (relayMachine relay).Runs es s os) (hf : ∀ e ∈ es, e.Faultless)
    (hr' : (relayMachine relay').Runs es' s' os') (hf' : ∀ e ∈ es', e.Faultless)
    (hw : Carried (os.filterMap relayPort.sends) (os'.filterMap relayPort.receives) w)
    (hshut : .hostShutdown ∈ os') : .hostEof ∈ os ∧ gotOctets os' = sentOctets os := by
  obtain ⟨hend, hgot⟩ := got_of_hostShutdown hr' hf' hshut
  obtain ⟨hsink, htaken⟩ := hw.sourceEnd hend
  obtain ⟨heof, hsent⟩ := sent_of_sinkEnd hr hf hsink
  exact ⟨heof, by rw [hgot, htaken, given_relayPort, hsent]⟩

/-- A connection without failures is finished after its host was shut down. -/
theorem hostShutdown_of_finished (hr : (relayMachine relay).Runs es s os)
    (hf : ∀ e ∈ es, e.Faultless) (hfin : s.connection.finished = true) : .hostShutdown ∈ os := by
  obtain ⟨p, q, -, hq, hrel, -⟩ := relay_refines hr hf
  obtain ⟨-, -, -, -, hclosed⟩ := hrel.complete hfin
  obtain ⟨o, ho, he⟩ := List.mem_filterMap.mp ((Pipe.steps_eq_some hq).2.2.mp hclosed)
  cases o with
  | hostShutdown => exact ho
  | _ => cases he

end Direction

/-! ## Runs -/

section Runs

variable {relay relay' : Relay} {es : List (RelayEvent ⊕ RelayEvent)}
  {s : Joint RelayState RelayState UInt8} {os : List (RelayOutput ⊕ RelayOutput)}

/-- **Through two relays and the tunnel**, whatever fails at either end: what each program gets is
a prefix of what the other one has sent. -/
theorem forward_delivers (h : (forwardMachine relay relay').Runs es s os) :
    gotOctets (Machine.rights os) <+: sentOctets (Machine.lefts os) ∧
      gotOctets (Machine.lefts os) <+: sentOctets (Machine.rights os) :=
  ⟨got_prefix_sent h.left h.right h.carried.1, got_prefix_sent h.right h.left h.carried.2⟩

/-- One octet arrives before the host fails. -/
theorem forward_delivers_example :
    let es : List (RelayEvent ⊕ RelayEvent) := [.inl .tunnelConnected, .inl (.hostRead [1, 2]),
      .inl (.beginService false none), .inl (.middleService false (some 1) false),
      .inr (.tunnelReceive [1]), .inr (.beginService false none), .inl (.hostError "reset"),
      .inr (.middleService false (some 8) false)]
    ∃ s os, (forwardMachine .localTcpForwarder .servedTcpPorts).Runs es s os ∧
      gotOctets (Machine.rights os) = [1] ∧
      gotOctets (Machine.rights os) <+: sentOctets (Machine.lefts os) := by
  intro es
  obtain ⟨s, os, hr, hgot⟩ : ∃ s os,
      (forwardMachine .localTcpForwarder .servedTcpPorts).Runs es s os ∧
      gotOctets (Machine.rights os) = [1] := ⟨_, _, rfl, by decide⟩
  exact ⟨s, os, hr, hgot, (forward_delivers hr).1⟩

/-- **Nothing is missing at the end**: as long as nothing fails, a program is told the end of its
stream only when the other one has ended it and everything has arrived, in both directions and in
every interleaving. When a connection is finished, its program was told so. -/
theorem forward_completes (h : (forwardMachine relay relay').Runs es s os)
    (hleft : ∀ e ∈ Machine.lefts es, e.Faultless)
    (hright : ∀ e ∈ Machine.rights es, e.Faultless) :
    (.hostShutdown ∈ Machine.rights os → .hostEof ∈ Machine.lefts os ∧
      gotOctets (Machine.rights os) = sentOctets (Machine.lefts os)) ∧
    (.hostShutdown ∈ Machine.lefts os → .hostEof ∈ Machine.rights os ∧
      gotOctets (Machine.lefts os) = sentOctets (Machine.rights os)) ∧
    (s.left.connection.finished = true → .hostShutdown ∈ Machine.lefts os) ∧
    (s.right.connection.finished = true → .hostShutdown ∈ Machine.rights os) :=
  ⟨got_eq_sent h.left hleft h.right hright h.carried.1,
    got_eq_sent h.right hright h.left hleft h.carried.2,
    hostShutdown_of_finished h.left hleft, hostShutdown_of_finished h.right hright⟩

/-- A request of two octets, and its end. -/
theorem forward_completes_example :
    let es : List (RelayEvent ⊕ RelayEvent) := [.inl .tunnelConnected, .inl (.hostRead [1, 2]),
      .inl (.beginService false none), .inl (.middleService false (some 8) false),
      .inl .hostEof, .inl .endService, .inl (.beginService false none),
      .inl (.middleService false (some 8) false), .inr (.tunnelReceive [1, 2]), .inr .tunnelFin,
      .inr (.beginService false none), .inr (.middleService false (some 8) false)]
    ∃ s os, (forwardMachine .localTcpForwarder .servedTcpPorts).Runs es s os ∧
      gotOctets (Machine.rights os) = [1, 2] ∧ .hostEof ∈ Machine.lefts os := by
  intro es
  have hleft : ∀ e ∈ Machine.lefts es, e.Faultless := by
    simp [es, Machine.lefts, RelayEvent.Faultless]
  have hright : ∀ e ∈ Machine.rights es, e.Faultless := by
    simp [es, Machine.rights, RelayEvent.Faultless]
  obtain ⟨s, os, hr, hshut, hgot⟩ : ∃ s os,
      (forwardMachine .localTcpForwarder .servedTcpPorts).Runs es s os ∧
      .hostShutdown ∈ Machine.rights os ∧ gotOctets (Machine.rights os) = [1, 2] :=
    ⟨_, _, rfl, by decide, by decide⟩
  exact ⟨s, os, hr, hgot, ((forward_completes hr hleft hright).1 hshut).1⟩

end Runs

end Tailcat
