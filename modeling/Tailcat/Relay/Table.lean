import Tailcat.Base.Family
import Tailcat.Relay.Faulty

/-!
# The connections of a relay

`ServedTcpPorts` and `LocalTcpForwarder` keep a vector of connections. `poll` adds new ones, calls
`service` for each connection in turn, and erases those that are finished. The readers of the host
sockets work all the time; the tunnels move while `poll` does not run, since the loop that pumps
their packets is the one that calls it.

## Main definitions

* `PollPhase`: where `poll` stands
* `Relaying`: the connections, each under the key of its stream, and the phase
* `connectionStep`, `erase`: what happens at a connection, and the end of `poll`

## Main results

* `connectionStep_eq_some`, `erase_eq_some`: what these do to the connections
* `closed_of_finished`: a connection that is finished was closed
-/

namespace Tailcat

/-- Who moves at a connection. -/
inductive RelayParty
  | reader
  | tunnel
  | service
  deriving DecidableEq

/-- Who takes a step. -/
def RelayEvent.party : RelayEvent → RelayParty
  | .hostRead _ | .hostEof | .hostError _ => .reader
  | .tunnelConnected | .tunnelReceive _ | .tunnelFin | .tunnelFail => .tunnel
  | .beginService .. | .middleService .. | .endService => .service

/-- Where `poll` stands. `A` says where `accept_new` stands. -/
inductive PollPhase (A : Type)
  | outside
  | accepting (a : A)
  | servicing (index : ℕ)
  | thrown
  deriving DecidableEq

/-- The connections of a relay by their keys, and how far `poll` has come. -/
structure Relaying (K A : Type) where
  connections : List (K × RelayState) := []
  phase : PollPhase A := .outside
  deriving DecidableEq

/-- An element of a list among the others. -/
theorem exists_split_of_getElem? {α : Type} {l : List α} {i : ℕ} {a : α} (h : l[i]? = some a) :
    ∃ before after, l = before ++ a :: after ∧ before.length = i ∧
      ∀ b, l.set i b = before ++ b :: after := by
  obtain ⟨hi, rfl⟩ := List.getElem?_eq_some_iff.mp h
  have hset (b : α) : l.set i b = l.take i ++ b :: l.drop (i + 1) := by
    rw [List.set_eq_take_append_cons_drop, if_pos hi]
  refine ⟨l.take i, l.drop (i + 1), ?_, List.length_take_of_le hi.le, hset⟩
  exact (List.set_getElem_self hi).symm.trans (hset _)

/-- What two elements of a list say once, they do not both say. -/
theorem eq_of_nodup_filterMap {α β : Type} {g : α → Option β} {l : List α}
    (hnodup : (l.filterMap g).Nodup) {a b : α} {c : β} (ha : a ∈ l) (hb : b ∈ l)
    (hga : g a = some c) (hgb : g b = some c) : a = b := by
  obtain ⟨l₁, l₂, rfl⟩ := List.append_of_mem ha
  rw [List.filterMap_append, List.filterMap_cons_some hga, List.nodup_middle,
    ← List.filterMap_append] at hnodup
  have hnot := (List.nodup_cons.mp hnodup).1
  rcases List.mem_append.mp hb with h | h
  · exact absurd (List.mem_filterMap.mpr ⟨b, List.mem_append_left _ h, hgb⟩) hnot
  · rcases List.mem_cons.mp h with rfl | h
    · rfl
    · exact absurd (List.mem_filterMap.mpr ⟨b, List.mem_append_right _ h, hgb⟩) hnot

/-! ## Queues of listeners -/

section Queues

variable {L A : Type} (queue : L → List A)

/-- What is in the queue of a listener. -/
def queueAt (listeners : List L) (listener : ℕ) : List A :=
  (listeners[listener]?.map queue).getD []

/-- A change at one listener. -/
theorem queueAt_split (before after : List L) (l l' : L) (listener : ℕ) :
    queueAt queue (before ++ l' :: after) listener =
      if before.length = listener then queue l'
      else queueAt queue (before ++ l :: after) listener := by
  unfold queueAt
  split
  · rename_i h
    subst h
    simp
  · rename_i h
    rcases Nat.lt_or_gt_of_ne h with hlt | hgt
    · obtain ⟨n, rfl⟩ := Nat.exists_eq_add_of_lt hlt
      rw [List.getElem?_append_right (by omega), List.getElem?_append_right (by omega),
        Nat.add_assoc, Nat.add_sub_cancel_left, List.getElem?_cons_succ, List.getElem?_cons_succ]
    · rw [List.getElem?_append_left hgt, List.getElem?_append_left hgt]

theorem queueAt_length (before after : List L) (l : L) :
    queueAt queue (before ++ l :: after) before.length = queue l := by
  simp [queueAt]

/-- The queue of one listener, and those of the others. -/
theorem flatMap_split (before after : List L) (l : L) :
    ((before ++ l :: after).flatMap queue).Perm
      (queue l ++ (before.flatMap queue ++ after.flatMap queue)) := by
  rw [List.flatMap_append, List.flatMap_cons, ← List.append_assoc, ← List.append_assoc]
  exact List.perm_append_comm.append_right _

end Queues

namespace Relaying

variable {K A : Type} [DecidableEq K] [DecidableEq A]

/-- The connection that `service` is called for. -/
def serviced (s : Relaying K A) : Option K :=
  match s.phase with
  | .servicing index => s.connections[index]?.map Prod.fst
  | _ => none

/-- Who may move at the connection `k`. -/
def Lets (s : Relaying K A) (k : K) : RelayParty → Prop
  | .reader => True
  | .tunnel => s.phase = .outside
  | .service => s.serviced = some k

instance (s : Relaying K A) (k : K) : DecidablePred (s.Lets k) := fun party => by
  cases party <;> unfold Lets <;> infer_instance

/-- `poll` goes on to the next connection when `service` has returned. -/
def next (s : Relaying K A) (party : RelayParty) (point : ServicePoint) : PollPhase A :=
  match s.phase with
  | .servicing index => .servicing (if party = .service ∧ point = .idle then index + 1 else index)
  | phase => phase

/-- The connections after one of them has moved. -/
def put (k : K) (r : RelayState) (connections : List (K × RelayState)) : List (K × RelayState) :=
  connections.map fun c => if c.1 = k then (k, r) else c

/-- A step at one connection, when its party may take it there. -/
def connectionStep (relay : Relay) (s : Relaying K A) (k : K) (e : RelayEvent) :
    Option (Relaying K A × List RelayOutput) :=
  if s.Lets k e.party then
    (s.connections.lookup k).bind fun r =>
      ((relayMachine relay).step r e).map fun (r', os) =>
        ({ connections := put k r' s.connections, phase := s.next e.party r'.point }, os)
  else
    none

/-- `remove_if` and `erase`. -/
def erase (s : Relaying K A) : Option (Relaying K A) :=
  if s.phase = .servicing s.connections.length then
    some { connections := s.connections.filter fun c => ¬ c.2.connection.finished }
  else
    none

/-! ## What the steps do -/

variable {relay : Relay} {s s' : Relaying K A} {k : K} {e : RelayEvent} {os : List RelayOutput}
  {r r' : RelayState} {l : List (K × RelayState)}

/-- A connection among the others, before and after it has moved. -/
theorem put_perm (r' : RelayState) (hnodup : (l.map Prod.fst).Nodup) (h : l.lookup k = some r) :
    ∃ others, l.Perm ((k, r) :: others) ∧ (put k r' l).Perm ((k, r') :: others) := by
  obtain ⟨l₁, l₂, rfl, -⟩ := List.lookup_eq_some_iff.mp h
  rw [List.map_append, List.map_cons] at hnodup
  have hsame (l : List (K × RelayState)) (hl : l ⊆ l₁ ++ l₂) : put k r' l = l := by
    refine (List.map_congr_left fun c hc => ?_).trans (List.map_id l)
    refine if_neg fun hk => (List.nodup_middle.mp hnodup).notMem ?_
    rw [← List.map_append]
    exact List.mem_map.mpr ⟨c, hl hc, hk⟩
  refine ⟨l₁ ++ l₂, List.perm_middle, ?_⟩
  have hput : put k r' (l₁ ++ (k, r) :: l₂) = put k r' l₁ ++ (k, r') :: put k r' l₂ := by
    unfold put
    rw [List.map_append, List.map_cons, if_pos rfl]
  rw [hput, hsame l₁ (List.subset_append_left _ _), hsame l₂ (List.subset_append_right _ _)]
  exact List.perm_middle

/-- The keys stay what they are. -/
theorem map_fst_put (k : K) (r : RelayState) (l : List (K × RelayState)) :
    (put k r l).map Prod.fst = l.map Prod.fst := by
  unfold put
  rw [List.map_map]
  refine List.map_congr_left fun c _ => ?_
  show (if c.1 = k then (k, r) else c).1 = c.1
  split
  · rename_i h
    exact h.symm
  · rfl

theorem connectionStep_eq_some (h : s.connectionStep relay k e = some (s', os)) :
    ∃ r r', s.connections.lookup k = some r ∧ (relayMachine relay).step r e = some (r', os) ∧
      s'.connections = put k r' s.connections ∧ s'.phase = s.next e.party r'.point := by
  unfold connectionStep at h
  split at h
  · obtain ⟨r, hr, h⟩ := Option.bind_eq_some_iff.mp h
    obtain ⟨⟨r', os'⟩, hs, h⟩ := Option.map_eq_some_iff.mp h
    obtain ⟨rfl, rfl⟩ := Prod.mk.inj h
    exact ⟨r, r', hr, hs, rfl, rfl⟩
  · cases h

omit [DecidableEq K] in
/-- `poll` forgets the connections that are finished. -/
theorem erase_eq_some (h : s.erase = some s') :
    s.phase = .servicing s.connections.length ∧ s'.phase = .outside ∧ ∃ gone,
      s.connections.Perm (gone ++ s'.connections) ∧
      (∀ c ∈ gone, c.2.connection.finished = true) ∧
      ∀ c ∈ s'.connections, c.2.connection.finished = false := by
  unfold erase at h
  split at h
  · rename_i hphase
    obtain rfl := Option.some.inj h
    refine ⟨hphase, rfl, s.connections.filter fun c => c.2.connection.finished, ?_, ?_, ?_⟩
    · simpa using (List.filter_append_perm (fun c : K × RelayState => c.2.connection.finished)
        s.connections).symm
    · intro c hc
      exact (List.mem_filter.mp hc).2
    · intro c hc
      simpa using (List.mem_filter.mp hc).2
  · cases h

end Relaying

/-! ## Closed connections -/

section Closed

open Connection

variable {relay : Relay} {c c' : Connection} {os os' : List RelayOutput}

/-- A connection is finished only by closing it. -/
def Closes (c : Connection) (os : List RelayOutput) (c' : Connection) : Prop :=
  c'.finished = true → c.finished = true ∨ .closed ∈ os

theorem Closes.andThen {p : Part} {f : Connection → Part} (h : Closes c p.2.1 p.1)
    (h' : Closes p.1 (f p.1).2.1 (f p.1).1) : Closes c (p.andThen f).2.1 (p.andThen f).1 := by
  unfold Part.andThen
  split
  · exact h
  · intro hf
    rcases h' hf with hf | hos
    · exact (h hf).imp_right (List.mem_append_left _)
    · exact .inr (List.mem_append_right _ hos)

theorem closes_stop (c : Connection) (os : List RelayOutput) :
    Closes c (c.stop os).2.1 (c.stop os).1 :=
  fun _ => .inr (List.mem_append_right _ (List.mem_singleton_self _))

theorem closes_writeReceived (written : Option ℕ) (c : Connection) :
    Closes c (c.writeReceived written).2.1 (c.writeReceived written).1 := by
  unfold writeReceived
  dsimp only
  split
  · exact .inl
  · cases written with
    | none => exact .inl
    | some k => exact fun _ => .inr (by simp [stop])

/-- The proxy alone finishes a connection before it closes it. -/
theorem relay_closes (hrelay : relay ≠ .socksProxy) {s s' : RelayState} {e : RelayEvent}
    (hs : (relayMachine relay).step s e = some (s', os)) : Closes s.connection os s'.connection := by
  cases relayMachine_step hs with
  | beginService hidle =>
    have hreply (throws : Bool) : s.connection.replyOnce relay throws = (s.connection, [], false) :=
      if_neg fun h => hrelay h.1
    unfold beginService
    split
    · exact .inl
    split
    · exact closes_stop _ _
    split
    · split <;> exact .inl
    · rw [hreply]
      exact Closes.andThen (p := (s.connection, [], false)) .inl (closes_writeReceived _ _)
  | middleService htaking =>
    refine Closes.andThen (Closes.andThen ?_ ?_) ?_
    · unfold takeHostChunk
      split
      · exact .inl
      dsimp only
      split
      · exact .inl
      split
      · exact fun _ => .inr (by simp [stop])
      split
      · split
        · exact fun _ => .inr (by simp [stop])
        · exact .inl
      · exact .inl
    · unfold writePending
      split
      · split
        · exact closes_stop _ _
        · exact .inl
      · exact .inl
    · unfold shutdownHost
      split
      · split
        · exact closes_stop _ _
        · exact .inl
      · exact .inl
  | endService hchecking =>
    unfold endService
    split
    · exact .inl
    split
    · exact fun _ => .inr (List.mem_singleton_self _)
    · exact .inl
  | _ => exact .inl

/-- A connection that is finished was closed. -/
theorem closed_of_finished (hrelay : relay ≠ .socksProxy) {es : List RelayEvent} {s : RelayState}
    (hr : (relayMachine relay).Runs es s os) (hfin : s.connection.finished = true) :
    .closed ∈ os := by
  refine hr.trace_invariant (I := fun _ s os => s.connection.finished = true → .closed ∈ os)
    ?_ ?_ hfin
  · cases relay <;> nofun
  · intro es s os e s' os' _ hI hs hfin
    rcases relay_closes hrelay hs hfin with h | h
    · exact List.mem_append_left _ (hI h)
    · exact List.mem_append_right _ h

end Closed

end Tailcat
