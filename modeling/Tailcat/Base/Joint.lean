import Tailcat.Base.Pipe

/-!
# Two machines and the wires between them

Two machines are joined by two wires, one in each direction. What one machine puts on its wire the
other one takes off it, in the same order but in other pieces; the end of a stream is taken when
nothing is left before it. The runs of the joint machine are runs of both machines, and what the one
has received is what the other one has sent, less what is under way.

## Main definitions

* `Wire`, `Wire.puts`, `Wire.takes`: what is under way on a wire, and how actions change it
* `Port`: which outputs of a machine put something on a wire, and which take something off one
* `Machine.joint`: the joint machine
* `Carried`: what was put on a wire, what was taken off it and what is under way on it

## Main results

* `Machine.Runs.left`, `Machine.Runs.right`: a run of the joint machine is a run of each machine
* `Machine.Runs.carried`: the wires have carried what the machines sent
* `Carried.pushed_initial`, `Carried.sourceEnd`: what was taken is a prefix of what was put, and all
  of it once the end was taken
-/

section Wires

variable {α : Type*}

/-- What is under way on a wire, and whether the end of the stream was put on it. -/
structure Wire (α : Type*) where
  underWay : List α := []
  ended : Bool := false

namespace Wire

/-- What one machine gives is put on the wire; nothing comes after the end. -/
def put (w : Wire α) : PipeAction α → Option (Wire α)
  | .give [] => some w
  | .give piece => if w.ended then none else some { w with underWay := w.underWay ++ piece }
  | .sinkEnd => some { w with ended := true }
  | _ => some w

/-- What a side does to the wire that it gives to, one action after another. -/
def puts (w : Wire α) (t : List (PipeAction α)) : Option (Wire α) := t.foldlM put w

theorem puts_cons (w : Wire α) (a : PipeAction α) (t : List (PipeAction α)) :
    w.puts (a :: t) = (w.put a).bind fun v => v.puts t := List.foldlM_cons

variable [DecidableEq α]

/-- What the other one gets is taken off it. -/
def take (w : Wire α) : PipeAction α → Option (Wire α)
  | .push piece =>
    if piece <+: w.underWay then some { w with underWay := w.underWay.drop piece.length } else none
  | .sourceEnd => if w.underWay = [] ∧ w.ended then some w else none
  | _ => some w

/-- What a side does to the wire that it takes from, one action after another. -/
def takes (w : Wire α) (t : List (PipeAction α)) : Option (Wire α) := t.foldlM take w

theorem takes_cons (w : Wire α) (a : PipeAction α) (t : List (PipeAction α)) :
    w.takes (a :: t) = (w.take a).bind fun v => v.takes t := List.foldlM_cons

end Wire

/-- What was put on a wire by the actions `sent` and taken off it by the actions `received`. -/
structure Carried (sent received : List (PipeAction α)) (w : Wire α) : Prop where
  given_eq : given sent = pushed received ++ w.underWay
  ended_iff : w.ended = true ↔ .sinkEnd ∈ sent
  done : .sourceEnd ∈ received → w.ended = true ∧ w.underWay = []

namespace Carried

variable {sent received t : List (PipeAction α)} {w w' : Wire α}

theorem nil : Carried ([] : List (PipeAction α)) [] {} := ⟨rfl, by simp, by simp⟩

/-- One more action at the sender's end. -/
theorem put {a : PipeAction α} (h : Carried sent received w) (hw : w.put a = some w') :
    Carried (sent ++ [a]) received w' := by
  cases a with
  | push piece =>
    obtain rfl := Option.some.inj hw
    exact ⟨by simpa [given] using h.given_eq, by simpa using h.ended_iff, h.done⟩
  | sourceEnd =>
    obtain rfl := Option.some.inj hw
    exact ⟨by simpa [given] using h.given_eq, by simpa using h.ended_iff, h.done⟩
  | sinkEnd =>
    obtain rfl := Option.some.inj hw
    exact ⟨by simpa [given] using h.given_eq, by simp, fun hd => ⟨rfl, (h.done hd).2⟩⟩
  | give piece =>
    cases piece with
    | nil =>
      obtain rfl := Option.some.inj hw
      exact ⟨by simpa [given] using h.given_eq, by simpa using h.ended_iff, h.done⟩
    | cons x piece =>
      dsimp only [Wire.put] at hw
      split at hw
      · cases hw
      · rename_i hopen
        obtain rfl := Option.some.inj hw
        refine ⟨?_, by simpa using h.ended_iff, fun hd => absurd (h.done hd).1 hopen⟩
        rw [given_append, h.given_eq, List.append_assoc]
        simp [given]

/-- Actions at the sender's end. -/
theorem puts (h : Carried sent received w) (hw : w.puts t = some w') :
    Carried (sent ++ t) received w' := by
  induction t generalizing sent w with
  | nil =>
    obtain rfl := Option.some.inj hw
    rwa [List.append_nil]
  | cons a t ih =>
    rw [Wire.puts_cons] at hw
    obtain ⟨v, hv, hw⟩ := Option.bind_eq_some_iff.mp hw
    rw [List.append_cons]
    exact ih (h.put hv) hw

variable [DecidableEq α]

/-- One more action at the receiver's end. -/
theorem take {a : PipeAction α} (h : Carried sent received w) (hw : w.take a = some w') :
    Carried sent (received ++ [a]) w' := by
  cases a with
  | push piece =>
    dsimp only [Wire.take] at hw
    split at hw
    · rename_i hfirst
      obtain ⟨rest, hrest⟩ := hfirst
      obtain rfl := Option.some.inj hw
      refine ⟨?_, h.ended_iff, fun hd => ?_⟩
      · rw [h.given_eq, pushed_append, ← hrest, List.drop_left]
        simp [pushed]
      · obtain ⟨hended, hnone⟩ := h.done (by simpa using hd)
        exact ⟨hended, by simp [hnone]⟩
    · cases hw
  | sourceEnd =>
    dsimp only [Wire.take] at hw
    split at hw
    · rename_i hlast
      obtain rfl := Option.some.inj hw
      exact ⟨by simpa [pushed] using h.given_eq, h.ended_iff, fun _ => ⟨hlast.2, hlast.1⟩⟩
    · cases hw
  | give piece =>
    obtain rfl := Option.some.inj hw
    exact ⟨by simpa [pushed] using h.given_eq, h.ended_iff, fun hd => h.done (by simpa using hd)⟩
  | sinkEnd =>
    obtain rfl := Option.some.inj hw
    exact ⟨by simpa [pushed] using h.given_eq, h.ended_iff, fun hd => h.done (by simpa using hd)⟩

/-- Actions at the receiver's end. -/
theorem takes (h : Carried sent received w) (hw : w.takes t = some w') :
    Carried sent (received ++ t) w' := by
  induction t generalizing received w with
  | nil =>
    obtain rfl := Option.some.inj hw
    rwa [List.append_nil]
  | cons a t ih =>
    rw [Wire.takes_cons] at hw
    obtain ⟨v, hv, hw⟩ := Option.bind_eq_some_iff.mp hw
    rw [List.append_cons]
    exact ih (h.take hv) hw

omit [DecidableEq α]

/-- What was taken is a prefix of what was put. -/
theorem pushed_initial (h : Carried sent received w) : pushed received <+: given sent := by
  rw [h.given_eq]
  exact List.prefix_append _ _

/-- Once the end was taken, it had been put, and everything was taken. -/
theorem sourceEnd (h : Carried sent received w) (hd : .sourceEnd ∈ received) :
    .sinkEnd ∈ sent ∧ pushed received = given sent := by
  obtain ⟨hended, hnone⟩ := h.done hd
  exact ⟨h.ended_iff.mp hended, by rw [h.given_eq, hnone, List.append_nil]⟩

end Carried

end Wires

/-! ## The joint machine -/

/-- How a machine with outputs `O` is tied to a wire that it sends on and one that it receives
from. -/
structure Port (O α : Type*) where
  sends : O → Option (PipeAction α)
  receives : O → Option (PipeAction α)

/-- Two machines, and what is under way between them. -/
structure Joint (S₁ S₂ α : Type*) where
  left : S₁
  right : S₂
  toRight : Wire α := {}
  toLeft : Wire α := {}

namespace Machine

variable {S₁ E₁ O₁ S₂ E₂ O₂ α : Type*} [DecidableEq α]

/-- The machines `m₁` and `m₂`, joined by two wires. -/
def joint (m₁ : Machine S₁ E₁ O₁) (m₂ : Machine S₂ E₂ O₂) (p₁ : Port O₁ α) (p₂ : Port O₂ α) :
    Machine (Joint S₁ S₂ α) (E₁ ⊕ E₂) (O₁ ⊕ O₂) where
  init := { left := m₁.init, right := m₂.init }
  step s
    | .inl e =>
      (m₁.step s.left e).bind fun q =>
        (s.toLeft.takes (q.2.filterMap p₁.receives)).bind fun toLeft =>
          (s.toRight.puts (q.2.filterMap p₁.sends)).map fun toRight =>
            ({ s with left := q.1, toLeft, toRight }, q.2.map .inl)
    | .inr e =>
      (m₂.step s.right e).bind fun q =>
        (s.toRight.takes (q.2.filterMap p₂.receives)).bind fun toRight =>
          (s.toLeft.puts (q.2.filterMap p₂.sends)).map fun toLeft =>
            ({ s with right := q.1, toLeft, toRight }, q.2.map .inr)

/-- What belongs to the left machine, and to the right one. -/
def lefts {X Y : Type*} (l : List (X ⊕ Y)) : List X := l.filterMap Sum.getLeft?

/-- What the second side did. -/
def rights {X Y : Type*} (l : List (X ⊕ Y)) : List Y := l.filterMap Sum.getRight?

section Parts

variable {X Y : Type*}

@[simp] theorem lefts_nil : lefts ([] : List (X ⊕ Y)) = [] := rfl

@[simp] theorem rights_nil : rights ([] : List (X ⊕ Y)) = [] := rfl

@[simp] theorem lefts_append (l l' : List (X ⊕ Y)) : lefts (l ++ l') = lefts l ++ lefts l' :=
  List.filterMap_append

@[simp] theorem rights_append (l l' : List (X ⊕ Y)) : rights (l ++ l') = rights l ++ rights l' :=
  List.filterMap_append

@[simp] theorem lefts_inl (l : List X) : lefts (l.map (Sum.inl : X → X ⊕ Y)) = l := by
  simp [lefts, List.filterMap_map, Function.comp_def]

@[simp] theorem lefts_inr (l : List Y) : lefts (l.map (Sum.inr : Y → X ⊕ Y)) = [] := by
  simp [lefts, List.filterMap_map, Function.comp_def]

@[simp] theorem rights_inr (l : List Y) : rights (l.map (Sum.inr : Y → X ⊕ Y)) = l := by
  simp [rights, List.filterMap_map, Function.comp_def]

@[simp] theorem rights_inl (l : List X) : rights (l.map (Sum.inl : X → X ⊕ Y)) = [] := by
  simp [rights, List.filterMap_map, Function.comp_def]

theorem mem_lefts {l : List (X ⊕ Y)} {a : X} : a ∈ lefts l ↔ .inl a ∈ l := by
  simp [lefts]

theorem mem_rights {l : List (X ⊕ Y)} {b : Y} : b ∈ rights l ↔ .inr b ∈ l := by
  simp [rights]

end Parts

variable {m₁ : Machine S₁ E₁ O₁} {m₂ : Machine S₂ E₂ O₂} {p₁ : Port O₁ α} {p₂ : Port O₂ α}
  {s s' : Joint S₁ S₂ α} {os : List (O₁ ⊕ O₂)}

/-- A step of the left machine, over the wires. -/
theorem joint_step_inl {e : E₁} (hs : (m₁.joint m₂ p₁ p₂).step s (.inl e) = some (s', os)) :
    ∃ os₁, os = os₁.map .inl ∧ m₁.step s.left e = some (s'.left, os₁) ∧ s'.right = s.right ∧
      s.toLeft.takes (os₁.filterMap p₁.receives) = some s'.toLeft ∧
      s.toRight.puts (os₁.filterMap p₁.sends) = some s'.toRight := by
  obtain ⟨⟨t, os₁⟩, hstep, hs⟩ := Option.bind_eq_some_iff.mp hs
  obtain ⟨toLeft, htakes, hs⟩ := Option.bind_eq_some_iff.mp hs
  obtain ⟨toRight, hputs, hs⟩ := Option.map_eq_some_iff.mp hs
  obtain ⟨rfl, rfl⟩ := Prod.mk.inj hs
  exact ⟨os₁, rfl, hstep, rfl, htakes, hputs⟩

/-- A step of the right machine, over the wires. -/
theorem joint_step_inr {e : E₂} (hs : (m₁.joint m₂ p₁ p₂).step s (.inr e) = some (s', os)) :
    ∃ os₂, os = os₂.map .inr ∧ m₂.step s.right e = some (s'.right, os₂) ∧ s'.left = s.left ∧
      s.toRight.takes (os₂.filterMap p₂.receives) = some s'.toRight ∧
      s.toLeft.puts (os₂.filterMap p₂.sends) = some s'.toLeft := by
  obtain ⟨⟨t, os₂⟩, hstep, hs⟩ := Option.bind_eq_some_iff.mp hs
  obtain ⟨toRight, htakes, hs⟩ := Option.bind_eq_some_iff.mp hs
  obtain ⟨toLeft, hputs, hs⟩ := Option.map_eq_some_iff.mp hs
  obtain ⟨rfl, rfl⟩ := Prod.mk.inj hs
  exact ⟨os₂, rfl, hstep, rfl, htakes, hputs⟩

variable {es : List (E₁ ⊕ E₂)}

/-- The left machine runs. -/
theorem Runs.left (h : (m₁.joint m₂ p₁ p₂).Runs es s os) :
    m₁.Runs (lefts es) s.left (lefts os) := by
  refine h.project Joint.left Sum.getLeft? Sum.getLeft? rfl ?_
  rintro s (e | e) s' os hs
  · obtain ⟨os₁, rfl, hstep, -⟩ := joint_step_inl hs
    refine .inr ⟨e, rfl, ?_⟩
    show m₁.step s.left e = some (s'.left, lefts (os₁.map .inl))
    rw [hstep, lefts_inl]
  · obtain ⟨os₂, rfl, -, hleft, -⟩ := joint_step_inr hs
    exact .inl ⟨rfl, hleft, lefts_inr os₂⟩

/-- The right machine runs. -/
theorem Runs.right (h : (m₁.joint m₂ p₁ p₂).Runs es s os) :
    m₂.Runs (rights es) s.right (rights os) := by
  refine h.project Joint.right Sum.getRight? Sum.getRight? rfl ?_
  rintro s (e | e) s' os hs
  · obtain ⟨os₁, rfl, -, hright, -⟩ := joint_step_inl hs
    exact .inl ⟨rfl, hright, rights_inl os₁⟩
  · obtain ⟨os₂, rfl, hstep, -⟩ := joint_step_inr hs
    refine .inr ⟨e, rfl, ?_⟩
    show m₂.step s.right e = some (s'.right, rights (os₂.map .inr))
    rw [hstep, rights_inr]

/-- What the wires have carried. -/
theorem Runs.carried (h : (m₁.joint m₂ p₁ p₂).Runs es s os) :
    Carried ((lefts os).filterMap p₁.sends) ((rights os).filterMap p₂.receives) s.toRight ∧
      Carried ((rights os).filterMap p₂.sends) ((lefts os).filterMap p₁.receives) s.toLeft := by
  refine h.trace_invariant (I := fun _ s os =>
    Carried ((lefts os).filterMap p₁.sends) ((rights os).filterMap p₂.receives) s.toRight ∧
      Carried ((rights os).filterMap p₂.sends) ((lefts os).filterMap p₁.receives) s.toLeft)
    ?_ ?_
  · exact ⟨.nil, .nil⟩
  rintro es s os (e | e) s' os' - ⟨hright, hleft⟩ hs
  · obtain ⟨os₁, rfl, -, -, htakes, hputs⟩ := joint_step_inl hs
    rw [lefts_append, rights_append, lefts_inl, rights_inl, List.append_nil, List.filterMap_append,
      List.filterMap_append]
    exact ⟨hright.puts hputs, hleft.takes htakes⟩
  · obtain ⟨os₂, rfl, -, -, htakes, hputs⟩ := joint_step_inr hs
    rw [lefts_append, rights_append, lefts_inr, rights_inr, List.append_nil, List.filterMap_append,
      List.filterMap_append]
    exact ⟨hright.takes htakes, hleft.puts hputs⟩

end Machine
