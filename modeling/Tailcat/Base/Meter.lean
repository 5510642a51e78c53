import Tailcat.Base.Cursor

/-!
# Readers with a meter

A metered reader is a reader that counts its steps, takes down the passes through its loops, and
leaves its cursor behind even when it throws. It belongs to a reader without a meter that does the
same. What it may cost is bounded by how far it moves: every place that is passed pays for some
steps, a reader may owe some more, and what it leaves behind may have been paid for in advance.

## Main definitions

* `Pass`, `Meter`, `Halt`: a pass through a loop, what is counted, and what is left of a reader that
  has thrown
* `Metered`, `Metered.tick`, `Metered.times`: metered readers, a step, and loops with a counter
* `Spent`: how far a cursor and a meter have gone
* `Meters p q k r t`: `q` is `p` with a meter; it moves by `k` at least, and owes `r` when it
  returns and `t` when it throws

## Main results

* `Meters.bind`, `Meters.times`, `Meters.visit`: debts of readers one after another, and of loops
* `Meters.consumes`: metered readers move as they are said to
-/

/-- A pass through a loop that has come to its end. -/
structure Pass (L : Type) where
  loop : L
  start : ℕ
  stop : ℕ
  deriving DecidableEq

/-- The steps so far, and the passes that have come to their ends. -/
structure Meter (L : Type) where
  steps : ℕ := 0
  passes : List (Pass L) := []
  deriving DecidableEq

/-- What is left of a metered reader that has thrown. -/
structure Halt (L ε β : Type) where
  thrown : ε
  cursor : Cursor β
  meter : Meter L
  deriving DecidableEq

/-- A reader with a meter for loops of `L`. -/
abbrev Metered (L ε β α : Type) := StateT (Meter L) (Reader (Halt L ε β) β) α

namespace Metered

variable {L ε β α α' σ : Type}

/-- Stop where the cursor is, with what was counted so far. -/
def fail (e : ε) : Metered L ε β α := fun m c => .error ⟨e, c, m⟩

/-- Look at the cursor, which costs nothing. -/
def get : Metered L ε β (Cursor β) := fun m c => .ok ((c, m), c)

/-- Step over elements, which costs nothing. -/
def move (n : ℕ) : Metered L ε β Unit := fun m c => .ok (((), m), c.advance n)

/-- A computation that reads nothing. -/
def lift : Except ε α → Metered L ε β α
  | .ok a => pure a
  | .error e => fail e

/-- One step. -/
def tick : Metered L ε β Unit := fun m c => .ok (((), { m with steps := m.steps + 1 }), c)

/-- Take down a pass that ends here. -/
def note (l : L) (start : ℕ) : Metered L ε β Unit := fun m c =>
  .ok (((), { m with passes := m.passes ++ [⟨l, start, c.pos⟩] }), c)

/-- A pass through a loop is a step. -/
def pass (l : L) (body : Metered L ε β α) : Metered L ε β α := do
  tick
  let c ← get
  let a ← body
  note l c.pos
  return a

/-- The loop that runs its body `n` times on an accumulator. -/
def times (l : L) (body : σ → Metered L ε β σ) : ℕ → σ → Metered L ε β σ
  | 0, s => pure s
  | n + 1, s => do
    let s ← pass l (body s)
    times l body n s

/-- The loop over elements that are at hand. -/
def visit (l : L) : List α → Metered L ε β Unit
  | [] => pure ()
  | _ :: xs => do
    pass l (pure ())
    visit l xs

theorem bind_eq (q : Metered L ε β α) (g : α → Metered L ε β α') (m : Meter L) :
    (q >>= g) m = (q m : Reader (Halt L ε β) β _) >>= fun x => g x.1 x.2 := rfl

theorem tick_bind_eq (q : Metered L ε β α) (m : Meter L) :
    (do tick; q) m = q { m with steps := m.steps + 1 } := rfl

theorem bind_of_ok {q : Metered L ε β α} {g : α → Metered L ε β α'} {m n : Meter L}
    {c d : Cursor β} {a : α} (h : q m c = .ok ((a, n), d)) : (q >>= g) m c = g a n d := by
  rw [bind_eq, Reader.bind_of_ok h]

theorem bind_of_error {q : Metered L ε β α} {g : α → Metered L ε β α'} {m : Meter L}
    {c : Cursor β} {h : Halt L ε β} (hq : q m c = .error h) : (q >>= g) m c = .error h := by
  rw [bind_eq, Reader.bind_of_error hq]

@[simp] theorem fail_bind (e : ε) (g : α → Metered L ε β α') :
    (fail e : Metered L ε β α) >>= g = fail e := rfl

theorem pass_of_ok {l : L} {q : Metered L ε β α} {m n : Meter L} {c d : Cursor β} {a : α}
    (h : q { m with steps := m.steps + 1 } c = .ok ((a, n), d)) :
    pass l q m c = .ok ((a, { n with passes := n.passes ++ [⟨l, c.pos, d.pos⟩] }), d) := by
  change (q >>= fun a => note l c.pos >>= fun _ => pure a) { m with steps := m.steps + 1 } c = _
  rw [bind_of_ok h]
  rfl

theorem pass_of_error {l : L} {q : Metered L ε β α} {m : Meter L} {c : Cursor β} {h : Halt L ε β}
    (hq : q { m with steps := m.steps + 1 } c = .error h) : pass l q m c = .error h := by
  change (q >>= fun a => note l c.pos >>= fun _ => pure a) { m with steps := m.steps + 1 } c = _
  rw [bind_of_error hq]

end Metered

/-! ## What is spent -/

/-- From one cursor and meter to others: the cursor has moved by `k` at least, within the list, and
each place pays for `rate` steps of all but `r`. What is taken down of passes meets `P`. -/
structure Spent {L β : Type} (rate : ℕ) (P : ℕ → Pass L → Prop) (c : Cursor β) (m : Meter L)
    (d : Cursor β) (m' : Meter L) (k : ℕ) (r : ℤ) : Prop where
  moves : ∃ n, k ≤ n ∧ n ≤ c.rest.length ∧ d = c.advance n ∧
    (m'.steps : ℤ) ≤ m.steps + rate * n + r
  passes : (∀ p ∈ m.passes, P c.data.length p) → ∀ p ∈ m'.passes, P c.data.length p

namespace Spent

variable {L β : Type} {rate : ℕ} {P : ℕ → Pass L → Prop} {c d e : Cursor β} {m m' m'' : Meter L}
  {j k : ℕ} {r s : ℤ}

theorem refl (h : 0 ≤ r) : Spent rate P c m c m 0 r :=
  ⟨⟨0, le_rfl, Nat.zero_le _, rfl, by simpa using h⟩, fun hm => hm⟩

theorem trans (h : Spent rate P c m d m' j r) (h' : Spent rate P d m' e m'' k s) :
    Spent rate P c m e m'' (j + k) (r + s) := by
  obtain ⟨⟨n, hj, hn, rfl, hsteps⟩, hpasses⟩ := h
  obtain ⟨⟨n', hk, hn', rfl, hsteps'⟩, hpasses'⟩ := h'
  rw [Cursor.rest_advance, List.length_drop] at hn'
  refine ⟨⟨n + n', by omega, by omega, by simp, ?_⟩, fun hm => hpasses' (hpasses hm)⟩
  push_cast
  linarith

theorem mono (h : Spent rate P c m d m' k r) (hj : j ≤ k) (hs : r ≤ s) :
    Spent rate P c m d m' j s := by
  obtain ⟨⟨n, hk, hn, hd, hsteps⟩, hpasses⟩ := h
  exact ⟨⟨n, hj.trans hk, hn, hd, by linarith⟩, hpasses⟩

end Spent

/-! ## Readers and metered readers -/

/-- `q` is `p` with a meter. It moves by `k` at least where it returns, and owes `r` then, or `t`
when it throws. -/
structure Meters {L ε β α : Type} (rate : ℕ) (P : ℕ → Pass L → Prop) (p : Reader ε β α)
    (q : Metered L ε β α) (k : ℕ) (r : α → ℤ) (t : ℤ) : Prop where
  returns : ∀ m c a d, p c = .ok (a, d) →
    ∃ m', q m c = .ok ((a, m'), d) ∧ Spent rate P c m d m' k (r a)
  throws : ∀ m c e, p c = .error e →
    ∃ h, q m c = .error h ∧ h.thrown = e ∧ Spent rate P c m h.cursor h.meter 0 t

namespace Meters

variable {L ε β α α' σ : Type} {rate : ℕ} {P : ℕ → Pass L → Prop} {p : Reader ε β α}
  {q : Metered L ε β α} {j k : ℕ} {r : α → ℤ} {t : ℤ}

theorem mono {r' : α → ℤ} {t' : ℤ} (h : Meters rate P p q k r t) (hj : j ≤ k)
    (hr : ∀ a, r a ≤ r' a) (ht : t ≤ t') : Meters rate P p q j r' t' where
  returns m c a d hc := by
    obtain ⟨m', hq, hspent⟩ := h.returns m c a d hc
    exact ⟨m', hq, hspent.mono hj (hr a)⟩
  throws m c e hc := by
    obtain ⟨halt, hq, he, hspent⟩ := h.throws m c e hc
    exact ⟨halt, hq, he, hspent.mono le_rfl ht⟩

theorem pure {a : α} (h : 0 ≤ r a) :
    Meters rate P (Pure.pure a : Reader ε β α) (Pure.pure a) 0 r t where
  returns m c b d hc := by
    obtain ⟨rfl, rfl⟩ := Prod.mk.inj (Except.ok.inj hc)
    exact ⟨m, rfl, .refl h⟩
  throws m c e hc := by cases hc

theorem fail (e : ε) (h : 0 ≤ t) :
    Meters rate P (Reader.fail e : Reader ε β α) (Metered.fail e) k r t where
  returns m c a d hc := by cases hc
  throws m c e' hc := ⟨⟨e, c, m⟩, rfl, Except.error.inj hc, .refl h⟩

theorem lift (x : Except ε α) (hr : ∀ a, x = .ok a → 0 ≤ r a) (ht : 0 ≤ t) :
    Meters rate P (Reader.lift x : Reader ε β α) (Metered.lift x) 0 r t := by
  cases x with
  | error e => exact fail e ht
  | ok a => exact pure (hr a rfl)

/-- A reader that takes no step. -/
theorem of_consumes (hp : Reader.Consumes p k) (hr : ∀ a, -(rate * k : ℤ) ≤ r a) (ht : 0 ≤ t)
    (hq : ∀ m c a d, p c = .ok (a, d) → q m c = .ok ((a, m), d))
    (he : ∀ m c e, p c = .error e → q m c = .error ⟨e, c, m⟩) : Meters rate P p q k r t where
  returns m c a d hc := by
    obtain ⟨n, hk, hn, rfl⟩ := hp c a d hc
    have hpaid : (rate * k : ℤ) ≤ rate * n := by exact_mod_cast Nat.mul_le_mul_left rate hk
    exact ⟨m, hq m c a _ hc, ⟨n, hk, hn, rfl, by linarith [hr a]⟩, fun hm => hm⟩
  throws m c e hc := ⟨_, he m c e hc, rfl, .refl ht⟩

/-- A step of the meter is none of the reader. -/
theorem tick_bind (h : Meters rate P p q k (fun a => r a - 1) (t - 1)) :
    Meters rate P p (do Metered.tick; q) k r t where
  returns m c a d hc := by
    obtain ⟨m', hq, ⟨n, hk, hn, hd, hsteps⟩, hpasses⟩ :=
      h.returns { m with steps := m.steps + 1 } c a d hc
    push_cast at hsteps
    exact ⟨m', (Metered.bind_of_ok rfl).trans hq, ⟨n, hk, hn, hd, by linarith⟩, hpasses⟩
  throws m c e hc := by
    obtain ⟨halt, hq, he, ⟨n, hk, hn, hd, hsteps⟩, hpasses⟩ :=
      h.throws { m with steps := m.steps + 1 } c e hc
    push_cast at hsteps
    exact ⟨halt, (Metered.bind_of_ok rfl).trans hq, he, ⟨n, hk, hn, hd, by linarith⟩, hpasses⟩

/-- **Readers one after another** pay for each other. -/
theorem bind {f : α → Reader ε β α'} {g : α → Metered L ε β α'} {s : α' → ℤ}
    (hp : Meters rate P p q j r t)
    (hf : ∀ a, Meters rate P (f a) (g a) k (fun b => s b - r a) (t - r a)) :
    Meters rate P (p >>= f) (q >>= g) (j + k) s t where
  returns m c b d hc := by
    obtain ⟨a, c', ha, hb⟩ := Reader.bind_eq_ok.mp hc
    obtain ⟨m', hq, hspent⟩ := hp.returns m c a c' ha
    obtain ⟨m'', hg, hspent'⟩ := (hf a).returns m' c' b d hb
    refine ⟨m'', (Metered.bind_of_ok hq).trans hg, ?_⟩
    exact (hspent.trans hspent').mono le_rfl (by linarith)
  throws m c e hc := by
    -- What is thrown comes from the first reader, or from the second where the first has stopped.
    cases hpc : p c with
    | error e' =>
      rw [Reader.bind_of_error hpc] at hc
      obtain ⟨halt, hq, he, hspent⟩ := hp.throws m c e' hpc
      exact ⟨halt, Metered.bind_of_error hq, he.trans (Except.error.inj hc), hspent⟩
    | ok x =>
      obtain ⟨a, c'⟩ := x
      rw [Reader.bind_of_ok hpc] at hc
      obtain ⟨m', hq, hspent⟩ := hp.returns m c a c' hpc
      obtain ⟨halt, hg, he, hspent'⟩ := (hf a).throws m' c' e hc
      refine ⟨halt, (Metered.bind_of_ok hq).trans hg, he, ?_⟩
      exact (hspent.trans hspent').mono (Nat.zero_le _) (by linarith)

/-- A value computed from what is read. -/
theorem value {f : α → α'} {s : α' → ℤ} {u : ℤ} (h : Meters rate P p q k r t)
    (hr : ∀ a, r a ≤ s (f a)) (ht : t ≤ u) :
    Meters rate P (do return f (← p)) (do return f (← q)) 0 s u := by
  refine (h.bind (k := 0) (s := s) fun a => ?_).mono (Nat.zero_le _) (fun _ => le_rfl) ht
  exact .pure (by linarith [hr a])

theorem ite {b : Prop} [Decidable b] {p' : Reader ε β α} {q' : Metered L ε β α}
    (h : Meters rate P p q k r t) (h' : Meters rate P p' q' k r t) :
    Meters rate P (if b then p else p') (if b then q else q') k r t := by
  split
  · exact h
  · exact h'

theorem dite {b : Prop} [Decidable b] {p : b → Reader ε β α} {q : b → Metered L ε β α}
    {p' : ¬ b → Reader ε β α} {q' : ¬ b → Metered L ε β α}
    (h : ∀ hb, Meters rate P (p hb) (q hb) k r t) (h' : ∀ hb, Meters rate P (p' hb) (q' hb) k r t) :
    Meters rate P (if hb : b then p hb else p' hb) (if hb : b then q hb else q' hb) k r t := by
  split
  · exact h _
  · exact h' _

/-- **A pass** is one step more than its body, and is taken down if it has moved. -/
theorem pass {l : L} (hl : ∀ len start stop, start < stop → stop ≤ len → P len ⟨l, start, stop⟩)
    (hk : 0 < k) (h : Meters rate P p q k (fun a => r a - 1) (t - 1)) :
    Meters rate P p (Metered.pass l q) k r t where
  returns m c a d hc := by
    obtain ⟨m', hq, ⟨n, hkn, hn, rfl, hsteps⟩, hpasses⟩ :=
      h.returns { m with steps := m.steps + 1 } c a d hc
    push_cast at hsteps
    refine ⟨_, Metered.pass_of_ok hq, ⟨n, hkn, hn, rfl, by dsimp only; linarith⟩, ?_⟩
    intro hm x hx
    rcases List.mem_append.mp hx with hx | hx
    · exact hpasses hm x hx
    · -- The pass itself, from where the body starts to where it stops.
      obtain rfl := List.mem_singleton.mp hx
      rw [Cursor.length_rest] at hn
      exact hl _ _ _ (by rw [Cursor.pos_advance]; omega) (by rw [Cursor.pos_advance]; omega)
  throws m c e hc := by
    obtain ⟨halt, hq, he, ⟨n, hkn, hn, hd, hsteps⟩, hpasses⟩ :=
      h.throws { m with steps := m.steps + 1 } c e hc
    push_cast at hsteps
    exact ⟨halt, Metered.pass_of_error hq, he, ⟨n, hkn, hn, hd, by linarith⟩, hpasses⟩

/-- **The loop rule**: every pass pays for itself, apart from what `φ` says of the accumulator. -/
theorem times {l : L} (hl : ∀ len start stop, start < stop → stop ≤ len → P len ⟨l, start, stop⟩)
    {body : σ → Reader ε β σ} {body' : σ → Metered L ε β σ} {φ : σ → ℤ}
    (hbody : ∀ s, Meters rate P (body s) (body' s) 1 (fun s' => φ s' - φ s - 1) (t - φ s - 1))
    (n : ℕ) (s : σ) : Meters rate P (Reader.times body n s) (Metered.times l body' n s) 0
      (fun s' => φ s' - φ s) (t - φ s) := by
  induction n generalizing s with
  | zero => exact .pure (by simp)
  | succ n ih =>
    rw [Reader.times_succ, Metered.times]
    have hpass : Meters rate P (body s) (Metered.pass l (body' s)) 1 (fun s' => φ s' - φ s)
        (t - φ s) := Meters.pass hl zero_lt_one (hbody s)
    -- The differences of `φ` along the loop add up to one from its start to its end.
    refine (hpass.bind (k := 0) fun s' => ?_).mono (Nat.zero_le _) (fun _ => le_rfl) le_rfl
    exact (ih s').mono le_rfl (fun _ => by linarith) (by linarith)

/-- The loop rule without anything that is paid for in advance. -/
theorem times_of_le {l : L}
    (hl : ∀ len start stop, start < stop → stop ≤ len → P len ⟨l, start, stop⟩)
    {body : σ → Reader ε β σ} {body' : σ → Metered L ε β σ}
    (hbody : ∀ s, Meters rate P (body s) (body' s) 1 (fun _ => -1) (t - 1)) (n : ℕ) (s : σ) :
    Meters rate P (Reader.times body n s) (Metered.times l body' n s) 0 (fun _ => 0) t := by
  have h := times (φ := fun _ => 0) hl (fun s => by simpa using hbody s) n s
  simpa using h

/-- A loop over elements costs a step for each of them, and does not move. -/
theorem visit {l : L} (hl : ∀ len pos, P len ⟨l, pos, pos⟩) (xs : List σ) :
    Meters rate P (Pure.pure () : Reader ε β _) (Metered.visit l xs) 0 (fun _ => xs.length) t := by
  induction xs with
  | nil => exact .pure le_rfl
  | cons x xs ih =>
    constructor
    · intro m c a d hc
      obtain ⟨-, rfl⟩ := Prod.mk.inj (Except.ok.inj hc)
      -- The first pass is taken down where the cursor is, and the others after it.
      obtain ⟨m', hq, ⟨n, hk, hn, hd, hsteps⟩, hpasses⟩ :=
        ih.returns ⟨m.steps + 1, m.passes ++ [⟨l, c.pos, c.pos⟩]⟩ c () c rfl
      push_cast at hsteps
      refine ⟨m', hq, ⟨n, hk, hn, hd, ?_⟩, fun hm => hpasses fun x hx => ?_⟩
      · rw [List.length_cons]
        push_cast
        linarith
      · rcases List.mem_append.mp hx with hx | hx
        · exact hm x hx
        · exact List.mem_singleton.mp hx ▸ hl _ _
    · intro m c e hc
      cases hc

/-- Where the reader returns, the metered reader moves as it does. -/
theorem consumes (h : Meters rate P p q k r t) (m : Meter L) : Reader.Consumes (q m) k := by
  intro c x c' hx
  cases hp : p c with
  | error e =>
    obtain ⟨halt, hq, -⟩ := h.throws m c e hp
    cases hq.symm.trans hx
  | ok y =>
    obtain ⟨m', hq, ⟨n, hk, hn, hd, -⟩, -⟩ := h.returns m c y.1 y.2 hp
    obtain ⟨rfl, rfl⟩ := Prod.mk.inj (Except.ok.inj (hq.symm.trans hx))
    exact ⟨n, hk, hn, hd⟩

end Meters

/-! ## Agreeing where little is left -/

namespace Metered

variable {L ε β α σ : Type} {k : ℕ}

theorem agreeWithin_pass {q q' : Metered L ε β α} (h : ∀ m, Reader.AgreeWithin k (q m) (q' m))
    (l : L) (m : Meter L) : Reader.AgreeWithin k (pass l q m) (pass l q' m) := by
  intro c hc
  have hbody := h { m with steps := m.steps + 1 } c hc
  cases hq : q { m with steps := m.steps + 1 } c with
  | error e => rw [pass_of_error hq, pass_of_error (hbody.symm.trans hq)]
  | ok x =>
    obtain ⟨⟨a, n⟩, d⟩ := x
    rw [pass_of_ok hq, pass_of_ok (hbody.symm.trans hq)]

theorem consumes_pass {q : Metered L ε β α} (h : ∀ m, Reader.Consumes (q m) k) (l : L)
    (m : Meter L) : Reader.Consumes (pass l q m) k := by
  intro c x d hx
  cases hq : q { m with steps := m.steps + 1 } c with
  | error e =>
    rw [pass_of_error hq] at hx
    cases hx
  | ok y =>
    obtain ⟨⟨a, n⟩, d'⟩ := y
    rw [pass_of_ok hq] at hx
    obtain ⟨-, rfl⟩ := Prod.mk.inj (Except.ok.inj hx)
    exact h _ c _ _ hq

theorem agreeWithin_times {body body' : σ → Metered L ε β σ}
    (h : ∀ s m, Reader.AgreeWithin k (body s m) (body' s m))
    (hc : ∀ s m, Reader.Consumes (body s m) 0) (l : L) (n : ℕ) (s : σ) (m : Meter L) :
    Reader.AgreeWithin k (times l body n s m) (times l body' n s m) := by
  induction n generalizing s m with
  | zero => exact .refl k _
  | succ n ih =>
    rw [times, times, bind_eq, bind_eq]
    exact (agreeWithin_pass (h s) l m).bind (consumes_pass (hc s) l m) fun x => ih x.1 x.2

end Metered
