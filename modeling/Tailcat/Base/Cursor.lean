import Mathlib.Tactic

/-!
# Readers over a cursor

A cursor is a position in a list. A reader moves a cursor forward and returns a value, or throws.
Some properties of readers compose along `bind` and along counted loops: a reader *reads* an
encoding when it returns the encoded value and stops behind it, it *consumes* at least so much of
what is left, and another reader *shadows* it when it stops at the same places. A fourth, that two
readers agree wherever little is left, is what a recursion bounded by the octets left needs.

## Main definitions

* `Cursor`, `Cursor.rest`: a position in a list and what is behind it
* `Reader`, `Reader.times`: readers and counted loops of readers
* `Reader.Reads p bs a`: on the encoding `bs`, `p` returns `a` and stops behind `bs`
* `Reader.Refuses p bs`: in front of `bs`, `p` throws
* `Reader.Needs p bs`: where `bs` is cut short, `p` throws
* `Reader.Accepts p S`: when `p` returns, `S` relates the value and what was read
* `Reader.loop`: a loop that goes on as long as its body moves forward
* `Reader.Consumes p k`: when `p` returns, it has moved by at least `k`, within the list
* `Reader.Shadows R p q`: when `p` returns, `q` stops at the same place, with a value related by `R`
* `Reader.AgreeWithin k p q`: `p` and `q` agree where at most `k` places are left
* `Reader.Throws S p`: everything that `p` throws is of the kind `S`
* `Reader.Guards p q`: `q` is `p` with assertions
* `Reader.EndsAs R T p q c`: from `c` on, `p` and `q` end alike

## Main results

* `Reads.bind`, `Reads.times_add`: encodings are read one after another
* `Accepts.bind`, `Accepts.times`: nothing but encodings one after another is accepted
* `Consumes.bind`, `Consumes.times`, `Shadows.bind`, `Shadows.times`, `AgreeWithin.bind`,
  `AgreeWithin.times`: the same for the others
-/

/-- A read position in a list. -/
structure Cursor (β : Type) where
  data : List β
  pos : ℕ
  deriving DecidableEq

namespace Cursor

variable {β : Type}

/-- The cursor in front of a list. -/
def start (data : List β) : Cursor β := ⟨data, 0⟩

/-- What is left to read. -/
def rest (c : Cursor β) : List β := c.data.drop c.pos

/-- The cursor `n` places further on. -/
def advance (c : Cursor β) (n : ℕ) : Cursor β := { c with pos := c.pos + n }

@[simp] theorem rest_start (data : List β) : (start data).rest = data := rfl

@[simp] theorem rest_advance (c : Cursor β) (n : ℕ) : (c.advance n).rest = c.rest.drop n := by
  simp [rest, advance, List.drop_drop]

@[simp] theorem data_advance (c : Cursor β) (n : ℕ) : (c.advance n).data = c.data := rfl

@[simp] theorem pos_advance (c : Cursor β) (n : ℕ) : (c.advance n).pos = c.pos + n := rfl

@[simp] theorem advance_zero (c : Cursor β) : c.advance 0 = c := rfl

@[simp] theorem advance_advance (c : Cursor β) (n k : ℕ) :
    (c.advance n).advance k = c.advance (n + k) := by
  simp [advance, Nat.add_assoc]

theorem length_rest (c : Cursor β) : c.rest.length = c.data.length - c.pos := List.length_drop

end Cursor

/-- A reader of values of `α` over lists of `β` that may throw errors of `ε`. -/
def Reader (ε β α : Type) := Cursor β → Except ε (α × Cursor β)

namespace Reader

variable {ε β α α' σ τ : Type}

instance : Monad (Reader ε β) where
  pure a := fun c => .ok (a, c)
  bind p f := fun c =>
    match p c with
    | .ok (a, c') => f a c'
    | .error e => .error e

/-- The reader that throws. -/
def fail (e : ε) : Reader ε β α := fun _ => .error e

/-- The reader that returns the current cursor. -/
def get : Reader ε β (Cursor β) := fun c => .ok (c, c)

/-- The reader that moves by `n` without looking. -/
def move (n : ℕ) : Reader ε β Unit := fun c => .ok ((), c.advance n)

/-- Throw the error of a failed computation, or return its value. -/
def lift (x : Except ε α) : Reader ε β α := fun c => x.map (·, c)

/-- What `p` would return here, without moving. -/
def peek (p : Reader ε β α) : Reader ε β (Option α) := fun c =>
  match p c with
  | .ok (a, _) => .ok (some a, c)
  | .error _ => .ok (none, c)

/-- The loop that runs its body `n` times on an accumulator. -/
def times (body : σ → Reader ε β σ) : ℕ → σ → Reader ε β σ
  | 0, s => pure s
  | n + 1, s => do
    let s ← body s
    times body n s

@[simp] theorem pure_apply (a : α) (c : Cursor β) : (pure a : Reader ε β α) c = .ok (a, c) := rfl

@[simp] theorem fail_apply (e : ε) (c : Cursor β) : (fail e : Reader ε β α) c = .error e := rfl

@[simp] theorem get_apply (c : Cursor β) : (get : Reader ε β _) c = .ok (c, c) := rfl

@[simp] theorem move_apply (n : ℕ) (c : Cursor β) :
    (move n : Reader ε β _) c = .ok ((), c.advance n) := rfl

@[simp] theorem lift_ok (a : α) : (lift (.ok a) : Reader ε β α) = pure a := rfl

theorem bind_apply (p : Reader ε β α) (f : α → Reader ε β α') (c : Cursor β) :
    (p >>= f) c = match p c with
      | .ok (a, c') => f a c'
      | .error e => .error e := rfl

theorem bind_eq_ok {p : Reader ε β α} {f : α → Reader ε β α'} {c : Cursor β}
    {r : α' × Cursor β} : (p >>= f) c = .ok r ↔ ∃ a c', p c = .ok (a, c') ∧ f a c' = .ok r := by
  rw [bind_apply]
  rcases hp : p c with e | ⟨a, c'⟩
  · simp
  · constructor
    · exact fun h => ⟨a, c', rfl, h⟩
    · rintro ⟨a₁, c₁, he, h⟩
      obtain ⟨rfl, rfl⟩ := Prod.mk.inj (Except.ok.inj he)
      exact h

theorem bind_of_ok {p : Reader ε β α} {f : α → Reader ε β α'} {c d : Cursor β} {a : α}
    (h : p c = .ok (a, d)) : (p >>= f) c = f a d := by
  rw [bind_apply, h]

theorem bind_of_error {p : Reader ε β α} {f : α → Reader ε β α'} {c : Cursor β} {e : ε}
    (h : p c = .error e) : (p >>= f) c = .error e := by
  rw [bind_apply, h]

@[simp] theorem fail_bind (e : ε) (f : α → Reader ε β α') :
    (fail e : Reader ε β α) >>= f = fail e := rfl

theorem peek_of_ok {p : Reader ε β α} {c c' : Cursor β} {a : α} (h : p c = .ok (a, c')) :
    peek p c = .ok (some a, c) := by
  rw [peek, h]

theorem lift_eq_ok {x : Except ε α} {c : Cursor β} {r : α × Cursor β} :
    (lift x) c = .ok r ↔ x = .ok r.1 ∧ c = r.2 := by
  rcases r with ⟨a, c'⟩
  cases x with
  | error e => simp [lift, Except.map]
  | ok b => simp [lift, Except.map]

theorem times_succ (body : σ → Reader ε β σ) (n : ℕ) (s : σ) :
    times body (n + 1) s = body s >>= times body n := rfl

instance : LawfulMonad (Reader ε β) := by
  refine LawfulMonad.mk' _ ?_ (fun _ _ => rfl) ?_
  · intro α p
    funext c
    change (p >>= pure) c = p c
    rw [bind_apply]
    rcases p c with e | ⟨a, c'⟩ <;> rfl
  · intro α β' γ p f g
    funext c
    rw [bind_apply, bind_apply, bind_apply]
    rcases p c with e | ⟨a, c'⟩ <;> rfl

theorem times_add (body : σ → Reader ε β σ) (m n : ℕ) (s : σ) :
    times body (m + n) s = times body m s >>= times body n := by
  induction m generalizing s with
  | zero => rw [Nat.zero_add]; rfl
  | succ m ih =>
    rw [Nat.add_right_comm, times_succ, times_succ, bind_assoc]
    congr 1
    funext s
    exact ih s

/-! ## Reading an encoding -/

/-- In front of the encoding `bs`, `p` returns `a` and stops behind it. -/
def Reads (p : Reader ε β α) (bs : List β) (a : α) : Prop :=
  ∀ c post, c.rest = bs ++ post → p c = .ok (a, c.advance bs.length)

theorem Reads.pure (a : α) : Reads (ε := ε) (β := β) (pure a) [] a := fun _ _ _ => rfl

theorem Reads.bind {p : Reader ε β α} {f : α → Reader ε β α'} {bs cs : List β} {a : α} {b : α'}
    (hp : Reads p bs a) (hf : Reads (f a) cs b) : Reads (p >>= f) (bs ++ cs) b := by
  intro c post h
  rw [List.append_assoc] at h
  rw [bind_of_ok (hp c _ h), hf (c.advance bs.length) post (by simp [h])]
  simp

/-- The case of `Reads.bind` where the second reader reads nothing. -/
theorem Reads.bind_pure {p : Reader ε β α} {f : α → Reader ε β α'} {bs : List β} {a : α} {b : α'}
    (hp : Reads p bs a) (hf : Reads (f a) [] b) : Reads (p >>= f) bs b := by
  simpa using hp.bind hf

/-- Loops read one encoding after another. -/
theorem Reads.times_add {body : σ → Reader ε β σ} {m n : ℕ} {s t u : σ} {bs cs : List β}
    (h₁ : Reads (Reader.times body m s) bs t) (h₂ : Reads (Reader.times body n t) cs u) :
    Reads (Reader.times body (m + n) s) (bs ++ cs) u := by
  rw [Reader.times_add]
  exact h₁.bind h₂

/-! ## Refusing an encoding -/

/-- In front of `bs`, `p` throws. -/
def Refuses (p : Reader ε β α) (bs : List β) : Prop :=
  ∀ c post, c.rest = bs ++ post → ∃ e, p c = .error e

theorem Refuses.fail (e : ε) (bs : List β) : Refuses (fail e : Reader ε β α) bs :=
  fun _ _ _ => ⟨e, rfl⟩

/-- What is thrown by the first reader is not caught. -/
theorem Refuses.bind {p : Reader ε β α} {f : α → Reader ε β α'} {bs : List β}
    (hp : Refuses p bs) (cs : List β) : Refuses (p >>= f) (bs ++ cs) := by
  intro c post h
  rw [List.append_assoc] at h
  obtain ⟨e, he⟩ := hp c _ h
  exact ⟨e, bind_of_error he⟩

theorem Reads.bind_refuses {p : Reader ε β α} {f : α → Reader ε β α'} {bs cs : List β} {a : α}
    (hp : Reads p bs a) (hf : Refuses (f a) cs) : Refuses (p >>= f) (bs ++ cs) := by
  intro c post h
  rw [List.append_assoc] at h
  rw [bind_of_ok (hp c _ h)]
  exact hf (c.advance bs.length) post (by simp [h])

/-! ## Encodings that are cut short -/

/-- Where only a proper prefix of `bs` is left, `p` throws. -/
def Needs (p : Reader ε β α) (bs : List β) : Prop :=
  ∀ c, c.rest <+: bs → c.rest ≠ bs → ∃ e, p c = .error e

theorem Needs.nil (p : Reader ε β α) : Needs p [] :=
  fun _ hp hne => absurd (List.prefix_nil.mp hp) hne

/-- What is cut short in the second encoding is whole in the first one. -/
theorem Needs.bind {p : Reader ε β α} {f : α → Reader ε β α'} {bs cs : List β} {a : α}
    (hp : Needs p bs) (hr : Reads p bs a) (hf : Needs (f a) cs) : Needs (p >>= f) (bs ++ cs) := by
  intro c hpre hne
  by_cases hwhole : bs <+: c.rest
  · obtain ⟨cut, hcut⟩ := hwhole
    have hrest : (c.advance bs.length).rest = cut := by simp [← hcut]
    rw [bind_of_ok (hr c cut hcut.symm)]
    refine hf _ ?_ fun he => hne ?_
    · rw [← hcut] at hpre
      exact hrest ▸ (List.prefix_append_right_inj bs).mp hpre
    · rw [← hcut, ← he, hrest]
  · have hshort : c.rest <+: bs :=
      (List.prefix_or_prefix_of_prefix hpre (List.prefix_append _ _)).resolve_right hwhole
    obtain ⟨e, he⟩ := hp c hshort fun heq => hwhole (heq ▸ List.prefix_rfl)
    exact ⟨e, bind_of_error he⟩

/-- The case of `Needs.bind` where the second reader reads nothing. -/
theorem Needs.bind_pure {p : Reader ε β α} {f : α → Reader ε β α'} {bs : List β} {a : α}
    (hp : Needs p bs) (hr : Reads p bs a) : Needs (p >>= f) bs := by
  simpa using hp.bind hr (Needs.nil (f a))

/-- **The loop rule**: a loop reads encodings one after another. -/
theorem Reads.times {γ : Type} {body : σ → Reader ε β σ} {enc : γ → List β} {update : σ → γ → σ}
    (h : ∀ e s, Reads (body s) (enc e) (update s e)) (es : List γ) (s : σ) :
    Reads (Reader.times body es.length s) (es.flatMap enc) (es.foldl update s) := by
  induction es generalizing s with
  | nil => exact .pure s
  | cons e es ih =>
    rw [List.length_cons, times_succ, List.flatMap_cons, List.foldl_cons]
    exact (h e s).bind (ih _)

theorem Needs.times {γ : Type} {body : σ → Reader ε β σ} {enc : γ → List β} {update : σ → γ → σ}
    (hn : ∀ e s, Needs (body s) (enc e)) (h : ∀ e s, Reads (body s) (enc e) (update s e))
    (es : List γ) (s : σ) : Needs (Reader.times body es.length s) (es.flatMap enc) := by
  induction es generalizing s with
  | nil => exact .nil _
  | cons e es ih =>
    rw [List.length_cons, times_succ, List.flatMap_cons]
    exact (hn e s).bind (h e s) (ih _)

/-! ## What is accepted -/

/-- Wherever `p` returns, what it has read and the value it returns are related by `S`. -/
def Accepts (p : Reader ε β α) (S : α → List β → Prop) : Prop :=
  ∀ c a d, p c = .ok (a, d) → ∃ bs post, c.rest = bs ++ post ∧ d = c.advance bs.length ∧ S a bs

section Accepts

variable {p q : Reader ε β α} {S T : α → List β → Prop}

theorem Accepts.pure {a : α} (h : S a []) : Accepts (Pure.pure a : Reader ε β α) S := by
  rintro c b d hc
  obtain ⟨rfl, rfl⟩ := Prod.mk.inj (Except.ok.inj hc)
  exact ⟨[], c.rest, rfl, rfl, h⟩

theorem Accepts.fail (e : ε) (S : α → List β → Prop) : Accepts (fail e : Reader ε β α) S := by
  rintro c a d h
  cases h

theorem Accepts.mono (hp : Accepts p S) (h : ∀ a bs, S a bs → T a bs) : Accepts p T := by
  intro c a d hc
  obtain ⟨bs, post, hrest, hd, hS⟩ := hp c a d hc
  exact ⟨bs, post, hrest, hd, h a bs hS⟩

/-- What is accepted by one reader and then by another is appended. -/
theorem Accepts.bind {f : α → Reader ε β α'} {U : α' → List β → Prop} (hp : Accepts p S)
    (hf : ∀ a xs, S a xs → Accepts (f a) fun b ys => U b (xs ++ ys)) : Accepts (p >>= f) U := by
  intro c b d h
  obtain ⟨a, c', ha, hb⟩ := bind_eq_ok.mp h
  obtain ⟨xs, post, hrest, rfl, hS⟩ := hp c a c' ha
  obtain ⟨ys, post', hrest', rfl, hU⟩ := hf a xs hS _ b d hb
  rw [Cursor.rest_advance, hrest, List.drop_left] at hrest'
  refine ⟨xs ++ ys, post', ?_, ?_, hU⟩
  · rw [hrest, hrest', List.append_assoc]
  · rw [Cursor.advance_advance, List.length_append]

theorem Accepts.ite {b : Prop} [Decidable b] (hp : b → Accepts p S) (hq : ¬ b → Accepts q S) :
    Accepts (if b then p else q) S := by
  by_cases hb : b
  · rw [if_pos hb]
    exact hp hb
  · rw [if_neg hb]
    exact hq hb

/-- **The loop rule**: a loop accepts one encoding after another. -/
theorem Accepts.times {γ : Type} {body : σ → Reader ε β σ} {enc : γ → List β} {K : γ → Prop}
    (hbody : ∀ s, Accepts (body s) fun _ bs => ∃ e, K e ∧ bs = enc e) (n : ℕ) (s : σ) :
    Accepts (Reader.times body n s) fun _ bs =>
      ∃ es : List γ, es.length = n ∧ (∀ e ∈ es, K e) ∧ bs = es.flatMap enc := by
  induction n generalizing s with
  | zero => exact .pure ⟨[], rfl, by simp, rfl⟩
  | succ n ih =>
    rw [times_succ]
    refine (hbody s).bind fun s' xs ⟨e, he, hxs⟩ => (ih s').mono fun _ ys ⟨es, hn, hes, hys⟩ => ?_
    refine ⟨e :: es, ?_, ?_, ?_⟩
    · rw [List.length_cons, hn]
    · exact List.forall_mem_cons.mpr ⟨he, hes⟩
    · rw [hxs, hys, List.flatMap_cons]

end Accepts

/-! ## Moving within the list -/

/-- When `p` returns, it has moved forward by at least `k` places of those that were left. -/
def Consumes (p : Reader ε β α) (k : ℕ) : Prop :=
  ∀ c a c', p c = .ok (a, c') → ∃ n, k ≤ n ∧ n ≤ c.rest.length ∧ c' = c.advance n

theorem Consumes.pure (a : α) : Consumes (ε := ε) (β := β) (pure a) 0 := by
  rintro c b c' h
  obtain ⟨rfl, rfl⟩ := Prod.mk.inj (Except.ok.inj h)
  exact ⟨0, le_rfl, Nat.zero_le _, rfl⟩

theorem Consumes.fail (e : ε) (k : ℕ) : Consumes (fail e : Reader ε β α) k := by
  rintro c a c' h
  cases h

theorem Consumes.mono {p : Reader ε β α} {k l : ℕ} (hp : Consumes p k) (h : l ≤ k) :
    Consumes p l := by
  intro c a c' hc
  obtain ⟨n, hk, hn, rfl⟩ := hp c a c' hc
  exact ⟨n, h.trans hk, hn, rfl⟩

theorem Consumes.bind {p : Reader ε β α} {f : α → Reader ε β α'} {k l : ℕ} (hp : Consumes p k)
    (hf : ∀ a, Consumes (f a) l) : Consumes (p >>= f) (k + l) := by
  intro c b c'' h
  obtain ⟨a, c', ha, hb⟩ := bind_eq_ok.mp h
  obtain ⟨n, hk, hn, rfl⟩ := hp c a c' ha
  obtain ⟨m, hl, hm, rfl⟩ := hf a _ b c'' hb
  rw [Cursor.rest_advance, List.length_drop] at hm
  exact ⟨n + m, by omega, by omega, by simp⟩

theorem Consumes.times {body : σ → Reader ε β σ} {k : ℕ} (hbody : ∀ s, Consumes (body s) k)
    (n : ℕ) (s : σ) : Consumes (Reader.times body n s) (n * k) := by
  induction n generalizing s with
  | zero => exact (Consumes.pure s).mono (by simp)
  | succ n ih =>
    rw [times_succ, Nat.add_mul, Nat.one_mul, Nat.add_comm]
    exact (hbody s).bind ih

/-! ## Loops without a counter -/

/-- Wherever the body goes on, it has moved forward within the list. -/
def Advances (body : σ → Reader ε β (σ ⊕ α)) : Prop :=
  ∀ s c s' c', body s c = .ok (.inl s', c') → c'.rest.length < c.rest.length

/-- The loop that runs its body on an accumulator until it returns something else. It comes to an
end, since the body moves forward. -/
def loop (body : σ → Reader ε β (σ ⊕ α)) (h : Advances body) (s : σ) (c : Cursor β) :
    Except ε (α × Cursor β) :=
  match _hb : body s c with
  | .error e => .error e
  | .ok (.inr a, c') => .ok (a, c')
  | .ok (.inl s', c') => loop body h s' c'
termination_by c.rest.length
decreasing_by exact h s c s' c' _hb

theorem loop_eq (body : σ → Reader ε β (σ ⊕ α)) (h : Advances body) (s : σ) :
    (loop body h s : Reader ε β α) = body s >>= fun
      | .inl s' => loop body h s'
      | .inr a => pure a := by
  funext c
  rw [loop, bind_apply]
  split
  · rename_i hb
    rw [hb]
  · rename_i hb
    rw [hb]
    rfl
  · rename_i hb
    rw [hb]

/-- **The loop rule** for what is thrown, with an invariant of the accumulator and the cursor. -/
theorem loop_throws {body : σ → Reader ε β (σ ⊕ α)} {h : Advances body} {I : σ → Cursor β → Prop}
    {S : ε → Prop} (hstep : ∀ s c, I s c → match body s c with
      | .error e => S e
      | .ok (.inl s', c') => I s' c'
      | .ok (.inr _, _) => True)
    {s : σ} {c : Cursor β} (hI : I s c) {e : ε} (he : loop body h s c = .error e) : S e := by
  induction hn : c.rest.length using Nat.strong_induction_on generalizing s c with
  | _ n ih =>
    have hbody := hstep s c hI
    rw [loop] at he
    split at he
    · rename_i hb
      rw [hb] at hbody
      obtain rfl := Except.error.inj he
      exact hbody
    · cases he
    · rename_i s' c' hb
      rw [hb] at hbody
      exact ih _ (hn ▸ h s c s' c' hb) hbody he rfl

/-! ## Two readers in step -/

/-- Wherever `p` returns, `q` returns too and stops at the same place, with values related by
`R`. -/
def Shadows (R : α → α' → Prop) (p : Reader ε β α) (q : Reader ε β α') : Prop :=
  ∀ c a c', p c = .ok (a, c') → ∃ b, q c = .ok (b, c') ∧ R a b

theorem Shadows.pure {R : α → α' → Prop} {a : α} {b : α'} (h : R a b) :
    Shadows (ε := ε) (β := β) R (pure a) (pure b) := by
  rintro c a' c' hc
  obtain ⟨rfl, rfl⟩ := Prod.mk.inj (Except.ok.inj hc)
  exact ⟨b, rfl, h⟩

theorem Shadows.refl (p : Reader ε β α) : Shadows (fun a b => a = b) p p :=
  fun _ a _ h => ⟨a, h, rfl⟩

theorem Shadows.fail {R : α → α' → Prop} (e : ε) (q : Reader ε β α') :
    Shadows R (fail e : Reader ε β α) q := by
  rintro c a c' h
  cases h

theorem Shadows.bind {R : α → α' → Prop} {T : σ → τ → Prop} {p : Reader ε β α}
    {q : Reader ε β α'} {f : α → Reader ε β σ} {g : α' → Reader ε β τ} (hp : Shadows R p q)
    (hf : ∀ a b, R a b → Shadows T (f a) (g b)) : Shadows T (p >>= f) (q >>= g) := by
  intro c s c'' h
  obtain ⟨a, c', ha, hs⟩ := bind_eq_ok.mp h
  obtain ⟨b, hb, hR⟩ := hp c a c' ha
  rw [bind_of_ok hb]
  exact hf a b hR c' s c'' hs

/-- The case of `Shadows.bind` where the reader after `p` stays where it is. -/
theorem Shadows.bind_pure {R : α → α' → Prop} {T : σ → α' → Prop} {p : Reader ε β α}
    {q : Reader ε β α'} {f : α → Reader ε β σ} (hp : Shadows R p q)
    (hf : ∀ a b, R a b → Shadows T (f a) (Pure.pure b)) : Shadows T (p >>= f) q := by
  intro c s c'' h
  obtain ⟨a, c', ha, hs⟩ := bind_eq_ok.mp h
  obtain ⟨b, hb, hR⟩ := hp c a c' ha
  obtain ⟨b', hb', hT⟩ := hf a b hR c' s c'' hs
  obtain ⟨rfl, rfl⟩ := Prod.mk.inj (Except.ok.inj hb')
  exact ⟨_, hb, hT⟩

theorem Shadows.ite {R : α → α' → Prop} {b : Prop} [Decidable b] {p p' : Reader ε β α}
    {q : Reader ε β α'} (h : Shadows R p q) (h' : Shadows R p' q) :
    Shadows R (if b then p else p') q := by
  split
  · exact h
  · exact h'

/-- **The loop rule**: loops whose bodies keep their accumulators related stay in step. -/
theorem Shadows.times {R : σ → τ → Prop} {body : σ → Reader ε β σ} {body' : τ → Reader ε β τ}
    (hbody : ∀ s t, R s t → Shadows R (body s) (body' t)) (n : ℕ) {s : σ} {t : τ} (h : R s t) :
    Shadows R (Reader.times body n s) (Reader.times body' n t) := by
  induction n generalizing s t with
  | zero => exact .pure h
  | succ n ih =>
    rw [times_succ, times_succ]
    exact (hbody s t h).bind fun _ _ => ih

/-- Wherever `p` returns, `q` returns too and stops at the same place. -/
abbrev SkipsAs (p : Reader ε β α) (q : Reader ε β Unit) : Prop := Shadows (fun _ _ => True) p q

theorem SkipsAs.refl (p : Reader ε β Unit) : SkipsAs p p := fun _ a _ h => ⟨a, h, trivial⟩

/-- A value computed from what `p` reads. -/
theorem SkipsAs.value {p : Reader ε β α} {q : Reader ε β Unit} (h : SkipsAs p q) (f : α → σ) :
    SkipsAs (p >>= fun a => Pure.pure (f a)) q :=
  h.bind_pure fun _ _ _ => .pure trivial

theorem SkipsAs.lift (x : Except ε α) : SkipsAs (β := β) (Reader.lift x) (Pure.pure ()) := by
  intro c a c' h
  obtain ⟨-, rfl⟩ := lift_eq_ok.mp h
  exact ⟨(), rfl, trivial⟩

theorem skipsAs_iff {p : Reader ε β α} {q : Reader ε β Unit} :
    SkipsAs p q ↔ ∀ c a c', p c = .ok (a, c') → q c = .ok ((), c') := by
  constructor
  · intro h c a c' hc
    obtain ⟨_, hb, -⟩ := h c a c' hc
    exact hb
  · exact fun h c a c' hc => ⟨(), h c a c' hc, trivial⟩

/-! ## Agreeing where little is left -/

/-- `p` and `q` agree wherever at most `k` places are left. -/
def AgreeWithin (k : ℕ) (p q : Reader ε β α) : Prop :=
  ∀ c, c.rest.length ≤ k → p c = q c

theorem AgreeWithin.refl (k : ℕ) (p : Reader ε β α) : AgreeWithin k p p := fun _ _ => rfl

/-- What `p` consumes before `f` and `g` is no longer left for them. -/
theorem AgreeWithin.bind_left {p : Reader ε β α} {f g : α → Reader ε β α'} {j k : ℕ}
    (hp : Consumes p j) (hf : ∀ a, AgreeWithin k (f a) (g a)) :
    AgreeWithin (k + j) (p >>= f) (p >>= g) := by
  intro c hc
  rw [bind_apply, bind_apply]
  rcases h : p c with e | ⟨a, c'⟩
  · rfl
  · obtain ⟨n, hj, hn, rfl⟩ := hp c a c' h
    refine hf a _ ?_
    rw [Cursor.rest_advance, List.length_drop]
    omega

theorem AgreeWithin.bind {p q : Reader ε β α} {f g : α → Reader ε β α'} {k : ℕ}
    (hpq : AgreeWithin k p q) (hp : Consumes p 0) (hf : ∀ a, AgreeWithin k (f a) (g a)) :
    AgreeWithin k (p >>= f) (q >>= g) := by
  intro c hc
  rw [bind_left hp hf c hc, bind_apply, bind_apply, hpq c hc]

theorem AgreeWithin.times {body body' : σ → Reader ε β σ} {k : ℕ}
    (hb : ∀ s, AgreeWithin k (body s) (body' s)) (hc : ∀ s, Consumes (body s) 0) (n : ℕ) (s : σ) :
    AgreeWithin k (Reader.times body n s) (Reader.times body' n s) := by
  induction n generalizing s with
  | zero => exact .refl k _
  | succ n ih =>
    rw [times_succ, times_succ]
    exact (hb s).bind (hc s) ih

/-! ## What is thrown -/

/-- Everything that `p` throws is of the kind `S`. -/
def Throws (S : ε → Prop) (p : Reader ε β α) : Prop := ∀ c e, p c = .error e → S e

section Throws

variable {S : ε → Prop}

theorem Throws.pure (a : α) : Throws (β := β) S (Pure.pure a) := by
  intro c e h
  cases h

theorem Throws.fail {e : ε} (h : S e) : Throws S (fail e : Reader ε β α) := by
  intro c e' he
  cases he
  exact h

theorem Throws.get : Throws S (get : Reader ε β _) := by
  intro c e h
  cases h

theorem Throws.move (n : ℕ) : Throws S (move n : Reader ε β _) := by
  intro c e h
  cases h

theorem Throws.bind {p : Reader ε β α} {f : α → Reader ε β α'} (hp : Throws S p)
    (hf : ∀ a, Throws S (f a)) : Throws S (p >>= f) := by
  intro c e h
  rw [bind_apply] at h
  split at h
  · exact hf _ _ e h
  · cases h
    exact hp c e ‹_›

theorem Throws.ite {b : Prop} [Decidable b] {p q : Reader ε β α} (hp : Throws S p)
    (hq : Throws S q) : Throws S (if b then p else q) := by
  split
  · exact hp
  · exact hq

theorem Throws.times {body : σ → Reader ε β σ} (hbody : ∀ s, Throws S (body s)) (n : ℕ) (s : σ) :
    Throws S (Reader.times body n s) := by
  induction n generalizing s with
  | zero => exact .pure s
  | succ n ih =>
    rw [times_succ]
    exact (hbody s).bind ih

end Throws

/-- The reader whose errors are changed by `f`. -/
def mapError {ε' : Type} (f : ε → ε') (p : Reader ε β α) : Reader ε' β α :=
  fun c => (p c).mapError f

/-! ## Readers with assertions -/

/-- What a reader with assertions ends with, if not with a value. -/
inductive Failure (ε : Type)
  | thrown (e : ε)
  | asserted
  deriving DecidableEq

/-- `q` is `p` with assertions: it does the same, unless an assertion fails. -/
def Guards (p : Reader ε β α) (q : Reader (Failure ε) β α) : Prop :=
  ∀ c, q c = .error .asserted ∨ q c = (p c).mapError .thrown

theorem Guards.mapError (p : Reader ε β α) : Guards p (p.mapError .thrown) := fun _ => .inr rfl

theorem Guards.pure (a : α) : Guards (ε := ε) (β := β) (Pure.pure a) (Pure.pure a) :=
  fun _ => .inr rfl

theorem Guards.bind {p : Reader ε β α} {q : Reader (Failure ε) β α} {f : α → Reader ε β α'}
    {g : α → Reader (Failure ε) β α'} (hp : Guards p q) (hf : ∀ a, Guards (f a) (g a)) :
    Guards (p >>= f) (q >>= g) := by
  intro c
  rw [bind_apply, bind_apply]
  rcases hp c with hq | hq
  · rw [hq]
    exact .inl rfl
  · rw [hq]
    rcases p c with e | ⟨a, d⟩
    · exact .inr rfl
    · exact hf a d

theorem Guards.times {body : σ → Reader ε β σ} {body' : σ → Reader (Failure ε) β σ}
    (hbody : ∀ s, Guards (body s) (body' s)) (n : ℕ) (s : σ) :
    Guards (Reader.times body n s) (Reader.times body' n s) := by
  induction n generalizing s with
  | zero => exact .pure s
  | succ n ih =>
    rw [times_succ, times_succ]
    exact (hbody s).bind ih

/-! ## Readers that end alike -/

/-- From a cursor on, `p` and `q` end alike: at one place, with values related by `R`, or with
errors related by `T`. -/
def EndsAs {ε' : Type} (R : α → α' → Prop) (T : ε → ε' → Prop) (p : Reader ε β α)
    (q : Reader ε' β α') (c : Cursor β) : Prop :=
  match p c, q c with
  | .ok (a, d), .ok (b, d') => R a b ∧ d = d'
  | .error e, .error e' => T e e'
  | _, _ => False

section EndsAs

variable {ε' : Type} {R : α → α' → Prop} {T : ε → ε' → Prop} {c : Cursor β}

theorem EndsAs.pure {a : α} {b : α'} (h : R a b) :
    EndsAs R T (Pure.pure a) (Pure.pure b) c := ⟨h, rfl⟩

theorem EndsAs.fail {e : ε} {e' : ε'} (h : T e e') :
    EndsAs R T (fail e : Reader ε β α) (Reader.fail e') c := h

/-- A reader ends as itself. -/
theorem EndsAs.refl {S : ε → Prop} {p : Reader ε β α} (h : Throws S p) (c : Cursor β) :
    EndsAs (fun a b => a = b) (fun e e' => e = e' ∧ S e) p p c := by
  unfold EndsAs
  rcases hp : p c with e | ⟨a, d⟩
  · exact ⟨rfl, h c e hp⟩
  · exact ⟨rfl, rfl⟩

theorem EndsAs.bind {R' : σ → τ → Prop} {p : Reader ε β α} {q : Reader ε' β α'}
    {f : α → Reader ε β σ} {g : α' → Reader ε' β τ} (hp : EndsAs R T p q c)
    (hf : ∀ a b d, p c = .ok (a, d) → R a b → EndsAs R' T (f a) (g b) d) :
    EndsAs R' T (p >>= f) (q >>= g) c := by
  unfold EndsAs at hp
  split at hp
  · rename_i a d b d' hpc hqc
    obtain ⟨hR, rfl⟩ := hp
    unfold EndsAs
    rw [bind_of_ok hpc, bind_of_ok hqc]
    exact hf a b d hpc hR
  · rename_i e e' hpc hqc
    unfold EndsAs
    rw [bind_of_error hpc, bind_of_error hqc]
    exact hp
  · exact hp.elim

theorem EndsAs.times {R : σ → τ → Prop} {body : σ → Reader ε β σ} {body' : τ → Reader ε' β τ}
    (hbody : ∀ s t c, R s t → EndsAs R T (body s) (body' t) c) (n : ℕ) {s : σ} {t : τ}
    (h : R s t) (c : Cursor β) :
    EndsAs R T (Reader.times body n s) (Reader.times body' n t) c := by
  induction n generalizing s t c with
  | zero => exact .pure h
  | succ n ih =>
    rw [times_succ, times_succ]
    exact (hbody s t c h).bind fun a b d _ hR => ih hR d

theorem EndsAs.mapError_left {ε₁ : Type} {T' : ε₁ → ε' → Prop} {f : ε → ε₁} {p : Reader ε β α}
    {q : Reader ε' β α'} (h : EndsAs R T p q c) (hT : ∀ e e', T e e' → T' (f e) e') :
    EndsAs R T' (p.mapError f) q c := by
  unfold EndsAs Reader.mapError at *
  split at h
  · rename_i hpc hqc
    rw [hpc, hqc]
    exact h
  · rename_i hpc hqc
    rw [hpc, hqc]
    exact hT _ _ h
  · exact h.elim

theorem EndsAs.mapError_right {ε₂ : Type} {T' : ε → ε₂ → Prop} {g : ε' → ε₂} {p : Reader ε β α}
    {q : Reader ε' β α'} (h : EndsAs R T p q c) (hT : ∀ e e', T e e' → T' e (g e')) :
    EndsAs R T' p (q.mapError g) c := by
  unfold EndsAs Reader.mapError at *
  split at h
  · rename_i hpc hqc
    rw [hpc, hqc]
    exact h
  · rename_i hpc hqc
    rw [hpc, hqc]
    exact hT _ _ h
  · exact h.elim

end EndsAs

end Reader
