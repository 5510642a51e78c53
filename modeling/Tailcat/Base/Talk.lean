import Mathlib.Tactic

/-!
# Talking over a stream

A program reads what the far end of a stream sends and writes to it. The far end decides how much
each read returns, where its stream ends, and which writes throw. A program that throws does not
take back what it has done. One that reads exact numbers of elements does not depend on the pieces
in which they come.

## Main definitions

* `Peer`: the far end of a stream
* `Duplex`: a stream, with what was written to it
* `Talk ε β α`: a program that throws errors of `ε` or returns a value of `α`
* `Talk.readSome`, `Talk.readExact`, `Talk.writeAll`, `Talk.close`
* `Talk.Recognises p L`: `p` reads what the language `L` spells and does nothing else

## Main results

* `Talk.readExact_recognises`: the pieces make no difference to `readExact`
* `Talk.Recognises.bind`, `Talk.Recognises.readExact_bind`: programs that recognise one language
  after another
-/

/-- The far end of a stream. -/
structure Peer (ε : Type) where
  /-- How many elements each read returns besides the first one, as far as they are there. -/
  more : ℕ → ℕ
  /-- What a read throws at the end of what was sent. Without it, the read returns nothing there. -/
  resets : Option ε
  /-- What each write throws, if it does. -/
  refuses : ℕ → Option ε

/-- No write throws. -/
def Peer.Accepting {ε : Type} (peer : Peer ε) : Prop := ∀ k, peer.refuses k = none

/-- A stream whose far end has sent `unread` and nothing more. -/
structure Duplex (β : Type) where
  unread : List β
  /-- The number of reads so far. -/
  reads : ℕ := 0
  /-- What `writeAll` was called with. -/
  writes : List (List β) := []
  opened : Bool := true
  deriving DecidableEq

/-- A program that talks over a stream. -/
def Talk (ε β α : Type) := Duplex β → Except ε α × Duplex β

namespace Talk

variable {ε β α α' : Type}

instance : Monad (Talk ε β) where
  pure a := fun d => (.ok a, d)
  bind p f := fun d =>
    match p d with
    | (.ok a, d) => f a d
    | (.error e, d) => (.error e, d)

/-- The program that throws. -/
def fail (e : ε) : Talk ε β α := fun d => (.error e, d)

/-- A read of at most `max` elements. -/
def readSome (peer : Peer ε) (max : ℕ) : Talk ε β (List β) := fun d =>
  let d' := { d with reads := d.reads + 1 }
  if max = 0 then
    (.ok [], d)
  else if d.unread = [] then
    match peer.resets with
    | some e => (.error e, d')
    | none => (.ok [], d')
  else
    let n := min max (peer.more d.reads + 1)
    (.ok (d.unread.take n), { d' with unread := d.unread.drop n })

/-- The loop of `readExact`, which has read `out`. -/
def readExactFrom (peer : Peer ε) (eof : ε) (size : ℕ) (out : List β) : Talk ε β (List β) :=
  if out.length < size then do
    let part ← readSome peer (size - out.length)
    if hpart : part = [] then
      fail eof
    else
      have := List.length_pos_iff.mpr hpart
      readExactFrom peer eof size (out ++ part)
  else
    pure out
termination_by size - out.length
decreasing_by
  rw [List.length_append]
  omega

/-- Exactly `size` elements, or the error `eof` where the stream ends before. -/
def readExact (peer : Peer ε) (eof : ε) (size : ℕ) : Talk ε β (List β) :=
  readExactFrom peer eof size []

/-- A write of all of `xs`. -/
def writeAll (peer : Peer ε) (xs : List β) : Talk ε β Unit := fun d =>
  let d' := { d with writes := d.writes ++ [xs] }
  match peer.refuses d.writes.length with
  | some e => (.error e, d')
  | none => (.ok (), d')

/-- End the conversation. -/
def close : Talk ε β Unit := fun d => (.ok (), { d with opened := false })

variable {p : Talk ε β α} {f : α → Talk ε β α'} {d d' : Duplex β} {peer : Peer ε}

@[simp] theorem pure_apply (a : α) (d : Duplex β) : (pure a : Talk ε β α) d = (.ok a, d) := rfl

@[simp] theorem fail_apply (e : ε) (d : Duplex β) : (fail e : Talk ε β α) d = (.error e, d) := rfl

theorem bind_apply (p : Talk ε β α) (f : α → Talk ε β α') (d : Duplex β) :
    (p >>= f) d = match p d with
      | (.ok a, d) => f a d
      | (.error e, d) => (.error e, d) := rfl

theorem bind_of_ok {a : α} (h : p d = (.ok a, d')) : (p >>= f) d = f a d' := by
  rw [bind_apply, h]

theorem bind_of_error {e : ε} (h : p d = (.error e, d')) : (p >>= f) d = (.error e, d') := by
  rw [bind_apply, h]

instance : LawfulMonad (Talk ε β) := by
  refine LawfulMonad.mk' _ ?_ (fun _ _ => rfl) ?_
  · intro α p
    funext d
    change (p >>= pure) d = p d
    rw [bind_apply]
    rcases p d with ⟨_ | _, _⟩ <;> rfl
  · intro α α' γ p f g
    funext d
    simp only [bind_apply]
    rcases p d with ⟨_ | _, _⟩ <;> rfl

/-- Writes that are accepted. -/
theorem writeAll_of_accepting (h : peer.Accepting) (xs : List β) (d : Duplex β) :
    writeAll peer xs d = (.ok (), { d with writes := d.writes ++ [xs] }) := by
  unfold writeAll
  rw [h]

/-- A write, and what comes after it unless the write throws. -/
theorem writeAll_bind (peer : Peer ε) (xs : List β) (f : Unit → Talk ε β α) (d : Duplex β) :
    (writeAll peer xs >>= f) d = f () { d with writes := d.writes ++ [xs] } ∨
      ∃ e, (writeAll peer xs >>= f) d = (.error e, { d with writes := d.writes ++ [xs] }) := by
  cases hrefuses : peer.refuses d.writes.length with
  | none =>
    refine .inl (bind_of_ok ?_)
    rw [writeAll, hrefuses]
  | some e =>
    refine .inr ⟨e, bind_of_error ?_⟩
    rw [writeAll, hrefuses]

/-! ## Programs that only read -/

/-- The program `p` reads just what spells a value in the language `L`, and returns this value; it
throws where none is spelled. It does nothing else than read. -/
structure Recognises (p : Talk ε β α) (L : α → List β → Prop) : Prop where
  reads : ∀ a w rest d, L a w → d.unread = w ++ rest →
    ∃ k, p d = (.ok a, { d with unread := rest, reads := k })
  throws : ∀ d, (∀ a w, L a w → ¬ w <+: d.unread) →
    ∃ e unread k, p d = (.error e, { d with unread, reads := k })

namespace Recognises

variable {L : α → List β → Prop} {M : α → α' → List β → Prop}

theorem pure (a : α) : Recognises (ε := ε) (β := β) (Pure.pure a) fun b w => b = a ∧ w = [] where
  reads := by
    rintro b w rest d ⟨rfl, rfl⟩ h
    obtain rfl : d.unread = rest := h
    exact ⟨d.reads, rfl⟩
  throws d h := absurd (List.nil_prefix) (h a [] ⟨rfl, rfl⟩)

theorem fail (e : ε) : Recognises (ε := ε) (β := β) (α := α) (Talk.fail e) fun _ _ => False where
  reads := by simp
  throws d _ := ⟨e, d.unread, d.reads, rfl⟩

/-- The same language, said in another way. -/
theorem congr {L' : α → List β → Prop} (hp : Recognises p L) (h : ∀ a w, L a w ↔ L' a w) :
    Recognises p L' := by
  have : L = L' := by
    funext a w
    exact propext (h a w)
  exact this ▸ hp

/-- **One language after another.** -/
theorem bind (hp : Recognises p L) (hf : ∀ a, (∃ u, L a u) → Recognises (f a) (M a)) :
    Recognises (p >>= f) fun b w => ∃ a u v, L a u ∧ M a b v ∧ w = u ++ v where
  reads := by
    rintro b w rest d ⟨a, u, v, hu, hv, rfl⟩ h
    obtain ⟨k, hk⟩ := hp.reads a u (v ++ rest) d hu (by rw [h, List.append_assoc])
    obtain ⟨l, hl⟩ := (hf a ⟨u, hu⟩).reads b v rest { d with unread := v ++ rest, reads := k } hv rfl
    exact ⟨l, by rw [bind_of_ok hk, hl]⟩
  throws := by
    intro d h
    by_cases hspelled : ∃ a u, L a u ∧ u <+: d.unread
    · -- The first program returns, so the second one finds nothing.
      obtain ⟨a, u, hu, rest, hrest⟩ := hspelled
      obtain ⟨k, hk⟩ := hp.reads a u rest d hu hrest.symm
      obtain ⟨e, unread, l, hl⟩ := (hf a ⟨u, hu⟩).throws { d with unread := rest, reads := k } (by
        intro b v hv hpre
        exact h b (u ++ v) ⟨a, u, v, hu, hv, rfl⟩
          (hrest ▸ (List.prefix_append_right_inj u).mpr hpre))
      exact ⟨e, unread, l, by rw [bind_of_ok hk, hl]⟩
    · obtain ⟨e, unread, k, hk⟩ := hp.throws d fun a u hu hpre => hspelled ⟨a, u, hu, hpre⟩
      exact ⟨e, unread, k, bind_of_error hk⟩

end Recognises

/-! ## Exact reads -/

/-- The loop reads on to the given size, or to the end. -/
theorem readExactFrom_apply (peer : Peer ε) (eof : ε) {size n : ℕ} (out : List β)
    (hout : out.length + n = size) (d : Duplex β) :
    ∃ k, readExactFrom peer eof size out d =
      if n ≤ d.unread.length then
        (.ok (out ++ d.unread.take n), { d with unread := d.unread.drop n, reads := k })
      else
        (.error (peer.resets.getD eof), { d with unread := [], reads := k }) := by
  induction n using Nat.strong_induction_on generalizing out d with
  | _ n ih =>
    unfold readExactFrom
    rcases Nat.eq_zero_or_pos n with rfl | hn
    · refine ⟨d.reads, ?_⟩
      rw [if_neg (by omega), if_pos (Nat.zero_le _), List.take_zero, List.append_nil]
      rfl
    rw [if_pos (by omega), show size - out.length = n by omega]
    by_cases hend : d.unread = []
    · refine ⟨d.reads + 1, ?_⟩
      rw [if_neg (by rw [hend, List.length_nil]; omega)]
      cases hreset : peer.resets with
      | none =>
        have hsome : readSome peer n d = (.ok [], { d with reads := d.reads + 1 }) := by
          unfold readSome
          rw [if_neg hn.ne', if_pos hend, hreset]
        rw [bind_of_ok hsome, dif_pos rfl, fail_apply, hend]
        rfl
      | some e =>
        have hsome : readSome peer n d = (.error e, { d with reads := d.reads + 1 }) := by
          unfold readSome
          rw [if_neg hn.ne', if_pos hend, hreset]
        rw [bind_of_error hsome, hend]
        rfl
    · -- Some elements come, and the loop goes on for the others.
      set j := min n (peer.more d.reads + 1) with hj
      have hpos : 0 < d.unread.length := List.length_pos_iff.mpr hend
      have hsome : readSome peer n d =
          (.ok (d.unread.take j), { d with unread := d.unread.drop j, reads := d.reads + 1 }) := by
        unfold readSome
        rw [if_neg hn.ne', if_neg hend]
      have hne : d.unread.take j ≠ [] := by
        rw [← List.length_pos_iff, List.length_take]
        omega
      rw [bind_of_ok hsome, dif_neg hne]
      obtain ⟨k, hk⟩ := ih (n - (d.unread.take j).length)
        (by rw [List.length_take]; omega) (out ++ d.unread.take j)
        (by rw [List.length_append, List.length_take]; omega)
        { d with unread := d.unread.drop j, reads := d.reads + 1 }
      refine ⟨k, hk.trans ?_⟩
      rw [List.length_drop, List.length_take]
      by_cases hle : n ≤ d.unread.length
      · have hjle : j ≤ d.unread.length := by omega
        rw [if_pos (by omega), if_pos hle, Nat.min_eq_left hjle, List.append_assoc,
          ← List.take_add, List.drop_drop, show j + (n - j) = n by omega]
      · rw [if_neg (by omega), if_neg hle]

/-- **The pieces make no difference** to exact reads. -/
theorem readExact_recognises (peer : Peer ε) (eof : ε) (size : ℕ) :
    Recognises (β := β) (readExact peer eof size) fun xs w => w = xs ∧ xs.length = size where
  reads := by
    rintro xs w rest d ⟨rfl, hlen⟩ h
    obtain ⟨k, hk⟩ := readExactFrom_apply peer eof [] (Nat.zero_add size) d
    rw [h, if_pos (by rw [List.length_append]; omega), List.take_left' hlen,
      List.drop_left' hlen] at hk
    exact ⟨k, hk⟩
  throws := by
    intro d h
    obtain ⟨k, hk⟩ := readExactFrom_apply peer eof [] (Nat.zero_add size) d
    have hshort : ¬ size ≤ d.unread.length := fun hle =>
      h (d.unread.take size) _ ⟨rfl, List.length_take_of_le hle⟩ (List.take_prefix _ _)
    rw [if_neg hshort] at hk
    exact ⟨_, _, k, hk⟩

/-- A language whose spellings begin with `size` elements, which are read first. -/
theorem Recognises.readExact_bind {f : List β → Talk ε β α} {L : α → List β → Prop} {size : ℕ}
    (peer : Peer ε) (eof : ε) (hlong : ∀ a w, L a w → size ≤ w.length)
    (hf : ∀ xs, xs.length = size → Recognises (f xs) fun a w => L a (xs ++ w)) :
    Recognises (readExact peer eof size >>= f) L := by
  refine ((readExact_recognises peer eof size).bind (M := fun xs a w => L a (xs ++ w)) ?_).congr ?_
  · rintro xs ⟨_, -, hlen⟩
    exact hf xs hlen
  · intro a w
    constructor
    · rintro ⟨xs, u, v, ⟨rfl, -⟩, hv, rfl⟩
      exact hv
    · intro h
      exact ⟨w.take size, w.take size, w.drop size,
        ⟨rfl, List.length_take_of_le (hlong a w h)⟩,
        (List.take_append_drop size w).symm ▸ h, (List.take_append_drop size w).symm⟩

end Talk
