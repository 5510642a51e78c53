import Tailcat.Base.Cursor

/-!
# Records read field by field

A reader that takes an encoding as a whole, reading it or throwing, has a value on that encoding
that does not depend on what follows. A map of keyed entries is such an encoding, read by a loop
that looks every key up among the fields of a record: each entry is then a partial update of the
record. Updates through independent fields commute and unknown keys update nothing, so neither the
order of the entries nor further entries with unknown keys change what a map is read as.

## Main definitions

* `Reader.value p bs`: what `p` returns on `bs` alone
* `Reader.Delimits p bs`: `p` takes `bs` as a whole
* `Revised key known R es es'`: `es'` has the entries of `es` in any order, their values changed as
  `R` allows, and further entries with unknown keys
* `RecordField`, `RecordField.Independent`: a place in a record, with the reader of its values
* `readField`, `readEntry`: the reader of an entry that looks its key up

## Main results

* `Reader.value_bind`, `Reader.value_times`: values are computed along `bind` and along loops
* `foldlM_revised`: revised entries update a record in the same way
* `value_readField_comm`: entries with different keys commute
-/

namespace Reader

variable {ε β α α' σ γ : Type}

/-! ## Taking an encoding as a whole -/

/-- What `p` returns on the list `bs` alone. -/
def value (p : Reader ε β α) (bs : List β) : Option α :=
  match p (Cursor.start bs) with
  | .ok (a, _) => some a
  | .error _ => none

/-- `p` takes `bs` as a whole: it reads `bs` or throws, whatever follows. -/
def Delimits (p : Reader ε β α) (bs : List β) : Prop := (∃ a, Reads p bs a) ∨ Refuses p bs

theorem Reads.value_eq {p : Reader ε β α} {bs : List β} {a : α} (h : Reads p bs a) :
    value p bs = some a := by
  rw [value, h (Cursor.start bs) [] (by simp)]

theorem Refuses.value_eq {p : Reader ε β α} {bs : List β} (h : Refuses p bs) :
    value p bs = none := by
  obtain ⟨e, he⟩ := h (Cursor.start bs) [] (by simp)
  rw [value, he]

theorem Reads.delimits {p : Reader ε β α} {bs : List β} {a : α} (h : Reads p bs a) :
    Delimits p bs := .inl ⟨a, h⟩

theorem Refuses.delimits {p : Reader ε β α} {bs : List β} (h : Refuses p bs) : Delimits p bs :=
  .inr h

/-- Where a reader has a value, it reads it. -/
theorem Delimits.reads {p : Reader ε β α} {bs : List β} {a : α} (h : Delimits p bs)
    (ha : value p bs = some a) : Reads p bs a := by
  rcases h with ⟨b, hb⟩ | hr
  · obtain rfl : b = a := Option.some.inj (hb.value_eq.symm.trans ha)
    exact hb
  · rw [hr.value_eq] at ha
    cases ha

theorem Delimits.refuses {p : Reader ε β α} {bs : List β} (h : Delimits p bs)
    (hn : value p bs = none) : Refuses p bs := by
  rcases h with ⟨b, hb⟩ | hr
  · rw [hb.value_eq] at hn
    cases hn
  · exact hr

theorem delimits_lift (x : Except ε α) : Delimits (β := β) (lift x) [] := by
  cases x with
  | error e => exact (Refuses.fail e []).delimits
  | ok a => exact (Reads.pure a).delimits

theorem value_lift (x : Except ε α) (bs : List β) : value (lift x) bs = x.toOption := by
  cases x <;> rfl

theorem Reads.bind_delimits {p : Reader ε β α} {f : α → Reader ε β α'} {bs cs : List β} {a : α}
    (hp : Reads p bs a) (hf : Delimits (f a) cs) : Delimits (p >>= f) (bs ++ cs) := by
  rcases hf with ⟨b, hb⟩ | hr
  · exact (hp.bind hb).delimits
  · exact (hp.bind_refuses hr).delimits

theorem Delimits.bind {p : Reader ε β α} {f : α → Reader ε β α'} {bs cs : List β}
    (hp : Delimits p bs) (hf : ∀ a, Delimits (f a) cs) : Delimits (p >>= f) (bs ++ cs) := by
  rcases hp with ⟨a, ha⟩ | hr
  · exact ha.bind_delimits (hf a)
  · exact (hr.bind cs).delimits

/-- The case of `Delimits.bind` where the second reader stays where it is. -/
theorem Delimits.bind_nil {p : Reader ε β α} {f : α → Reader ε β α'} {bs : List β}
    (hp : Delimits p bs) (hf : ∀ a, Delimits (f a) []) : Delimits (p >>= f) bs := by
  simpa using hp.bind hf

theorem Reads.value_bind {p : Reader ε β α} {f : α → Reader ε β α'} {bs cs : List β} {a : α}
    (hp : Reads p bs a) (hf : Delimits (f a) cs) : value (p >>= f) (bs ++ cs) = value (f a) cs := by
  rcases hf with ⟨b, hb⟩ | hr
  · rw [(hp.bind hb).value_eq, hb.value_eq]
  · rw [(hp.bind_refuses hr).value_eq, hr.value_eq]

theorem value_bind {p : Reader ε β α} {f : α → Reader ε β α'} {bs : List β} (cs : List β)
    (hp : Delimits p bs) (hf : ∀ a, Delimits (f a) cs) :
    value (p >>= f) (bs ++ cs) = (value p bs).bind fun a => value (f a) cs := by
  rcases hp with ⟨a, ha⟩ | hr
  · rw [ha.value_eq, Option.bind_some, ha.value_bind (hf a)]
  · rw [(hr.bind cs).value_eq, hr.value_eq, Option.bind_none]

/-- A value computed from what `p` returns. -/
theorem value_map (p : Reader ε β α) (f : α → α') (bs : List β) :
    value (p >>= fun a => pure (f a)) bs = (value p bs).map f := by
  rw [value, value, bind_apply]
  rcases p (Cursor.start bs) with e | ⟨a, c⟩ <;> rfl

theorem Delimits.map {p : Reader ε β α} {bs : List β} (hp : Delimits p bs) (f : α → α') :
    Delimits (p >>= fun a => pure (f a)) bs :=
  hp.bind_nil fun a => (Reads.pure (f a)).delimits

/-! ## Loops -/

theorem Delimits.times {body : σ → Reader ε β σ} {enc : γ → List β} {es : List γ}
    (h : ∀ e ∈ es, ∀ s, Delimits (body s) (enc e)) (s : σ) :
    Delimits (Reader.times body es.length s) (es.flatMap enc) := by
  induction es generalizing s with
  | nil => exact (Reads.pure s).delimits
  | cons e es ih =>
    rw [List.length_cons, times_succ, List.flatMap_cons]
    exact (h e (by simp) s).bind fun t => ih (fun e' he' => h e' (by simp [he'])) t

/-- **The value of a loop**: each encoding updates the accumulator. -/
theorem value_times {body : σ → Reader ε β σ} (enc : γ → List β) {es : List γ}
    (h : ∀ e ∈ es, ∀ s, Delimits (body s) (enc e)) (s : σ) :
    value (Reader.times body es.length s) (es.flatMap enc) =
      es.foldlM (fun s e => value (body s) (enc e)) s := by
  induction es generalizing s with
  | nil => exact (Reads.pure s).value_eq
  | cons e es ih =>
    have htail : ∀ e' ∈ es, ∀ s, Delimits (body s) (enc e') := fun e' he' => h e' (by simp [he'])
    rw [List.length_cons, times_succ, List.flatMap_cons,
      value_bind _ (h e (by simp) s) fun t => Delimits.times htail t, List.foldlM_cons]
    congr 1
    funext t
    exact ih htail t

end Reader

/-! ## Entries in any order -/

section Revised

variable {κ γ σ : Type}

/-- `es'` has the entries of `es` in any order, changed as `R` allows, and further entries whose
keys are not known. -/
def Revised (key : γ → κ) (known : List κ) (R : γ → γ → Prop) (es es' : List γ) : Prop :=
  ∃ changed extra, List.Forall₂ R es changed ∧ (∀ e ∈ extra, key e ∉ known) ∧
    es'.Perm (changed ++ extra)

variable {key : γ → κ} {known : List κ} {R : γ → γ → Prop} {act : σ → γ → Option σ}

theorem foldlM_congr_forall₂ {es es' : List γ} (hR : ∀ e e', R e e' → ∀ s, act s e = act s e')
    (h : List.Forall₂ R es es') (s : σ) : es.foldlM act s = es'.foldlM act s := by
  induction h generalizing s with
  | nil => rfl
  | cons he _ ih =>
    rw [List.foldlM_cons, List.foldlM_cons, hR _ _ he s]
    congr 1
    funext t
    exact ih t

theorem foldlM_perm {es es' : List γ} (hp : es.Perm es')
    (hcomm : ∀ e ∈ es, ∀ e' ∈ es, ∀ s, (act s e).bind (act · e') = (act s e').bind (act · e))
    (s : σ) : es.foldlM act s = es'.foldlM act s := by
  rw [List.foldlM_eq_foldl, List.foldlM_eq_foldl]
  refine hp.foldl_eq' (fun e he e' he' z => ?_) _
  cases z with
  | none => rfl
  | some s => exact hcomm e he e' he' s

theorem foldlM_eq_some_self {es : List γ} (h : ∀ e ∈ es, ∀ s, act s e = some s) (s : σ) :
    es.foldlM act s = some s := by
  induction es with
  | nil => rfl
  | cons e es ih =>
    rw [List.foldlM_cons, h e (by simp) s]
    exact ih fun e' he' => h e' (by simp [he'])

/-- **Order and unknown keys do not matter**: when updates with different keys commute and those
with unknown keys change nothing, revised entries update alike. -/
theorem foldlM_revised {es es' : List γ}
    (hcomm : ∀ e e', key e ≠ key e' → ∀ s, (act s e).bind (act · e') = (act s e').bind (act · e))
    (hunknown : ∀ e, key e ∉ known → ∀ s, act s e = some s)
    (hR : ∀ e e', R e e' → key e = key e' ∧ ∀ s, act s e = act s e')
    (hdistinct : (es.map key).Nodup) (h : Revised key known R es es') (s : σ) :
    es.foldlM act s = es'.foldlM act s := by
  obtain ⟨changed, extra, hchanged, hextra, hperm⟩ := h
  -- Changed entries keep their keys, which therefore stay distinct.
  have hkeys : changed.map key = es.map key := by
    refine (List.forall₂_eq_eq_eq ▸ ?_ : es.map key = changed.map key).symm
    rw [List.forall₂_map_left_iff, List.forall₂_map_right_iff]
    exact hchanged.imp fun e e' he => (hR e e' he).1
  have hinj := List.inj_on_of_nodup_map (hkeys ▸ hdistinct)
  have hall : ∀ e ∈ changed ++ extra, ∀ e' ∈ changed ++ extra, ∀ s,
      (act s e).bind (act · e') = (act s e').bind (act · e) := by
    intro e he e' he' s
    by_cases hk : key e = key e'
    · -- Entries with one key are one entry, unless the key is unknown.
      by_cases hknown : key e ∈ known
      · have hmem : ∀ d ∈ changed ++ extra, key d ∈ known → d ∈ changed := fun d hd hdk =>
          (List.mem_append.mp hd).resolve_right fun hx => hextra d hx hdk
        rw [hinj (hmem e he hknown) (hmem e' he' (hk ▸ hknown)) hk]
      · rw [hunknown e hknown, hunknown e' (hk ▸ hknown), Option.bind_some, Option.bind_some,
          hunknown e hknown, hunknown e' (hk ▸ hknown)]
    · exact hcomm e e' hk s
  -- Change the entries, put the unknown ones behind them, and permute.
  calc es.foldlM act s = changed.foldlM act s :=
        foldlM_congr_forall₂ (fun e e' he => (hR e e' he).2) hchanged s
    _ = (changed ++ extra).foldlM act s := by
        have hid : ∀ t, extra.foldlM act t = some t :=
          foldlM_eq_some_self fun e he => hunknown e (hextra e he)
        rw [List.foldlM_append, funext hid]
        exact (bind_pure _).symm
    _ = es'.foldlM act s := foldlM_perm hperm.symm hall s

end Revised

/-! ## Fields -/

/-- A field of a record of `σ`: its key, its place, and the reader that turns the value that is
there into the one that an entry brings. -/
structure RecordField (ε β κ σ : Type) where
  key : κ
  Value : Type
  get : σ → Value
  set : Value → σ → σ
  read : Value → Reader ε β Value

/-- Two fields are kept in different places. -/
structure RecordField.Independent {ε β κ σ : Type} (f g : RecordField ε β κ σ) : Prop where
  get_set_left : ∀ v s, f.get (g.set v s) = f.get s
  get_set_right : ∀ v s, g.get (f.set v s) = g.get s
  set_comm : ∀ v w s, f.set v (g.set w s) = g.set w (f.set v s)

section Fields

variable {ε β κ σ : Type}

instance : Std.Symm (RecordField.Independent (ε := ε) (β := β) (κ := κ) (σ := σ)) where
  symm _ _ h := ⟨h.get_set_right, h.get_set_left, fun v w s => (h.set_comm w v s).symm⟩

/-- The reader that updates the field. -/
def RecordField.update (f : RecordField ε β κ σ) (s : σ) : Reader ε β σ := do
  let v ← f.read (f.get s)
  return f.set v s

theorem RecordField.value_update (f : RecordField ε β κ σ) (s : σ) (bs : List β) :
    (f.update s).value bs = ((f.read (f.get s)).value bs).map (f.set · s) :=
  Reader.value_map _ _ _

variable [DecidableEq κ]

/-- The value of the entry with this key: that of a field, or else one to skip. -/
def readField (skip : Reader ε β Unit) : List (RecordField ε β κ σ) → κ → σ → Reader ε β σ
  | [], _, s => do
    skip
    return s
  | f :: fields, key, s => if key = f.key then f.update s else readField skip fields key s

/-- An entry: its key and its value. -/
def readEntry (key : Reader ε β κ) (skip : Reader ε β Unit) (fields : List (RecordField ε β κ σ))
    (s : σ) : Reader ε β σ := do
  let k ← key
  readField skip fields k s

variable {skip : Reader ε β Unit} {fields : List (RecordField ε β κ σ)}

theorem readField_known_or_unknown (skip : Reader ε β Unit) (fields : List (RecordField ε β κ σ))
    (k : κ) :
    (∃ f ∈ fields, f.key = k ∧ ∀ s, readField skip fields k s = f.update s) ∨
      (k ∉ fields.map RecordField.key ∧ ∀ s, readField skip fields k s = (do skip; return s)) := by
  induction fields with
  | nil => exact .inr ⟨by simp, fun _ => rfl⟩
  | cons f fields ih =>
    by_cases hk : k = f.key
    · exact .inl ⟨f, by simp, hk.symm, fun s => if_pos hk⟩
    · rcases ih with ⟨g, hg, hgk, h⟩ | ⟨hn, h⟩
      · exact .inl ⟨g, by simp [hg], hgk, fun s => (if_neg hk).trans (h s)⟩
      · exact .inr ⟨by simpa [hk] using hn, fun s => (if_neg hk).trans (h s)⟩

theorem delimits_readField {bs : List β} (hf : ∀ f ∈ fields, ∀ v, (f.read v).Delimits bs)
    (hs : skip.Delimits bs) (k : κ) (s : σ) : (readField skip fields k s).Delimits bs := by
  rcases readField_known_or_unknown skip fields k with ⟨f, hmem, -, h⟩ | ⟨-, h⟩
  · rw [h]
    exact (hf f hmem _).map _
  · rw [h]
    exact hs.map _

/-- An entry with an unknown key changes nothing. -/
theorem value_readField_unknown {k : κ} (hk : k ∉ fields.map RecordField.key) {bs : List β}
    (hs : skip.Reads bs ()) (s : σ) : (readField skip fields k s).value bs = some s := by
  rcases readField_known_or_unknown skip fields k with ⟨f, hmem, rfl, -⟩ | ⟨-, h⟩
  · exact absurd (List.mem_map_of_mem hmem) hk
  · rw [h, Reader.value_map, hs.value_eq, Option.map_some]

/-- Values that the field of the key reads alike update alike. -/
theorem value_readField_congr {k : κ} {bs cs : List β}
    (hf : ∀ f ∈ fields, f.key = k → ∀ v, (f.read v).value bs = (f.read v).value cs)
    (hs : skip.value bs = skip.value cs) (s : σ) :
    (readField skip fields k s).value bs = (readField skip fields k s).value cs := by
  rcases readField_known_or_unknown skip fields k with ⟨f, hmem, hk, h⟩ | ⟨-, h⟩
  · rw [h, f.value_update, f.value_update, hf f hmem hk]
  · rw [h, Reader.value_map, Reader.value_map, hs]

/-- **Entries with different keys commute**, since their fields do. -/
theorem value_readField_comm (hi : fields.Pairwise RecordField.Independent) {k l : κ} (hkl : k ≠ l)
    (bs cs : List β) (s : σ) :
    ((readField skip fields k s).value bs).bind
        (fun t => (readField skip fields l t).value cs) =
      ((readField skip fields l s).value cs).bind
        (fun t => (readField skip fields k t).value bs) := by
  rcases readField_known_or_unknown skip fields k with ⟨f, hf, rfl, hk⟩ | ⟨-, hk⟩ <;>
    rcases readField_known_or_unknown skip fields l with ⟨g, hg, rfl, hl⟩ | ⟨-, hl⟩ <;>
    simp only [hk, hl, RecordField.value_update, Reader.value_map]
  · -- Both are known: neither changes what the other finds in its place.
    have hfg : f.Independent g := hi.forall hf hg fun h => hkl (congrArg RecordField.key h)
    rcases hv : (f.read (f.get s)).value bs with - | v <;>
      rcases hw : (g.read (g.get s)).value cs with - | w
    · rfl
    · simp [hfg.get_set_left, hv]
    · simp [hfg.get_set_right, hw]
    · simp [hfg.get_set_left, hfg.get_set_right, hfg.set_comm, hv, hw]
  · rcases skip.value cs with - | - <;> simp
  · rcases skip.value bs with - | - <;> simp
  · rcases skip.value bs with - | - <;> rcases skip.value cs with - | - <;> rfl

end Fields
