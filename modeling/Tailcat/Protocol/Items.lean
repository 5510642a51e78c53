import Tailcat.Base.Fields
import Tailcat.Protocol.Address

/-!
# Items

The definite-length items of CBOR, as the sets of octets that spell them. A head may be wider than
its value needs. `skip` reads exactly one item of any shape, and every method of the reader takes
an item as a whole: it reads the item, or it throws. Maps with text keys that are read by looking
their keys up among independent fields may be revised without being read differently.

## Main definitions

* `IsHead major v h`: `h` spells the head of an item
* `Item v`: `v` spells one item
* `DelimitsItems p`: `p` takes every item as a whole
* `Entry`, `IsMap`, `IsArray`: maps with text keys, and arrays
* `MapRevised known R`, `ArrayRevised R`: a map whose entries, an array whose items are revised
* `readRecord`: the reader of a map by its fields

## Main results

* `reads_skip`: `skip` reads any item
* `delimitsItems_text`, `delimitsItems_bytes`, `delimitsItems_integer`, `delimitsItems_boolean`:
  the methods take items as a whole
* `delimitsItems_arraySize`, `delimitsItems_mapSize`: so do the readers of arrays and maps
* `value_mapRevised`, `value_arrayRevised`: revised maps and arrays are read alike
-/

namespace Tailcat

open Reader CborReader

/-- The head of an item: the major type, and a value in the first octet or behind it. -/
inductive IsHead (major : UInt8) : UInt64 → List UInt8 → Prop
  | immediate {ai : UInt8} (h : ai < 24) : IsHead major ai.toUInt64 [major <<< 5 ||| ai]
  | following {ai : UInt8} {k : ℕ} {v : UInt64}
      (hk : (ai, k) ∈ [((24 : UInt8), 1), (25, 2), (26, 4), (27, 8)])
      (hv : v.toNat < 256 ^ k) : IsHead major v ((major <<< 5 ||| ai) :: beBytes k v.toNat)

/-- One definite-length item: an integer, a simple value or a float; a string of octets or of text;
an array; a map; an item with a tag. -/
inductive Item : List UInt8 → Prop
  | scalar {major : UInt8} {v : UInt64} {h : List UInt8} (hm : major = 0 ∨ major = 1 ∨ major = 7)
      (hh : IsHead major v h) : Item h
  | string {major : UInt8} {n : UInt64} {h s : List UInt8} (hm : major = 2 ∨ major = 3)
      (hh : IsHead major n h) (hn : s.length = n.toNat) : Item (h ++ s)
  | array {n : UInt64} {h : List UInt8} {items : List (List UInt8)} (hh : IsHead 4 n h)
      (hn : items.length = n.toNat) (hi : ∀ x ∈ items, Item x) : Item (h ++ items.flatten)
  | map {n : UInt64} {h : List UInt8} {entries : List (List UInt8 × List UInt8)}
      (hh : IsHead 5 n h) (hn : entries.length = n.toNat) (hk : ∀ e ∈ entries, Item e.1)
      (hv : ∀ e ∈ entries, Item e.2) : Item (h ++ entries.flatMap fun e => e.1 ++ e.2)
  | tag {n : UInt64} {h x : List UInt8} (hh : IsHead 6 n h) (hx : Item x) : Item (h ++ x)

/-- `p` takes every item as a whole. -/
def DelimitsItems {α : Type} (p : CborM α) : Prop := ∀ v, Item v → Delimits p v

/-- The fields of a record are read by the methods of the reader. -/
abbrev CborField (σ : Type) := RecordField Exn UInt8 Text σ

/-- A record: a map whose text keys are those of its fields. -/
def readRecord {σ : Type} (fields : List (CborField σ)) (s : σ) : CborM σ := do
  let count ← mapSize
  Reader.times (readEntry text skip fields) count.toNat s

/-! ## Heads -/

namespace IsHead

variable {major want : UInt8} {v : UInt64} {h : List UInt8}

theorem reads (hh : IsHead major v h) (hm : major < 8) : Reads head h (major, v) := by
  cases hh with
  | immediate ha => exact reads_head_immediate hm ha
  | following hk hv => exact reads_head_following _ _ hm hk hv

theorem reads_expectMajor (hh : IsHead want v h) (hw : want < 8) :
    Reads (expectMajor want) h v := by
  refine (hh.reads hw).bind_pure ?_
  simp only [ne_eq, not_true_eq_false, if_false]
  exact .pure _

theorem refuses_expectMajor (hh : IsHead major v h) (hm : major < 8) (hne : major ≠ want) :
    Refuses (expectMajor want) h := by
  have hf : Refuses (expectMajor want) (h ++ []) := by
    refine (hh.reads hm).bind_refuses ?_
    simp only [ne_eq, hne, not_false_eq_true, if_true, fail_bind]
    exact .fail _ _
  rwa [List.append_nil] at hf

/-- The first octet of a head, whose value is the additional information unless that announces
more octets. -/
theorem eq_cons (hh : IsHead major v h) : ∃ ai tail, h = (major <<< 5 ||| ai) :: tail ∧
    ai < 32 ∧ (ai < 24 → tail = []) := by
  cases hh with
  | @immediate ai ha =>
    exact ⟨ai, [], rfl, UInt8.lt_trans ha (by decide : (24 : UInt8) < 32), fun _ => rfl⟩
  | @following ai k v hk hv =>
    refine ⟨ai, _, rfl, ?_⟩
    simp only [List.mem_cons, Prod.mk.injEq, List.not_mem_nil, or_false] at hk
    rcases hk with ⟨rfl, rfl⟩ | ⟨rfl, rfl⟩ | ⟨rfl, rfl⟩ | ⟨rfl, rfl⟩ <;> simp

end IsHead

/-- Every item starts with a head, and a scalar is nothing else. -/
theorem Item.exists_head {v : List UInt8} (hv : Item v) : ∃ major n h tail, major < 8 ∧
    IsHead major n h ∧ v = h ++ tail ∧ (major = 0 ∨ major = 1 ∨ major = 7 → tail = []) := by
  cases hv with
  | scalar hm hh =>
    refine ⟨_, _, _, [], ?_, hh, (List.append_nil _).symm, fun _ => rfl⟩
    rcases hm with rfl | rfl | rfl <;> decide
  | string hm hh _ =>
    rcases hm with rfl | rfl <;>
      exact ⟨_, _, _, _, by decide, hh, rfl, fun h => absurd h (by decide)⟩
  | array hh _ _ => exact ⟨_, _, _, _, by decide, hh, rfl, fun h => absurd h (by decide)⟩
  | map hh _ _ _ => exact ⟨_, _, _, _, by decide, hh, rfl, fun h => absurd h (by decide)⟩
  | tag hh _ => exact ⟨_, _, _, _, by decide, hh, rfl, fun h => absurd h (by decide)⟩

theorem Item.ne_nil {v : List UInt8} (hv : Item v) : v ≠ [] := by
  obtain ⟨major, n, h, tail, -, hh, rfl, -⟩ := hv.exists_head
  obtain ⟨ai, t, rfl, -⟩ := hh.eq_cons
  simp

/-! ## Skipping an item -/

theorem reads_requireLen (n : UInt64) {s : List UInt8} (hs : s.length = n.toNat) :
    Reads (do requireLen n; Reader.move n.toNat : CborM Unit) s () := by
  intro c post h
  rw [requireLen_bind, if_neg, move_apply, hs]
  simp [h, hs]

/-- A loop reads one encoding after another. -/
theorem reads_times_skip {γ : Type} (body : Unit → CborM Unit) (enc : γ → List UInt8)
    {es : List γ} (h : ∀ e ∈ es, Reads (body ()) (enc e) ()) :
    Reads (Reader.times body es.length ()) (es.flatMap enc) () := by
  induction es with
  | nil => exact .pure ()
  | cons e es ih =>
    rw [List.length_cons, times_succ, List.flatMap_cons]
    exact (h e (by simp)).bind (ih fun e' he' => h e' (by simp [he']))

/-- **One item of any shape**: `skip` reads exactly it. -/
theorem reads_skip {v : List UInt8} (hv : Item v) : Reads skip v () := by
  -- By induction on the item, with the recursive equation of `skip` for its head.
  induction hv with
  | scalar hm hh =>
    rw [skip_eq]
    refine Reads.bind_pure (hh.reads ?_) ?_
    · rcases hm with rfl | rfl | rfl <;> decide
    · simp only [if_pos hm]
      exact .pure ()
  | string hm hh hn =>
    rw [skip_eq]
    rcases hm with rfl | rfl <;> exact (hh.reads (by decide)).bind (reads_requireLen _ hn)
  | array hh hn _ ih =>
    rw [skip_eq]
    refine (hh.reads (by decide)).bind ?_
    have h := reads_times_skip (fun _ => skip) id ih
    rw [List.flatMap_id, hn] at h
    exact h
  | map hh hn _ _ ihk ihv =>
    rw [skip_eq]
    refine (hh.reads (by decide)).bind ?_
    have h := reads_times_skip (fun _ => do skip; skip) _
      fun e he => (ihk e he).bind (ihv e he)
    rw [hn] at h
    exact h
  | tag hh _ ih =>
    rw [skip_eq]
    exact (hh.reads (by decide)).bind ih

theorem delimitsItems_skip : DelimitsItems skip := fun _ hv => (reads_skip hv).delimits

/-! ## Reading an item -/

theorem reads_span_of_length {n : UInt64} {s : List UInt8} (hs : s.length = n.toNat) :
    ∃ t, Reads (span n) s t := by
  have hl : s.length ≤ 2 ^ 64 - 1 := by
    have := n.toNat_lt
    omega
  refine ⟨⟨s, hl⟩, ?_⟩
  have h := reads_span ⟨s, hl⟩
  rwa [show UInt64.ofNat s.length = n by rw [hs, UInt64.ofNat_toNat]] at h

theorem IsHead.delimits_of_ne {α : Type} {major want : UInt8} {n : UInt64} {h : List UInt8}
    (hh : IsHead major n h) (hm : major < 8) (hne : major ≠ want) (q : UInt64 → CborM α)
    (tail : List UInt8) : Delimits (expectMajor want >>= q) (h ++ tail) :=
  ((hh.refuses_expectMajor hm hne).bind tail).delimits

/-- A scalar is none of the other items. -/
theorem IsHead.delimits_of_scalar {α : Type} {major want : UInt8} {n : UInt64} {h : List UInt8}
    (hh : IsHead major n h) (hm : major = 0 ∨ major = 1 ∨ major = 7)
    (hw : want ∈ [(2 : UInt8), 3, 4, 5]) (q : UInt64 → CborM α) :
    Delimits (expectMajor want >>= q) h := by
  have hne : major < 8 ∧ major ≠ want := by
    simp only [List.mem_cons, List.not_mem_nil, or_false] at hw
    rcases hm with rfl | rfl | rfl <;> rcases hw with rfl | rfl | rfl | rfl <;> decide
  simpa using hh.delimits_of_ne hne.1 hne.2 q []

theorem delimitsItems_string {α : Type} {want : UInt8} {q : UInt64 → CborM α}
    (hw : want = 2 ∨ want = 3)
    (hq : ∀ n s, s.length = n.toNat → Delimits (q n) s) :
    DelimitsItems (expectMajor want >>= q) := by
  have hw' : want < 8 ∧ want ≠ 4 ∧ want ≠ 5 ∧ want ≠ 6 ∧ want ∈ [(2 : UInt8), 3, 4, 5] := by
    rcases hw with rfl | rfl <;> decide
  obtain ⟨hw8, h4, h5, h6, hwm⟩ := hw'
  intro v hv
  cases hv with
  | scalar hm hh => exact hh.delimits_of_scalar hm hwm q
  | @string major n h s hm hh hn =>
    by_cases hne : major = want
    · subst hne
      exact (hh.reads_expectMajor hw8).bind_delimits (hq n s hn)
    · exact hh.delimits_of_ne (by rcases hm with rfl | rfl <;> decide) hne q s
  | array hh _ _ => exact hh.delimits_of_ne (by decide) h4.symm q _
  | map hh _ _ _ => exact hh.delimits_of_ne (by decide) h5.symm q _
  | tag hh _ => exact hh.delimits_of_ne (by decide) h6.symm q _

theorem delimitsItems_arraySize {α : Type} {q : UInt64 → CborM α}
    (hq : ∀ n (items : List (List UInt8)), items.length = n.toNat → (∀ x ∈ items, Item x) →
      Delimits (q n) items.flatten) : DelimitsItems (arraySize >>= q) := by
  intro v hv
  cases hv with
  | scalar hm hh => exact hh.delimits_of_scalar hm (by decide) q
  | string hm hh _ =>
    rcases hm with rfl | rfl <;> exact hh.delimits_of_ne (by decide) (by decide) q _
  | array hh hn hi => exact (hh.reads_expectMajor (by decide)).bind_delimits (hq _ _ hn hi)
  | map hh _ _ _ => exact hh.delimits_of_ne (by decide) (by decide) q _
  | tag hh _ => exact hh.delimits_of_ne (by decide) (by decide) q _

theorem delimitsItems_mapSize {α : Type} {q : UInt64 → CborM α}
    (hq : ∀ n (entries : List (List UInt8 × List UInt8)), entries.length = n.toNat →
      (∀ e ∈ entries, Item e.1) → (∀ e ∈ entries, Item e.2) →
      Delimits (q n) (entries.flatMap fun e => e.1 ++ e.2)) : DelimitsItems (mapSize >>= q) := by
  intro v hv
  cases hv with
  | scalar hm hh => exact hh.delimits_of_scalar hm (by decide) q
  | string hm hh _ =>
    rcases hm with rfl | rfl <;> exact hh.delimits_of_ne (by decide) (by decide) q _
  | array hh _ _ => exact hh.delimits_of_ne (by decide) (by decide) q _
  | map hh hn hk hv => exact (hh.reads_expectMajor (by decide)).bind_delimits (hq _ _ hn hk hv)
  | tag hh _ => exact hh.delimits_of_ne (by decide) (by decide) q _

theorem delimitsItems_text : DelimitsItems text := by
  refine delimitsItems_string (.inr rfl) fun n s hs => ?_
  obtain ⟨t, ht⟩ := reads_span_of_length hs
  exact ht.delimits

theorem delimitsItems_bytes : DelimitsItems bytes := by
  refine delimitsItems_string (.inl rfl) fun n s hs => ?_
  obtain ⟨t, ht⟩ := reads_span_of_length hs
  exact ht.delimits.map _

theorem delimitsItems_integer : DelimitsItems integer := by
  intro v hv
  obtain ⟨major, n, h, tail, hm, hh, rfl, hscalar⟩ := hv.exists_head
  by_cases hi : major = 0 ∨ major = 1
  · obtain rfl : tail = [] := hscalar (hi.elim .inl fun h => .inr (.inl h))
    refine (hh.reads hm).bind_delimits ?_
    rcases hi with rfl | rfl
    · by_cases hn : n > 0x7fffffffffffffff
      · simp only [if_true, if_pos hn, fail_bind]
        exact (Refuses.fail _ _).delimits
      · simp only [if_true, if_neg hn]
        exact (Reads.pure _).delimits
    · by_cases hn : n > 0x7fffffffffffffff
      · simp only [show ¬ (1 : UInt8) = 0 by decide, if_false, if_true, if_pos hn, fail_bind]
        exact (Refuses.fail _ _).delimits
      · simp only [show ¬ (1 : UInt8) = 0 by decide, if_false, if_true, if_neg hn]
        exact (Reads.pure _).delimits
  · rw [not_or] at hi
    refine ((hh.reads hm).bind_refuses ?_).delimits
    simp only [hi.1, hi.2, if_false]
    exact .fail _ _

/-- `boolean` looks at one octet, which only the heads of two simple values have. -/
theorem delimitsItems_boolean : DelimitsItems boolean := by
  intro v hv
  obtain ⟨major, n, h, tail, hm, hh, rfl, hscalar⟩ := hv.exists_head
  obtain ⟨ai, t, rfl, hai, ht⟩ := hh.eq_cons
  obtain ⟨hmajor, hadd⟩ := firstOctet hm hai
  by_cases hb : major <<< 5 ||| ai = 0xf4 ∨ major <<< 5 ||| ai = 0xf5
  · -- Nothing follows the head of a simple value, nor its first octet here.
    have h7 : major = 7 ∧ ai < 24 := by
      rcases hb with hb | hb <;> rw [hb] at hmajor hadd <;>
        exact ⟨hmajor.symm, hadd ▸ by decide⟩
    obtain rfl := hscalar (.inr (.inr h7.1))
    obtain rfl := ht h7.2
    refine (reads_octet _).bind_delimits ?_
    rcases hb with hb | hb <;> rw [hb] <;> exact (Reads.pure _).delimits
  · rw [not_or] at hb
    refine ((reads_octet _).bind_refuses ?_).delimits
    simp only [hb.1, hb.2, if_false]
    exact .fail _ _

/-! ## Maps with text keys, and arrays -/

/-- An entry of a map: a text key, whose head may be wider than it needs to be, and one item. -/
structure Entry where
  keyHead : List UInt8
  key : Text
  value : List UInt8
  isHead : IsHead 3 (UInt64.ofNat key.toList.length) keyHead
  isItem : Item value

/-- The octets of an entry. -/
def Entry.octets (e : Entry) : List UInt8 := e.keyHead ++ e.key.toList ++ e.value

/-- The octets of a map with these entries. -/
def IsMap (es : List Entry) (v : List UInt8) : Prop :=
  ∃ n h, IsHead 5 n h ∧ es.length = n.toNat ∧ v = h ++ es.flatMap Entry.octets

/-- The octets of an array with these items. -/
def IsArray (items : List (List UInt8)) (v : List UInt8) : Prop :=
  ∃ n h, IsHead 4 n h ∧ items.length = n.toNat ∧ (∀ x ∈ items, Item x) ∧ v = h ++ items.flatten

/-- The entries of a map with distinct keys are permuted, their values changed as `R` allows for
their key, and entries with unknown keys inserted. -/
def MapRevised (known : List Text) (R : Text → List UInt8 → List UInt8 → Prop)
    (v v' : List UInt8) : Prop :=
  ∃ es es', IsMap es v ∧ IsMap es' v' ∧ (es.map Entry.key).Nodup ∧
    Revised Entry.key known (fun e e' => e.key = e'.key ∧ R e.key e.value e'.value) es es'

/-- The items of an array are changed as `R` allows. -/
def ArrayRevised (R : List UInt8 → List UInt8 → Prop) (v v' : List UInt8) : Prop :=
  ∃ items items', IsArray items v ∧ IsArray items' v' ∧ List.Forall₂ R items items'

namespace Entry

variable (e : Entry)

theorem reads_text : Reads text (e.keyHead ++ e.key.toList) e.key :=
  (e.isHead.reads_expectMajor (by decide)).bind (reads_span e.key)

theorem isItem_key : Item (e.keyHead ++ e.key.toList) := by
  refine .string (.inr rfl) e.isHead ?_
  rw [UInt64.toNat_ofNat', Nat.mod_eq_of_lt]
  exact e.key.length_le.trans_lt (by decide)

theorem delimits_readEntry {σ : Type} {fields : List (CborField σ)}
    (hf : ∀ f ∈ fields, ∀ v, DelimitsItems (f.read v)) (s : σ) :
    Delimits (readEntry text skip fields s) e.octets :=
  e.reads_text.bind_delimits
    (delimits_readField (fun f hm v => hf f hm v _ e.isItem) (delimitsItems_skip _ e.isItem) _ s)

theorem value_readEntry {σ : Type} {fields : List (CborField σ)}
    (hf : ∀ f ∈ fields, ∀ v, DelimitsItems (f.read v)) (s : σ) :
    (readEntry text skip fields s).value e.octets = (readField skip fields e.key s).value e.value :=
  e.reads_text.value_bind
    (delimits_readField (fun f hm v => hf f hm v _ e.isItem) (delimitsItems_skip _ e.isItem) _ s)

end Entry

/-- A map with text keys is an item. -/
theorem IsMap.item {es : List Entry} {v : List UInt8} (h : IsMap es v) : Item v := by
  obtain ⟨n, hd, hh, hn, rfl⟩ := h
  have hmap := @Item.map n hd (es.map fun e => (e.keyHead ++ e.key.toList, e.value)) hh
    (by simpa using hn) (by simpa using fun e _ => e.isItem_key)
    (by simpa using fun e _ => e.isItem)
  rw [List.flatMap_map] at hmap
  exact hmap

theorem IsArray.item {items : List (List UInt8)} {v : List UInt8} (h : IsArray items v) :
    Item v := by
  obtain ⟨n, hd, hh, hn, hi, rfl⟩ := h
  exact .array hh hn hi

section Record

variable {σ : Type} {fields : List (CborField σ)} {v v' : List UInt8}

theorem delimitsItems_readRecord (hf : ∀ f ∈ fields, ∀ v, DelimitsItems (f.read v)) (s : σ) :
    DelimitsItems (readRecord fields s) := by
  refine delimitsItems_mapSize fun n entries hn hk hv => ?_
  rw [← hn]
  refine Delimits.times (fun e he s => ?_) s
  exact (delimitsItems_text _ (hk e he)).bind fun k =>
    delimits_readField (fun f hm v => hf f hm v _ (hv e he)) (delimitsItems_skip _ (hv e he)) k s

/-- The value of a map: each entry updates the record. -/
theorem value_readRecord (hf : ∀ f ∈ fields, ∀ v, DelimitsItems (f.read v)) {es : List Entry}
    (h : IsMap es v) (s : σ) : (readRecord fields s).value v =
      es.foldlM (fun s e => (readField skip fields e.key s).value e.value) s := by
  obtain ⟨n, hd, hh, hn, rfl⟩ := h
  have hbody : ∀ e ∈ es, ∀ s, Delimits (readEntry text skip fields s) e.octets :=
    fun e _ => e.delimits_readEntry hf
  have hsize : Reads mapSize hd n := hh.reads_expectMajor (by decide)
  rw [readRecord, hsize.value_bind] <;> rw [← hn]
  · rw [value_times _ hbody]
    refine congrArg (es.foldlM · s) (funext fun s => funext fun e => ?_)
    exact e.value_readEntry hf s
  · exact Delimits.times hbody s

/-- **Revised maps are read alike**, when their fields are independent and read alike what may
have changed in them. -/
theorem value_mapRevised (hf : ∀ f ∈ fields, ∀ v, DelimitsItems (f.read v))
    (hi : fields.Pairwise RecordField.Independent)
    {R : Text → List UInt8 → List UInt8 → Prop}
    (hR : ∀ f ∈ fields, ∀ v v', R f.key v v' → ∀ old, (f.read old).value v = (f.read old).value v')
    (h : MapRevised (fields.map RecordField.key) R v v') (s : σ) :
    (readRecord fields s).value v = (readRecord fields s).value v' := by
  obtain ⟨es, es', hes, hes', hdistinct, hrev⟩ := h
  rw [value_readRecord hf hes, value_readRecord hf hes']
  -- Different keys commute, unknown ones are skipped, and changed values are read alike.
  refine foldlM_revised (fun e e' hne s => ?_) (fun e he s => ?_) (fun e e' he => ?_) hdistinct
    hrev s
  · exact value_readField_comm hi hne _ _ s
  · exact value_readField_unknown he (reads_skip e.isItem) s
  · obtain ⟨hk, hv⟩ := he
    refine ⟨hk, fun s => ?_⟩
    rw [← hk]
    refine value_readField_congr (fun f hm hfk old => hR f hm _ _ (hfk ▸ hv) old) ?_ s
    rw [(reads_skip e.isItem).value_eq, (reads_skip e'.isItem).value_eq]

end Record

section Array

variable {α α' : Type} {cap : ℕ} {item : CborM α}

theorem delimits_pushItem (hitem : DelimitsItems item) {x : List UInt8} (hx : Item x)
    (xs : Vec α cap) : Delimits (do Reader.lift (xs.pushBack (← item)) : CborM (Vec α cap)) x :=
  (hitem x hx).bind_nil fun _ => delimits_lift _

theorem value_pushItem (hitem : DelimitsItems item) {x : List UInt8} (hx : Item x)
    (xs : Vec α cap) : (do Reader.lift (xs.pushBack (← item)) : CborM (Vec α cap)).value x =
      (item.value x).bind fun a => (xs.pushBack a).toOption := by
  have h := value_bind [] (hitem x hx) fun a => delimits_lift (xs.pushBack a)
  simpa only [List.append_nil, value_lift] using h

theorem delimits_pushItems (hitem : DelimitsItems item) {items : List (List UInt8)}
    (hi : ∀ x ∈ items, Item x) (xs : Vec α cap) :
    Delimits (Reader.times (fun xs : Vec α cap => do Reader.lift (xs.pushBack (← item)))
      items.length xs) items.flatten := by
  rw [← List.flatMap_id]
  exact Delimits.times (fun x hx xs => delimits_pushItem hitem (hi x hx) xs) xs

theorem delimits_readItems (hitem : DelimitsItems item) {items : List (List UInt8)}
    (hi : ∀ x ∈ items, Item x) (xs : Vec α cap) :
    Delimits (readItems item items.length xs) items.flatten :=
  (delimits_lift _).bind fun _ => delimits_pushItems hitem hi xs

/-- Items that are read alike are read alike into an array. -/
theorem value_readItems_congr (hitem : DelimitsItems item) {items items' : List (List UInt8)}
    (hi : ∀ x ∈ items, Item x) (hi' : ∀ x ∈ items', Item x)
    (h : List.Forall₂ (fun x x' => item.value x = item.value x') items items') (xs : Vec α cap) :
    (readItems item items.length xs).value items.flatten =
      (readItems item items'.length xs).value items'.flatten := by
  -- Both loops start from the same vector, when there is room for as many items.
  have hloop : ∀ {items : List (List UInt8)}, (∀ x ∈ items, Item x) →
      (readItems item items.length xs).value items.flatten =
        (xs.reserve items.length).toOption.bind fun _ => items.foldlM (fun xs x =>
          (do Reader.lift (xs.pushBack (← item)) : CborM (Vec α cap)).value x) xs := by
    intro items hi
    refine (value_bind items.flatten (delimits_lift (xs.reserve items.length))
      fun _ => delimits_pushItems hitem hi xs).trans ?_
    rw [value_lift, ← List.flatMap_id]
    congr 1
    funext _
    exact value_times id (fun x hx xs => delimits_pushItem hitem (hi x hx) xs) xs
  rw [hloop hi, hloop hi', h.length_eq]
  congr 1
  funext _
  refine foldlM_congr_forall₂ (R := fun x x' => Item x ∧ Item x' ∧ item.value x = item.value x')
    (fun x x' hx xs => ?_) ?_ xs
  · rw [value_pushItem hitem hx.1, value_pushItem hitem hx.2.1, hx.2.2]
  · have hright := (List.forall₂_and_left _ _).mpr ⟨hi', h.flip⟩
    exact (List.forall₂_and_left _ _).mpr ⟨hi, hright.flip⟩

/-- Revised arrays are read alike when their items are. -/
theorem value_arrayRevised {R : List UInt8 → List UInt8 → Prop} {q : UInt64 → CborM α'}
    (hq : ∀ n (items : List (List UInt8)), items.length = n.toNat → (∀ x ∈ items, Item x) →
      Delimits (q n) items.flatten)
    (hR : ∀ n items items', items.length = n.toNat → (∀ x ∈ items, Item x) →
      (∀ x ∈ items', Item x) → List.Forall₂ R items items' →
      (q n).value items.flatten = (q n).value items'.flatten)
    {v v' : List UInt8} (h : ArrayRevised R v v') :
    (arraySize >>= q).value v = (arraySize >>= q).value v' := by
  obtain ⟨items, items', ⟨n, hd, hh, hn, hi, rfl⟩, ⟨n', hd', hh', hn', hi', rfl⟩, hr⟩ := h
  obtain rfl : n = n' := UInt64.toNat_inj.mp (hn ▸ hn' ▸ hr.length_eq)
  have hsize : Reads arraySize hd n := hh.reads_expectMajor (by decide)
  have hsize' : Reads arraySize hd' n := hh'.reads_expectMajor (by decide)
  rw [hsize.value_bind (hq n items hn hi), hsize'.value_bind (hq n items' hn' hi')]
  exact hR n items items' hn hi hi' hr

end Array

end Tailcat
