import Tailcat.Base.Exceptions
import Tailcat.Protocol.Address

/-!
# TXT records

The TXT records of a name that begin with `tailcat=` hold addresses. They are one address, however
often it is repeated and whatever else is recorded, or the name has none.

## Main definitions

* `IsTailcatAddress`: what the parser of addresses accepts
* `tailcatAddressFromTxt`: the address in a list of TXT records

## Main results

* `selectRecords`: where the loop over the records stands
* `txt_selected`: which address is found, whatever the order of the records and however often they
  are repeated
-/

namespace Tailcat

/-- What a TXT record with an address begins with. -/
def txtPrefix : List UInt8 := ascii "tailcat="

/-- The exception of the parser, if there is one. -/
def validateTailcatAddress (value : List UInt8) : Except Exn Unit :=
  (parseTailcatAddr value).map fun _ => ()

/-- What the loop over the records does with one of them. -/
def selectRecord (selected record : List UInt8) : Except Exn (List UInt8) :=
  if ¬ txtPrefix <+: record then
    .ok selected
  else
    let value := record.drop txtPrefix.length
    if value = [] then
      .error (.runtimeError "empty tailcat= DNS TXT record")
    else
      match validateTailcatAddress value with
      | .error e => .error (.runtimeError ("invalid tailcat= DNS TXT record: " ++ e.what))
      | .ok () =>
        if selected = [] then .ok value
        else if selected ≠ value then
          .error (.runtimeError "DNS name has conflicting tailcat= TXT records")
        else .ok selected

/-- The address that all TXT records with the prefix agree on. -/
def tailcatAddressFromTxt (records : List (List UInt8)) : Except Exn (List UInt8) := do
  let selected ← records.foldlM selectRecord []
  if selected = [] then
    .error (.runtimeError "DNS name has no tailcat= TXT record")
  else
    return selected

/-! ## What is accepted -/

/-- The parser of addresses accepts `value`. -/
def IsTailcatAddress (value : List UInt8) : Prop := ∃ info, parseTailcatAddr value = .ok info

variable {value record a : List UInt8} {records records' : List (List UInt8)}

theorem validateTailcatAddress_eq_ok :
    validateTailcatAddress value = .ok () ↔ IsTailcatAddress value := by
  unfold validateTailcatAddress IsTailcatAddress
  cases parseTailcatAddr value with
  | error e => exact iff_of_false (by simp [Except.map]) (by simp)
  | ok info => exact iff_of_true rfl ⟨info, rfl⟩

theorem validateTailcatAddress_eq_error (h : ¬ IsTailcatAddress value) :
    ∃ e, validateTailcatAddress value = .error e :=
  Except.error_of_ne_ok fun _ hv => h (validateTailcatAddress_eq_ok.mp hv)

/-- What is accepted begins with the letters that are looked at first. -/
theorem IsTailcatAddress.tc (h : IsTailcatAddress value) : ascii "tc" <+: value := by
  obtain ⟨info, hinfo⟩ := h
  exact (parse_eq_ok.mp hinfo).1

theorem IsTailcatAddress.ne_nil (h : IsTailcatAddress value) : value ≠ [] := by
  rintro rfl
  exact absurd h.tc (by decide)

/-! ## Which address is found -/

/-- A record that says nothing else than that the address is `a`. -/
def Names (a record : List UInt8) : Prop :=
  txtPrefix <+: record →
    IsTailcatAddress (record.drop txtPrefix.length) ∧ record.drop txtPrefix.length = a

/-- What is selected when some records with the prefix, and no others, have been looked at. -/
structure Selects (records : List (List UInt8)) (selected : List UInt8) : Prop where
  names : ∀ record ∈ records, Names selected record
  none_iff : selected = [] ↔ ∀ record ∈ records, ¬ txtPrefix <+: record

/-- A record without the prefix changes nothing. -/
theorem Selects.skip {selected : List UInt8} (h : Selects records selected)
    (hrecord : ¬ txtPrefix <+: record) : Selects (records ++ [record]) selected where
  names record' hm hp := by
    rcases List.mem_append.mp hm with hm | hm
    · exact h.names record' hm hp
    · exact absurd (List.mem_singleton.mp hm ▸ hp) hrecord
  none_iff := by simp [h.none_iff, or_imp, forall_and, hrecord]

/-- The first record with the prefix names what is selected from then on. -/
theorem Selects.first (h : Selects records []) (hrecord : txtPrefix <+: record)
    (haddress : IsTailcatAddress (record.drop txtPrefix.length)) :
    Selects (records ++ [record]) (record.drop txtPrefix.length) where
  names record' hm hp := by
    rcases List.mem_append.mp hm with hm | hm
    · exact absurd hp (h.none_iff.mp rfl record' hm)
    · obtain rfl := List.mem_singleton.mp hm
      exact ⟨haddress, rfl⟩
  none_iff := iff_of_false haddress.ne_nil fun hn => hn record (by simp) hrecord

/-- The others have to name it again. -/
theorem Selects.again {selected : List UInt8} (h : Selects records selected)
    (hselected : selected ≠ []) (hrecord : txtPrefix <+: record) (hnames : Names selected record) :
    Selects (records ++ [record]) selected where
  names record' hm := by
    rcases List.mem_append.mp hm with hm | hm
    · exact h.names record' hm
    · obtain rfl := List.mem_singleton.mp hm
      exact hnames
  none_iff := iff_of_false hselected fun hn => hn record (by simp) hrecord

/-- Something is selected because a record names it. -/
theorem Selects.exists_record {selected : List UInt8} (h : Selects records selected)
    (hselected : selected ≠ []) : ∃ record ∈ records, txtPrefix <+: record := by
  have hsome := mt h.none_iff.mpr hselected
  push Not at hsome
  exact hsome

/-- **One record**: the loop goes on with what is selected then, or throws when nothing can be. -/
theorem selectRecord_selects {selected : List UInt8} (h : Selects records selected) :
    (∃ selected', selectRecord selected record = .ok selected' ∧
        Selects (records ++ [record]) selected') ∨
      ((∃ e, selectRecord selected record = .error e) ∧
        ∀ a, ¬ ∀ record' ∈ records ++ [record], Names a record') := by
  unfold selectRecord
  by_cases hrecord : txtPrefix <+: record
  · rw [if_neg (not_not.mpr hrecord)]
    dsimp only
    set value := record.drop txtPrefix.length
    have hnames : ∀ a, (∀ record' ∈ records ++ [record], Names a record') →
        IsTailcatAddress value ∧ value = a := fun a ha => ha record (by simp) hrecord
    by_cases haddress : IsTailcatAddress value
    · rw [if_neg haddress.ne_nil, validateTailcatAddress_eq_ok.mpr haddress]
      dsimp only
      by_cases hsel : selected = []
      · subst hsel
        exact .inl ⟨value, if_pos rfl, h.first hrecord haddress⟩
      · rw [if_neg hsel]
        by_cases hsame : selected = value
        · rw [if_neg (not_not.mpr hsame)]
          exact .inl ⟨selected, rfl, h.again hsel hrecord fun _ => ⟨haddress, hsame.symm⟩⟩
        · -- A record before this one names another address.
          rw [if_pos hsame]
          refine .inr ⟨⟨_, rfl⟩, fun a ha => hsame ?_⟩
          obtain ⟨record', hm, hp⟩ := h.exists_record hsel
          rw [← (h.names record' hm hp).2, (ha record' (by simp [hm]) hp).2, (hnames a ha).2]
    · have hthrows : ∀ a, ¬ ∀ record' ∈ records ++ [record], Names a record' :=
        fun a ha => haddress (hnames a ha).1
      obtain ⟨e, he⟩ := validateTailcatAddress_eq_error haddress
      rw [he]
      split
      · exact .inr ⟨⟨_, rfl⟩, hthrows⟩
      · exact .inr ⟨⟨_, rfl⟩, hthrows⟩
  · rw [if_pos hrecord]
    exact .inl ⟨selected, rfl, h.skip hrecord⟩

/-- **The loop over the records.** -/
theorem selectRecords (records : List (List UInt8)) :
    (∃ selected, records.foldlM selectRecord [] = .ok selected ∧ Selects records selected) ∨
      ((∃ e, records.foldlM selectRecord [] = .error e) ∧
        ∀ a, ¬ ∀ record ∈ records, Names a record) := by
  induction records using List.reverseRecOn with
  | nil => exact .inl ⟨[], rfl, by simp, by simp⟩
  | append_singleton records record ih =>
    rw [List.foldlM_append]
    rcases ih with ⟨selected, hfold, h⟩ | ⟨⟨e, hfold⟩, hnone⟩
    · rw [hfold]
      change (∃ selected', (selectRecord selected record >>= pure) = .ok selected' ∧ _) ∨
        (∃ e, (selectRecord selected record >>= pure) = .error e) ∧ _
      rw [bind_pure]
      exact selectRecord_selects h
    · rw [hfold]
      exact .inr ⟨⟨e, rfl⟩, fun a ha => hnone a fun record' hm => ha record' (by simp [hm])⟩

/-- What it takes for the records to hold the address `a`. -/
theorem tailcatAddressFromTxt_eq_ok : tailcatAddressFromTxt records = .ok a ↔
    (∃ record ∈ records, txtPrefix <+: record) ∧ ∀ record ∈ records, Names a record := by
  unfold tailcatAddressFromTxt
  rcases selectRecords records with ⟨selected, hfold, h⟩ | ⟨⟨e, hfold⟩, hnone⟩
  · rw [hfold]
    change (if selected = [] then _ else _) = _ ↔ _
    by_cases hsel : selected = []
    · rw [if_pos hsel]
      refine iff_of_false (by simp) ?_
      rintro ⟨⟨record, hm, hp⟩, -⟩
      exact h.none_iff.mp hsel record hm hp
    · rw [if_neg hsel]
      have hsome := mt h.none_iff.mpr hsel
      push Not at hsome
      constructor
      · rintro ⟨⟩
        exact ⟨hsome, h.names⟩
      · rintro ⟨-, ha⟩
        obtain ⟨record, hm, hp⟩ := hsome
        rw [← (h.names record hm hp).2, (ha record hm hp).2]
        rfl
  · rw [hfold]
    exact iff_of_false nofun fun ha => hnone a ha.2

/-- The records with the prefix are all that matters, and neither their order nor their number. -/
theorem tailcatAddressFromTxt_congr
    (h : ∀ record, txtPrefix <+: record → (record ∈ records ↔ record ∈ records')) :
    (tailcatAddressFromTxt records).toOption = (tailcatAddressFromTxt records').toOption := by
  have hiff : ∀ a, tailcatAddressFromTxt records = .ok a ↔ tailcatAddressFromTxt records' = .ok a := by
    intro a
    rw [tailcatAddressFromTxt_eq_ok, tailcatAddressFromTxt_eq_ok]
    refine and_congr ⟨?_, ?_⟩ ⟨?_, ?_⟩
    · rintro ⟨record, hm, hp⟩
      exact ⟨record, (h record hp).mp hm, hp⟩
    · rintro ⟨record, hm, hp⟩
      exact ⟨record, (h record hp).mpr hm, hp⟩
    · exact fun ha record hm hp => ha record ((h record hp).mpr hm) hp
    · exact fun ha record hm hp => ha record ((h record hp).mp hm) hp
  cases h₁ : tailcatAddressFromTxt records with
  | ok a => rw [(hiff a).mp h₁]
  | error e =>
    cases h₂ : tailcatAddressFromTxt records' with
    | ok a => cases h₁.symm.trans ((hiff a).mpr h₂)
    | error e' => rfl

/-- **Which address is found**: the one that all records with the prefix name. Permuting the
records, putting others without the prefix between them, leaving such out, or repeating records
changes neither the address nor whether there is one. -/
theorem txt_selected (records : List (List UInt8)) :
    (∀ a, tailcatAddressFromTxt records = .ok a ↔
      (∃ record ∈ records, txtPrefix <+: record) ∧ ∀ record ∈ records, txtPrefix <+: record →
        record.drop txtPrefix.length ≠ [] ∧ IsTailcatAddress (record.drop txtPrefix.length) ∧
          record.drop txtPrefix.length = a) ∧
    (∀ records', records.Perm records' →
      (tailcatAddressFromTxt records).toOption = (tailcatAddressFromTxt records').toOption) ∧
    (∀ before noise behind, records = before ++ behind → (∀ record ∈ noise, ¬ txtPrefix <+: record) →
      (tailcatAddressFromTxt records).toOption =
        (tailcatAddressFromTxt (before ++ noise ++ behind)).toOption) ∧
    ∀ before repeated behind, records = before ++ behind → (∀ record ∈ repeated, record ∈ records) →
      (tailcatAddressFromTxt records).toOption =
        (tailcatAddressFromTxt (before ++ repeated ++ behind)).toOption := by
  refine ⟨fun a => ?_, fun records' hp => ?_, ?_, ?_⟩
  · rw [tailcatAddressFromTxt_eq_ok]
    refine and_congr_right fun _ => forall₂_congr fun record _ => forall_congr' fun _ => ?_
    exact ⟨fun h => ⟨h.1.ne_nil, h⟩, fun h => h.2⟩
  · exact tailcatAddressFromTxt_congr fun record _ => hp.mem_iff
  · rintro before noise behind rfl hnoise
    refine tailcatAddressFromTxt_congr fun record hprefix => ?_
    have hnot : record ∉ noise := fun hm => hnoise record hm hprefix
    simp [hnot]
  · rintro before repeated behind rfl hrepeated
    refine tailcatAddressFromTxt_congr fun record _ => ?_
    have hmem := hrepeated record
    simp only [List.mem_append] at hmem ⊢
    tauto

/-- An address that fits into a label. -/
def exampleSecret : List UInt8 := ascii "tcomFwWCAAAQIAAAAAAAAAAAAAAAAAAAAAAAAAAAAAAAAAAAAAH2FpCg"

/-- One record with an address, with a record of another kind in front of it, and repeated. -/
theorem txt_selected_example :
    let record := txtPrefix ++ exampleSecret
    tailcatAddressFromTxt [record] = .ok exampleSecret ∧
      (tailcatAddressFromTxt [ascii "v=spf1", record]).toOption = some exampleSecret ∧
      (tailcatAddressFromTxt [record, record]).toOption = some exampleSecret := by
  intro record
  obtain ⟨hselected, -, hnoise, hrepeated⟩ := txt_selected [record]
  have hrest : record.drop txtPrefix.length = exampleSecret := List.drop_left
  have hone : tailcatAddressFromTxt [record] = .ok exampleSecret := by
    refine (hselected _).mpr ⟨⟨record, List.mem_singleton_self _, List.prefix_append _ _⟩, ?_⟩
    intro r hr _
    rw [List.mem_singleton.mp hr, hrest]
    exact ⟨by decide, validateTailcatAddress_eq_ok.mp (by decide +kernel), rfl⟩
  have hsome : (tailcatAddressFromTxt [record]).toOption = some exampleSecret := by
    rw [hone]
    rfl
  refine ⟨hone, (hnoise [] [ascii "v=spf1"] [record] rfl fun r hr => ?_).symm.trans hsome,
    (hrepeated [] [record] [record] rfl fun r hr => hr).symm.trans hsome⟩
  rw [List.mem_singleton.mp hr]
  decide

end Tailcat
