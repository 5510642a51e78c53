import Tailcat.Base.Ctype
import Tailcat.Base.Shell
import Tailcat.Resolver.Classify
import Tailcat.Resolver.Dns

/-!
# Lookups

A destination that is a name is looked up with `res_query`, which takes the name as a C string and
in the presentation format: a null octet ends the name, and behind a backslash is an octet that is
not looked at, or its number. The labels that are asked for need not be those of the destination, of
which none is an address.

## Main definitions

* `resolveTailcatAddressArgument`: an address, with the names that were looked up for it
* `LibResolv`: how the library reads names
* `AsksForNoAddress`: no label that is asked for is an address
* `presentationFormat`: names as the libraries that come from BIND read them

## Main results

* `classified_iff`: which destinations are addresses, names and neither, and for which of them no
  address is asked for
* `addresses_queried`: addresses that are asked for
-/

namespace Tailcat

open Ctype (cStr isDigit decimal)
open Shell (backslash)

/-- The address, and the names that `res_query` was given for it. -/
def resolveTailcatAddressArgument (resQuery : List UInt8 → Option DnsResponse)
    (value : List UInt8) :
    Except (Reader.Failure Exn) ResolvedTailcatAddress × List (List UInt8) :=
  match classifyTailcatAddressArgument value with
  | .error e => (.error (.thrown e), [])
  | .ok classified =>
    if ¬ classified.viaDns then
      (.ok classified, [])
    else
      -- `res_query` is given `name.c_str()`.
      (do
        let records ← queryTxtRecords (fun name => resQuery (cStr name)) classified.dnsName
        let address ← (tailcatAddressFromTxt records).mapError .thrown
        return { classified with address },
       [cStr classified.dnsName])

/-- How `res_query` reads a name: the labels that it asks for, or nothing when it takes the text for
no name and sends no query. Without a backslash in it, a name is its labels with dots between
them. -/
structure LibResolv where
  labels : List UInt8 → Option (List (List UInt8))
  labels_plain : ∀ name asked, backslash ∉ name → labels name = some asked →
    asked = (name.splitOn dot).filter (!·.isEmpty)

/-- No label of a name that is asked for is an address. -/
def AsksForNoAddress (N : LibResolv) (value : List UInt8) : Prop :=
  ∀ resQuery, ∀ name ∈ (resolveTailcatAddressArgument resQuery value).2,
    ∀ asked, N.labels name = some asked → ∀ label ∈ asked, ¬ IsTailcatAddress label

/-- No label that a null octet or a backslash has changed is an address. -/
def ChangesToNoAddress (N : LibResolv) (value : List UInt8) : Prop :=
  ∀ asked, N.labels (cStr value) = some asked →
    ∀ label ∈ asked, label ∉ value.splitOn dot → ¬ IsTailcatAddress label

/-- What a null octet leaves of the label that it is in. -/
def cutLabel (value : List UInt8) : List UInt8 := ((cStr value).splitOn dot).getLastD []

/-! ## The labels before a null octet -/

section Cut

variable {value label : List UInt8} {N : LibResolv}

/-- All pieces but the last one are pieces of a longer text. -/
theorem dropLast_splitOn_prefix (text rest : List UInt8) :
    (text.splitOn dot).dropLast <+: (text ++ rest).splitOn dot := by
  induction text with
  | nil => exact List.nil_prefix
  | cons c text ih =>
    rw [List.cons_append]
    unfold List.splitOn at ih ⊢
    rw [List.splitOnP_cons_eq_if_modifyHead, List.splitOnP_cons_eq_if_modifyHead]
    have hne := List.splitOnP_ne_nil (· == dot) text
    split
    · rw [List.dropLast_cons_of_ne_nil hne]
      exact List.cons_prefix_cons.mpr ⟨rfl, ih⟩
    · -- The first piece gets one octet longer in both, if it is not the last one.
      cases hpieces : text.splitOnP (· == dot) with
      | nil => exact absurd hpieces hne
      | cons piece pieces =>
        rw [hpieces] at ih
        cases pieces with
        | nil => exact List.nil_prefix
        | cons next pieces =>
          rw [List.dropLast_cons_of_ne_nil (List.cons_ne_nil _ _)] at ih
          obtain ⟨after, hafter⟩ := ih
          rw [← hafter, List.modifyHead_cons, List.cons_append, List.modifyHead_cons,
            List.dropLast_cons_of_ne_nil (List.cons_ne_nil _ _)]
          exact List.cons_prefix_cons.mpr ⟨rfl, List.prefix_append _ _⟩

/-- A label before the first null octet is one of the destination, or it is cut. -/
theorem mem_splitOn_or_eq_cutLabel (h : label ∈ (cStr value).splitOn dot) :
    label ∈ value.splitOn dot ∨ label = cutLabel value := by
  have hne : (cStr value).splitOn dot ≠ [] := List.splitOn_ne_nil _ _
  rw [← List.dropLast_append_getLast hne, List.mem_append] at h
  rcases h with h | h
  · have hfront := dropLast_splitOn_prefix (cStr value) (value.dropWhile (· ≠ 0))
    rw [cStr, List.takeWhile_append_dropWhile] at hfront
    exact .inl (hfront.subset h)
  · refine .inr ?_
    rw [List.mem_singleton.mp h, cutLabel, List.getLastD_eq_getLast?,
      List.getLast?_eq_getLast_of_ne_nil hne, Option.getD_some]

theorem cutLabel_mem (value : List UInt8) : cutLabel value ∈ (cStr value).splitOn dot := by
  have hne : (cStr value).splitOn dot ≠ [] := List.splitOn_ne_nil _ _
  rw [cutLabel, List.getLastD_eq_getLast?, List.getLast?_eq_getLast_of_ne_nil hne]
  exact List.getLast_mem hne

/-- Without a null octet nothing is cut. -/
theorem cStr_eq_self (h : 0 ∉ value) : cStr value = value := by
  refine List.takeWhile_eq_self_iff.mpr fun c hc => decide_eq_true ?_
  rintro rfl
  exact h hc

/-! ## What is asked for -/

/-- `res_query` is given the C string of a name that may be looked up, and nothing else. -/
theorem mem_lookups {resQuery : List UInt8 → Option DnsResponse} {name : List UInt8} :
    name ∈ (resolveTailcatAddressArgument resQuery value).2 ↔
      Queryable value ∧ name = cStr value := by
  unfold resolveTailcatAddressArgument
  rcases classify_cases value with ⟨hacc, h⟩ | ⟨hq, h⟩ | ⟨-, hq, what, h⟩
  · rw [h]
    exact iff_of_false List.not_mem_nil fun hn => hn.1.not_address hacc
  · rw [h]
    exact List.mem_singleton.trans (iff_and_self.mpr fun _ => hq)
  · rw [h]
    exact iff_of_false List.not_mem_nil fun hn => hq hn.1

/-- The labels of the destination are none, so that only those that have changed can be. -/
theorem asksForNoAddress_iff :
    AsksForNoAddress N value ↔ (Queryable value → ChangesToNoAddress N value) := by
  constructor
  · intro h hq asked hasked label hlabel _
    exact h (fun _ => none) (cStr value) (mem_lookups.mpr ⟨hq, rfl⟩) asked hasked label hlabel
  · intro h resQuery name hname asked hasked label hlabel
    obtain ⟨hq, rfl⟩ := mem_lookups.mp hname
    by_cases hown : label ∈ value.splitOn dot
    · exact hq.labels label hown
    · exact h hq asked hasked label hlabel hown

/-- Without a backslash, only the label that is cut can be an address. -/
theorem asksForNoAddress_of_plain (hplain : backslash ∉ cStr value)
    (hasked : (N.labels (cStr value)).isSome) :
    AsksForNoAddress N value ↔ (Queryable value → ¬ IsTailcatAddress (cutLabel value)) := by
  obtain ⟨asked, hasked⟩ := Option.isSome_iff_exists.mp hasked
  have hlabels := N.labels_plain _ _ hplain hasked
  rw [asksForNoAddress_iff]
  refine imp_congr_right fun hq => ⟨fun h haddress => ?_, fun h => ?_⟩
  · by_cases hown : cutLabel value ∈ value.splitOn dot
    · exact hq.labels _ hown haddress
    · have hmem : cutLabel value ∈ asked := by
        rw [hlabels, List.mem_filter]
        refine ⟨cutLabel_mem value, ?_⟩
        simpa using haddress.ne_nil
      exact h asked hasked _ hmem hown haddress
  · intro asked' hasked' label hlabel hown haddress
    obtain rfl := Option.some.inj (hasked.symm.trans hasked')
    rw [hlabels] at hlabel
    rcases mem_splitOn_or_eq_cutLabel (List.mem_filter.mp hlabel).1 with hmem | rfl
    · exact hown hmem
    · exact h haddress

/-- Without a null octet and a backslash, no address is asked for. -/
theorem asksForNoAddress_of_notMem (hnull : 0 ∉ value) (hplain : backslash ∉ value) :
    AsksForNoAddress N value := by
  refine asksForNoAddress_iff.mpr fun hq asked hasked label hlabel hown => ?_
  rw [cStr_eq_self hnull] at hasked
  rw [N.labels_plain _ _ hplain hasked] at hlabel
  exact absurd (List.mem_filter.mp hlabel).1 hown

end Cut

/-- **Destinations.** An address is returned as it is, a name without an address among its labels is
to be looked up, and all else is refused. No address is asked for if and only if none comes out of a
label that a null octet or a backslash has changed: without a backslash, if the label that the null
octet cuts does not become one, and always if there is neither. -/
theorem classified_iff (N : LibResolv) (value : List UInt8) :
    (∀ r, (classifyTailcatAddressArgument value = .ok r ∧ r.viaDns = false) ↔
      IsTailcatAddress value ∧ r = { address := value }) ∧
    (∀ r, (classifyTailcatAddressArgument value = .ok r ∧ r.viaDns = true) ↔
      (value ≠ [] ∧ ¬ IsTailcatAddress value ∧ dot ∈ value ∧
        ∀ label ∈ value.splitOn dot, ¬ IsTailcatAddress label) ∧
        r = { dnsName := value, viaDns := true }) ∧
    (∀ e, classifyTailcatAddressArgument value = .error e → ∃ what, e = .invalidArgument what) ∧
    (AsksForNoAddress N value ↔ (Queryable value → ChangesToNoAddress N value)) ∧
    (backslash ∉ cStr value → (N.labels (cStr value)).isSome →
      (AsksForNoAddress N value ↔ (Queryable value → ¬ IsTailcatAddress (cutLabel value)))) ∧
    (0 ∉ value → backslash ∉ value → AsksForNoAddress N value) := by
  obtain ⟨haddress, hname, herror⟩ := classify_eq value
  refine ⟨haddress, fun r => (hname r).trans (and_congr_left fun _ => ?_), herror,
    asksForNoAddress_iff, asksForNoAddress_of_plain, asksForNoAddress_of_notMem⟩
  constructor
  · rintro ⟨hnil, hacc, hdot, hlabels⟩
    exact ⟨hnil, hacc, hdot, hlabels⟩
  · rintro ⟨hnil, hacc, hdot, hlabels⟩
    exact ⟨hnil, hacc, hdot, hlabels⟩

/-! ## The presentation format -/

/-- How far a name has been read: the labels before the last dot, what there is of the next one, and
the digits behind a backslash, if there is one. -/
structure NameState where
  labels : List (List UInt8) := []
  label : List UInt8 := []
  escape : Option (List UInt8) := none

/-- Reading one octet more. -/
def NameState.step (s : NameState) (c : UInt8) : Option NameState :=
  match s.escape with
  | none =>
    if c = backslash then some { s with escape := some [] }
    else if c = dot then some { labels := s.labels ++ [s.label] }
    else some { s with label := s.label ++ [c] }
  | some digits =>
    if isDigit c then
      if digits.length < 2 then some { s with escape := some (digits ++ [c]) }
      else if decimal (digits ++ [c]) ≤ 255 then
        some { labels := s.labels, label := s.label ++ [UInt8.ofNat (decimal (digits ++ [c]))] }
      else none
    else if digits = [] then some { labels := s.labels, label := s.label ++ [c] }
    else none

/-- The labels of a text, the last of which may be empty, as may be the only one. -/
def readName (name : List UInt8) : Option (List (List UInt8)) := do
  let s ← name.foldlM NameState.step {}
  if s.escape = none ∨ s.escape = some [] then
    return s.labels ++ [s.label]
  else
    none

/-- The labels are of the lengths that a query can hold. -/
def FitsQuery (labels : List (List UInt8)) : Prop :=
  (∀ label ∈ labels, label ≠ [] ∧ label.length ≤ 63) ∧
    (labels.map fun label => label.length + 1).sum + 1 ≤ 255

instance (labels : List (List UInt8)) : Decidable (FitsQuery labels) := by
  unfold FitsQuery
  infer_instance

/-- Without a backslash, the labels are the pieces between the dots. -/
theorem foldlM_step {name : List UInt8} (hplain : backslash ∉ name) (s : NameState)
    (hs : s.escape = none) : ∃ s', name.foldlM NameState.step s = some s' ∧ s'.escape = none ∧
      s'.labels ++ [s'.label] = s.labels ++ (name.splitOn dot).modifyHead (s.label ++ ·) := by
  induction name generalizing s with
  | nil => exact ⟨s, rfl, hs, by simp [List.splitOn]⟩
  | cons c name ih =>
    obtain ⟨hc, hname⟩ := List.ne_and_not_mem_of_not_mem_cons hplain
    rw [List.foldlM_cons, NameState.step, hs]
    unfold List.splitOn at ih ⊢
    rw [List.splitOnP_cons_eq_if_modifyHead]
    dsimp only
    rw [if_neg (Ne.symm hc)]
    by_cases hdot : c = dot
    · -- The label is complete.
      obtain ⟨s', hs', hescape, hlabels⟩ := ih hname { labels := s.labels ++ [s.label] } rfl
      refine ⟨s', ?_, hescape, ?_⟩
      · rw [if_pos hdot]
        exact hs'
      · rw [hlabels, if_pos (beq_iff_eq.mpr hdot)]
        cases name.splitOnP (· == dot) <;> simp
    · obtain ⟨s', hs', hescape, hlabels⟩ := ih hname
        { labels := s.labels, label := s.label ++ [c] } rfl
      refine ⟨s', ?_, hescape, ?_⟩
      · rw [if_neg hdot]
        exact hs'
      · rw [hlabels, if_neg (mt beq_iff_eq.mp hdot)]
        cases name.splitOnP (· == dot) <;> simp

/-- The libraries that come from BIND. A dot may stand behind the last label. -/
def presentationFormat : LibResolv where
  labels name := (readName name).bind fun labels =>
    let asked := labels.filter (!·.isEmpty)
    if (labels = asked ∨ labels = asked ++ [[]] ∨ labels = [[], []]) ∧ FitsQuery asked then
      some asked
    else
      none
  labels_plain name asked hplain hasked := by
    obtain ⟨labels, hlabels, h⟩ := Option.bind_eq_some_iff.mp hasked
    obtain ⟨s, hs, hescape, hpieces⟩ := foldlM_step hplain {} rfl
    have hread : readName name = some (name.splitOn dot) := by
      rw [readName, hs]
      show (if s.escape = none ∨ s.escape = some [] then some (s.labels ++ [s.label]) else none) = _
      rw [if_pos (.inl hescape), hpieces]
      cases name.splitOn dot <;> rfl
    obtain rfl := Option.some.inj (hlabels.symm.trans hread)
    dsimp only at h
    split at h
    · exact (Option.some.inj h).symm
    · cases h

/-- **Addresses that are asked for**: one in front of a null octet, and one whose first letter is
spelled by its number. -/
theorem addresses_queried : IsTailcatAddress exampleSecret ∧
    (¬ AsksForNoAddress presentationFormat (exampleSecret ++ 0 :: ascii ".example")) ∧
    ¬ AsksForNoAddress presentationFormat
      (ascii "\\116" ++ exampleSecret.tail ++ ascii ".example") := by
  have haddress : IsTailcatAddress exampleSecret :=
    validateTailcatAddress_eq_ok.mp (by decide +kernel)
  have hlookup {value : List UInt8}
      (hname : (resolveTailcatAddressArgument (fun _ => none) value).2 = [cStr value])
      (hasked : ∃ asked, presentationFormat.labels (cStr value) = some asked ∧
        exampleSecret ∈ asked) : ¬ AsksForNoAddress presentationFormat value := by
    intro h
    obtain ⟨asked, hasked, hmem⟩ := hasked
    exact h (fun _ => none) _ (hname ▸ List.mem_singleton_self _) asked hasked _ hmem haddress
  refine ⟨haddress, hlookup (by decide +kernel) ⟨[exampleSecret], by decide +kernel, by decide⟩,
    hlookup (by decide +kernel) ⟨[exampleSecret, ascii "example"], by decide +kernel, by decide⟩⟩

/-- A name as it is meant, and one that a null octet cuts to a label that is no address. -/
theorem classified_iff_example :
    let name := ascii "cat.example.com"
    let cut := ascii "cat" ++ 0 :: ascii ".example"
    name ∈ (resolveTailcatAddressArgument (fun _ => none) name).2 ∧
      presentationFormat.labels name = some [ascii "cat", ascii "example", ascii "com"] ∧
      AsksForNoAddress presentationFormat name ∧ Queryable cut ∧
      AsksForNoAddress presentationFormat cut := by
  intro name cut
  obtain ⟨-, -, -, -, -, hsafe⟩ := classified_iff presentationFormat name
  obtain ⟨-, -, -, -, hcut, -⟩ := classified_iff presentationFormat cut
  have hlookup : cStr cut ∈ (resolveTailcatAddressArgument (fun _ => none) cut).2 := by
    decide +kernel
  have hlabel : cutLabel cut = ascii "cat" := by decide +kernel
  refine ⟨by decide +kernel, by decide +kernel, hsafe (by decide) (by decide),
    (mem_lookups.mp hlookup).1, (hcut (by decide) (by decide +kernel)).mpr fun _ h => ?_⟩
  -- What is left of the label does not begin as an address does.
  rw [hlabel] at h
  exact absurd h.tc (by decide)

end Tailcat
