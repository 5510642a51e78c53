import Tailcat.Base.Pieces
import Tailcat.Resolver.Txt

/-!
# Destinations

A destination on the command line is an address or a DNS name. An address is a secret, so that a
name with an address among its labels is not looked up.

## Main definitions

* `classifyTailcatAddressArgument`: an address, or a name to look up
* `Queryable`: the destinations that are looked up

## Main results

* `classify_eq`: which destinations are addresses, which are names, and which are refused
-/

namespace Tailcat

/-- A destination: its address, and the name that it came from, if it came from one. -/
structure ResolvedTailcatAddress where
  address : List UInt8 := []
  dnsName : List UInt8 := []
  viaDns : Bool := false
  deriving DecidableEq

/-- `'.'` -/
def dot : UInt8 := '.'.toUInt8

/-- Whether a label would give an address away. -/
def labelIsTailcatAddress (label : List UInt8) : Bool :=
  if ¬ ascii "tc" <+: label then
    false
  else
    match validateTailcatAddress label with
    | .ok () => true
    | .error _ => false

/-- What the loop over the labels does with one of them. -/
def refuseLabel (_ : Unit) (label : List UInt8) : Except Exn Unit :=
  if labelIsTailcatAddress label then
    .error (.invalidArgument
      "refusing DNS lookup: destination contains a Tailcat address as a DNS label")
  else
    .ok ()

/-- An address, or a name that is to be looked up; neither is refused. -/
def classifyTailcatAddressArgument (value : List UInt8) : Except Exn ResolvedTailcatAddress :=
  if value = [] then
    .error (.invalidArgument "empty Tailcat destination")
  else
    match validateTailcatAddress value with
    | .ok () => .ok { address := value }
    | .error _ =>
      if dot ∉ value then
        .error (.invalidArgument
          ("invalid Tailcat address or DNS name: " ++ octetsText value))
      else do
        Pieces.each dot refuseLabel value 0 ()
        return { dnsName := value, viaDns := true }

/-! ## Which destinations are which -/

variable {value label : List UInt8}

theorem labelIsTailcatAddress_iff : labelIsTailcatAddress label = true ↔ IsTailcatAddress label := by
  unfold labelIsTailcatAddress
  by_cases h : IsTailcatAddress label
  · rw [if_neg (not_not.mpr h.tc), validateTailcatAddress_eq_ok.mpr h]
    exact iff_of_true rfl h
  · obtain ⟨e, he⟩ := validateTailcatAddress_eq_error h
    rw [he]
    simp [h]

/-- The loop over the labels goes through when none of them is an address. -/
theorem refuseLabels {labels : List (List UInt8)} :
    (labels.foldlM refuseLabel () = .ok () ∧ ∀ label ∈ labels, ¬ IsTailcatAddress label) ∨
      ((∃ what, labels.foldlM refuseLabel () = .error (.invalidArgument what)) ∧
        ∃ label ∈ labels, IsTailcatAddress label) := by
  induction labels with
  | nil => exact .inl ⟨rfl, by simp⟩
  | cons label labels ih =>
    rw [List.foldlM_cons]
    unfold refuseLabel at ih ⊢
    by_cases h : IsTailcatAddress label
    · rw [if_pos (labelIsTailcatAddress_iff.mpr h)]
      exact .inr ⟨⟨_, rfl⟩, label, List.mem_cons_self, h⟩
    · rw [if_neg (mt labelIsTailcatAddress_iff.mp h)]
      rcases ih with ⟨hfold, hnone⟩ | ⟨hfold, label', hmem, hsome⟩
      · exact .inl ⟨hfold, List.forall_mem_cons.mpr ⟨h, hnone⟩⟩
      · exact .inr ⟨hfold, label', List.mem_cons_of_mem _ hmem, hsome⟩

/-- A destination that may be looked up. -/
structure Queryable (value : List UInt8) : Prop where
  ne_nil : value ≠ []
  not_address : ¬ IsTailcatAddress value
  dotted : dot ∈ value
  labels : ∀ label ∈ value.splitOn dot, ¬ IsTailcatAddress label

/-- **The three cases** of a destination. -/
theorem classify_cases (value : List UInt8) :
    (IsTailcatAddress value ∧ classifyTailcatAddressArgument value = .ok { address := value }) ∨
      (Queryable value ∧
        classifyTailcatAddressArgument value = .ok { dnsName := value, viaDns := true }) ∨
      (¬ IsTailcatAddress value ∧ ¬ Queryable value ∧
        ∃ what, classifyTailcatAddressArgument value = .error (.invalidArgument what)) := by
  unfold classifyTailcatAddressArgument
  by_cases hnil : value = []
  · rw [if_pos hnil]
    exact .inr (.inr ⟨fun h => h.ne_nil hnil, fun h => h.ne_nil hnil, _, rfl⟩)
  rw [if_neg hnil]
  -- An address is taken before the text is looked at as a name.
  by_cases hacc : IsTailcatAddress value
  · rw [validateTailcatAddress_eq_ok.mpr hacc]
    exact .inl ⟨hacc, rfl⟩
  obtain ⟨e, he⟩ := validateTailcatAddress_eq_error hacc
  rw [he]
  dsimp only
  by_cases hdot : dot ∈ value
  · rw [if_neg (not_not.mpr hdot), Pieces.each_eq _ _ _ _ (Nat.zero_le _), List.drop_zero]
    rcases @refuseLabels (value.splitOn dot) with ⟨hfold, hnone⟩ | ⟨⟨what, hfold⟩, label, hmem, h⟩
    · rw [hfold]
      exact .inr (.inl ⟨⟨hnil, hacc, hdot, hnone⟩, rfl⟩)
    · -- A label is an address: the name is not asked for.
      rw [hfold]
      exact .inr (.inr ⟨hacc, fun hq => hq.labels label hmem h, what, rfl⟩)
  · rw [if_pos hdot]
    exact .inr (.inr ⟨hacc, fun hq => hdot hq.dotted, _, rfl⟩)

/-- **Which destinations** are addresses, which are names to look up, and which are refused. -/
theorem classify_eq (value : List UInt8) :
    (∀ r, (classifyTailcatAddressArgument value = .ok r ∧ r.viaDns = false) ↔
      IsTailcatAddress value ∧ r = { address := value }) ∧
    (∀ r, (classifyTailcatAddressArgument value = .ok r ∧ r.viaDns = true) ↔
      Queryable value ∧ r = { dnsName := value, viaDns := true }) ∧
    ∀ e, classifyTailcatAddressArgument value = .error e → ∃ what, e = .invalidArgument what := by
  -- It is an address, a name to look up, or neither.
  rcases classify_cases value with ⟨hacc, h⟩ | ⟨hq, h⟩ | ⟨hacc, hq, what, h⟩
  · rw [h]
    refine ⟨fun r => ⟨?_, ?_⟩, fun r => ⟨?_, ?_⟩, nofun⟩
    · rintro ⟨⟨⟩, -⟩
      exact ⟨hacc, rfl⟩
    · rintro ⟨-, rfl⟩
      exact ⟨rfl, rfl⟩
    · rintro ⟨⟨⟩, hvia⟩
      cases hvia
    · rintro ⟨hq, -⟩
      exact absurd hacc hq.not_address
  · rw [h]
    refine ⟨fun r => ⟨?_, ?_⟩, fun r => ⟨?_, ?_⟩, nofun⟩
    · rintro ⟨⟨⟩, hvia⟩
      cases hvia
    · rintro ⟨hacc, -⟩
      exact absurd hacc hq.not_address
    · rintro ⟨⟨⟩, -⟩
      exact ⟨hq, rfl⟩
    · rintro ⟨-, rfl⟩
      exact ⟨rfl, rfl⟩
  · rw [h]
    refine ⟨fun r => ⟨nofun, ?_⟩, fun r => ⟨nofun, ?_⟩, ?_⟩
    · rintro ⟨hn, -⟩
      exact absurd hn hacc
    · rintro ⟨hq', -⟩
      exact absurd hq' hq
    · rintro e ⟨⟩
      exact ⟨what, rfl⟩

end Tailcat
