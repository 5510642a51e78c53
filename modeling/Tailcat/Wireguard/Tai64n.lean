import Tailcat.Base.Octets

/-!
# Timestamps of handshakes

Each handshake carries a label of the time at which it begins, in seconds and nanoseconds. A peer
refuses a handshake whose label is not above the last one, so that labels go on even if the clock of
the system is set back.

## Main definitions

* `wireguardTai64nNow`: the label for a reading of the clock, and the time that is kept
* `tai64nLabels`: the labels of all calls in one process
* `instants`, `instantLabel`: the times that are meant, which are not bounded, and their labels

## Main results

* `nextNs_toNat`: one call goes on to the time that is meant
* `tai64n_increases`: the labels are strictly increasing, and are those of the times that are meant
-/

namespace Tailcat

/-! ## The calls -/

/-- The label of the start of the epoch, in seconds. -/
def tai64Base : UInt64 := 0x400000000000000a

/-- The time that a call takes: that of the clock, if it is past the last one. -/
def nextNs (lastNs : UInt64) (nsSigned : Int64) : UInt64 :=
  let unixNs := if nsSigned > 0 then nsSigned.toUInt64 else 0
  if unixNs ≤ lastNs then lastNs + 1 else unixNs

/-- What a call writes. -/
def tai64nOutput (unixNs : UInt64) : List UInt8 :=
  let seconds := tai64Base + unixNs / 1000000000
  let nanos := (unixNs % 1000000000).toUInt32
  ((List.range 8).map fun i => (seconds >>> UInt64.ofNat ((7 - i) * 8)).toUInt8) ++
    (List.range 4).map fun i => (nanos >>> UInt32.ofNat ((3 - i) * 8)).toUInt8

/-- The label, and the last time from now on. -/
def wireguardTai64nNow (lastNs : UInt64) (nsSigned : Int64) : List UInt8 × UInt64 :=
  let unixNs := nextNs lastNs nsSigned
  (tai64nOutput unixNs, unixNs)

/-- The labels of calls one after another, at these readings of the clock. -/
def tai64nLabels (lastNs : UInt64) : List Int64 → List (List UInt8)
  | [] => []
  | nsSigned :: readings =>
    let (output, lastNs) := wireguardTai64nNow lastNs nsSigned
    output :: tai64nLabels lastNs readings

/-! ## What is meant -/

/-- Nanoseconds since the epoch, each after the one before it, and none before the clock. -/
def instants (last : ℕ) : List Int64 → List ℕ
  | [] => []
  | nsSigned :: readings =>
    let next := max nsSigned.toInt.toNat (last + 1)
    next :: instants next readings

/-- Whole seconds above the base in eight octets, and the nanoseconds behind them in four. -/
def instantLabel (n : ℕ) : List UInt8 :=
  beBytes 8 (tai64Base.toNat + n / 1000000000) ++ beBytes 4 (n % 1000000000)

/-! ## One call -/

/-- What is left of a reading before the epoch is the epoch. -/
theorem clamp_toNat (nsSigned : Int64) :
    (if nsSigned > 0 then nsSigned.toUInt64 else 0).toNat = nsSigned.toInt.toNat := by
  split_ifs with hpos
  · rw [Int64.toNat_toUInt64_of_le (Int64.le_of_lt hpos), Int64.toNat_toInt]
  · have hle : nsSigned.toInt ≤ 0 := Int64.le_iff_toInt_le.mp (Int64.not_lt.mp hpos)
    rw [Int.toNat_of_nonpos hle]
    rfl

/-- A reading is below `2 ^ 63`. -/
theorem reading_lt (nsSigned : Int64) : nsSigned.toInt.toNat < 2 ^ 63 := by
  have := nsSigned.toInt_lt
  omega

/-- **One call**, as long as the time that is kept does not overflow. -/
theorem nextNs_toNat {lastNs : UInt64} (h : lastNs.toNat + 1 < 2 ^ 64) (nsSigned : Int64) :
    (nextNs lastNs nsSigned).toNat = max nsSigned.toInt.toNat (lastNs.toNat + 1) := by
  have hclamp := clamp_toNat nsSigned
  unfold nextNs
  set unixNs := if nsSigned > 0 then nsSigned.toUInt64 else 0
  dsimp only
  split_ifs with hle
  · have hle' : unixNs.toNat ≤ lastNs.toNat := hle
    rw [UInt64.toNat_add, show (1 : UInt64).toNat = 1 from rfl, Nat.mod_eq_of_lt h]
    omega
  · have hlt : lastNs.toNat < unixNs.toNat := Nat.lt_of_not_le hle
    omega

/-- Neither the seconds nor the nanoseconds overflow. -/
theorem tai64nOutput_eq (unixNs : UInt64) : tai64nOutput unixNs = instantLabel unixNs.toNat := by
  have hns := unixNs.toNat_lt
  have hbase : tai64Base.toNat = 4611686018427387914 := rfl
  have hseconds : (tai64Base + unixNs / 1000000000).toNat =
      tai64Base.toNat + unixNs.toNat / 1000000000 := by
    rw [UInt64.toNat_add, UInt64.toNat_div, show (1000000000 : UInt64).toNat = 1000000000 from rfl,
      Nat.mod_eq_of_lt (by omega)]
  have hnanos : (unixNs % 1000000000).toUInt32.toNat = unixNs.toNat % 1000000000 := by
    rw [UInt64.toNat_toUInt32, UInt64.toNat_mod,
      show (1000000000 : UInt64).toNat = 1000000000 from rfl, Nat.mod_eq_of_lt (by omega)]
  rw [tai64nOutput, UInt64.map_toUInt8_shiftRight, UInt32.map_toUInt8_shiftRight, hseconds, hnanos,
    instantLabel]

/-! ## The order of labels -/

@[simp] theorem length_instantLabel (n : ℕ) : (instantLabel n).length = 12 := by
  simp [instantLabel]

/-- The number that a label spells. -/
theorem beNat_instantLabel {n : ℕ} (h : n < 2 ^ 64) : beNat (instantLabel n) =
    (tai64Base.toNat + n / 1000000000) * 2 ^ 32 + n % 1000000000 := by
  have hbase : tai64Base.toNat = 4611686018427387914 := rfl
  rw [instantLabel, beNat_append, length_beBytes, beNat_beBytes_of_lt (by omega),
    beNat_beBytes_of_lt (by omega), show 256 ^ 4 = 2 ^ 32 from rfl]

/-- Later labels are above earlier ones, octet by octet. -/
theorem instantLabel_lt {m n : ℕ} (hmn : m < n) (hn : n < 2 ^ 64) :
    instantLabel m < instantLabel n := by
  apply lt_of_beNat_lt
  · rw [length_instantLabel, length_instantLabel]
  · rw [beNat_instantLabel (hmn.trans hn), beNat_instantLabel hn]
    omega

/-! ## All calls -/

/-- The times that are meant come one after another. -/
theorem instants_pairwise (last : ℕ) (readings : List Int64) :
    (instants last readings).Pairwise (· < ·) ∧ ∀ n ∈ instants last readings, last < n := by
  induction readings generalizing last with
  | nil => exact ⟨.nil, by simp [instants]⟩
  | cons nsSigned readings ih =>
    obtain ⟨hpairwise, habove⟩ := ih (max nsSigned.toInt.toNat (last + 1))
    refine ⟨.cons habove hpairwise, fun n hn => ?_⟩
    rcases List.mem_cons.mp hn with rfl | hn
    · omega
    · have := habove n hn
      omega

/-- Each call goes on by one at least from what may be the largest reading. -/
theorem instants_lt {last bound : ℕ} (hbound : 2 ^ 63 ≤ bound) (hlast : last < bound)
    (readings : List Int64) : ∀ n ∈ instants last readings, n < bound + readings.length := by
  induction readings generalizing last bound with
  | nil => simp [instants]
  | cons nsSigned readings ih =>
    have hreading := reading_lt nsSigned
    have hnext : max nsSigned.toInt.toNat (last + 1) < bound + 1 := by omega
    intro n hn
    rw [List.length_cons]
    rcases List.mem_cons.mp hn with rfl | hn
    · omega
    · have hbound' : 2 ^ 63 ≤ bound + 1 := by omega
      have hlast' := ih hbound' hnext n hn
      omega

/-- The calls write the labels of the times that are meant, as long as these do not overflow. -/
theorem tai64nLabels_eq {lastNs : UInt64} {readings : List Int64} {bound : ℕ}
    (hbound : 2 ^ 63 ≤ bound) (hlast : lastNs.toNat < bound)
    (hfits : bound + readings.length ≤ 2 ^ 64) :
    tai64nLabels lastNs readings = (instants lastNs.toNat readings).map instantLabel := by
  -- By induction on the readings that are left, with a bound that grows by one for each call.
  induction readings generalizing lastNs bound with
  | nil => rfl
  | cons nsSigned readings ih =>
    rw [List.length_cons] at hfits
    have hroom : lastNs.toNat + 1 < 2 ^ 64 := by omega
    have hnext := nextNs_toNat hroom nsSigned
    have hreading := reading_lt nsSigned
    have hbound' : 2 ^ 63 ≤ bound + 1 := by omega
    have hlast' : (nextNs lastNs nsSigned).toNat < bound + 1 := by
      rw [hnext]
      omega
    have hrest := ih hbound' hlast' (by omega)
    rw [tai64nLabels, wireguardTai64nNow, instants, List.map_cons, ← hnext, ← hrest,
      tai64nOutput_eq]

/-- **Labels increase**: for fewer than `2 ^ 63` calls in a process, and any readings of the clock,
each label is above all labels before it. The labels are those of the times that are meant, which
are strictly increasing and fit in 64 bits, as do the seconds above the base. -/
theorem tai64n_increases (readings : List Int64) (h : readings.length < 2 ^ 63) :
    (tai64nLabels 0 readings).Pairwise (· < ·) ∧
    tai64nLabels 0 readings = (instants 0 readings).map instantLabel ∧
    (∀ label ∈ tai64nLabels 0 readings, label.length = 12) ∧
    (instants 0 readings).Pairwise (· < ·) ∧
    ∀ n ∈ instants 0 readings, n < 2 ^ 64 ∧ tai64Base.toNat + n / 1000000000 < 2 ^ 64 ∧
      n % 1000000000 < 1000000000 := by
  have hlabels : tai64nLabels 0 readings = (instants 0 readings).map instantLabel :=
    tai64nLabels_eq le_rfl (by decide) (by omega)
  have hpairwise := (instants_pairwise 0 readings).1
  have hfits : ∀ n ∈ instants 0 readings, n < 2 ^ 64 := by
    intro n hn
    have := instants_lt le_rfl (by decide : 0 < 2 ^ 63) readings n hn
    omega
  have hbase : tai64Base.toNat = 4611686018427387914 := rfl
  refine ⟨?_, hlabels, ?_, hpairwise, fun n hn => ⟨hfits n hn, ?_, Nat.mod_lt _ (by decide)⟩⟩
  · -- Labels are ordered as their times are, since these fit in 64 bits.
    rw [hlabels, List.pairwise_map]
    exact hpairwise.imp_of_mem fun _ hn hmn => instantLabel_lt hmn (hfits _ hn)
  · intro label hlabel
    rw [hlabels] at hlabel
    obtain ⟨n, -, rfl⟩ := List.mem_map.mp hlabel
    exact length_instantLabel n
  · have := hfits n hn
    omega

/-- A clock that goes back behind the epoch, and then stands still. -/
theorem tai64n_increases_example :
    (tai64nLabels 0 [1700000000999999999, -5, 3, 3]).Pairwise (· < ·) :=
  (tai64n_increases [1700000000999999999, -5, 3, 3] (by decide)).1

end Tailcat
