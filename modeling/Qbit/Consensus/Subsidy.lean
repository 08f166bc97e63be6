import Mathlib.Algebra.BigOperators.Intervals
import Mathlib.Algebra.Order.BigOperators.Group.Finset
import Mathlib.Data.Int.Init
import Mathlib.Tactic.Linarith
import Mathlib.Tactic.LinearCombination
import Qbit.Consensus.Params

/-!
# Amounts and the block subsidy

`MoneyRange` of `consensus/amount.h` and `GetBlockSubsidy` of `validation.cpp`.  The subsidy decays
geometrically, rounded down at every step; the loop divides before it multiplies so that nothing
overflows, and `stepdown_eq` shows that it computes the rounded product all the same.

Under the guards of `GetBlockSubsidy` itself the subsidy never overflows and never grows
(`getBlockSubsidy_eq`, `subsidyAfter_antitone`), and all subsidies together are at most what the
unrounded geometric series sums to (`sum_subsidyAt_le`).
-/

open Checked

namespace Qbit

/-- `COIN` -/
def coin : Int := 100000000

/-- `MAX_MONEY` -/
def maxMoney : Int := 210000000 * coin

/-- `MoneyRange` -/
def moneyRange (nValue : Int) : Bool := decide (0 ≤ nValue ∧ nValue ≤ maxMoney)

theorem moneyRange_iff {nValue : Int} : moneyRange nValue = true ↔ 0 ≤ nValue ∧ nValue ≤ maxMoney :=
  decide_eq_true_iff

/-- One turn of the loop of `GetBlockSubsidy`. -/
def stepdown (numerator denominator nSubsidy : Int) : Result Int := do
  let whole ← mul64 (nSubsidy.tdiv denominator) numerator
  let part ← mul64 (nSubsidy.tmod denominator) numerator
  add64 whole (part.tdiv denominator)

/-- The loop of `GetBlockSubsidy`, for as many steps as are left. -/
def subsidyLoop (numerator denominator : Int) : Nat → Int → Result Int
  | 0, nSubsidy => .ok nSubsidy
  | steps + 1, nSubsidy =>
    if 0 < nSubsidy then
      stepdown numerator denominator nSubsidy >>= subsidyLoop numerator denominator steps
    else .ok nSubsidy

/-- The conditions that `GetBlockSubsidy` assumes of its parameters. -/
def Params.subsidyAssumptions (params : Params) : Bool :=
  decide (0 < params.nSubsidyStepInterval) &&
  decide (0 ≤ params.nSubsidyStepdownNumerator) &&
  decide (0 < params.nSubsidyStepdownDenominator) &&
  decide (params.nSubsidyStepdownNumerator ≤ params.nSubsidyStepdownDenominator) &&
  moneyRange params.nSubsidyInitial

/-- `GetBlockSubsidy` -/
def getBlockSubsidy (nHeight : Int) (params : Params) : Result Int :=
  if nHeight < 0 then .ok 0
  else if !params.subsidyAssumptions then .ok 0
  else
    let step_count := nHeight.tdiv params.nSubsidyStepInterval
    subsidyLoop params.nSubsidyStepdownNumerator params.nSubsidyStepdownDenominator
      step_count.toNat params.nSubsidyInitial

/-! ## One step of the decay -/

section Step

variable {numerator denominator nSubsidy : Int}

/-- **The step is the product, rounded down.**  Dividing first keeps both products in range. -/
theorem stepdown_eq (hnum : 0 ≤ numerator) (hden : 0 < denominator) (hle : numerator ≤ denominator)
    (hint : denominator ≤ intMax) (hs : 0 ≤ nSubsidy) (hs' : nSubsidy ≤ maxMoney) :
    stepdown numerator denominator nSubsidy = .ok (nSubsidy * numerator / denominator) := by
  have hq : 0 ≤ nSubsidy / denominator := Int.ediv_nonneg hs hden.le
  have hr : 0 ≤ nSubsidy % denominator := Int.emod_nonneg _ hden.ne'
  have hr' : nSubsidy % denominator < denominator := Int.emod_lt_of_pos _ hden
  have hsplit := Int.mul_ediv_add_emod nSubsidy denominator
  have hproduct : nSubsidy * numerator =
      nSubsidy % denominator * numerator + denominator * (nSubsidy / denominator * numerator) := by
    linear_combination (-numerator) * hsplit
  have hwhole : nSubsidy / denominator * numerator ≤ nSubsidy := by
    nlinarith [mul_le_mul_of_nonneg_left hle hq]
  have hpart : nSubsidy % denominator * numerator ≤ intMax * intMax := by
    have : numerator ≤ intMax := hle.trans hint
    have : nSubsidy % denominator ≤ intMax := hr'.le.trans hint
    exact mul_le_mul this ‹_› hnum (hnum.trans ‹_›)
  have hpart0 : 0 ≤ nSubsidy % denominator * numerator := mul_nonneg hr hnum
  have hwhole0 : 0 ≤ nSubsidy / denominator * numerator := mul_nonneg hq hnum
  have hquot := Int.ediv_le_self denominator hpart0
  have hquot0 : 0 ≤ nSubsidy % denominator * numerator / denominator :=
    Int.ediv_nonneg hpart0 hden.le
  have hmoney : maxMoney = 21000000000000000 := rfl
  have hmax : intMax * intMax = 4611686014132420609 := rfl
  unfold stepdown mul64 add64
  rw [Int.tdiv_eq_ediv_of_nonneg hs, Int.tmod_eq_emod_of_nonneg hs,
    int64_of_inRange ⟨by omega, by omega⟩, ok_bind, int64_of_inRange ⟨by omega, by omega⟩, ok_bind,
    Int.tdiv_eq_ediv_of_nonneg hpart0, int64_of_inRange ⟨by omega, by omega⟩, hproduct,
    Int.add_mul_ediv_left _ _ hden.ne']
  rw [add_comm]

end Step

/-! ## The schedule

What `GetBlockSubsidy` pays under parameters that pass its own checks, whose denominator is an
`int`. -/

variable {params : Params}

section Schedule

/-- The subsidy after a number of steps. -/
def subsidyAfter (params : Params) : Nat → Int
  | 0 => params.nSubsidyInitial
  | k + 1 => subsidyAfter params k * params.nSubsidyStepdownNumerator /
      params.nSubsidyStepdownDenominator

/-- Parameters that `GetBlockSubsidy` works with. -/
structure SubsidySchedule (params : Params) : Prop where
  interval_pos : 0 < params.nSubsidyStepInterval
  numerator_nonneg : 0 ≤ params.nSubsidyStepdownNumerator
  denominator_pos : 0 < params.nSubsidyStepdownDenominator
  numerator_le : params.nSubsidyStepdownNumerator ≤ params.nSubsidyStepdownDenominator
  denominator_le : params.nSubsidyStepdownDenominator ≤ intMax
  initial_nonneg : 0 ≤ params.nSubsidyInitial
  initial_le : params.nSubsidyInitial ≤ maxMoney

variable (h : SubsidySchedule params)
include h

theorem subsidyAssumptions_of_schedule : params.subsidyAssumptions = true := by
  simp only [Params.subsidyAssumptions, Bool.and_eq_true, decide_eq_true_eq, moneyRange_iff]
  exact ⟨⟨⟨⟨h.interval_pos, h.numerator_nonneg⟩, h.denominator_pos⟩, h.numerator_le⟩,
    h.initial_nonneg, h.initial_le⟩

theorem subsidyAfter_nonneg (k : Nat) : 0 ≤ subsidyAfter params k := by
  induction k with
  | zero => exact h.initial_nonneg
  | succ k ih => exact Int.ediv_nonneg (mul_nonneg ih h.numerator_nonneg) h.denominator_pos.le

/-- What a step leaves, in units of the denominator. -/
theorem denominator_mul_subsidyAfter_le (k : Nat) :
    params.nSubsidyStepdownDenominator * subsidyAfter params (k + 1) ≤
      params.nSubsidyStepdownNumerator * subsidyAfter params k := by
  have := Int.mul_ediv_self_le (x := subsidyAfter params k * params.nSubsidyStepdownNumerator)
    h.denominator_pos.ne'
  rw [subsidyAfter]
  linarith

theorem subsidyAfter_succ_le (k : Nat) : subsidyAfter params (k + 1) ≤ subsidyAfter params k := by
  have hstep := denominator_mul_subsidyAfter_le h k
  have hle := mul_le_mul_of_nonneg_right h.numerator_le (subsidyAfter_nonneg h k)
  exact le_of_mul_le_mul_left (hstep.trans hle) h.denominator_pos

/-- **The subsidy never grows.** -/
theorem subsidyAfter_antitone {k n : Nat} (hle : k ≤ n) :
    subsidyAfter params n ≤ subsidyAfter params k :=
  antitone_nat_of_succ_le (subsidyAfter_succ_le h) hle

theorem subsidyAfter_le_maxMoney (k : Nat) : subsidyAfter params k ≤ maxMoney :=
  (subsidyAfter_antitone h (Nat.zero_le k)).trans h.initial_le

/-- The loop stops early at a subsidy of zero, which further steps would not change. -/
theorem subsidyAfter_add_eq_zero {k : Nat} (hk : subsidyAfter params k = 0) (n : Nat) :
    subsidyAfter params (k + n) = 0 := by
  have := subsidyAfter_antitone h (Nat.le_add_right k n)
  have := subsidyAfter_nonneg h (k + n)
  omega

/-- **The loop computes the schedule**, without overflow. -/
theorem subsidyLoop_eq (steps k : Nat) :
    subsidyLoop params.nSubsidyStepdownNumerator params.nSubsidyStepdownDenominator steps
      (subsidyAfter params k) = .ok (subsidyAfter params (k + steps)) := by
  induction steps generalizing k with
  | zero => rfl
  | succ steps ih =>
    have hnonneg := subsidyAfter_nonneg h k
    rw [subsidyLoop]
    split
    · rw [stepdown_eq h.numerator_nonneg h.denominator_pos h.numerator_le h.denominator_le hnonneg
        (subsidyAfter_le_maxMoney h k), ok_bind]
      have hrest := ih (k + 1)
      rwa [Nat.add_right_comm] at hrest
    · have hzero : subsidyAfter params k = 0 := by omega
      rw [subsidyAfter_add_eq_zero h hzero, hzero]

/-- The steps pay at most what the unrounded geometric series does, less what is still to come. -/
theorem sum_subsidyAfter_le (k : Nat) :
    (params.nSubsidyStepdownDenominator - params.nSubsidyStepdownNumerator) *
        ∑ i ∈ Finset.range k, subsidyAfter params i +
      params.nSubsidyStepdownDenominator * subsidyAfter params k ≤
      params.nSubsidyStepdownDenominator * params.nSubsidyInitial := by
  induction k with
  | zero => simp [subsidyAfter]
  | succ k ih =>
    have hstep := denominator_mul_subsidyAfter_le h k
    rw [Finset.sum_range_succ, mul_add]
    linarith

end Schedule

/-! ## By height -/

section Height

/-- The subsidy of the block at a height. -/
def subsidyAt (params : Params) (nHeight : Nat) : Int :=
  subsidyAfter params (nHeight / params.nSubsidyStepInterval.toNat)

variable (h : SubsidySchedule params)
include h

/-- **`GetBlockSubsidy` pays the schedule**, and no signed operation in it overflows. -/
theorem getBlockSubsidy_eq (nHeight : Nat) :
    getBlockSubsidy nHeight params = .ok (subsidyAt params nHeight) := by
  have hinterval : (params.nSubsidyStepInterval.toNat : Int) = params.nSubsidyStepInterval :=
    Int.toNat_of_nonneg h.interval_pos.le
  have hsteps : ((nHeight : Int).tdiv params.nSubsidyStepInterval).toNat =
      nHeight / params.nSubsidyStepInterval.toNat := by
    rw [← hinterval, Int.tdiv_eq_ediv_of_nonneg (Int.natCast_nonneg _), ← Int.natCast_ediv,
      Int.toNat_natCast, hinterval]
  have hloop := subsidyLoop_eq h (nHeight / params.nSubsidyStepInterval.toNat) 0
  rw [Nat.zero_add] at hloop
  rw [getBlockSubsidy, if_neg (by omega), subsidyAssumptions_of_schedule h, Bool.not_true,
    if_neg Bool.false_ne_true]
  simp only [hsteps]
  exact hloop

theorem subsidyAt_nonneg (nHeight : Nat) : 0 ≤ subsidyAt params nHeight :=
  subsidyAfter_nonneg h _

theorem subsidyAt_le_maxMoney (nHeight : Nat) : subsidyAt params nHeight ≤ maxMoney :=
  subsidyAfter_le_maxMoney h _

/-- Whatever the height, `GetBlockSubsidy` answers with an amount. -/
theorem exists_getBlockSubsidy (nHeight : Int) :
    ∃ subsidy, getBlockSubsidy nHeight params = .ok subsidy ∧ moneyRange subsidy = true := by
  rcases Int.lt_or_le nHeight 0 with hneg | hnonneg
  · exact ⟨0, by rw [getBlockSubsidy, if_pos hneg], rfl⟩
  · obtain ⟨n, rfl⟩ := Int.eq_ofNat_of_zero_le hnonneg
    exact ⟨subsidyAt params n, getBlockSubsidy_eq h n,
      moneyRange_iff.mpr ⟨subsidyAt_nonneg h n, subsidyAt_le_maxMoney h n⟩⟩

theorem subsidyAt_antitone {m n : Nat} (hle : m ≤ n) : subsidyAt params n ≤ subsidyAt params m :=
  subsidyAfter_antitone h (Nat.div_le_div_right hle)

/-- Every step lasts for one interval. -/
theorem sum_subsidyAt_intervals (k : Nat) :
    ∑ i ∈ Finset.range (params.nSubsidyStepInterval.toNat * k), subsidyAt params i =
      params.nSubsidyStepInterval * ∑ i ∈ Finset.range k, subsidyAfter params i := by
  have hpos : 0 < params.nSubsidyStepInterval.toNat := by
    have := h.interval_pos
    omega
  have hinterval : (params.nSubsidyStepInterval.toNat : Int) = params.nSubsidyStepInterval :=
    Int.toNat_of_nonneg h.interval_pos.le
  induction k with
  | zero => rw [Nat.mul_zero, Finset.sum_range_zero, Finset.sum_range_zero, mul_zero]
  | succ k ih =>
    have hlast : ∀ i ∈ Finset.range params.nSubsidyStepInterval.toNat,
        subsidyAt params (params.nSubsidyStepInterval.toNat * k + i) = subsidyAfter params k := by
      intro i hi
      rw [subsidyAt, Nat.mul_add_div hpos, Nat.div_eq_of_lt (Finset.mem_range.mp hi), Nat.add_zero]
    rw [Nat.mul_succ, Finset.sum_range_add, ih, Finset.sum_congr rfl hlast, Finset.sum_const,
      Finset.card_range, Finset.sum_range_succ, nsmul_eq_mul, hinterval, mul_add]

/-- **All subsidies together** are at most the sum of the unrounded geometric series. -/
theorem sum_subsidyAt_le (n : Nat) :
    (params.nSubsidyStepdownDenominator - params.nSubsidyStepdownNumerator) *
        ∑ i ∈ Finset.range n, subsidyAt params i ≤
      params.nSubsidyStepInterval * params.nSubsidyStepdownDenominator *
        params.nSubsidyInitial := by
  -- Round `n` up to whole intervals.
  let k := n / params.nSubsidyStepInterval.toNat + 1
  have hpos : 0 < params.nSubsidyStepInterval.toNat := by
    have := h.interval_pos
    omega
  have hround : n ≤ params.nSubsidyStepInterval.toNat * k := (Nat.lt_mul_div_succ n hpos).le
  have hmore : ∑ i ∈ Finset.range n, subsidyAt params i ≤
      params.nSubsidyStepInterval * ∑ i ∈ Finset.range k, subsidyAfter params i := by
    rw [← sum_subsidyAt_intervals h]
    exact Finset.sum_le_sum_of_subset_of_nonneg (Finset.range_subset_range.mpr hround)
      fun i _ _ => subsidyAt_nonneg h i
  have hsteps := sum_subsidyAfter_le h k
  have hrest := mul_nonneg h.denominator_pos.le (subsidyAfter_nonneg h k)
  have hratio : 0 ≤ params.nSubsidyStepdownDenominator - params.nSubsidyStepdownNumerator :=
    sub_nonneg.mpr h.numerator_le
  calc (params.nSubsidyStepdownDenominator - params.nSubsidyStepdownNumerator) *
        ∑ i ∈ Finset.range n, subsidyAt params i
      ≤ (params.nSubsidyStepdownDenominator - params.nSubsidyStepdownNumerator) *
          (params.nSubsidyStepInterval * ∑ i ∈ Finset.range k, subsidyAfter params i) :=
        mul_le_mul_of_nonneg_left hmore hratio
    _ = params.nSubsidyStepInterval *
          ((params.nSubsidyStepdownDenominator - params.nSubsidyStepdownNumerator) *
            ∑ i ∈ Finset.range k, subsidyAfter params i) := by ring
    _ ≤ params.nSubsidyStepInterval *
          (params.nSubsidyStepdownDenominator * params.nSubsidyInitial) :=
        mul_le_mul_of_nonneg_left (by linarith) h.interval_pos.le
    _ = _ := by ring

end Height

/-! ## The main network -/

/-- The subsidy parameters of the main network. -/
structure MainSubsidy (params : Params) : Prop where
  initial : params.nSubsidyInitial = 210 * coin
  interval : params.nSubsidyStepInterval = 43200
  numerator : params.nSubsidyStepdownNumerator = 598
  denominator : params.nSubsidyStepdownDenominator = 625

theorem mainParams_mainSubsidy : MainSubsidy mainParams := ⟨rfl, rfl, rfl, rfl⟩

theorem MainSubsidy.schedule (h : MainSubsidy params) : SubsidySchedule params where
  interval_pos := by rw [h.interval]; decide
  numerator_nonneg := by rw [h.numerator]; decide
  denominator_pos := by rw [h.denominator]; decide
  numerator_le := by rw [h.numerator, h.denominator]; decide
  denominator_le := by rw [h.denominator]; decide
  initial_nonneg := by rw [h.initial]; decide
  initial_le := by rw [h.initial]; decide

/-- **The main network never issues more than `MAX_MONEY`.**  The unrounded series sums to exactly
that. -/
theorem MainSubsidy.sum_subsidyAt_le (h : MainSubsidy params) (n : Nat) :
    ∑ i ∈ Finset.range n, subsidyAt params i ≤ maxMoney := by
  have hseries := Qbit.sum_subsidyAt_le h.schedule n
  rw [h.numerator, h.denominator, h.interval, h.initial] at hseries
  have hlimit : (43200 * 625 * (210 * coin) : Int) = (625 - 598) * maxMoney := rfl
  omega

end Qbit
