import Qbit.Validation.Connect

/-!
# 256-bit arithmetic that is exact

The long division of `base_uint` gives the true quotient, and what the proof of work computes with
it is what unbounded integers would give.  `GetBlockProof` divides `2 ^ 256`, which does not fit.
`CalculateRetargetedTarget` and `WorkDurationExceeds` avoid products of more than 256 bits by
splitting a number into quotient and remainder.

That nothing wraps is said with a second version of the last two, which stops where an operation
would wrap.
-/

open Checked

namespace Qbit

variable {a b : Uint256}

/-! ## Long division -/

/-- The loop of `base_uint::operator/=`, with the number of rounds that are left. -/
def divideLoop : Nat → Uint256 → Uint256 → Uint256 → Uint256
  | 0, _, _, quotient => quotient
  | shift + 1, num, div, quotient =>
    if div ≤ num then
      divideLoop shift (num - div) (div >>> 1) (quotient ||| (1 : Uint256) <<< shift)
    else divideLoop shift num (div >>> 1) quotient

/-- `base_uint::operator/=` -/
def divide (num div : Uint256) : Result Uint256 :=
  if bits div = 0 then .error .exception
  else if bits num < bits div then .ok 0
  else
    let shift := bits num - bits div
    .ok (divideLoop (shift + 1) num (div <<< shift) 0)

/-- A bit that is set below all the others. -/
private theorem toNat_or_bit {q : Uint256} {k : Nat} (hk : k < 256) (hq : 2 ^ (k + 1) ∣ q.toNat) :
    (q ||| (1 : Uint256) <<< k).toNat = q.toNat + 2 ^ k := by
  obtain ⟨c, hc⟩ := hq
  have hlt : 2 ^ k < 2 ^ 256 := Nat.pow_lt_pow_right (by decide) hk
  have hbit : ((1 : Uint256) <<< k).toNat = 2 ^ k := by
    rw [BitVec.toNat_shiftLeft, Nat.shiftLeft_eq]
    exact (congrArg (· % 2 ^ 256) (Nat.one_mul _)).trans (Nat.mod_eq_of_lt hlt)
  rw [BitVec.toNat_or, hbit, hc,
    ← Nat.two_pow_add_eq_or_of_lt (Nat.pow_lt_pow_right (by decide) k.lt_succ_self)]

/-- **The division loop.**  With `k` rounds left, the divisor stands `k - 1` places too high, the
rest is below the place above it, and the low `k` bits of the quotient are still clear. -/
theorem toNat_divideLoop {D k : Nat} {num div quotient : Uint256} (hk : k ≤ 256)
    (hdiv : div.toNat = D * 2 ^ k / 2) (hnum : num.toNat < D * 2 ^ k)
    (hquotient : 2 ^ k ∣ quotient.toNat) :
    (divideLoop k num div quotient).toNat = quotient.toNat + num.toNat / D := by
  induction k generalizing num div quotient with
  | zero =>
    rw [divideLoop, Nat.div_eq_of_lt (by simpa using hnum), Nat.add_zero]
  | succ k ih =>
    have hdouble : D * 2 ^ (k + 1) = D * 2 ^ k * 2 := by rw [Nat.pow_succ, Nat.mul_assoc]
    have hdiv' : div.toNat = D * 2 ^ k := by omega
    have hhalf : (div >>> 1).toNat = D * 2 ^ k / 2 := by
      rw [BitVec.toNat_ushiftRight, Nat.shiftRight_eq_div_pow, hdiv', Nat.pow_one]
    have hdvd : 2 ^ k ∣ quotient.toNat := (Nat.pow_dvd_pow 2 k.le_succ).trans hquotient
    rw [divideLoop]
    split_ifs with hle
    · rw [BitVec.le_def] at hle
      have hsub := BitVec.toNat_sub_of_le (BitVec.le_def.mpr hle)
      have hor := toNat_or_bit (by omega) hquotient
      have hD : 0 < D := Nat.pos_of_mul_pos_right (Nat.zero_lt_of_lt hnum)
      rw [ih (by omega) hhalf (by omega)
        (by rw [hor]; exact Nat.dvd_add hdvd (Nat.dvd_refl _)), hor, hsub, hdiv',
        Nat.sub_mul_div, Nat.add_assoc]
      have hquot : 2 ^ k ≤ num.toNat / D := by
        rw [Nat.le_div_iff_mul_le hD, Nat.mul_comm, ← hdiv']
        exact hle
      omega
    · rw [BitVec.le_def, not_le, hdiv'] at hle
      exact ih (by omega) hhalf hle hdvd

private theorem bits_bounds (h : a.toNat ≠ 0) :
    ∃ n, bits a = n + 1 ∧ n < 256 ∧ 2 ^ n ≤ a.toNat ∧ a.toNat < 2 ^ (n + 1) :=
  ⟨a.toNat.log2, if_neg h, (Nat.log2_lt h).mpr a.isLt, Nat.log2_self_le h, Nat.lt_log2_self⟩

/-- **Long division computes the quotient**, of every dividend and divisor. -/
theorem divide_eq (a b : Uint256) : divide a b = div256 a b := by
  rw [divide, div256]
  by_cases hb : b = 0
  · subst hb
    rfl
  have hb0 : b.toNat ≠ 0 := fun h => hb (BitVec.eq_of_toNat_eq h)
  obtain ⟨m, hm, hm256, hmlo, hmhi⟩ := bits_bounds hb0
  rw [if_neg (by omega), if_neg hb]
  by_cases ha : a.toNat = 0
  · rw [if_pos (by rw [bits, if_pos ha]; omega)]
    congr 1
    exact BitVec.eq_of_toNat_eq (by rw [BitVec.toNat_udiv, ha, Nat.zero_div]; rfl)
  obtain ⟨n, hn, hn256, hnlo, hnhi⟩ := bits_bounds ha
  rw [hm, hn]
  split_ifs with hlt
  · congr 1
    apply BitVec.eq_of_toNat_eq
    have : 2 ^ (n + 1) ≤ 2 ^ m := Nat.pow_le_pow_right (by decide) (by omega)
    rw [BitVec.toNat_udiv, Nat.div_eq_of_lt (by omega)]
    rfl
  obtain ⟨d, rfl⟩ : ∃ d, n = m + d := ⟨n - m, by omega⟩
  rw [show m + d + 1 - (m + 1) = d by omega]
  have hfits : b.toNat * 2 ^ d < 2 ^ 256 :=
    calc b.toNat * 2 ^ d < 2 ^ (m + 1) * 2 ^ d := Nat.mul_lt_mul_of_pos_right hmhi (by positivity)
      _ = 2 ^ (m + d + 1) := by ring
      _ ≤ 2 ^ 256 := Nat.pow_le_pow_right (by decide) (by omega)
  have hbelow : a.toNat < b.toNat * 2 ^ (d + 1) :=
    calc a.toNat < 2 ^ m * 2 ^ (d + 1) := hnhi.trans_eq (by ring)
      _ ≤ b.toNat * 2 ^ (d + 1) := Nat.mul_le_mul_right _ hmlo
  refine congrArg Except.ok (BitVec.eq_of_toNat_eq ?_)
  rw [toNat_divideLoop (D := b.toNat) (by omega) ?_ hbelow (Nat.dvd_zero _), BitVec.toNat_udiv]
  · exact Nat.zero_add _
  · rw [BitVec.toNat_shiftLeft, Nat.shiftLeft_eq, Nat.mod_eq_of_lt hfits, Nat.pow_succ,
      ← Nat.mul_assoc, Nat.mul_div_cancel _ (by decide)]

theorem div256_of_ne_zero (hb : b.toNat ≠ 0) :
    div256 a b = .ok (a / b) ∧ (a / b).toNat = a.toNat / b.toNat :=
  ⟨if_neg fun h => hb (by rw [h]; rfl), BitVec.toNat_udiv⟩

/-! ## Block proofs -/

variable {nBits : UInt32} {t : Uint256}

/-- A decoded target has its low byte clear or is small, so there is a number after it. -/
private theorem toNat_target_lt (nBits : UInt32) :
    (setCompact nBits).target.toNat + 1 < 2 ^ 256 := by
  simp only [setCompact]
  split_ifs with h
  · generalize (nBits &&& 0x007fffff) >>> UInt32.ofNat (8 * (3 - (nBits >>> 24).toNat)) = nWord
    have hword := nWord.toNat_lt
    rw [BitVec.toNat_ofNat]
    omega
  rw [BitVec.toNat_shiftLeft, Nat.shiftLeft_eq]
  obtain ⟨k, hk⟩ : ∃ k, 8 * ((nBits >>> 24).toNat - 3) = k + 1 :=
    Nat.exists_eq_succ_of_ne_zero (by omega)
  rw [hk, Nat.pow_succ, ← Nat.mul_assoc]
  omega

/-- What `GetBlockProof` divides: the complement stands for `2 ^ 256`, less the divisor. -/
theorem toNat_getBlockProof (h : setCompact nBits = ⟨t, false, false⟩) (ht : t ≠ 0) :
    getBlockProof nBits = ~~~t / (t + 1) + 1 ∧
      (getBlockProof nBits).toNat = 2 ^ 256 / (t.toNat + 1) := by
  have hlt := toNat_target_lt nBits
  have hpos : t.toNat ≠ 0 := fun h0 => ht (BitVec.eq_of_toNat_eq h0)
  have hproof : getBlockProof nBits = ~~~t / (t + 1) + 1 := by
    rw [getBlockProof, h]
    exact if_neg (by simpa using ht)
  rw [h] at hlt
  dsimp only at hlt
  have hsucc : (t + 1).toNat = t.toNat + 1 := by
    rw [BitVec.toNat_add]
    exact Nat.mod_eq_of_lt hlt
  have hquotient : (2 ^ 256 - 1 - t.toNat) / (t.toNat + 1) + 1 = 2 ^ 256 / (t.toNat + 1) := by
    rw [← Nat.add_div_right _ (Nat.succ_pos _)]
    congr 1
    omega
  have hsmall : 2 ^ 256 / (t.toNat + 1) < 2 ^ 256 := Nat.div_lt_self (by decide) (by omega)
  refine ⟨hproof, ?_⟩
  rw [hproof, BitVec.toNat_add, BitVec.toNat_udiv, BitVec.toNat_not, hsucc]
  rw [← hquotient] at hsmall ⊢
  exact Nat.mod_eq_of_lt hsmall

/-- **Block work is the exact expected number of hashes.**  The long division that it rests on gives
the true quotient; the work is at least one, and a larger target means no more work. -/
theorem getBlockProof_exact (h : setCompact nBits = ⟨t, false, false⟩) (ht : t ≠ 0) :
    (∃ q, divide (~~~t) (t + 1) = .ok q ∧ getBlockProof nBits = q + 1) ∧
      (getBlockProof nBits).toNat = 2 ^ 256 / (t.toNat + 1) ∧ 1 ≤ (getBlockProof nBits).toNat ∧
      (∀ nBits' t', setCompact nBits' = ⟨t', false, false⟩ → t ≤ t' →
        getBlockProof nBits' ≤ getBlockProof nBits) ∧
      ∀ num div : Uint256, div ≠ 0 →
        ∃ q, divide num div = .ok q ∧ q.toNat = num.toNat / div.toNat := by
  obtain ⟨hproof, hwork⟩ := toNat_getBlockProof h ht
  have hlt := toNat_target_lt nBits
  rw [h] at hlt
  dsimp only at hlt
  have hdivide : ∀ num div : Uint256, div ≠ 0 →
      ∃ q, divide num div = .ok q ∧ q.toNat = num.toNat / div.toNat := fun num div hdiv =>
    ⟨num / div, (divide_eq num div).trans (if_neg hdiv), BitVec.toNat_udiv⟩
  refine ⟨⟨~~~t / (t + 1), (divide_eq _ _).trans (if_neg fun h0 => ?_), hproof⟩, hwork, ?_, ?_,
    hdivide⟩
  · have hsum : (t + 1).toNat = t.toNat + 1 := by
      rw [BitVec.toNat_add]
      exact Nat.mod_eq_of_lt hlt
    rw [h0] at hsum
    exact absurd hsum (by simp)
  · rw [hwork, Nat.le_div_iff_mul_le (Nat.succ_pos _)]
    omega
  · intro nBits' t' h' hle
    have ht' : t' ≠ 0 := by
      rintro rfl
      exact ht (BitVec.eq_of_toNat_eq (Nat.le_zero.mp (BitVec.le_def.mp hle)))
    rw [BitVec.le_def, hwork, (toNat_getBlockProof h' ht').2]
    exact Nat.div_le_div_left (Nat.succ_le_succ (BitVec.le_def.mp hle)) (Nat.succ_pos _)

theorem getBlockProof_difficulty_one :
    setCompact 0x1d00ffff = ⟨0xffff#256 <<< 208, false, false⟩ ∧
      (getBlockProof 0x1d00ffff).toNat = 2 ^ 256 / ((0xffff#256 <<< 208).toNat + 1) :=
  have h : setCompact 0x1d00ffff = ⟨0xffff#256 <<< 208, false, false⟩ := by decide
  ⟨h, (getBlockProof_exact h (by decide)).2.1⟩

/-! ## Arithmetic that does not wrap -/

/-- A product that fits 256 bits. -/
def mul256 (a b : Uint256) : Result Uint256 :=
  if a.toNat * b.toNat < 2 ^ 256 then .ok (a * b) else .error .overflow

/-- A sum that fits 256 bits. -/
def add256 (a b : Uint256) : Result Uint256 :=
  if a.toNat + b.toNat < 2 ^ 256 then .ok (a + b) else .error .overflow

/-- A difference that is not negative. -/
def sub256 (a b : Uint256) : Result Uint256 := if b ≤ a then .ok (a - b) else .error .overflow

theorem mul256_of_lt (h : a.toNat * b.toNat < 2 ^ 256) :
    mul256 a b = .ok (a * b) ∧ (a * b).toNat = a.toNat * b.toNat :=
  ⟨if_pos h, by rw [BitVec.toNat_mul, Nat.mod_eq_of_lt h]⟩

theorem add256_of_lt (h : a.toNat + b.toNat < 2 ^ 256) :
    add256 a b = .ok (a + b) ∧ (a + b).toNat = a.toNat + b.toNat :=
  ⟨if_pos h, by rw [BitVec.toNat_add, Nat.mod_eq_of_lt h]⟩

theorem sub256_of_le (h : b.toNat ≤ a.toNat) :
    sub256 a b = .ok (a - b) ∧ (a - b).toNat = a.toNat - b.toNat :=
  ⟨if_pos (BitVec.le_def.mpr h), BitVec.toNat_sub_of_le (BitVec.le_def.mpr h)⟩

/-- **A product divided**, without the product. -/
theorem mul_div_split (N A : Nat) {T : Nat} (hT : T ≠ 0) :
    N * A / T = N / T * A + N % T * A / T := by
  conv_lhs => rw [← Nat.div_add_mod N T, Nat.add_mul, Nat.mul_assoc]
  rw [Nat.mul_add_div (Nat.pos_of_ne_zero hT)]

/-- **The remainder**, as both functions compute it. -/
theorem remainder256 (a b : Uint256) :
    (mul256 (a / b) b >>= sub256 a) = .ok (a - a / b * b) ∧
      (a - a / b * b).toNat = a.toNat % b.toNat := by
  have hle : a.toNat / b.toNat * b.toNat ≤ a.toNat := Nat.div_mul_le_self _ _
  have hquotient : (a / b).toNat = a.toNat / b.toNat := BitVec.toNat_udiv
  obtain ⟨hmul, hproduct⟩ := mul256_of_lt (a := a / b) (b := b)
    (by rw [hquotient]; exact hle.trans_lt a.isLt)
  rw [hquotient] at hproduct
  obtain ⟨hsub, hremainder⟩ := sub256_of_le (a := a) (b := a / b * b) (by rwa [hproduct])
  refine ⟨by rw [hmul, ok_bind, hsub], ?_⟩
  rw [hremainder, hproduct, Nat.mod_eq_sub_div_mul]

/-! ## Periodic retargeting -/

/-- `CalculateRetargetedTarget` in arithmetic that stops where an operation would wrap. -/
def retargetWithoutWrap (old_target : Uint256) (actual_timespan target_timespan : Int)
    (pow_limit : Uint256) : Result Uint256 := do
  let actual := arithOfInt64 actual_timespan
  let target := arithOfInt64 target_timespan
  if actual = 0 then return 0
  let quotient ← div256 old_target target
  let remainder ← mul256 quotient target >>= sub256 old_target
  if (← div256 pow_limit actual) < quotient then return pow_limit
  let retarget ← mul256 quotient actual
  let remainder_term ← mul256 remainder actual >>= (div256 · target)
  if (← sub256 pow_limit remainder_term) < retarget then return pow_limit
  add256 retarget remainder_term

theorem toNat_arithOfInt64 {x : Int} (h0 : 0 ≤ x) (h : x < 2 ^ 63) :
    (arithOfInt64 x).toNat = x.toNat := by
  rw [arithOfInt64, BitVec.toNat_ofNat]
  omega

/-- **Retargeting is an exact proportion, up to the limit.**  It is so where the limit is not below
what the remainder contributes, and no operation wraps. -/
theorem calculateRetargetedTarget_exact (old limit : Uint256) {actual target : Int}
    (hactual : 0 ≤ actual) (hactual' : actual < 2 ^ 63) (htarget : 0 < target)
    (htarget' : target < 2 ^ 63)
    (hlimit : old.toNat % target.toNat * actual.toNat / target.toNat ≤ limit.toNat) :
    ∃ r, calculateRetargetedTarget old actual target limit = .ok r ∧
      retargetWithoutWrap old actual target limit = .ok r ∧
      r.toNat = min limit.toNat (old.toNat * actual.toNat / target.toNat) := by
  have hA := toNat_arithOfInt64 hactual hactual'
  have hT := toNat_arithOfInt64 htarget.le htarget'
  rw [calculateRetargetedTarget, retargetWithoutWrap]
  rw [← hA, ← hT] at hlimit ⊢
  have hAlt : (arithOfInt64 actual).toNat < 2 ^ 63 := by omega
  have hT0 : (arithOfInt64 target).toNat ≠ 0 := by omega
  have hTlt : (arithOfInt64 target).toNat < 2 ^ 63 := by omega
  generalize arithOfInt64 actual = A at *
  generalize arithOfInt64 target = T at *
  dsimp only
  by_cases hzero : A = 0
  · refine ⟨0, by rw [if_pos hzero]; rfl, by rw [if_pos hzero]; rfl, ?_⟩
    subst hzero
    simp
  have hA0 : A.toNat ≠ 0 := fun h => hzero (BitVec.eq_of_toNat_eq h)
  rw [if_neg hzero, if_neg hzero]
  obtain ⟨hdiv, hquotient⟩ := div256_of_ne_zero (a := old) hT0
  obtain ⟨hrem, hremainder⟩ := remainder256 old T
  obtain ⟨hdiv', hcap⟩ := div256_of_ne_zero (a := limit) hA0
  have hsplit := mul_div_split old.toNat A.toNat hT0
  have hmodlt : old.toNat % T.toNat < T.toNat := Nat.mod_lt _ (Nat.pos_of_ne_zero hT0)
  have hsmall : (old - old / T * T).toNat * A.toNat < 2 ^ 256 := by
    rw [hremainder]
    calc old.toNat % T.toNat * A.toNat ≤ 2 ^ 63 * 2 ^ 63 :=
          Nat.mul_le_mul (by omega) hAlt.le
      _ < 2 ^ 256 := by decide
  obtain ⟨hmul, hproduct⟩ := mul256_of_lt hsmall
  obtain ⟨hdiv'', hterm⟩ := div256_of_ne_zero (a := (old - old / T * T) * A) hT0
  rw [hproduct, hremainder] at hterm
  have hrest : ((mul256 (old - old / T * T) A) >>= (div256 · T)) =
      .ok ((old - old / T * T) * A / T) := by rw [hmul, ok_bind, hdiv'']
  simp only [hdiv, hdiv', hdiv'', hrem, hrest, ok_bind, pure_eq_ok]
  have hclamp_iff : limit / A < old / T ↔ limit.toNat < old.toNat / T.toNat * A.toNat := by
    rw [BitVec.lt_def, hcap, hquotient, Nat.div_lt_iff_lt_mul (Nat.pos_of_ne_zero hA0)]
  by_cases hclamp : limit / A < old / T
  · have hover := hclamp_iff.mp hclamp
    exact ⟨limit, if_pos hclamp, if_pos hclamp, by omega⟩
  have hle := not_lt.mp (mt hclamp_iff.mpr hclamp)
  rw [if_neg hclamp, if_neg hclamp]
  have hlt := limit.isLt
  obtain ⟨hmul', hretarget⟩ := mul256_of_lt (a := old / T) (b := A) (by rw [hquotient]; omega)
  rw [hquotient] at hretarget
  obtain ⟨hsub, hroom⟩ := sub256_of_le (a := limit) (b := (old - old / T * T) * A / T)
    (by rwa [hterm])
  simp only [hmul', hsub, ok_bind]
  by_cases hclamp' : limit - (old - old / T * T) * A / T < old / T * A
  · refine ⟨limit, if_pos hclamp', if_pos hclamp', ?_⟩
    rw [BitVec.lt_def, hroom, hretarget, hterm] at hclamp'
    omega
  rw [if_neg hclamp', if_neg hclamp']
  rw [BitVec.lt_def, hroom, hretarget, hterm] at hclamp'
  obtain ⟨hadd, hsum⟩ := add256_of_lt (a := old / T * A)
    (b := (old - old / T * T) * A / T) (by rw [hretarget, hterm]; omega)
  refine ⟨_, rfl, hadd, ?_⟩
  rw [hsum, hretarget, hterm]
  omega

theorem calculateRetargetedTarget_thousand : ∃ r,
    calculateRetargetedTarget (1000#256) 7 3 (2000#256) = .ok r ∧
      retargetWithoutWrap (1000#256) 7 3 (2000#256) = .ok r ∧ r.toNat = min 2000 (1000 * 7 / 3) :=
  calculateRetargetedTarget_exact (1000#256) (2000#256) (by decide) (by decide) (by decide)
    (by decide) (by decide)

/-! ## Work against time -/

/-- `WorkDurationExceeds` in arithmetic that stops where an operation would wrap; the last product
but one has 64 bits. -/
def workDurationWithoutWrap (work reference_work : Uint256) (elapsed_seconds seconds : Nat) :
    Result Bool := do
  if work = 0 ∨ reference_work = 0 ∨ elapsed_seconds = 0 then return false
  let work_quotient ← div256 work reference_work
  let seconds_quotient := BitVec.ofNat 256 (seconds / elapsed_seconds)
  if work_quotient ≠ seconds_quotient then return decide (seconds_quotient < work_quotient)
  let work_remainder ← mul256 work_quotient reference_work >>= sub256 work
  let seconds_remainder := seconds % elapsed_seconds
  let elapsed := BitVec.ofNat 256 elapsed_seconds
  let reference_quotient ← div256 reference_work elapsed
  let reference_remainder ← mul256 reference_quotient elapsed >>= sub256 reference_work
  let low := reference_remainder.toNat % 2 ^ 64
  if 2 ^ 64 ≤ low * seconds_remainder then throw .overflow
  let remainder_threshold ← mul256 reference_quotient (BitVec.ofNat 256 seconds_remainder) >>=
    (add256 · (BitVec.ofNat 256 (low * seconds_remainder / elapsed_seconds)))
  return decide (remainder_threshold < work_remainder)

theorem mul_lt_mul_of_div_lt {W R E S : Nat} (hR : 0 < R) (hE : 0 < E) (h : S / E < W / R) :
    S * R < W * E := by
  have hS : S < (S / E + 1) * E := by
    rw [Nat.mul_comm]
    exact Nat.lt_mul_div_succ S hE
  calc S * R < (S / E + 1) * E * R := Nat.mul_lt_mul_of_pos_right hS hR
    _ ≤ W / R * E * R := by gcongr; exact h
    _ = W / R * R * E := by ring
    _ ≤ W * E := by gcongr; exact Nat.div_mul_le_self W R

/-- **Ratios with one integer part**: the threshold is the integer part of a product too large to
compute. -/
theorem mul_lt_mul_iff_of_div_eq {W R E S : Nat} (hE : E ≠ 0) (h : W / R = S / E) :
    S * R < W * E ↔ R / E * (S % E) + R % E * (S % E) / E < W % R := by
  have hW : W * E = S / E * (R * E) + W % R * E := by
    conv_lhs => rw [← Nat.div_add_mod W R, h]
    ring
  have hS : S * R = S / E * (R * E) + R * (S % E) := by
    conv_lhs => rw [← Nat.div_add_mod S E]
    ring
  rw [← mul_div_split R _ hE, Nat.div_lt_iff_lt_mul (Nat.pos_of_ne_zero hE), hW, hS,
    Nat.add_lt_add_iff_left]

/-- **Comparing the two ratios** is comparing the products, and no operation wraps. -/
theorem workDurationExceeds_exact (work reference : Uint256) (elapsed seconds : UInt32)
    (hwork : work ≠ 0) (hreference : reference ≠ 0) (helapsed : elapsed ≠ 0) :
    workDurationWithoutWrap work reference elapsed.toNat seconds.toNat =
        .ok (workDurationExceeds work reference elapsed.toNat seconds.toNat) ∧
      (workDurationExceeds work reference elapsed.toNat seconds.toNat = true ↔
        seconds.toNat * reference.toNat < work.toNat * elapsed.toNat) := by
  have hR : reference.toNat ≠ 0 := fun h => hreference (BitVec.eq_of_toNat_eq h)
  have hE : elapsed.toNat ≠ 0 := fun h => helapsed (UInt32.toNat_inj.mp h)
  have hElt : elapsed.toNat < 2 ^ 32 := elapsed.toNat_lt
  have hSlt : seconds.toNat < 2 ^ 32 := seconds.toNat_lt
  generalize elapsed.toNat = E at *
  generalize seconds.toNat = S at *
  have hzero : ¬ (work = 0 ∨ reference = 0 ∨ E = 0) := by tauto
  rw [workDurationWithoutWrap, workDurationExceeds, if_neg hzero, if_neg hzero]
  dsimp only
  have hSquotient : (BitVec.ofNat 256 (S / E)).toNat = S / E := by
    have := Nat.div_le_self S E
    rw [BitVec.toNat_ofNat, Nat.mod_eq_of_lt (by omega)]
  have hElapsed : (BitVec.ofNat 256 E).toNat = E := by
    rw [BitVec.toNat_ofNat, Nat.mod_eq_of_lt (by omega)]
  have hSmod : S % E < E := Nat.mod_lt _ (Nat.pos_of_ne_zero hE)
  have hSremainder : (BitVec.ofNat 256 (S % E)).toNat = S % E := by
    rw [BitVec.toNat_ofNat, Nat.mod_eq_of_lt (by omega)]
  obtain ⟨hdiv, hquotient⟩ := div256_of_ne_zero (a := work) hR
  rw [hdiv, ok_bind]
  by_cases hne : work / reference ≠ BitVec.ofNat 256 (S / E)
  · rw [if_pos hne, if_pos hne]
    refine ⟨rfl, ?_⟩
    have hne' : work.toNat / reference.toNat ≠ S / E := fun h =>
      hne (BitVec.eq_of_toNat_eq (by rw [hquotient, hSquotient, h]))
    rw [decide_eq_true_iff, BitVec.lt_def, hquotient, hSquotient]
    refine ⟨mul_lt_mul_of_div_lt (by omega) (by omega), fun h => ?_⟩
    by_contra hle
    have := mul_lt_mul_of_div_lt (W := S) (R := E) (E := reference.toNat) (S := work.toNat)
      (by omega) (by omega) (by omega)
    omega
  rw [if_neg hne, if_neg hne]
  have heq : work.toNat / reference.toNat = S / E := by
    rw [← hquotient, not_not.mp hne, hSquotient]
  obtain ⟨hrem, hremainder⟩ := remainder256 work reference
  have hE' : (BitVec.ofNat 256 E).toNat ≠ 0 := by rwa [hElapsed]
  obtain ⟨hdiv', hquotient'⟩ := div256_of_ne_zero (a := reference) hE'
  obtain ⟨hrem', hremainder'⟩ := remainder256 reference (BitVec.ofNat 256 E)
  rw [hElapsed] at hquotient' hremainder'
  have hRmod : reference.toNat % E < E := Nat.mod_lt _ (Nat.pos_of_ne_zero hE)
  -- the 64-bit product
  have hlow : (reference - reference / BitVec.ofNat 256 E * BitVec.ofNat 256 E).toNat %
      2 ^ 64 = reference.toNat % E := by
    rw [hremainder', Nat.mod_eq_of_lt (by omega)]
  have hproduct : reference.toNat % E * (S % E) < 2 ^ 64 :=
    calc reference.toNat % E * (S % E) < 2 ^ 32 * 2 ^ 32 :=
          Nat.mul_lt_mul'' (by omega) (by omega)
      _ = 2 ^ 64 := by decide
  have hterm : (BitVec.ofNat 256 (reference.toNat % E * (S % E) / E)).toNat =
      reference.toNat % E * (S % E) / E := by
    have := Nat.div_le_self (reference.toNat % E * (S % E)) E
    rw [BitVec.toNat_ofNat, Nat.mod_eq_of_lt (by omega)]
  -- the threshold is below the reference work
  have hbound : reference.toNat / E * (S % E) + reference.toNat % E * (S % E) / E ≤
      reference.toNat := by
    have h1 : reference.toNat % E * (S % E) / E ≤ reference.toNat % E :=
      Nat.div_le_of_le_mul (by rw [Nat.mul_comm]; exact Nat.mul_le_mul_right _ hSmod.le)
    have h2 := Nat.mul_le_mul_left (reference.toNat / E) hSmod.le
    have h3 := Nat.div_add_mod' reference.toNat E
    omega
  have hlt := reference.isLt
  obtain ⟨hmul, hfirst⟩ := mul256_of_lt (a := reference / BitVec.ofNat 256 E)
    (b := BitVec.ofNat 256 (S % E)) (by rw [hquotient', hSremainder]; omega)
  rw [hquotient', hSremainder] at hfirst
  obtain ⟨hadd, hthreshold⟩ := add256_of_lt
    (a := reference / BitVec.ofNat 256 E * BitVec.ofNat 256 (S % E))
    (b := BitVec.ofNat 256 (reference.toNat % E * (S % E) / E))
    (by rw [hfirst, hterm]; omega)
  rw [hfirst, hterm] at hthreshold
  simp only [hrem, hdiv', hrem', hlow, hmul, hadd, ok_bind, pure_eq_ok, Nat.mod_eq_of_lt hproduct,
    if_neg hproduct.not_ge, true_and]
  rw [decide_eq_true_iff, BitVec.lt_def, hthreshold, hremainder, mul_lt_mul_iff_of_div_eq hE heq]

theorem workDurationExceeds_ten :
    workDurationWithoutWrap 10 4 2 3 = .ok (workDurationExceeds 10 4 2 3) ∧
      (workDurationExceeds 10 4 2 3 = true ↔ 3 * 4 < 10 * 2) :=
  workDurationExceeds_exact 10 4 2 3 (by decide) (by decide) (by decide)

end Qbit
