import Mathlib.Algebra.Order.Floor.Ring
import Mathlib.Data.Int.ConditionallyCompleteOrder
import Mathlib.Data.Rat.Floor
import Qbit.Lib.Limbs
import Qbit.Pow.Asert

/-!
# ASERT as a formula

`CalculateASERT` keeps the product of the anchor target and the factor in nine limbs and shifts it
by hand.

* `WideTarget.toNat` is that number; `toNat_shiftRightWideTarget`, `toNat_shiftLeftWideTarget` and
  `toNat_multiplyToWideTarget` say what the three limb functions do to it.
* `asertGrowth` is the rational number that the anchor target is multiplied by, and
  `calculateASERT_eq` says that the function returns the whole part of the product, clamped.
* Everything about the shape of the function, such as that it is monotone, is then a fact about
  `asertGrowth`.
-/

open Checked

namespace Qbit

/-! ## The number in a wide target -/

namespace WideTarget

variable (w : WideTarget)

/-- The limbs as numbers, the least significant first. -/
def digits : List Nat := w.toList.map UInt32.toNat

def toNat : Nat := Nat.ofDigits (2 ^ 32) w.digits

@[simp] theorem length_digits : w.digits.length = 9 := by simp [digits]

theorem digits_lt : ∀ d ∈ w.digits, d < 2 ^ 32 := by
  intro d hd
  obtain ⟨x, -, rfl⟩ := List.mem_map.mp hd
  exact x.toNat_lt

theorem getD_digits (i : Nat) : w.digits.getD i 0 = (w.toArray.getD i 0).toNat := by
  rw [digits, List.getD_eq_getElem?_getD, List.getElem?_map, Array.getD_eq_getD_getElem?]
  cases h : w.toArray[i]? with
  | none => simp_all
  | some x => simp_all

theorem testBit_toNat (n : Nat) :
    w.toNat.testBit n = (w.toArray.getD (n / 32) 0).toNat.testBit (n % 32) := by
  rw [toNat, Limbs.testBit_ofDigits (by decide) w.digits_lt, getD_digits]

theorem toNat_lt : w.toNat < 2 ^ wideTargetBits := by
  have h := Limbs.ofDigits_lt (by decide) w.digits_lt
  rwa [length_digits] at h

@[simp] theorem toNat_zero : zero.toNat = 0 := by decide

theorem toNat_inj {v w : WideTarget} (h : v.toNat = w.toNat) : v = w := by
  have hdigits : v.digits = w.digits :=
    Nat.ofDigits_inj_of_len_eq (by decide) (by simp) v.digits_lt w.digits_lt h
  have hlist : v.toList = w.toList :=
    List.map_injective_iff.mpr (fun _ _ => UInt32.toNat_inj.mp) hdigits
  exact Vector.toList_inj.mp hlist

end WideTarget

/-! ## Shifts -/

variable {j r i s k f g : Nat} {w : WideTarget} {powLimit : Uint256}

theorem testBit_toNat_toUInt32 (n : UInt64) (hj : j < 32) :
    n.toUInt32.toNat.testBit j = n.toNat.testBit j := by
  rw [UInt64.toNat_toUInt32, Nat.testBit_mod_two_pow, decide_eq_true hj, Bool.true_and]

theorem testBit_toUInt64_shiftRight (x : UInt32) (hr : r < 32) (j : Nat) :
    (x.toUInt64 >>> UInt64.ofNat r).toNat.testBit j = x.toNat.testBit (r + j) := by
  have hmod : (UInt64.ofNat r).toNat % 64 = r := by
    rw [UInt64.toNat_ofNat_of_lt' (by simp only [UInt64.size]; omega)]
    omega
  rw [UInt64.toNat_shiftRight, hmod, Nat.testBit_shiftRight, UInt32.toNat_toUInt64]

theorem testBit_toUInt64_shiftLeft (x : UInt32) (hr : r ≤ 32) (hj : j < 64) :
    (x.toUInt64 <<< UInt64.ofNat r).toNat.testBit j =
      (decide (r ≤ j) && x.toNat.testBit (j - r)) := by
  have hmod : (UInt64.ofNat r).toNat % 64 = r := by
    rw [UInt64.toNat_ofNat_of_lt' (by simp only [UInt64.size]; omega)]
    omega
  rw [UInt64.toNat_shiftLeft, hmod, Nat.testBit_mod_two_pow, decide_eq_true hj, Bool.true_and,
    Nat.testBit_shiftLeft, UInt32.toNat_toUInt64]

theorem testBit_limb_eq_false (x : UInt32) (hj : 32 ≤ j) : x.toNat.testBit j = false :=
  Nat.testBit_lt_two_pow (x.toNat_lt.trans_le (Nat.pow_le_pow_right (by decide) hj))

theorem WideTarget.getD_eq_zero (w : WideTarget) (hi : 9 ≤ i) : w.toArray[i]?.getD 0 = 0 := by
  rw [Array.getElem?_eq_none (by simpa using hi), Option.getD_none]

/-- A limb of the right shift is made of two neighbours: bit `j` comes from the upper one when the
shift within the limb carries it over. -/
theorem testBit_shiftRightWideTarget (w : WideTarget) (hs : s < wideTargetBits) (hi : i < 9)
    (hj : j < 32) :
    ((shiftRightWideTarget w s).toArray.getD i 0).toNat.testBit j =
      w.toNat.testBit (s + (32 * i + j)) := by
  have hr : s % 32 < 32 := Nat.mod_lt s (by decide)
  rw [WideTarget.testBit_toNat, shiftRightWideTarget, if_neg (Nat.not_le.mpr hs)]
  simp only [Vector.toArray_ofFn, Array.getD_eq_getD_getElem?]
  rw [Array.getElem?_ofFn, dif_pos hi, Option.getD_some, testBit_toNat_toUInt32 _ hj]
  dsimp only
  by_cases hcarry : s % 32 + j < 32
  · have hlimb : (s + (32 * i + j)) / 32 = i + s / 32 := by omega
    have hbit : (s + (32 * i + j)) % 32 = s % 32 + j := by omega
    rw [hlimb, hbit]
    split_ifs with hk hlast
    · rw [UInt64.toNat_or, Nat.testBit_or, testBit_toUInt64_shiftRight _ hr,
        testBit_toUInt64_shiftLeft _ (by omega) (by omega), decide_eq_false (by omega),
        Bool.false_and, Bool.or_false]
    · exact testBit_toUInt64_shiftRight _ hr j
    · rw [w.getD_eq_zero (by omega)]
      simp
  · have hlimb : (s + (32 * i + j)) / 32 = i + s / 32 + 1 := by omega
    have hbit : (s + (32 * i + j)) % 32 = s % 32 + j - 32 := by omega
    rw [hlimb, hbit]
    split_ifs with hk hlast
    · rw [UInt64.toNat_or, Nat.testBit_or, testBit_toUInt64_shiftRight _ hr,
        testBit_toUInt64_shiftLeft _ (by omega) (by omega), decide_eq_true (by omega),
        Bool.true_and, testBit_limb_eq_false _ (by omega), Bool.false_or]
      congr 1
      omega
    · rw [testBit_toUInt64_shiftRight _ hr, testBit_limb_eq_false _ (by omega),
        w.getD_eq_zero (by omega)]
      simp
    · rw [w.getD_eq_zero (by omega)]
      simp

/-- A limb of the left shift is made of two neighbours: bit `j` comes from the lower one when it is
among those that the shift within the limb brings in. -/
theorem testBit_shiftLeftWideTarget (w : WideTarget) (hs : s < wideTargetBits) (hi : i < 9)
    (hj : j < 32) :
    ((shiftLeftWideTarget w s).toArray.getD i 0).toNat.testBit j =
      (decide (s ≤ 32 * i + j) && w.toNat.testBit (32 * i + j - s)) := by
  rw [WideTarget.testBit_toNat, shiftLeftWideTarget, if_neg (Nat.not_le.mpr hs)]
  simp only [Vector.toArray_ofFn, Array.getD_eq_getD_getElem?]
  rw [Array.getElem?_ofFn, dif_pos hi, Option.getD_some, testBit_toNat_toUInt32 _ hj]
  dsimp only
  by_cases hcarry : s % 32 ≤ j
  · split_ifs with hk hlast
    · rw [UInt64.toNat_or, Nat.testBit_or, testBit_toUInt64_shiftLeft _ (by omega) (by omega),
        testBit_toUInt64_shiftRight _ (by omega),
        testBit_limb_eq_false _ (show 32 ≤ 32 - s % 32 + j by omega),
        Bool.or_false, decide_eq_true hcarry, decide_eq_true (by omega), Bool.true_and,
        Bool.true_and, show (32 * i + j - s) / 32 = i - s / 32 by omega,
        show (32 * i + j - s) % 32 = j - s % 32 by omega]
    · rw [testBit_toUInt64_shiftLeft _ (by omega) (by omega), decide_eq_true hcarry,
        decide_eq_true (by omega), Bool.true_and, Bool.true_and,
        show (32 * i + j - s) / 32 = i - s / 32 by omega,
        show (32 * i + j - s) % 32 = j - s % 32 by omega]
    · rw [decide_eq_false (by omega), Bool.false_and]
      simp
  · split_ifs with hk hlast
    · rw [UInt64.toNat_or, Nat.testBit_or, testBit_toUInt64_shiftLeft _ (by omega) (by omega),
        testBit_toUInt64_shiftRight _ (by omega), decide_eq_false hcarry, Bool.false_and,
        Bool.false_or, decide_eq_true (by omega), Bool.true_and,
        show (32 * i + j - s) / 32 = i - s / 32 - 1 by omega,
        show (32 * i + j - s) % 32 = 32 - s % 32 + j by omega]
    · rw [testBit_toUInt64_shiftLeft _ (by omega) (by omega), decide_eq_false hcarry,
        decide_eq_false (by omega), Bool.false_and, Bool.false_and]
    · rw [decide_eq_false (by omega), Bool.false_and]
      simp

/-- Two numbers of nine limbs are equal when all bits of all limbs are. -/
theorem WideTarget.toNat_eq_of_testBit {n : Nat} (hn : n < 2 ^ wideTargetBits)
    (h : ∀ i < 9, ∀ j < 32, (w.toArray.getD i 0).toNat.testBit j = n.testBit (32 * i + j)) :
    w.toNat = n := by
  refine Nat.eq_of_testBit_eq fun b => ?_
  by_cases hb : b < wideTargetBits
  · have hi : b / 32 < 9 := by simp only [wideTargetBits] at hb; omega
    rw [testBit_toNat, h _ hi _ (Nat.mod_lt b (by decide)), Nat.div_add_mod]
  · have hpow : 2 ^ wideTargetBits ≤ 2 ^ b := Nat.pow_le_pow_right (by decide) (Nat.le_of_not_lt hb)
    rw [Nat.testBit_lt_two_pow (w.toNat_lt.trans_le hpow),
      Nat.testBit_lt_two_pow (hn.trans_le hpow)]

/-- **`ShiftRightWideTarget` divides.** -/
theorem toNat_shiftRightWideTarget (w : WideTarget) (s : Nat) :
    (shiftRightWideTarget w s).toNat = w.toNat / 2 ^ s := by
  by_cases hs : s < wideTargetBits
  · rw [← Nat.shiftRight_eq_div_pow]
    refine WideTarget.toNat_eq_of_testBit ?_ fun i hi j hj => ?_
    · exact (Nat.shiftRight_le _ _).trans_lt w.toNat_lt
    · rw [testBit_shiftRightWideTarget w hs hi hj, Nat.testBit_shiftRight]
  · have hpow : 2 ^ wideTargetBits ≤ 2 ^ s := Nat.pow_le_pow_right (by decide) (Nat.le_of_not_lt hs)
    rw [shiftRightWideTarget, if_pos (Nat.le_of_not_lt hs), WideTarget.toNat_zero,
      Nat.div_eq_of_lt (w.toNat_lt.trans_le hpow)]

/-- **`ShiftLeftWideTarget` multiplies**, and keeps what fits. -/
theorem toNat_shiftLeftWideTarget (w : WideTarget) (s : Nat) :
    (shiftLeftWideTarget w s).toNat = w.toNat * 2 ^ s % 2 ^ wideTargetBits := by
  by_cases hs : s < wideTargetBits
  · rw [← Nat.shiftLeft_eq]
    refine WideTarget.toNat_eq_of_testBit (Nat.mod_lt _ (Nat.two_pow_pos _)) fun i hi j hj => ?_
    have hfit : 32 * i + j < wideTargetBits := by simp only [wideTargetBits]; omega
    rw [testBit_shiftLeftWideTarget w hs hi hj, Nat.testBit_mod_two_pow, decide_eq_true hfit,
      Bool.true_and, Nat.testBit_shiftLeft]
  · obtain ⟨d, rfl⟩ := Nat.exists_eq_add_of_le (Nat.le_of_not_lt hs)
    simp [shiftLeftWideTarget, pow_add, mul_left_comm]

/-- **The overflow test is exact**: it is true when the number needs more than 288 bits. -/
theorem leftShiftWideTargetOverflows_iff (w : WideTarget) (s : Nat) :
    leftShiftWideTargetOverflows w (shiftLeftWideTarget w s) s = true ↔
      2 ^ wideTargetBits ≤ w.toNat * 2 ^ s := by
  have hne {v : WideTarget} : v ≠ w ↔ v.toNat ≠ w.toNat :=
    not_congr ⟨fun h => h ▸ rfl, WideTarget.toNat_inj⟩
  rw [leftShiftWideTargetOverflows]
  split_ifs with hs
  · have hpow : 2 ^ wideTargetBits ≤ 2 ^ s := Nat.pow_le_pow_right (by decide) hs
    rw [bne_iff_ne, ne_comm, hne, WideTarget.toNat_zero]
    constructor
    · intro hw
      exact hpow.trans (Nat.le_mul_of_pos_left _ (Nat.pos_of_ne_zero hw.symm))
    · rintro hle h0
      rw [← h0, zero_mul] at hle
      exact absurd (Nat.two_pow_pos wideTargetBits) (Nat.not_lt.mpr hle)
  · rw [bne_iff_ne, hne, toNat_shiftRightWideTarget, toNat_shiftLeftWideTarget]
    constructor
    · intro hdiff
      by_contra hlt
      rw [Nat.mod_eq_of_lt (Nat.lt_of_not_le hlt), Nat.mul_div_cancel _ (Nat.two_pow_pos s)] at hdiff
      exact hdiff rfl
    · intro hle
      have hlost : w.toNat * 2 ^ s % 2 ^ wideTargetBits < 2 ^ s * w.toNat := by
        rw [mul_comm (2 ^ s)]
        exact (Nat.mod_lt _ (Nat.two_pow_pos _)).trans_le hle
      exact (Nat.div_lt_of_lt_mul hlost).ne

/-! ## The product -/

namespace WideTarget

theorem toNat_set (w : WideTarget) (hi : i < 9) (hzero : w.toArray.getD i 0 = 0) (x : UInt32) :
    toNat (w.set i x hi) = w.toNat + x.toNat * (2 ^ 32) ^ i := by
  have hdigits : digits (w.set i x hi) = w.digits.set i x.toNat := by
    simp [digits, Vector.toList_set]
  rw [toNat, hdigits, Limbs.ofDigits_set (by simpa using hi), toNat]
  rw [getD_digits, hzero]
  rfl

theorem getD_set_of_ne (w : WideTarget) (hi : i < 9) (hne : i ≠ j) (x : UInt32) :
    (w.set i x hi).toArray.getD j 0 = w.toArray.getD j 0 := by
  simp [hne]

end WideTarget

/-- What the loop has done after `k` turns: the low limbs and the carry make up the product of the
low limbs of the value, and nothing has been written above. -/
structure Multiplied (value : Uint256) (factor : UInt32) (k : Nat) (s : WideTarget × UInt64) :
    Prop where
  carry : s.2.toNat < 2 ^ 32
  above : ∀ i, k ≤ i → s.1.toArray.getD i 0 = 0
  product : s.1.toNat + s.2.toNat * (2 ^ 32) ^ k =
    value.toNat % (2 ^ 32) ^ k * factor.toNat

variable (value : Uint256) (factor : UInt32)

theorem Multiplied.zero : Multiplied value factor 0 (WideTarget.zero, 0) where
  carry := by decide
  above := by
    intro i _
    simp only [WideTarget.zero, Vector.toArray_replicate, Array.getD_eq_getD_getElem?,
      Array.getElem?_replicate]
    split_ifs <;> rfl
  product := by simp [Nat.mod_one]

theorem toNat_limb_mul {carry : UInt64} (hcarry : carry.toNat < 2 ^ 32) (limb factor : UInt32) :
    (carry + limb.toUInt64 * factor.toUInt64).toNat =
      carry.toNat + limb.toNat * factor.toNat := by
  have hlimb : limb.toNat ≤ 2 ^ 32 - 1 := Nat.le_sub_one_of_lt limb.toNat_lt
  have hfactor : factor.toNat ≤ 2 ^ 32 - 1 := Nat.le_sub_one_of_lt factor.toNat_lt
  have hprod : limb.toNat * factor.toNat ≤ (2 ^ 32 - 1) * (2 ^ 32 - 1) := Nat.mul_le_mul hlimb hfactor
  rw [UInt64.toNat_add, UInt64.toNat_mul, UInt32.toNat_toUInt64, UInt32.toNat_toUInt64,
    Nat.mod_eq_of_lt (a := limb.toNat * factor.toNat) (by omega), Nat.mod_eq_of_lt (by omega)]

theorem Multiplied.step {value : Uint256} {factor : UInt32} {s : WideTarget × UInt64}
    (h : Multiplied value factor k s) (hk : k < 8) :
    Multiplied value factor (k + 1) (multiplyLimb value factor s ⟨k, hk⟩) := by
  set limb := UInt32.ofNat (value.toNat >>> (32 * k)) with hlimb
  set n := s.2 + limb.toUInt64 * factor.toUInt64 with hn
  have hvalue : n.toNat = s.2.toNat + limb.toNat * factor.toNat := toNat_limb_mul h.carry _ _
  have hdigit : limb.toNat = value.toNat / (2 ^ 32) ^ k % 2 ^ 32 := by
    simp [hlimb, Nat.shiftRight_eq_div_pow, pow_mul]
  have hcarry : (n >>> 32).toNat = n.toNat / 2 ^ 32 := by simp [Nat.shiftRight_eq_div_pow]
  have hlow : n.toUInt32.toNat = n.toNat % 2 ^ 32 := UInt64.toNat_toUInt32 n
  have hstep : multiplyLimb value factor s ⟨k, hk⟩ =
      (s.1.set k n.toUInt32 (by omega), n >>> 32) := rfl
  rw [hstep]
  constructor
  · have := n.toNat_lt
    simp only [hcarry]
    omega
  · intro i hi
    rw [WideTarget.getD_set_of_ne _ _ (by omega), h.above i (by omega)]
  · simp only
    rw [WideTarget.toNat_set _ _ (h.above k le_rfl), hcarry, hlow]
    calc s.1.toNat + n.toNat % 2 ^ 32 * (2 ^ 32) ^ k + n.toNat / 2 ^ 32 * (2 ^ 32) ^ (k + 1)
        = s.1.toNat + (n.toNat % 2 ^ 32 + 2 ^ 32 * (n.toNat / 2 ^ 32)) * (2 ^ 32) ^ k := by ring
      _ = s.1.toNat + s.2.toNat * (2 ^ 32) ^ k + limb.toNat * factor.toNat * (2 ^ 32) ^ k := by
          rw [Nat.mod_add_div, hvalue]
          ring
      _ = (value.toNat % (2 ^ 32) ^ k + (2 ^ 32) ^ k * (value.toNat / (2 ^ 32) ^ k % 2 ^ 32)) *
            factor.toNat := by
          rw [h.product, hdigit]
          ring
      _ = value.toNat % (2 ^ 32) ^ (k + 1) * factor.toNat := by rw [← Nat.mod_pow_succ]

theorem Multiplied.run (hk : k ≤ 8) :
    Multiplied value factor k
      (((List.finRange 8).take k).foldl (multiplyLimb value factor) (WideTarget.zero, 0)) := by
  induction k with
  | zero => exact Multiplied.zero value factor
  | succ k ih =>
    have hlast : (List.finRange 8)[k]? = some ⟨k, hk⟩ := by
      rw [List.getElem?_eq_getElem (by simpa using hk), List.getElem_finRange]
      rfl
    rw [List.take_add_one, hlast, List.foldl_append]
    exact (ih (Nat.le_of_succ_le hk)).step hk

/-- **`MultiplyToWideTarget` multiplies.** -/
theorem toNat_multiplyToWideTarget :
    (multiplyToWideTarget value factor).toNat = value.toNat * factor.toNat := by
  have h := Multiplied.run value factor le_rfl
  rw [List.take_of_length_le (by simp)] at h
  have hvalue : value.toNat < (2 ^ 32) ^ 8 := value.isLt
  rw [multiplyToWideTarget_eq]
  rw [WideTarget.toNat_set _ _ (h.above 8 le_rfl), UInt64.toNat_toUInt32,
    Nat.mod_eq_of_lt h.carry, h.product, Nat.mod_eq_of_lt hvalue]

/-! ## Back to 256 bits -/

theorem foldl_limbs (w : WideTarget) (hk : k ≤ 9) :
    (List.range k).foldl (fun n i => n + (w.toArray.getD i 0).toNat <<< (32 * i)) 0 =
      Nat.ofDigits (2 ^ 32) (w.digits.take k) := by
  induction k with
  | zero => rfl
  | succ k ih =>
    have hlen : k < w.digits.length := by simpa using hk
    rw [List.range_succ, List.foldl_append, ih (Nat.le_of_succ_le hk),
      List.take_succ_eq_append_getElem hlen, Nat.ofDigits_append, List.length_take_of_le hlen.le,
      Nat.ofDigits_singleton]
    have hd : w.digits[k] = (w.toArray.getD k 0).toNat := by
      rw [← WideTarget.getD_digits, List.getD_eq_getElem _ _ hlen]
    rw [List.foldl_cons, List.foldl_nil, Nat.shiftLeft_eq, pow_mul, hd, mul_comm]

/-- **`WideTargetToArith`** keeps the low 256 bits. -/
theorem toNat_wideTargetToArith (w : WideTarget) :
    (wideTargetToArith w).toNat = w.toNat % 2 ^ 256 := by
  rw [wideTargetToArith, foldl_limbs w (by decide), Limbs.ofDigits_take w.digits_lt,
    BitVec.toNat_ofNat, Nat.mod_mod]
  rfl

theorem getD_last_eq (w : WideTarget) : (w.toArray.getD 8 0).toNat = w.toNat / 2 ^ 256 := by
  have hall : Nat.ofDigits (2 ^ 32) (w.digits.take 9) = w.toNat := by
    rw [List.take_of_length_le (by simp), WideTarget.toNat]
  have hlow : Nat.ofDigits (2 ^ 32) (w.digits.take 8) < 2 ^ 256 := by
    rw [Limbs.ofDigits_take w.digits_lt]
    omega
  rw [← foldl_limbs w le_rfl, List.range_succ, List.foldl_append, foldl_limbs w (by decide),
    List.foldl_cons, List.foldl_nil, Nat.shiftLeft_eq] at hall
  omega

/-! ## The factor -/

/-- The cubic of `CalculateASERT`, over the natural numbers. -/
def asertPolynomial (f : Nat) : Nat :=
  195766423245049 * f + 971821376 * f ^ 2 + 5127 * f ^ 3 + 2 ^ 47

/-- The factor of `CalculateASERT`, over the natural numbers. -/
def asertMultiplier (f : Nat) : Nat := 65536 + asertPolynomial f / 2 ^ 48

theorem asertPolynomial_mono (h : f ≤ g) : asertPolynomial f ≤ asertPolynomial g := by
  unfold asertPolynomial
  gcongr

/-- The cubic stays below 64 bits, by less than one unit of the factor. -/
theorem asertPolynomial_lt (hf : f < 65536) : asertPolynomial f < 2 ^ 64 :=
  (asertPolynomial_mono (Nat.le_of_lt_succ hf)).trans_lt (by decide)

theorem asertMultiplier_mono (h : f ≤ g) : asertMultiplier f ≤ asertMultiplier g :=
  Nat.add_le_add_left (Nat.div_le_div_right (asertPolynomial_mono h)) _

theorem le_asertMultiplier (f : Nat) : 65536 ≤ asertMultiplier f := Nat.le_add_right _ _

/-- **The end point of the cubic**: just below the next power of two, it has not passed it. -/
theorem asertMultiplier_lt (hf : f < 65536) : asertMultiplier f < 131072 :=
  (asertMultiplier_mono (Nat.le_of_lt_succ hf)).trans_lt (by decide)

theorem toNat_asertFactor (hf : f < 65536) :
    (asertFactor (UInt64.ofNat f)).toNat = asertMultiplier f := by
  have hmul := asertMultiplier_lt hf
  have hsum : 195766423245049 * UInt64.ofNat f + 971821376 * UInt64.ofNat f * UInt64.ofNat f +
      5127 * UInt64.ofNat f * UInt64.ofNat f * UInt64.ofNat f + 0x800000000000 =
        UInt64.ofNat (asertPolynomial f) := by
    simp only [asertPolynomial, UInt64.ofNat_add, UInt64.ofNat_mul, pow_succ, ← mul_assoc]
    rfl
  have hwhole : (UInt64.ofNat (asertPolynomial f) >>> 48).toNat = asertPolynomial f / 2 ^ 48 := by
    rw [UInt64.toNat_shiftRight, UInt64.toNat_ofNat_of_lt' (asertPolynomial_lt hf),
      Nat.shiftRight_eq_div_pow]
    rfl
  simp only [asertFactor]
  rw [hsum, UInt64.toNat_toUInt32, UInt64.toNat_add, hwhole]
  change (65536 + asertPolynomial f / 2 ^ 48) % 2 ^ 64 % 2 ^ 32 = asertMultiplier f
  unfold asertMultiplier at hmul ⊢
  omega

/-! ## The next target -/

/-- What is left of `n * 2 ^ shifts` when it is cut to a whole number. -/
def shiftedValue (n : Nat) (shifts : Int) : Nat :=
  if shifts ≤ 0 then n / 2 ^ (-shifts).toNat else n * 2 ^ shifts.toNat

theorem floor_mul_zpow (n : Nat) (shifts : Int) :
    ⌊(n : ℚ) * 2 ^ shifts⌋ = shiftedValue n shifts := by
  unfold shiftedValue
  split_ifs with h
  · obtain ⟨k, hk⟩ := Int.eq_ofNat_of_zero_le (Int.neg_nonneg_of_nonpos h)
    rw [show shifts = -(k : Int) by omega, zpow_neg, zpow_natCast, ← div_eq_mul_inv, neg_neg,
      Int.toNat_natCast]
    exact_mod_cast Rat.floor_natCast_div_natCast n (2 ^ k)
  · obtain ⟨k, hk⟩ := Int.eq_ofNat_of_zero_le (Int.le_of_lt (Int.not_le.mp h))
    rw [hk, zpow_natCast, Int.toNat_natCast]
    exact_mod_cast Int.floor_natCast (n * 2 ^ k)

theorem toNat_clampTarget (nextTarget : Uint256) (h : 1 ≤ powLimit.toNat) :
    (clampTarget nextTarget powLimit).toNat = max 1 (min nextTarget.toNat powLimit.toNat) := by
  unfold clampTarget
  split_ifs with h0 hlt
  · rw [h0]
    rfl
  · have := BitVec.lt_def.mp hlt
    omega
  · have hle := BitVec.not_lt.mp hlt
    have hpos : nextTarget.toNat ≠ 0 := fun h' => h0 (BitVec.eq_of_toNat_eq h')
    rw [BitVec.le_def] at hle
    omega

theorem toNat_wideTargetToArith_of_fits (h : w.toArray.getD 8 0 = 0) :
    (wideTargetToArith w).toNat = w.toNat := by
  have hlast := getD_last_eq w
  rw [h] at hlast
  have hlt : w.toNat < 2 ^ 256 := by
    have := (Nat.div_eq_zero_iff.mp hlast.symm)
    omega
  rw [toNat_wideTargetToArith, Nat.mod_eq_of_lt hlt]

theorem two_pow_le_of_last_ne_zero (h : w.toArray.getD 8 0 ≠ 0) : 2 ^ 256 ≤ w.toNat := by
  by_contra hlt
  have hlast := getD_last_eq w
  rw [Nat.div_eq_of_lt (Nat.lt_of_not_le hlt)] at hlast
  exact h (UInt32.toNat_inj.mp hlast)

/-- **The shifted product**: either it is read back exactly, or it has 256 bits or more and the
limit stands in for it. -/
theorem asertTarget_cases (refTarget : Uint256) (factor : UInt32) (shifts : Int)
    (powLimit : Uint256) :
    (asertTarget refTarget factor shifts powLimit).toNat =
        shiftedValue (refTarget.toNat * factor.toNat) shifts ∨
      (asertTarget refTarget factor shifts powLimit = powLimit ∧
        2 ^ 256 ≤ shiftedValue (refTarget.toNat * factor.toNat) shifts) := by
  have hproduct := toNat_multiplyToWideTarget refTarget factor
  unfold asertTarget shiftedValue
  by_cases hshift : shifts ≤ 0
  · have hshifted := toNat_shiftRightWideTarget (multiplyToWideTarget refTarget factor)
      (-shifts).toNat
    rw [hproduct] at hshifted
    simp only [decide_eq_false (Int.not_lt.mpr hshift), Bool.false_and, Bool.false_or, bne_iff_ne]
    rw [← hshifted]
    split_ifs with hlast
    · exact .inr ⟨rfl, two_pow_le_of_last_ne_zero hlast⟩
    · exact .inl (toNat_wideTargetToArith_of_fits (not_not.mp hlast))
  · have hoverflow := leftShiftWideTargetOverflows_iff (multiplyToWideTarget refTarget factor)
      shifts.toNat
    have hshifted := toNat_shiftLeftWideTarget (multiplyToWideTarget refTarget factor) shifts.toNat
    rw [hproduct] at hoverflow hshifted
    simp only [decide_eq_true (Int.not_le.mp hshift), Bool.true_and, Bool.or_eq_true, bne_iff_ne]
    split_ifs with hlast
    · refine .inr ⟨rfl, ?_⟩
      rcases hlast with hlost | hlast
      · exact (Nat.pow_le_pow_right (by decide) (by decide)).trans (hoverflow.mp hlost)
      · refine (two_pow_le_of_last_ne_zero hlast).trans ?_
        rw [hshifted]
        exact Nat.mod_le _ _
    · rw [not_or, hoverflow, Nat.not_le, not_not] at hlast
      left
      rw [toNat_wideTargetToArith_of_fits hlast.2, hshifted, Nat.mod_eq_of_lt hlast.1]

theorem toNat_clampTarget_asertTarget (refTarget : Uint256) (factor : UInt32) (shifts : Int)
    (h : 1 ≤ powLimit.toNat) :
    (clampTarget (asertTarget refTarget factor shifts powLimit) powLimit).toNat =
      max 1 (min (shiftedValue (refTarget.toNat * factor.toNat) shifts) powLimit.toNat) := by
  rw [toNat_clampTarget _ h]
  rcases asertTarget_cases refTarget factor shifts powLimit with heq | ⟨heq, hbig⟩
  · rw [heq]
  simp [heq, min_eq_right (powLimit.isLt.le.trans hbig)]

/-! ## The whole function -/

/-- What the asserts of `CalculateASERT` ask of its arguments.  The schedule is a signed 64-bit
product, and the assert that reads it says nothing where that product overflows. -/
structure AsertArgs (refTarget : Uint256) (nPowTargetSpacing nTimeDiff nHeightDiff : Int)
    (powLimit : Uint256) (nHalfLife : Int) : Prop where
  target : 0 < refTarget ∧ refTarget ≤ powLimit
  height : 0 ≤ nHeightDiff
  halfLife : 0 < nHalfLife
  schedule : InRange64 (nPowTargetSpacing * nHeightDiff)
  drift : |nTimeDiff - nPowTargetSpacing * nHeightDiff| < 2 ^ 47

/-- The exponent over the integers. -/
def exponentValue (nPowTargetSpacing nTimeDiff nHeightDiff nHalfLife : Int) : Int :=
  ((nTimeDiff - nPowTargetSpacing * nHeightDiff) * 65536).tdiv nHalfLife

/-- What the anchor target is multiplied by when the exponent is `e`: `2 ^ (e / 65536)`, with the
fraction of the exponent approximated by the cubic. -/
def asertGrowth (e : Int) : ℚ := asertMultiplier (e % 65536).toNat * 2 ^ (e / 65536 - 16)

section Formula

variable {refTarget powLimit : Uint256} {nPowTargetSpacing nTimeDiff nHeightDiff nHalfLife : Int}

theorem toNat_emod_lt (e : Int) : (e % 65536).toNat < 65536 := by omega

theorem asertExponent_eq {e : Int}
    (h : asertExponent nPowTargetSpacing nTimeDiff nHeightDiff nHalfLife = .ok e) :
    e = exponentValue nPowTargetSpacing nTimeDiff nHeightDiff nHalfLife := by
  simp only [asertExponent, mul64, sub64, bind_eq_ok_iff, int64_eq_ok_iff] at h
  obtain ⟨-, -, -, -, schedule, ⟨-, hschedule⟩, drift, ⟨-, hdrift⟩, -, -, -, -, scaled,
    ⟨-, hscaled⟩, hret⟩ := h
  cases hret
  rw [exponentValue, hschedule, hdrift, hscaled]

theorem calculateASERT_ok_eq {next : Uint256}
    (h : calculateASERT refTarget nPowTargetSpacing nTimeDiff nHeightDiff powLimit nHalfLife =
      .ok next) :
    next = clampTarget (asertTarget refTarget
      (asertFactor (UInt64.ofNat
        (exponentValue nPowTargetSpacing nTimeDiff nHeightDiff nHalfLife % 65536).toNat))
      (exponentValue nPowTargetSpacing nTimeDiff nHeightDiff nHalfLife / 65536 - 16) powLimit)
      powLimit := by
  simp only [calculateASERT, sub64, bind_eq_ok_iff, int64_eq_ok_iff] at h
  obtain ⟨-, -, e, he, -, -, -, -, -, -, shifts, ⟨-, hshifts⟩, hret⟩ := h
  cases hret
  rw [← asertExponent_eq he, ← hshifts, Int.shiftRight_eq_div_pow]
  rfl

/-- **`CalculateASERT` as a formula**: the whole part of the anchor target times the growth,
clamped. -/
theorem calculateASERT_eq
    (h : AsertArgs refTarget nPowTargetSpacing nTimeDiff nHeightDiff powLimit nHalfLife) :
    ∃ next, calculateASERT refTarget nPowTargetSpacing nTimeDiff nHeightDiff powLimit nHalfLife =
        .ok next ∧
      (next.toNat : ℤ) = max 1 (min
        ⌊refTarget.toNat *
          asertGrowth (exponentValue nPowTargetSpacing nTimeDiff nHeightDiff nHalfLife)⌋
        powLimit.toNat) := by
  obtain ⟨hlo, hhi⟩ := abs_lt.mp h.drift
  obtain ⟨next, hnext⟩ := calculateASERT_ok h.target h.height h.halfLife h.schedule hlo hhi
  refine ⟨next, hnext, ?_⟩
  set e := exponentValue nPowTargetSpacing nTimeDiff nHeightDiff nHalfLife with he
  have hlimit : 1 ≤ powLimit.toNat := by
    have hpos := BitVec.lt_def.mp h.target.1
    have hle := BitVec.le_def.mp h.target.2
    omega
  have hfloor : ⌊(refTarget.toNat : ℚ) * asertGrowth e⌋ =
      shiftedValue (refTarget.toNat * asertMultiplier (e % 65536).toNat) (e / 65536 - 16) := by
    rw [← floor_mul_zpow, asertGrowth, Nat.cast_mul, mul_assoc]
  rw [calculateASERT_ok_eq hnext, ← he, toNat_clampTarget_asertTarget _ _ _ hlimit,
    toNat_asertFactor (toNat_emod_lt e), hfloor]
  push_cast
  rfl

/-- **ASERT is the formula, exactly.**  For arguments that meet the asserts, with `e` the exponent
cut toward zero, `s` its whole part and `f` its fraction:

* the result is the anchor target times the factor times `2 ^ (s - 16)`, cut to a whole number and
  clamped to the range from 1 to the limit;
* the cubic never leaves 64 bits, the factor fits 32, the product fits 288, and the limbs hold it;
* the test after a shift to the left is true exactly when the number needs more than 288 bits. -/
theorem calculateASERT_exact
    (h : AsertArgs refTarget nPowTargetSpacing nTimeDiff nHeightDiff powLimit nHalfLife) :
    let e := ((nTimeDiff - nPowTargetSpacing * nHeightDiff) * 65536).tdiv nHalfLife
    let s := e / 65536
    let f := (e % 65536).toNat
    let polynomial : Nat := 195766423245049 * f + 971821376 * f ^ 2 + 5127 * f ^ 3 + 2 ^ 47
    let factor : Nat := 65536 + polynomial / 2 ^ 48
    let product := multiplyToWideTarget refTarget (asertFactor (UInt64.ofNat f))
    (∃ next, calculateASERT refTarget nPowTargetSpacing nTimeDiff nHeightDiff powLimit nHalfLife =
        .ok next ∧
      (next.toNat : ℤ) =
        max 1 (min ⌊(refTarget.toNat : ℚ) * factor * 2 ^ (s - 16)⌋ powLimit.toNat)) ∧
    polynomial < 2 ^ 64 ∧
    factor < 2 ^ 32 ∧ (asertFactor (UInt64.ofNat f)).toNat = factor ∧
    refTarget.toNat * factor < 2 ^ 288 ∧ product.toNat = refTarget.toNat * factor ∧
    (0 < s - 16 →
      (leftShiftWideTargetOverflows product (shiftLeftWideTarget product (s - 16).toNat)
          (s - 16).toNat = true ↔
        2 ^ 288 ≤ refTarget.toNat * factor * 2 ^ (s - 16).toNat)) := by
  intro e s f polynomial factor product
  have hf : f < 65536 := toNat_emod_lt e
  have hfactor : (asertFactor (UInt64.ofNat f)).toNat = factor := toNat_asertFactor hf
  have hproduct : product.toNat = refTarget.toNat * factor :=
    (toNat_multiplyToWideTarget refTarget _).trans (congrArg _ hfactor)
  obtain ⟨next, hnext, hvalue⟩ := calculateASERT_eq h
  refine ⟨⟨next, hnext, ?_⟩, asertPolynomial_lt hf, ?_, hfactor, ?_, hproduct, fun _ => ?_⟩
  · rw [hvalue, mul_assoc]
    rfl
  · rw [← hfactor]
    exact (asertFactor (UInt64.ofNat f)).toNat_lt
  · have hlt := product.toNat_lt
    rwa [hproduct, wideTargetBits] at hlt
  · have hiff := leftShiftWideTargetOverflows_iff product (s - 16).toNat
    rwa [hproduct, wideTargetBits] at hiff

/-- A chain ahead of a schedule of 60 seconds by a quarter of its half-life. -/
theorem calculateASERT_exact_ahead :
    AsertArgs (BitVec.ofNat 256 (2 ^ 220)) 60 0 720 (BitVec.ofNat 256 (2 ^ 224 - 1)) 172800 ∧
      ∃ next, calculateASERT (BitVec.ofNat 256 (2 ^ 220)) 60 0 720
        (BitVec.ofNat 256 (2 ^ 224 - 1)) 172800 = .ok next :=
  have h : AsertArgs (BitVec.ofNat 256 (2 ^ 220)) 60 0 720 (BitVec.ofNat 256 (2 ^ 224 - 1))
      172800 := ⟨by decide, by decide, by decide, by decide, by decide⟩
  ⟨h, (calculateASERT_exact h).1.imp fun _ hnext => hnext.1⟩

/-! ## Monotonicity -/

/-- A step of the whole part doubles the growth, and the fraction never gets that far. -/
theorem asertGrowth_mono : Monotone asertGrowth := by
  intro e e' hle
  have hpow (n : Int) : (0 : ℚ) ≤ 2 ^ n := (zpow_pos two_pos n).le
  unfold asertGrowth
  rcases (Int.ediv_le_ediv (by decide : (0 : Int) < 65536) hle).eq_or_lt with hs | hs
  · have hf : asertMultiplier (e % 65536).toNat ≤ asertMultiplier (e' % 65536).toNat :=
      asertMultiplier_mono (by omega)
    rw [hs]
    exact mul_le_mul_of_nonneg_right (by exact_mod_cast hf) (hpow _)
  have hend : (asertMultiplier (e % 65536).toNat : ℚ) ≤ 65536 * 2 := by
    exact_mod_cast (asertMultiplier_lt (toNat_emod_lt e)).le
  have hstart : (65536 : ℚ) ≤ asertMultiplier (e' % 65536).toNat := by
    exact_mod_cast le_asertMultiplier _
  calc (asertMultiplier (e % 65536).toNat : ℚ) * 2 ^ (e / 65536 - 16)
      ≤ 65536 * 2 * 2 ^ (e / 65536 - 16) := mul_le_mul_of_nonneg_right hend (hpow _)
    _ = 65536 * 2 ^ (e / 65536 + 1 - 16) := by
        rw [show e / 65536 + 1 - 16 = e / 65536 - 16 + 1 by omega, zpow_add_one₀ two_ne_zero]
        ring
    _ ≤ asertMultiplier (e' % 65536).toNat * 2 ^ (e' / 65536 - 16) :=
        mul_le_mul hstart (zpow_le_zpow_right₀ one_le_two (by omega)) (hpow _) (Nat.cast_nonneg _)

variable {spacing time time' height height' : Int}

theorem exponentValue_mono {halfLife : Int} (hhalf : 0 < halfLife)
    (h : time - spacing * height ≤ time' - spacing * height') :
    exponentValue spacing time height halfLife ≤ exponentValue spacing time' height' halfLife :=
  Int.tdiv_le_tdiv hhalf (by omega)

/-- A chain that is further behind its schedule gets a target that is not smaller. -/
theorem calculateASERT_mono (h : AsertArgs refTarget spacing time height powLimit nHalfLife)
    (h' : AsertArgs refTarget spacing time' height' powLimit nHalfLife)
    (hdrift : time - spacing * height ≤ time' - spacing * height') :
    ∃ next next', calculateASERT refTarget spacing time height powLimit nHalfLife = .ok next ∧
      calculateASERT refTarget spacing time' height' powLimit nHalfLife = .ok next' ∧
      next ≤ next' := by
  obtain ⟨next, hnext, hvalue⟩ := calculateASERT_eq h
  obtain ⟨next', hnext', hvalue'⟩ := calculateASERT_eq h'
  refine ⟨next, next', hnext, hnext', BitVec.le_def.mpr ?_⟩
  have hgrowth := asertGrowth_mono (exponentValue_mono h.halfLife hdrift)
  have hle : (next.toNat : ℤ) ≤ next'.toNat := by
    rw [hvalue, hvalue']
    gcongr
  exact_mod_cast hle

/-- **ASERT is monotone.**  More time since the anchor never makes the target smaller, and more
blocks since the anchor never make it larger, over all arguments that meet the asserts. -/
theorem calculateASERT_monotone {spacing : Int} (hspacing : 0 < spacing) :
    (∀ {time time' height : Int}, time ≤ time' →
      AsertArgs refTarget spacing time height powLimit nHalfLife →
      AsertArgs refTarget spacing time' height powLimit nHalfLife →
      ∃ next next', calculateASERT refTarget spacing time height powLimit nHalfLife = .ok next ∧
        calculateASERT refTarget spacing time' height powLimit nHalfLife = .ok next' ∧
        next ≤ next') ∧
    ∀ {time height height' : Int}, height ≤ height' →
      AsertArgs refTarget spacing time height powLimit nHalfLife →
      AsertArgs refTarget spacing time height' powLimit nHalfLife →
      ∃ next next', calculateASERT refTarget spacing time height powLimit nHalfLife = .ok next ∧
        calculateASERT refTarget spacing time height' powLimit nHalfLife = .ok next' ∧
        next' ≤ next := by
  constructor
  · intro time time' height hle h h'
    exact calculateASERT_mono h h' (by omega)
  · intro time height height' hle h h'
    have hschedule : spacing * height ≤ spacing * height' :=
      Int.mul_le_mul_of_nonneg_left hle hspacing.le
    obtain ⟨next', next, hnext', hnext, hle⟩ := calculateASERT_mono h' h (by omega)
    exact ⟨next, next', hnext, hnext', hle⟩

/-- A half-life more of time, and 2880 blocks more, which are a half-life of schedule. -/
theorem calculateASERT_monotone_half_life :
    (∃ next next', calculateASERT (BitVec.ofNat 256 (2 ^ 220)) 60 0 0
        (BitVec.ofNat 256 (2 ^ 224 - 1)) 172800 = .ok next ∧
      calculateASERT (BitVec.ofNat 256 (2 ^ 220)) 60 172800 0
        (BitVec.ofNat 256 (2 ^ 224 - 1)) 172800 = .ok next' ∧ next ≤ next') ∧
    ∃ next next', calculateASERT (BitVec.ofNat 256 (2 ^ 220)) 60 0 0
        (BitVec.ofNat 256 (2 ^ 224 - 1)) 172800 = .ok next ∧
      calculateASERT (BitVec.ofNat 256 (2 ^ 220)) 60 0 2880
        (BitVec.ofNat 256 (2 ^ 224 - 1)) 172800 = .ok next' ∧ next' ≤ next := by
  have h : AsertArgs (BitVec.ofNat 256 (2 ^ 220)) 60 0 0 (BitVec.ofNat 256 (2 ^ 224 - 1))
      172800 := ⟨by decide, by decide, by decide, by decide, by decide⟩
  obtain ⟨htime, hheight⟩ := calculateASERT_monotone (show (0 : Int) < 60 by decide)
  exact ⟨htime (by decide) h ⟨by decide, by decide, by decide, by decide, by decide⟩,
    hheight (by decide) h ⟨by decide, by decide, by decide, by decide, by decide⟩⟩

end Formula

end Qbit
