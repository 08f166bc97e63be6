import Mathlib.Data.Nat.Bitwise
import Mathlib.Tactic.IntervalCases
import Qbit.Consensus.Params

/-!
# Compact targets

`arith_uint256::SetCompact` and `GetCompact`, and what `pow.cpp` and `chain.cpp` make of them:
`DeriveTarget`, `CheckProofOfWork` and `GetBlockProof`.

A compact value is a size byte `n` above a sign bit and a 23-bit mantissa `m`, and stands for
`m * 256 ^ n / 256 ^ 3`.  `setCompact_ofNat` and `getCompact_spec` put the two functions in these
terms, and `deriveTarget_getCompact` is what the difficulty code needs from them: encoding a target
loses at most its low bits, so it comes back not larger than it was and not zero.
-/

open Checked

namespace Qbit

/-! ## The two conversions -/

/-- `base_uint::bits` -/
def bits (a : Uint256) : Nat := if a.toNat = 0 then 0 else a.toNat.log2 + 1

/-- `base_uint::GetLow64` -/
def getLow64 (a : Uint256) : Nat := a.toNat % 2 ^ 64

/-- What `SetCompact` computes: the value, and the two flags it can report. -/
@[ext]
structure Compact where
  target : Uint256
  fNegative : Bool
  fOverflow : Bool
  deriving DecidableEq

/-- `arith_uint256::SetCompact` -/
def setCompact (nCompact : UInt32) : Compact :=
  let nSize := (nCompact >>> 24).toNat
  let nWord := nCompact &&& 0x007fffff
  -- For a short size the word is shifted before the flags are computed from it.
  let nWord := if nSize ≤ 3 then nWord >>> UInt32.ofNat (8 * (3 - nSize)) else nWord
  { target :=
      if nSize ≤ 3 then BitVec.ofNat 256 nWord.toNat
      else BitVec.ofNat 256 nWord.toNat <<< (8 * (nSize - 3))
    fNegative := nWord != 0 && nCompact &&& 0x00800000 != 0
    fOverflow := nWord != 0 &&
      (decide (34 < nSize) || (decide (0xff < nWord) && decide (33 < nSize)) ||
        (decide (0xffff < nWord) && decide (32 < nSize))) }

/-- `arith_uint256::GetCompact` of a number that is not negative. -/
def getCompact (a : Uint256) : Result UInt32 := do
  let nSize := (bits a + 7) / 8
  let nCompact : UInt32 :=
    if nSize ≤ 3 then UInt32.ofNat (getLow64 a <<< (8 * (3 - nSize)))
    else UInt32.ofNat (getLow64 (a >>> (8 * (nSize - 3))))
  -- The 0x00800000 bit denotes the sign, so a mantissa that uses it is shortened by a byte.
  let signed := nCompact &&& 0x00800000 != 0
  let nSize := if signed then nSize + 1 else nSize
  let nCompact := if signed then nCompact >>> 8 else nCompact
  require (nCompact &&& ~~~0x007fffff = 0)
  require (nSize < 256)
  return nCompact ||| (UInt32.ofNat nSize <<< 24)

/-! ## The conversions as arithmetic -/

private theorem and_signBit (x : UInt32) :
    (x &&& 0x00800000 != 0) = decide (x.toNat / 2 ^ 23 % 2 = 1) := by
  have h : (x &&& 0x00800000).toNat = (x.toNat.testBit 23).toNat * 2 ^ 23 := by
    rw [UInt32.toNat_and, show (0x00800000 : UInt32).toNat = 2 ^ 23 from rfl, Nat.and_two_pow]
  rw [← Nat.testBit_eq_decide_div_mod_eq]
  rcases hb : x.toNat.testBit 23 with _ | _
  · rw [hb, Bool.toNat_false, Nat.zero_mul] at h
    rw [UInt32.toNat_inj.mp (h.trans UInt32.toNat_zero.symm)]
    rfl
  rw [hb] at h
  refine bne_iff_ne.mpr fun hx => ?_
  rw [hx] at h
  exact absurd h (by decide)

private theorem toNat_and_wordMask (x : UInt32) : (x &&& 0x007fffff).toNat = x.toNat % 2 ^ 23 := by
  rw [UInt32.toNat_and, show (0x007fffff : UInt32).toNat = 2 ^ 23 - 1 from rfl,
    Nat.and_two_pow_sub_one_eq_mod]

private theorem toNat_shiftRight_24 (x : UInt32) : (x >>> 24).toNat = x.toNat / 2 ^ 24 := by
  simp [Nat.shiftRight_eq_div_pow]

private theorem pow_256 (k : Nat) : 256 ^ k = 2 ^ (8 * k) := (Nat.pow_mul 2 8 k).symm

/-- A mantissa that is shifted left by whole bytes. -/
private theorem ofNat_shiftLeft (m k : Nat) :
    BitVec.ofNat 256 m <<< (8 * k) = BitVec.ofNat 256 (m * 256 ^ k) := by
  apply BitVec.eq_of_toNat_eq
  simp [Nat.shiftLeft_eq, pow_256]

/-- **Decoding.**  A size byte `n` over a mantissa `m` stands for `m * 256 ^ n / 256 ^ 3`, up to the
256 bits that there are. -/
theorem setCompact_ofNat {m n : Nat} (hm : m < 2 ^ 23) (hn : n < 256) :
    (setCompact (UInt32.ofNat (m + n * 2 ^ 24))).target =
        BitVec.ofNat 256 (m * 256 ^ n / 256 ^ 3) ∧
      (setCompact (UInt32.ofNat (m + n * 2 ^ 24))).fNegative = false ∧
      ((n ≤ 32 ∨ n = 33 ∧ m < 2 ^ 16) →
        (setCompact (UInt32.ofNat (m + n * 2 ^ 24))).fOverflow = false) := by
  have hc : (UInt32.ofNat (m + n * 2 ^ 24)).toNat = m + n * 2 ^ 24 := by
    rw [UInt32.toNat_ofNat', Nat.mod_eq_of_lt (by omega)]
  have hsize : (UInt32.ofNat (m + n * 2 ^ 24) >>> 24).toNat = n := by
    rw [toNat_shiftRight_24, hc]
    omega
  have hword : (UInt32.ofNat (m + n * 2 ^ 24) &&& 0x007fffff).toNat = m := by
    rw [toNat_and_wordMask, hc]
    omega
  have hsign : (UInt32.ofNat (m + n * 2 ^ 24) &&& 0x00800000 != 0) = false := by
    rw [and_signBit, hc]
    exact decide_eq_false (by omega)
  simp only [setCompact, hsize, hsign, Bool.and_false, true_and]
  constructor
  · split_ifs with h3
    · rw [UInt32.toNat_shiftRight, hword, Nat.shiftRight_eq_div_pow]
      congr 1
      interval_cases n <;> simp <;> omega
    · obtain ⟨k, rfl⟩ : ∃ k, n = k + 3 := ⟨n - 3, by omega⟩
      rw [hword, Nat.add_sub_cancel, ofNat_shiftLeft, Nat.pow_add, ← Nat.mul_assoc,
        Nat.mul_div_cancel _ (by decide)]
  · intro h
    generalize UInt32.ofNat (m + n * 2 ^ 24) &&& 0x007fffff = w at hword
    have h34 : ¬ 34 < n := by omega
    rcases h with h | ⟨rfl, h⟩
    · have h33 : ¬ 33 < n := by omega
      have h32 : ¬ 32 < n := by omega
      simp [h34, h33, h32]
    have hw : ¬ (0xffff : UInt32) < w := by
      rw [UInt32.lt_iff_toNat_lt, hword]
      exact fun h' => absurd h (Nat.not_lt.mpr h')
    simp [hw]

/-- A number of exactly `k + 1` bytes, with its point moved to three bytes, has three bytes. -/
private theorem mantissa_bounds {T k : Nat} (hlo : 256 ^ k ≤ T) (hhi : T < 256 ^ (k + 1)) :
    2 ^ 16 ≤ T * 256 ^ 3 / 256 ^ (k + 1) ∧ T * 256 ^ 3 / 256 ^ (k + 1) < 2 ^ 24 := by
  constructor
  · rw [Nat.le_div_iff_mul_le (by positivity), Nat.pow_succ]
    omega
  · rw [Nat.div_lt_iff_lt_mul (by positivity)]
    omega

variable {a pow_limit t : Uint256} {nBits : UInt32}

/-- The bytes of a nonzero number, as `bits` counts them. -/
private theorem bytes_bounds (ha : a ≠ 0) :
    ∃ k, (bits a + 7) / 8 = k + 1 ∧ k < 32 ∧ 256 ^ k ≤ a.toNat ∧ a.toNat < 256 ^ (k + 1) := by
  have h0 : a.toNat ≠ 0 := fun h => ha (BitVec.eq_of_toNat_eq h)
  have hlo := Nat.log2_self_le h0
  have hhi := Nat.lt_log2_self (n := a.toNat)
  have hlog : a.toNat.log2 < 256 := (Nat.log2_lt h0).mpr a.isLt
  refine ⟨a.toNat.log2 / 8, ?_, by omega, ?_, ?_⟩
  · rw [bits, if_neg h0]
    omega
  · rw [pow_256]
    exact (Nat.pow_le_pow_right (by decide) (by omega)).trans hlo
  · rw [pow_256]
    exact hhi.trans_le (Nat.pow_le_pow_right (by decide) (by omega))

/-- The mantissa before the sign bit is looked at. -/
private theorem toNat_mantissa {k : Nat} (hlo : 256 ^ k ≤ a.toNat) (hhi : a.toNat < 256 ^ (k + 1)) :
    (if k + 1 ≤ 3 then UInt32.ofNat (getLow64 a <<< (8 * (3 - (k + 1))))
      else UInt32.ofNat (getLow64 (a >>> (8 * (k + 1 - 3))))).toNat =
      a.toNat * 256 ^ 3 / 256 ^ (k + 1) := by
  have hm := (mantissa_bounds hlo hhi).2
  split_ifs with h3
  · obtain ⟨d, hd⟩ : ∃ d, 3 = k + 1 + d := ⟨3 - (k + 1), by omega⟩
    have hlt : a.toNat < 2 ^ 24 :=
      hhi.trans_le ((Nat.pow_le_pow_right (by decide) h3).trans (by decide))
    have hm' : a.toNat * 256 ^ 3 / 256 ^ (k + 1) = a.toNat * 2 ^ (8 * d) := by
      rw [hd, Nat.pow_add, Nat.mul_left_comm, Nat.mul_div_cancel_left _ (by positivity), pow_256]
    have hlow : getLow64 a = a.toNat := Nat.mod_eq_of_lt (by omega)
    rw [UInt32.toNat_ofNat', hlow, Nat.shiftLeft_eq, show 3 - (k + 1) = d by omega, ← hm',
      Nat.mod_eq_of_lt (by omega)]
  · obtain ⟨d, rfl⟩ : ∃ d, k = d + 2 := ⟨k - 2, by omega⟩
    have hm' : a.toNat * 256 ^ 3 / 256 ^ (d + 2 + 1) = a.toNat / 2 ^ (8 * d) := by
      rw [Nat.add_assoc, Nat.pow_add, Nat.mul_div_mul_right _ _ (by decide), pow_256]
    rw [UInt32.toNat_ofNat', getLow64, BitVec.toNat_ushiftRight, Nat.shiftRight_eq_div_pow,
      show d + 2 + 1 - 3 = d by omega, ← hm', Nat.mod_mod_of_dvd _ (by decide),
      Nat.mod_eq_of_lt (by omega)]

/-- The end of `GetCompact`, for a mantissa with a clear sign bit. -/
private theorem getCompact_return {w : UInt32} {n : Nat} (hw : w.toNat < 2 ^ 23) (hn : n < 256) :
    (do require (w &&& ~~~0x007fffff = 0)
        require (n < 256)
        return w ||| (UInt32.ofNat n <<< 24) : Result UInt32) =
      .ok (UInt32.ofNat (w.toNat + n * 2 ^ 24)) := by
  have hmask : w &&& ~~~0x007fffff = 0 := by
    have : w = w &&& 0x007fffff := by
      rw [← UInt32.toNat_inj, toNat_and_wordMask, Nat.mod_eq_of_lt hw]
    rw [this, UInt32.and_assoc, UInt32.and_not_self, UInt32.and_zero]
  have hor : w ||| (UInt32.ofNat n <<< 24) = UInt32.ofNat (w.toNat + n * 2 ^ 24) := by
    have hn' : (UInt32.ofNat n).toNat = n := by
      rw [UInt32.toNat_ofNat', Nat.mod_eq_of_lt (by omega)]
    have hshift : (UInt32.ofNat n <<< 24).toNat = n <<< 24 := by
      rw [UInt32.toNat_shiftLeft, hn', Nat.mod_eq_of_lt]
      · rfl
      · change n <<< 24 < 2 ^ 32
        omega
    rw [← UInt32.toNat_inj, UInt32.toNat_or, hshift, Nat.or_comm,
      ← Nat.shiftLeft_add_eq_or_of_lt (by omega), Nat.shiftLeft_eq, UInt32.toNat_ofNat',
      Nat.mod_eq_of_lt (by omega), Nat.add_comm]
  rw [require_pos hmask, require_pos hn, hor]
  rfl

/-- **Encoding.**  A nonzero number is encoded with a mantissa `m` of 16 to 23 bits, which is the
number with its low bytes cut off; both assertions of `GetCompact` hold. -/
theorem getCompact_spec (ha : a ≠ 0) :
    ∃ m n : Nat, getCompact a = .ok (UInt32.ofNat (m + n * 2 ^ 24)) ∧ 2 ^ 15 ≤ m ∧ m < 2 ^ 23 ∧
      n ≤ 33 ∧ (n = 33 → m < 2 ^ 16) ∧ m = a.toNat * 256 ^ 3 / 256 ^ n ∧
      256 ^ 3 ≤ m * 256 ^ n := by
  obtain ⟨k, hk, hk32, hlo, hhi⟩ := bytes_bounds ha
  obtain ⟨hm16, hm24⟩ := mantissa_bounds hlo hhi
  have hw := toNat_mantissa hlo hhi
  have hpow : 256 ≤ 256 ^ (k + 1) := Nat.le_self_pow (by omega) 256
  simp only [getCompact, hk]
  generalize (if k + 1 ≤ 3 then UInt32.ofNat (getLow64 a <<< (8 * (3 - (k + 1))))
      else UInt32.ofNat (getLow64 (a >>> (8 * (k + 1 - 3))))) = w at hw ⊢
  rw [← hw] at hm16 hm24
  by_cases hs : 2 ^ 23 ≤ w.toNat
  · have hsign : (w &&& 0x00800000 != 0) = true := by
      rw [and_signBit]
      exact decide_eq_true (by omega)
    have hw8 : (w >>> 8).toNat = w.toNat / 256 := by simp [Nat.shiftRight_eq_div_pow]
    refine ⟨w.toNat / 256, k + 2, ?_, by omega, by omega, by omega, fun _ => by omega, ?_, ?_⟩
    · rw [hsign, if_pos rfl, if_pos rfl, getCompact_return (by omega) (by omega), hw8]
    · rw [hw, Nat.div_div_eq_div_mul, ← Nat.pow_succ]
    · calc 256 ^ 3 ≤ 2 ^ 15 * (256 * 256) := by decide
        _ ≤ w.toNat / 256 * (256 ^ (k + 1) * 256) := by gcongr; omega
        _ = w.toNat / 256 * 256 ^ (k + 2) := by rw [← Nat.pow_succ]
  · have hsign : (w &&& 0x00800000 != 0) = false := by
      rw [and_signBit]
      exact decide_eq_false (by omega)
    refine ⟨w.toNat, k + 1, ?_, by omega, by omega, by omega, by omega, hw, ?_⟩
    · rw [hsign, if_neg (by decide), if_neg (by decide), getCompact_return (by omega) (by omega)]
    · exact Nat.mul_le_mul hm16 hpow

/-! ## What an encoding keeps -/

/-- The encoding of a nonzero number, and what it decodes to. -/
structure Encoded (x m n y : Nat) : Prop where
  lower : 2 ^ 15 ≤ m
  upper : m < 2 ^ 23
  mantissa : m = x * 256 ^ 3 / 256 ^ n
  value : y = m * 256 ^ n / 256 ^ 3

variable {x x' y y' m m' n n' : Nat}

/-- **A larger number has a larger encoding**, by its size first. -/
theorem Encoded.le (h : Encoded x m n y) (h' : Encoded x' m' n' y') (hle : x ≤ x') :
    n < n' ∨ n = n' ∧ m ≤ m' := by
  rcases lt_trichotomy n n' with hn | rfl | hn
  · exact .inl hn
  · rw [h.mantissa, h'.mantissa]
    exact .inr ⟨rfl, Nat.div_le_div_right (Nat.mul_le_mul_right _ hle)⟩
  · -- a byte more, with 16 bits of mantissa at least, is more than 23 bits can stand for
    have hlo : 2 ^ 15 * 256 ^ n ≤ x * 256 ^ 3 :=
      (Nat.le_div_iff_mul_le (by positivity)).mp (h.mantissa ▸ h.lower)
    have hhi : x' * 256 ^ 3 < 2 ^ 23 * 256 ^ n' :=
      (Nat.div_lt_iff_lt_mul (by positivity)).mp (h'.mantissa ▸ h'.upper)
    have hpow : 256 ^ (n' + 1) ≤ 256 ^ n := Nat.pow_le_pow_right (by decide) hn
    rw [Nat.pow_succ] at hpow
    omega

theorem Encoded.value_le_value (h : Encoded x m n y) (h' : Encoded x' m' n' y') (hle : x ≤ x') :
    y ≤ y' := by
  rw [h.value, h'.value]
  refine Nat.div_le_div_right ?_
  obtain hn | ⟨rfl, hm⟩ := h.le h' hle
  · calc m * 256 ^ n ≤ 2 ^ 23 * 256 ^ n := Nat.mul_le_mul_right _ h.upper.le
      _ = 2 ^ 15 * 256 ^ (n + 1) := by omega
      _ ≤ m' * 256 ^ n' := Nat.mul_le_mul h'.lower (Nat.pow_le_pow_right (by decide) hn)
  · exact Nat.mul_le_mul_right _ hm

/-- A size below three loses nothing, and a larger one only what is below the last byte kept. -/
theorem Encoded.loss (h : Encoded x m n y) :
    y ≤ x ∧ (x - y) * 2 ^ 15 ≤ x ∧ m = y * 256 ^ 3 / 256 ^ n := by
  obtain ⟨hlower, -, hm, rfl⟩ := h
  rcases Nat.lt_or_ge n 3 with hn | hn
  · obtain ⟨d, hd⟩ : ∃ d, 3 = n + d := ⟨3 - n, by omega⟩
    have hx : m * 256 ^ n / 256 ^ 3 = x := by
      rw [hm, hd, Nat.pow_add, Nat.mul_left_comm, Nat.mul_div_cancel_left _ (by positivity),
        Nat.mul_assoc, Nat.mul_comm (256 ^ d), Nat.mul_div_cancel _ (by positivity)]
    rw [hx]
    exact ⟨le_rfl, by omega, hm⟩
  · obtain ⟨d, rfl⟩ : ∃ d, n = d + 3 := ⟨n - 3, by omega⟩
    have hpos : 0 < 256 ^ d := by positivity
    have hm' : m = x / 256 ^ d := by rw [hm, Nat.pow_add, Nat.mul_div_mul_right _ _ (by decide)]
    have hy : m * 256 ^ (d + 3) / 256 ^ 3 = m * 256 ^ d := by
      rw [Nat.pow_add, ← Nat.mul_assoc, Nat.mul_div_cancel _ (by decide)]
    have hmod := Nat.div_add_mod' x (256 ^ d)
    have hlt := Nat.mod_lt x hpos
    have hscale := Nat.mul_le_mul_right (256 ^ d) hlower
    rw [hy, Nat.pow_add, Nat.mul_div_mul_right _ _ (by decide), Nat.mul_div_cancel _ hpos]
    rw [← hm'] at hmod
    exact ⟨by omega, by omega, rfl⟩

/-- **Encoding and decoding**, of a nonzero number. -/
theorem getCompact_encoded (ha : a ≠ 0) :
    ∃ m n c y, getCompact a = .ok c ∧ c = UInt32.ofNat (m + n * 2 ^ 24) ∧
      setCompact c = ⟨y, false, false⟩ ∧ y ≠ 0 ∧ Encoded a.toNat m n y.toNat := by
  obtain ⟨m, n, hc, hlower, hm, hn, hn33, hmdef, hmpos⟩ := getCompact_spec ha
  obtain ⟨htarget, hneg, hover⟩ := setCompact_ofNat hm (show n < 256 by omega)
  have henc : Encoded a.toNat m n (m * 256 ^ n / 256 ^ 3) := ⟨hlower, hm, hmdef, rfl⟩
  have hvpos : 0 < m * 256 ^ n / 256 ^ 3 := Nat.div_pos hmpos (by decide)
  generalize m * 256 ^ n / 256 ^ 3 = v at htarget henc hvpos
  have hv : (BitVec.ofNat 256 v).toNat = v := by
    simp [Nat.mod_eq_of_lt (henc.loss.1.trans_lt a.isLt)]
  refine ⟨m, n, _, BitVec.ofNat 256 v, hc, rfl, Compact.ext htarget hneg (hover (by omega)), ?_,
    hv.symm ▸ henc⟩
  intro h
  rw [h] at hv
  exact hvpos.ne hv

/-- What a target becomes when it is encoded. -/
def compacted (x : Uint256) : Uint256 :=
  match getCompact x with
  | .ok c => (setCompact c).target
  | .error _ => 0

/-- **Encoding is a monotone projection with bounded loss.**  It sets no flag, rounds down by less
than one part in `2 ^ 15`, and encodes what it decoded in the same way. -/
theorem compacted_projection (x : Uint256) :
    (∃ c, getCompact x = .ok c ∧ setCompact c = ⟨compacted x, false, false⟩ ∧
        getCompact (compacted x) = .ok c) ∧
      compacted x ≤ x ∧ (x.toNat - (compacted x).toNat) * 2 ^ 15 ≤ x.toNat ∧
      (∀ x', x ≤ x' → compacted x ≤ compacted x') ∧ (1 ≤ x → 1 ≤ compacted x) := by
  have hcompacted : ∀ {z : Uint256} {c y}, getCompact z = .ok c → setCompact c = ⟨y, false, false⟩ →
      compacted z = y := by
    intro z c y hc hy
    rw [compacted, hc]
    exact congrArg Compact.target hy
  have hzero : getCompact 0 = .ok 0 := by decide
  have hzero' : compacted 0 = 0 := by decide
  by_cases hx : x = 0
  · subst hx
    rw [hzero']
    exact ⟨⟨0, hzero, by decide, hzero⟩, by decide, by decide,
      fun _ _ => BitVec.le_def.mpr (Nat.zero_le _), id⟩
  obtain ⟨m, n, c, y, hc, rfl, hset, hy, henc⟩ := getCompact_encoded hx
  obtain ⟨hle, hloss, hm⟩ := henc.loss
  rw [hcompacted hc hset]
  refine ⟨⟨_, hc, hset, ?_⟩, BitVec.le_def.mpr hle, hloss, ?_, ?_⟩
  · -- what was decoded has the same mantissa and size, and there are no others
    obtain ⟨m', n', c', z, hc', rfl, -, -, henc'⟩ := getCompact_encoded hy
    have hself : Encoded y.toNat m n _ := ⟨henc.lower, henc.upper, hm, rfl⟩
    have h1 := hself.le henc' le_rfl
    have h2 := henc'.le hself le_rfl
    rw [hc', show m' = m by omega, show n' = n by omega]
  · intro x' hxx'
    have hx' : x' ≠ 0 := by
      rintro rfl
      exact hx (BitVec.eq_of_toNat_eq (Nat.le_zero.mp (BitVec.le_def.mp hxx')))
    obtain ⟨m', n', c', y', hc', -, hset', -, henc'⟩ := getCompact_encoded hx'
    rw [hcompacted hc' hset', BitVec.le_def]
    exact henc.value_le_value henc' (BitVec.le_def.mp hxx')
  · intro _
    exact BitVec.le_def.mpr (Nat.pos_of_ne_zero fun h => hy (BitVec.eq_of_toNat_eq h))

/-! ## Targets -/

/-- `DeriveTarget` -/
def deriveTarget (nBits : UInt32) (pow_limit : Uint256) : Option Uint256 :=
  let c := setCompact nBits
  if c.fNegative || c.target == 0 || c.fOverflow || decide (pow_limit < c.target) then none
  else some c.target

/-- `CheckProofOfWork`, outside the fuzzing builds that bypass it. -/
def checkProofOfWork (hash : Uint256) (nBits : UInt32) (params : Params) : Bool :=
  match deriveTarget nBits params.powLimit with
  | none => false
  | some bnTarget => decide (hash ≤ bnTarget)

/-- `GetBlockProof`, as a function of the compact target. -/
def getBlockProof (nBits : UInt32) : Uint256 :=
  let c := setCompact nBits
  if c.fNegative || c.fOverflow || c.target == 0 then 0
  else ~~~c.target / (c.target + 1) + 1

theorem deriveTarget_eq_some_iff :
    deriveTarget nBits pow_limit = some t ↔
      (setCompact nBits).fNegative = false ∧ (setCompact nBits).fOverflow = false ∧
        (setCompact nBits).target = t ∧ t ≠ 0 ∧ t ≤ pow_limit := by
  simp only [deriveTarget]
  split_ifs with hbad
  · simp only [Bool.or_eq_true, beq_iff_eq, decide_eq_true_eq] at hbad
    refine iff_of_false (by simp) ?_
    rintro ⟨hneg, hover, rfl, hne, hle⟩
    rcases hbad with ((h | h) | h) | h
    · simp [hneg] at h
    · exact hne h
    · simp [hover] at h
    · exact BitVec.not_lt.mpr hle h
  · simp only [Bool.or_eq_true, beq_iff_eq, decide_eq_true_eq, not_or, BitVec.not_lt,
      Bool.not_eq_true] at hbad
    obtain ⟨⟨⟨hneg, hne⟩, hover⟩, hle⟩ := hbad
    constructor
    · intro h
      cases h
      exact ⟨hneg, hover, rfl, hne, hle⟩
    · rintro ⟨-, -, rfl, -, -⟩
      rfl

theorem Uint256.pos_of_ne_zero (h : t ≠ 0) : 0 < t :=
  BitVec.lt_def.mpr (Nat.pos_of_ne_zero fun h0 => h (BitVec.eq_of_toNat_eq h0))

theorem ne_zero_of_isSome_deriveTarget (h : (deriveTarget nBits pow_limit).isSome) : nBits ≠ 0 := by
  rintro rfl
  obtain ⟨t, ht⟩ := Option.isSome_iff_exists.mp h
  obtain ⟨-, -, htarget, hne, -⟩ := deriveTarget_eq_some_iff.mp ht
  exact hne (htarget.symm.trans (by decide))

/-- **A target survives its encoding.**  It comes back not larger than it was and not zero, so a
target within the limit is still one. -/
theorem deriveTarget_getCompact (hne : t ≠ 0) (hle : t ≤ pow_limit) :
    ∃ c y, getCompact t = .ok c ∧ deriveTarget c pow_limit = some y ∧ y ≤ t := by
  obtain ⟨m, n, c, y, hc, -, hset, hy, henc⟩ := getCompact_encoded hne
  have hyt : y ≤ t := BitVec.le_def.mpr henc.loss.1
  refine ⟨c, y, hc, deriveTarget_eq_some_iff.mpr ?_, hyt⟩
  rw [hset]
  exact ⟨rfl, rfl, rfl, hy, BitVec.le_trans hyt hle⟩

end Qbit
