import Mathlib.Data.Nat.Digits.Lemmas
import Mathlib.Data.Nat.Bitwise

/-!
# Numbers as limbs

A list of words of `w` bits, the least significant first, is the number `Nat.ofDigits (2 ^ w)`.
What a program does to the words one by one is easiest to compare with arithmetic bit by bit:
`testBit_ofDigits` says where a bit of the number is found, and two numbers with the same bits are
the same.  For a loop that fills the words from the bottom, `ofDigits_set` says what one store adds.
-/

namespace Limbs

/-- **Where a bit of the number is**: bit `n` is bit `n % w` of word `n / w`. -/
theorem testBit_ofDigits {w : Nat} (hw : 0 < w) {l : List Nat} (hl : ∀ d ∈ l, d < 2 ^ w)
    (n : Nat) : (Nat.ofDigits (2 ^ w) l).testBit n = (l.getD (n / w) 0).testBit (n % w) := by
  induction l generalizing n with
  | nil => simp
  | cons d l ih =>
    have hd : d < 2 ^ w := hl d List.mem_cons_self
    rw [Nat.ofDigits_cons, add_comm, Nat.testBit_two_pow_mul_add _ hd]
    split_ifs with hn
    · simp [Nat.div_eq_of_lt hn, Nat.mod_eq_of_lt hn]
    · have hle : w ≤ n := Nat.le_of_not_lt hn
      rw [ih (fun d' h => hl d' (List.mem_cons_of_mem d h)), Nat.mod_eq_sub_mod hle,
        Nat.div_eq_sub_div hw hle, List.getD_cons_succ]

/-- A number of `l.length` words fits its words. -/
theorem ofDigits_lt {w : Nat} (hw : 0 < w) {l : List Nat} (hl : ∀ d ∈ l, d < 2 ^ w) :
    Nat.ofDigits (2 ^ w) l < 2 ^ (w * l.length) := by
  rw [pow_mul]
  exact Nat.ofDigits_lt_base_pow_length (Nat.one_lt_two_pow hw.ne') hl

/-- Writing a word where there was a zero adds the word at its place. -/
theorem ofDigits_set {b : Nat} {l : List Nat} {i : Nat} (hi : i < l.length)
    (hzero : l.getD i 0 = 0) (x : Nat) :
    Nat.ofDigits b (l.set i x) = Nat.ofDigits b l + x * b ^ i := by
  induction l generalizing i with
  | nil => exact absurd hi (Nat.not_lt_zero i)
  | cons d l ih =>
    cases i with
    | zero =>
      rw [List.getD_cons_zero] at hzero
      rw [List.set_cons_zero, Nat.ofDigits_cons, Nat.ofDigits_cons, hzero, pow_zero]
      omega
    | succ i =>
      rw [List.set_cons_succ, Nat.ofDigits_cons, Nat.ofDigits_cons,
        ih (Nat.lt_of_succ_lt_succ hi) hzero, pow_succ]
      ring

/-- The number of the low words is what is left of the number below them. -/
theorem ofDigits_take {w : Nat} {l : List Nat} (hl : ∀ d ∈ l, d < 2 ^ w) (k : Nat) :
    Nat.ofDigits (2 ^ w) (l.take k) = Nat.ofDigits (2 ^ w) l % 2 ^ (w * k) := by
  rw [pow_mul]
  exact (Nat.ofDigits_mod_pow_eq_ofDigits_take k (Nat.two_pow_pos w) l hl).symm

end Limbs
