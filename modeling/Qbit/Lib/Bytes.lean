import Mathlib.Tactic.Common
import Mathlib.Tactic.Ring
import Mathlib.Algebra.Order.Group.Nat

/-!
# Byte strings

Little-endian numbers, and codes that end where they say they end.

* `Bytes.leBytes k n` is `n` in `k` little-endian bytes, and `Bytes.ofLE` reads it back.
* `Bytes.SelfDelimiting f view` says that `view a` and the end of `f a` can both be recovered from
  `f a` and anything that follows it.  An encoder may leave out what the `view` does not show.

A code is self-delimiting when it has a fixed length (`SelfDelimiting.of_length`), when it is a
self-delimiting code followed by another (`SelfDelimiting.append`), and when it announces the length
of the bytes that follow (`SelfDelimiting.lengthPrefixed`).
-/

namespace Bytes

/-! ## Little-endian numbers -/

/-- `n` in `k` bytes, least significant byte first. -/
def leBytes : Nat → Nat → List UInt8
  | 0, _ => []
  | k + 1, n => UInt8.ofNat n :: leBytes k (n / 256)

/-- The number whose little-endian bytes are given. -/
def ofLE : List UInt8 → Nat
  | [] => 0
  | b :: bs => b.toNat + 256 * ofLE bs

@[simp] theorem length_leBytes (k n : Nat) : (leBytes k n).length = k := by
  induction k generalizing n with
  | zero => rfl
  | succ k ih => simp [leBytes, ih]

theorem ofLE_leBytes (k n : Nat) : ofLE (leBytes k n) = n % 256 ^ k := by
  induction k generalizing n with
  | zero => simp [leBytes, ofLE, Nat.mod_one]
  | succ k ih =>
    have hbyte : (UInt8.ofNat n).toNat = n % 256 := UInt8.toNat_ofNat'
    rw [leBytes, ofLE, ih, hbyte, Nat.pow_succ', Nat.mod_mul]

theorem ofLE_lt (bs : List UInt8) : ofLE bs < 256 ^ bs.length := by
  induction bs with
  | nil => simp [ofLE]
  | cons b bs ih =>
    have hb := b.toNat_lt
    rw [ofLE, List.length_cons, Nat.pow_succ]
    omega

theorem leBytes_ofLE (bs : List UInt8) : leBytes bs.length (ofLE bs) = bs := by
  induction bs with
  | nil => rfl
  | cons b bs ih =>
    have hb := b.toNat_lt
    have hdiv : (b.toNat + 256 * ofLE bs) / 256 = ofLE bs := by omega
    rw [ofLE, List.length_cons, leBytes, hdiv, ih]
    refine congrArg (· :: bs) (UInt8.toNat_inj.mp ?_)
    simp

theorem leBytes_inj {k m n : Nat} (hm : m < 256 ^ k) (hn : n < 256 ^ k)
    (h : leBytes k m = leBytes k n) : m = n := by
  have := congrArg ofLE h
  rwa [ofLE_leBytes, ofLE_leBytes, Nat.mod_eq_of_lt hm, Nat.mod_eq_of_lt hn] at this

/-! ## Pieces -/

/-- Pieces of one length, the last of which may be shorter, give back what was cut. -/
theorem flatMap_pieces {α : Type} (m n : Nat) (xs : List α) (h : xs.length ≤ n * m) :
    (List.range n).flatMap (fun i => (xs.drop (i * m)).take m) = xs := by
  induction n generalizing xs with
  | zero =>
    rw [Nat.zero_mul, Nat.le_zero] at h
    rw [List.length_eq_zero_iff.mp h]
    rfl
  | succ n ih =>
    have hrest : (xs.drop m).length ≤ n * m := by
      rw [List.length_drop]
      rw [Nat.succ_mul] at h
      omega
    have hshift : ∀ i, xs.drop ((i + 1) * m) = (xs.drop m).drop (i * m) := by
      intro i
      rw [List.drop_drop, Nat.succ_mul, Nat.add_comm]
    rw [List.range_succ_eq_map, List.flatMap_cons, List.flatMap_map, Nat.zero_mul, List.drop_zero]
    simp only [hshift]
    rw [ih (xs.drop m) hrest, List.take_append_drop]

/-! ## Occurrences -/

/-- The position of the first occurrence of `pattern`. -/
def search (pattern : List UInt8) : List UInt8 → Option Nat
  | [] => if pattern.isPrefixOf [] then some 0 else none
  | b :: bs => if pattern.isPrefixOf (b :: bs) then some 0 else (search pattern bs).map (· + 1)

theorem search_eq_some {pattern bs : List UInt8} {i : Nat} (h : search pattern bs = some i) :
    pattern <+: bs.drop i := by
  induction bs generalizing i with
  | nil =>
    simp only [search] at h
    split_ifs at h with hp
    cases h
    exact List.isPrefixOf_iff_prefix.mp hp
  | cons b bs ih =>
    simp only [search] at h
    split_ifs at h with hp
    · cases h
      exact List.isPrefixOf_iff_prefix.mp hp
    · obtain ⟨j, hj, rfl⟩ := Option.map_eq_some_iff.mp h
      exact ih hj

theorem isSome_search {pattern bs : List UInt8} (h : pattern <:+: bs) :
    (search pattern bs).isSome := by
  induction bs with
  | nil =>
    obtain rfl := List.infix_nil.mp h
    rfl
  | cons b bs ih =>
    simp only [search]
    split_ifs with hp
    · rfl
    · rw [Option.isSome_map]
      refine ih ((List.infix_cons_iff.mp h).resolve_left fun hpre => hp ?_)
      exact List.isPrefixOf_iff_prefix.mpr hpre

/-! ## Self-delimiting codes -/

universe u v w

variable {α : Type u} {β : Type v} {γ : Type w} {f : α → List UInt8} {v : α → β}

/-- From `f a` and whatever follows it, `view a` and what follows can both be recovered. -/
def SelfDelimiting (f : α → List UInt8) (view : α → β) : Prop :=
  ∀ ⦃a b : α⦄ ⦃r s : List UInt8⦄, f a ++ r = f b ++ s → view a = view b ∧ r = s

theorem SelfDelimiting.of_length {view : α → β} {k : Nat} (hlen : ∀ a, (f a).length = k)
    (hinj : ∀ a b, f a = f b → view a = view b) :
    SelfDelimiting f view := by
  intro a b r s h
  obtain ⟨hf, hr⟩ := List.append_inj h (by rw [hlen, hlen])
  exact ⟨hinj a b hf, hr⟩

theorem SelfDelimiting.append {g : α → List UInt8} {w : α → γ} (hf : SelfDelimiting f v)
    (hg : SelfDelimiting g w) :
    SelfDelimiting (fun a => f a ++ g a) (fun a => (v a, w a)) := by
  intro a b r s h
  simp only [List.append_assoc] at h
  obtain ⟨hv, h'⟩ := hf h
  obtain ⟨hw, hr⟩ := hg h'
  exact ⟨Prod.ext hv hw, hr⟩

theorem SelfDelimiting.comp (hf : SelfDelimiting f v) (g : γ → α) :
    SelfDelimiting (fun c => f (g c)) (fun c => v (g c)) :=
  fun _ _ _ _ h => hf h

/-- **A row of self-delimiting codes can be taken apart**, if none of them is empty: no count has to
be given. -/
theorem SelfDelimiting.map_eq_of_flatMap_eq (hf : SelfDelimiting f v) (hne : ∀ a, f a ≠ [])
    {as bs : List α} (h : as.flatMap f = bs.flatMap f) : as.map v = bs.map v := by
  induction as generalizing bs with
  | nil =>
    cases bs with
    | nil => rfl
    | cons b bs =>
      exact absurd (List.append_eq_nil_iff.mp h.symm).1 (hne b)
  | cons a as ih =>
    cases bs with
    | nil =>
      exact absurd (List.append_eq_nil_iff.mp h).1 (hne a)
    | cons b bs =>
      obtain ⟨hv, hrest⟩ := hf h
      simp [hv, ih hrest]

/-- A code for lengths, followed by a byte string of that length. -/
theorem SelfDelimiting.lengthPrefixed {code : Nat → List UInt8} {N : Nat}
    {bytes : α → List UInt8} (hN : ∀ a, (bytes a).length < N)
    (hcode : SelfDelimiting (fun n : Fin N => code n) (fun n => n)) :
    SelfDelimiting (fun a => code (bytes a).length ++ bytes a) bytes := by
  intro a b r s h
  simp only [List.append_assoc] at h
  obtain ⟨hlen, h'⟩ := hcode (a := ⟨_, hN a⟩) (b := ⟨_, hN b⟩) h
  exact List.append_inj h' (congrArg Fin.val hlen)

end Bytes
