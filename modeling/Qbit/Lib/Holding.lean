import Mathlib.Algebra.BigOperators.Finprod
import Mathlib.Algebra.Order.Group.Nat

/-!
# What a stack of write-back caches holds

A write-back cache lies over a base and keeps entries of its own, each with an amount.  An entry may
be marked *fresh*, which claims that the base shows nothing at its key: a fresh entry that is
removed is simply dropped, while any other is kept as an empty one, so that the base learns of it.
If the claim is wrong, dropping the entry brings back what the base shows.

So a stack holds more than it shows.  `Holding` keeps the two apart: `visible` is what a reader of
the top finds, and `hidden` is what can come back once that is removed.  Their sum, the `stock`, is
what the operations on such a stack conserve, whether or not its fresh marks are right.
-/

open Function

universe u

/-- What a stack of caches shows at each key, and what lies hidden under it. -/
structure Holding (κ : Type u) where
  visible : κ → ℕ
  hidden : κ → ℕ

namespace Holding

variable {κ : Type u}

/-- Everything that the stack has at a key. -/
def stock (h : Holding κ) (k : κ) : ℕ := h.visible k + h.hidden k

/-- The bottom of a stack hides nothing. -/
def ground (f : κ → ℕ) : Holding κ := ⟨f, fun _ => 0⟩

/-- A holding under one more layer, which gives the amount of each of its entries and says whether
the entry is fresh. -/
def under (h : Holding κ) (layer : κ → Option (ℕ × Bool)) : Holding κ where
  visible k := match layer k with
    | some (v, _) => v
    | none => h.visible k
  hidden k := match layer k with
    | some (_, true) => h.stock k
    | _ => h.hidden k

@[simp] theorem stock_ground (f : κ → ℕ) (k : κ) : (ground f).stock k = f k := rfl

section Layers

variable {h h' : Holding κ} {layer layer' : κ → Option (ℕ × Bool)} {k : κ} {v w : ℕ} {fresh : Bool}

theorem stock_under_none (hk : layer k = none) : (h.under layer).stock k = h.stock k := by
  simp only [stock, under, hk]

theorem hidden_under_none (hk : layer k = none) : (h.under layer).hidden k = h.hidden k := by
  simp only [under, hk]

theorem hidden_under_some (hk : layer k = some (v, fresh)) :
    (h.under layer).hidden k = if fresh then h.stock k else h.hidden k := by
  cases fresh <;> simp only [under, hk] <;> rfl

/-- Over an entry of its own, a layer has that entry's amount and what is hidden below it. -/
theorem stock_under_some (hk : layer k = some (v, fresh)) :
    (h.under layer).stock k = v + if fresh then h.stock k else h.hidden k := by
  rw [← hidden_under_some hk]
  simp only [stock, under, hk]

/-- A holding under a layer depends, at a key, on what there is at that key. -/
theorem under_congr (hvisible : h.visible k = h'.visible k) (hhidden : h.hidden k = h'.hidden k)
    (hlayer : layer k = layer' k) :
    (h.under layer).visible k = (h'.under layer').visible k ∧
      (h.under layer).hidden k = (h'.under layer').hidden k := by
  simp [under, stock, hvisible, hhidden, hlayer]

theorem stock_under_congr (hvisible : h.visible k = h'.visible k)
    (hhidden : h.hidden k = h'.hidden k) (hlayer : layer k = layer' k) :
    (h.under layer).stock k = (h'.under layer').stock k := by
  obtain ⟨hv, hh⟩ := under_congr hvisible hhidden hlayer
  rw [stock, stock, hv, hh]

theorem hidden_le_stock (h : Holding κ) (k : κ) : h.hidden k ≤ h.stock k := Nat.le_add_left _ _

/-- A new entry adds at most its amount. -/
theorem stock_under_new_le (hk : layer k = none) (hk' : layer' k = some (v, fresh)) :
    (h.under layer').stock k ≤ (h.under layer).stock k + v := by
  have hhidden := h.hidden_le_stock k
  rw [stock_under_none hk, stock_under_some hk']
  split <;> omega

theorem stock_under_replace (hk : layer k = some (w, fresh)) (hk' : layer' k = some (v, fresh)) :
    (h.under layer').stock k + w = (h.under layer).stock k + v := by
  rw [stock_under_some hk, stock_under_some hk']
  omega

end Layers

/-! ## Totals -/

/-- The whole stock. -/
noncomputable def total (h : Holding κ) : ℕ := ∑ᶠ k, h.stock k

/-- Only finitely many keys have any stock. -/
def Finite (h : Holding κ) : Prop := HasFiniteSupport h.stock

theorem Finite.under {h : Holding κ} (hfin : h.Finite) {layer : κ → Option (ℕ × Bool)}
    (hlayer : {k | layer k ≠ none}.Finite) : (h.under layer).Finite := by
  refine (hfin.union hlayer).subset fun k hk => ?_
  by_cases hnone : layer k = none
  · left
    rwa [mem_support, stock_under_none hnone] at hk
  · exact .inr hnone

/-- **A change at one key changes the total by as much.** -/
theorem total_le_of_change {h h' : Holding κ} (hfin : h.Finite) (hfin' : h'.Finite) {k : κ}
    {a b : ℕ} (hoff : ∀ k', k' ≠ k → h'.stock k' ≤ h.stock k')
    (hat : h'.stock k + a ≤ h.stock k + b) : h'.total + a ≤ h.total + b := by
  classical
  have hsingle : ∀ c : ℕ, HasFiniteSupport (Pi.single k c : κ → ℕ) :=
    fun c => (Set.finite_singleton k).subset Pi.support_single_subset
  have hsum : ∀ {f : κ → ℕ}, HasFiniteSupport f → ∀ c,
      ∑ᶠ i, (f i + (Pi.single k c : κ → ℕ) i) = (∑ᶠ i, f i) + c := by
    intro f hf c
    rw [finsum_add_distrib hf (hsingle c),
      finsum_eq_single (Pi.single k c : κ → ℕ) k fun i hi => by rw [Pi.single_eq_of_ne hi],
      Pi.single_eq_same]
  rw [total, total, ← hsum hfin', ← hsum hfin]
  refine finsum_le_finsum' (hfin'.add (hsingle a)) (hfin.add (hsingle b)) fun i => ?_
  by_cases hi : i = k
  · subst hi
    simpa using hat
  · simpa [Pi.single_eq_of_ne hi] using hoff i hi

theorem total_mono {h h' : Holding κ} (hfin : h.Finite) (hfin' : h'.Finite)
    (hle : ∀ k, h'.stock k ≤ h.stock k) : h'.total ≤ h.total :=
  finsum_le_finsum' hfin' hfin hle

/-- **A stack shows no more than its stock.** -/
theorem sum_visible_le {h : Holding κ} (hfin : h.Finite) (keys : Finset κ) :
    ∑ k ∈ keys, h.visible k ≤ h.total := by
  classical
  have hkeys : support h.stock ⊆ ((keys ∪ hfin.toFinset : Finset κ) : Set κ) := by
    intro k hk
    exact Finset.mem_union_right _ (hfin.mem_toFinset.mpr hk)
  calc ∑ k ∈ keys, h.visible k
      ≤ ∑ k ∈ keys, h.stock k := Finset.sum_le_sum fun k _ => Nat.le_add_right _ _
    _ ≤ ∑ k ∈ keys ∪ hfin.toFinset, h.stock k :=
        Finset.sum_le_sum_of_subset Finset.subset_union_left
    _ = h.total := (finsum_eq_sum_of_support_subset _ hkeys).symm

end Holding
