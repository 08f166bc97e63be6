import Mathlib.Data.Set.Card
import Qbit.Chain.Index

/-!
# Ancestors

What the pointers of an index lead to, when every index was made by `addToBlockIndex` on top of an
index that was made the same way (`Built`).

* `Built.getAncestor` says that the walk of `GetAncestor` ends at the one ancestor of the height
  that is asked for.  `BuildSkip` makes the same walk, so that skip pointers lead to ancestors is
  part of the induction (`Built.skip_ancestor`).
* `Built.lastInLane_eq_some_iff` says that the lane links find the highest block of a lane.
* `Built.ncard_auxpow` says that `nAuxPow` counts.
-/

open Checked

namespace Qbit

namespace CBlockIndex

/-- The block itself and its ancestors. -/
inductive Ancestor : CBlockIndex → CBlockIndex → Prop
  | refl (p : CBlockIndex) : Ancestor p p
  | step {a p q : CBlockIndex} (hprev : p.pprev = some q) (ha : Ancestor a q) : Ancestor a p

/-- An index that was made on top of an index that was made the same way, down to a root. -/
inductive Built (hash256 : HashFn) : CBlockIndex → Prop
  | root (h : CBlockHeader) : Built hash256 (addToBlockIndex hash256 none h)
  | child {q : CBlockIndex} (hq : Built hash256 q) (h : CBlockHeader) :
      Built hash256 (addToBlockIndex hash256 (some q) h)

variable {a : CBlockIndex}

theorem Ancestor.trans {b c : CBlockIndex} (hab : Ancestor a b) (hbc : Ancestor b c) :
    Ancestor a c := by
  induction hbc with
  | refl => exact hab
  | step hprev _ ih => exact .step hprev ih

variable {hash256 : HashFn}

theorem ancestor_root {h : CBlockHeader} :
    Ancestor a (addToBlockIndex hash256 none h) ↔ a = addToBlockIndex hash256 none h := by
  constructor
  · intro ha
    cases ha with
    | refl => rfl
    | step hprev _ => cases hprev
  · rintro rfl
    exact .refl _

theorem ancestor_child {h : CBlockHeader} {q : CBlockIndex} :
    Ancestor a (addToBlockIndex hash256 (some q) h) ↔
      a = addToBlockIndex hash256 (some q) h ∨ Ancestor a q := by
  constructor
  · intro ha
    cases ha with
    | refl => exact .inl rfl
    | step hprev ha =>
      cases hprev
      exact .inr ha
  · rintro (rfl | ha)
    · exact .refl _
    · exact .step rfl ha

variable {height : Int}

section Built

variable {b p q : CBlockIndex}

section Built

variable (hp : Built hash256 p)

include hp

theorem Built.linked : Linked p := by
  induction hp with
  | root h => exact .genesis rfl rfl
  | child _ h ih => exact ih.addToBlockIndex hash256 h

theorem Built.ancestor (ha : Ancestor a p) : Built hash256 a := by
  induction hp with
  | root h =>
    rw [ancestor_root.mp ha]
    exact .root h
  | child hq h ih =>
    rcases ancestor_child.mp ha with rfl | ha
    · exact .child hq h
    · exact ih ha

theorem Built.nHeight_pprev (hq : p.pprev = some q) : q.nHeight + 1 = p.nHeight := by
  cases hp with
  | root h => cases hq
  | child hq' h =>
    cases hq
    rfl

theorem Built.nHeight_root (hroot : p.pprev = none) : p.nHeight = 0 := by
  cases hp with
  | root h => rfl
  | child hq h => cases hroot

theorem Built.nHeight_le (ha : Ancestor a p) : a.nHeight ≤ p.nHeight := by
  induction hp with
  | root h => rw [ancestor_root.mp ha]
  | child hq h ih =>
    rcases ancestor_child.mp ha with rfl | ha
    · exact le_rfl
    · have := ih ha
      rw [nHeight_addToBlockIndex]
      omega

/-- **There is one ancestor of each height.** -/
theorem Built.ancestor_unique (ha : Ancestor a p) (hb : Ancestor b p)
    (hheight : a.nHeight = b.nHeight) : a = b := by
  induction hp with
  | root h => rw [ancestor_root.mp ha, ancestor_root.mp hb]
  | @child q hq h ih =>
    have hnew := nHeight_addToBlockIndex hash256 q h
    rcases ancestor_child.mp ha with rfl | ha <;> rcases ancestor_child.mp hb with rfl | hb
    · rfl
    · have := hq.nHeight_le hb
      omega
    · have := hq.nHeight_le ha
      omega
    · exact ih ha hb

end Built

/-! ## The walk -/

/-- Following skip pointers and parents stays among the ancestors, when the skip pointers do. -/
theorem ancestor_of_walk (hskip : ∀ x s, Ancestor x p → x.pskip = some s → Ancestor s x)
    {fuel : Nat} {heightWalk : Int} (h : ancestorWalk height fuel p heightWalk = .ok a) :
    Ancestor a p := by
  induction fuel generalizing p heightWalk with
  | zero =>
    cases h
    exact .refl _
  | succ fuel ih =>
    unfold ancestorWalk at h
    split_ifs at h with hdone
    · cases h
      exact .refl _
    simp only at h
    split at h
    · rename_i s hs
      split_ifs at hs with hfollow
      have hsp : Ancestor s p := hskip p s (.refl p) hs
      exact (ih (fun x t hx => hskip x t (hx.trans hsp)) h).trans hsp
    · split at h
      · rename_i q hq
        exact .step hq (ih (fun x t hx => hskip x t (.step hq hx)) h)
      · cases h

theorem ancestor_of_getAncestor (hskip : ∀ x s, Ancestor x p → x.pskip = some s → Ancestor s x)
    (h : p.getAncestor height = .ok (some a)) : Ancestor a p := by
  unfold getAncestor at h
  split_ifs at h
  · cases h
  rcases hwalk : ancestorWalk height (p.nHeight - height).toNat p p.nHeight with f | b
  · rw [hwalk] at h
    cases h
  rw [hwalk] at h
  cases h
  exact ancestor_of_walk hskip hwalk

variable (hp : Built hash256 p)

include hp

/-- **Skip pointers lead to ancestors**: `BuildSkip` walks from the parent, over the skip pointers
that were built before. -/
theorem Built.skip_ancestor : ∀ x s, Ancestor x p → x.pskip = some s → Ancestor s x := by
  induction hp with
  | root h =>
    intro x s hx hs
    rw [ancestor_root.mp hx] at hs
    cases hs
  | @child q hq h ih =>
    intro x s hx hs
    rcases ancestor_child.mp hx with rfl | hx
    · simp only [addToBlockIndex] at hs
      rcases hget : q.getAncestor (getSkipHeight (q.nHeight + 1)) with f | r
      · rw [hget] at hs
        cases hs
      rw [hget] at hs
      cases hs
      exact .step rfl (ancestor_of_getAncestor ih hget)
    · exact ih x s hx hs

/-- **`GetAncestor`** returns the ancestor of the height that is asked for. -/
theorem Built.getAncestor (h0 : 0 ≤ height) (hle : height ≤ p.nHeight) :
    ∃ a, p.getAncestor height = .ok (some a) ∧ Ancestor a p ∧ a.nHeight = height := by
  obtain ⟨a, ha, -, hheight⟩ := getAncestor_linked hp.linked h0 hle
  exact ⟨a, ha, ancestor_of_getAncestor hp.skip_ancestor ha, hheight⟩

/-! ## The lanes -/

/-- **The last block of a lane** is the highest one among the block and its ancestors. -/
theorem Built.lastInLane_eq_some_iff (auxpow : Bool) :
    lastInLane auxpow p = some a ↔ Ancestor a p ∧ a.signalsAuxpow = auxpow ∧
      ∀ b, Ancestor b p → b.signalsAuxpow = auxpow → b.nHeight ≤ a.nHeight := by
  induction hp with
  | root h =>
    rw [lastInLane_genesis]
    constructor
    · intro ha
      split_ifs at ha with hlane
      cases ha
      refine ⟨.refl _, hlane, fun b hb _ => ?_⟩
      rw [ancestor_root.mp hb]
    · rintro ⟨ha, hlane, -⟩
      rw [ancestor_root.mp ha] at hlane ⊢
      exact if_pos hlane
  | @child q hq h ih =>
    rw [lastInLane_addToBlockIndex]
    by_cases hlane : h.signalsAuxpow = auxpow
    · rw [if_pos hlane]
      constructor
      · rintro ⟨⟩
        exact ⟨.refl _, hlane, fun b hb _ => (hq.child h).nHeight_le hb⟩
      · rintro ⟨ha, -, hmax⟩
        have hle := (hq.child h).nHeight_le ha
        have hge := hmax _ (.refl _) hlane
        rw [(hq.child h).ancestor_unique ha (.refl _) (le_antisymm hle hge)]
    · rw [if_neg hlane, ih]
      have hold {b : CBlockIndex} (hb : b.signalsAuxpow = auxpow) :
          Ancestor b (addToBlockIndex hash256 (some q) h) ↔ Ancestor b q := by
        rw [ancestor_child]
        refine or_iff_right ?_
        rintro rfl
        exact hlane hb
      constructor
      · rintro ⟨ha, haux, hmax⟩
        exact ⟨(hold haux).mpr ha, haux, fun b hb hbaux => hmax b ((hold hbaux).mp hb) hbaux⟩
      · rintro ⟨ha, haux, hmax⟩
        exact ⟨(hold haux).mp ha, haux, fun b hb hbaux => hmax b ((hold hbaux).mpr hb) hbaux⟩

theorem Built.finite_ancestors : {a | Ancestor a p}.Finite := by
  induction hp with
  | root h => simp only [ancestor_root, Set.ofPred_eq_eq_singleton, Set.finite_singleton]
  | child hq h ih =>
    simp only [ancestor_child]
    exact ih.insert _

omit hp in
theorem ncard_insert_inter {s : Set CBlockIndex} (hs : s.Finite) (ha : a ∉ s) (t : Set CBlockIndex)
    [Decidable (a ∈ t)] :
    (insert a s ∩ t).ncard = (s ∩ t).ncard + if a ∈ t then 1 else 0 := by
  split
  next ht =>
    rw [Set.insert_inter_of_mem ht]
    exact Set.ncard_insert_of_notMem (fun h => ha h.1) (hs.inter_of_left t)
  next ht => rw [Set.insert_inter_of_notMem ht, Nat.add_zero]

/-- **`nAuxPow` counts** the AuxPoW blocks among the block and its ancestors. -/
theorem Built.ncard_auxpow : {a | Ancestor a p ∧ a.signalsAuxpow = true}.ncard = p.nAuxPow := by
  rw [Set.ofPred_and]
  induction hp with
  | root h =>
    have hroot : {a | Ancestor a (addToBlockIndex hash256 none h)} =
        insert (addToBlockIndex hash256 none h) ∅ := by
      ext a
      simp [ancestor_root]
    rw [hroot, ncard_insert_inter Set.finite_empty (Set.notMem_empty _), Set.empty_inter,
      Set.ncard_empty]
    rfl
  | @child q hq h ih =>
    have hnew : ¬Ancestor (addToBlockIndex hash256 (some q) h) q := by
      intro hself
      have := hq.nHeight_le hself
      rw [nHeight_addToBlockIndex] at this
      omega
    rw [nAuxPow_addToBlockIndex, ← ih]
    simp only [ancestor_child]
    exact ncard_insert_inter hq.finite_ancestors hnew _

end Built

end CBlockIndex

end Qbit
