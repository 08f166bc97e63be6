import Mathlib.Data.List.Induction
import Mathlib.Data.List.Perm.Basic

/-!
# Round robin

Some lists are merged round by round: round `r` takes the element in place `r` of every list that
has one.  All elements come out, each once (`perm_rounds`), and at every moment two lists of the same
length have given the same number of elements, or one of them one more (`balanced_of_prefix`).
-/

namespace RoundRobin

variable {α β γ : Type*} {n : Nat} {lists : List (List α)}

/-- One round, each element with the number of its list. -/
def round (lists : List (List α)) (r : Nat) : List (Nat × α) :=
  lists.zipIdx.filterMap fun x => x.1[r]?.map (x.2, ·)

def rounds (n : Nat) (lists : List (List α)) : List (Nat × α) :=
  (List.range n).flatMap (round lists)

/-! ## Everything comes out -/

theorem getElem?_of_mem_rounds {x : Nat × α} (h : x ∈ rounds n lists) :
    ∃ l, lists[x.1]? = some l ∧ ∃ r : Nat, l[r]? = some x.2 := by
  obtain ⟨r, -, hr⟩ := List.mem_flatMap.mp h
  obtain ⟨⟨l, i⟩, hl, hx⟩ := List.mem_filterMap.mp hr
  obtain ⟨y, hy, rfl⟩ := Option.map_eq_some_iff.mp hx
  exact ⟨l, List.mem_zipIdx_iff_getElem?.mp hl, r, hy⟩

theorem filterMap_getElem?_range (f : α → β) {l : List α} (h : l.length ≤ n) :
    (List.range n).filterMap (fun r => l[r]?.map f) = l.map f := by
  induction l generalizing n with
  | nil => simp
  | cons x l ih =>
    obtain ⟨n, rfl⟩ := Nat.exists_eq_add_one_of_ne_zero (Nat.ne_of_gt (Nat.zero_lt_of_lt h))
    simpa [List.range_succ_eq_map, List.filterMap_map, Function.comp_def] using
      ih (Nat.le_of_succ_le_succ h)

/-- Two loops, the other way round. -/
theorem flatMap_filterMap_perm (f : α → β → Option γ) (xs : List α) (ys : List β) :
    (xs.flatMap fun x => ys.filterMap (f x)).Perm (ys.flatMap fun y => xs.filterMap (f · y)) := by
  simp only [List.filterMap_eq_flatMap_toList]
  induction xs with
  | nil => simp
  | cons x xs ih =>
    simp only [List.flatMap_cons]
    exact (ih.append_left _).trans (List.flatMap_append_perm _ _ _)

/-- **Everything comes out, once.** -/
theorem perm_rounds (h : ∀ l ∈ lists, l.length ≤ n) :
    (rounds n lists).Perm (lists.zipIdx.flatMap fun x => x.1.map (x.2, ·)) := by
  refine (flatMap_filterMap_perm _ _ _).trans (.of_eq (List.flatMap_congr fun x hx => ?_))
  exact filterMap_getElem?_range _ (h x.1 (List.fst_mem_of_mem_zipIdx hx))

/-! ## No list falls behind -/

theorem round_concat (lists : List (List α)) (l : List α) (r : Nat) :
    round (lists ++ [l]) r = round lists r ++ (l[r]?.map (lists.length, ·)).toList := by
  cases h : l[r]? <;> simp [round, List.zipIdx_append, h]

theorem countP_round (lists : List (List α)) (r i : Nat) :
    (round lists r).countP (·.1 = i) = if (lists[i]?.map List.length).any (r < ·) then 1 else 0 := by
  induction lists using List.reverseRecOn with
  | nil => simp [round]
  | append_singleton lists l ih =>
    rw [round_concat, List.countP_append, ih]
    rcases Nat.lt_trichotomy i lists.length with hlt | rfl | hgt
    · cases l[r]? <;> simp [List.getElem?_append_left hlt, Nat.ne_of_gt hlt]
    · by_cases hr : r < l.length <;> simp [hr]
    · have hnone : lists[i]? = none := List.getElem?_eq_none (Nat.le_of_lt hgt)
      have hlast : (lists ++ [l])[i]? = none :=
        List.getElem?_eq_none (by rw [List.length_append]; exact hgt)
      cases l[r]? <;> simp [hnone, hlast, Nat.ne_of_lt hgt]

/-- A part of a sequence of rounds is whole rounds and a part of one. -/
theorem prefix_flatMap_range {f : Nat → List β} {p : List β} (h : p <+: (List.range n).flatMap f) :
    ∃ r q, p = (List.range r).flatMap f ++ q ∧ q <+: f r := by
  induction n with
  | zero => exact ⟨0, [], by simpa using h, List.nil_prefix⟩
  | succ n ih =>
    rw [List.range_succ, List.flatMap_append, List.flatMap_singleton] at h
    rcases List.prefix_or_prefix_of_prefix h (List.prefix_append _ _) with hp | ⟨q, rfl⟩
    · exact ih hp
    · exact ⟨n, q, rfl, (List.prefix_append_right_inj _).mp h⟩

/-- **Lists of the same length take turns.** -/
theorem balanced_of_prefix {p : List (Nat × α)} (h : p <+: rounds n lists) {i j : Nat}
    (hlength : lists[i]?.map List.length = lists[j]?.map List.length) :
    p.countP (·.1 = i) ≤ p.countP (·.1 = j) + 1 := by
  obtain ⟨r, q, rfl, hq⟩ := prefix_flatMap_range h
  have hround (r : Nat) : (round lists r).countP (·.1 = i) = (round lists r).countP (·.1 = j) := by
    rw [countP_round, countP_round, hlength]
  have hpart : q.countP (·.1 = i) ≤ 1 := by
    refine Nat.le_trans hq.sublist.countP_le ?_
    rw [countP_round]
    split_ifs <;> omega
  simp only [List.countP_append, List.countP_flatMap, Function.comp_def, hround]
  omega

end RoundRobin
