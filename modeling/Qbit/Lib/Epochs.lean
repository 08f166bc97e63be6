import Mathlib.Data.Set.Insert
import Mathlib.Data.List.Pairwise
import Mathlib.Order.Basic

/-!
# Receivers that number what they take within epochs

A receiver takes numbered items.  It is in one epoch at a time, in which the numbers it takes grow;
it may leave the epoch for another one, in which the numbers start anew, but never for one it has
left before.

`Accepts` says what such a receiver takes.  `Receiver.Records` is the invariant that ties a receiver
to the log of what it took, and `Records.accept` keeps it, so in a log the numbers of each epoch grow
(`Records.ordered`) although the epochs come and go.
-/

namespace Epochs

universe u v

variable {ε : Type u} {ν : Type v} [Preorder ν]

/-- The epoch the receiver is in with the last number taken in it, and the epochs it has left. -/
structure Receiver (ε : Type u) (ν : Type v) where
  current : Option (ε × ν)
  past : Set ε

/-- The receiver takes number `n` in epoch `e`. -/
inductive Accepts : Receiver ε ν → ε → ν → Receiver ε ν → Prop
  | first {past : Set ε} {e : ε} {n : ν} :
      e ∉ past → Accepts ⟨none, past⟩ e n ⟨some (e, n), past⟩
  | next {past : Set ε} {e : ε} {m n : ν} :
      m < n → Accepts ⟨some (e, m), past⟩ e n ⟨some (e, n), past⟩
  | enter {past : Set ε} {e e' : ε} {m n : ν} :
      e' ≠ e → e' ∉ past → Accepts ⟨some (e, m), past⟩ e' n ⟨some (e', n), insert e past⟩

/-- The receiver remembers enough of the log: its numbers grow within each epoch, and every item is
of an epoch that was left or is not after the last one taken. -/
structure Receiver.Records (r : Receiver ε ν) (log : List (ε × ν)) : Prop where
  ordered : log.Pairwise fun a b => a.1 = b.1 → a.2 < b.2
  covered : ∀ a ∈ log, a.1 ∈ r.past ∨ ∃ m, r.current = some (a.1, m) ∧ a.2 ≤ m
  fresh : ∀ e m, r.current = some (e, m) → e ∉ r.past

namespace Receiver

theorem Records.init {past : Set ε} : Records (ε := ε) (ν := ν) ⟨none, past⟩ [] where
  ordered := .nil
  covered := by simp
  fresh := by simp

/-- An item of an epoch that was not left is before the one that is taken. -/
theorem Records.lt_of_accepts {r r' : Receiver ε ν} {log : List (ε × ν)} {e : ε} {n : ν}
    (h : r.Records log) (ha : Accepts r e n r') {a : ε × ν} (hmem : a ∈ log) (he : a.1 = e) :
    a.2 < n := by
  cases ha with
  | first hnot =>
    rcases h.covered a hmem with hpast | ⟨m, hm, -⟩
    · exact absurd (he ▸ hpast) hnot
    · cases hm
  | next hlt =>
    rcases h.covered a hmem with hpast | ⟨m, hm, hle⟩
    · exact absurd (he ▸ hpast) (h.fresh e _ rfl)
    · cases hm
      exact lt_of_le_of_lt hle hlt
  | enter hne hnot =>
    rcases h.covered a hmem with hpast | ⟨m, hm, -⟩
    · exact absurd (he ▸ hpast) hnot
    · cases hm
      exact absurd he.symm hne

/-- Whatever the receiver takes may go to the end of the log. -/
theorem Records.accept {r r' : Receiver ε ν} {log : List (ε × ν)} {e : ε} {n : ν}
    (h : r.Records log) (ha : Accepts r e n r') : r'.Records (log ++ [(e, n)]) where
  ordered := by
    rw [List.pairwise_append]
    refine ⟨h.ordered, List.pairwise_singleton _ _, fun a hmem b hb he => ?_⟩
    obtain rfl := List.mem_singleton.mp hb
    exact h.lt_of_accepts ha hmem he
  covered := by
    intro a hmem
    have hlast : r'.current = some (e, n) := by
      cases ha <;> rfl
    rcases List.mem_append.mp hmem with hold | hnew
    · cases ha with
      | first _ =>
        refine (h.covered a hold).imp_right ?_
        rintro ⟨m, hm, -⟩
        cases hm
      | next hlt =>
        refine (h.covered a hold).imp_right ?_
        rintro ⟨m, hm, hle⟩
        cases hm
        exact ⟨n, rfl, hle.trans hlt.le⟩
      | enter _ _ =>
        left
        rcases h.covered a hold with hpast | ⟨m, hm, -⟩
        · exact Set.mem_insert_of_mem _ hpast
        · cases hm
          simp
    · obtain rfl := List.mem_singleton.mp hnew
      exact .inr ⟨n, hlast, le_refl n⟩
  fresh := by
    intro e' m hm
    cases ha with
    | first hnot =>
      cases hm
      exact hnot
    | next _ =>
      cases hm
      exact h.fresh e _ rfl
    | enter hne hnot =>
      cases hm
      exact fun hmem => (Set.mem_insert_iff.mp hmem).elim hne hnot

end Receiver

end Epochs
