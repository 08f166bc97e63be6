import Mathlib.Data.List.AList
import Mathlib.Logic.Function.Basic

/-!
# Partial maps that change and change back

A store is a partial map from keys to values.  `Puts f f' l` says that `f'` is `f` with the entries of
`l` written, and `Drops f f' ks` that it is `f` without the keys `ks`.  Both are built up one write
at a time (`Puts.cons`, `Drops.cons`), and each takes the other back: `Puts.undo` if the keys were
new, and `Drops.undo` if the entries are those that were dropped, in whatever order.  An association
list is such a store too, with one entry written or erased at a time.
-/

universe u v w

namespace PartialMap

variable {κ : Type u} {ν : Type v}

section Lookup

variable [DecidableEq κ] (m : AList fun _ : κ => ν) (k k' : κ)

@[simp] theorem lookup_insert (v : ν) :
    (m.insert k v).lookup k' = if k' = k then some v else m.lookup k' := by
  split_ifs with h
  · rw [h, AList.lookup_insert]
  · exact AList.lookup_insert_ne h

@[simp] theorem lookup_erase : (m.erase k).lookup k' = if k' = k then none else m.lookup k' := by
  split_ifs with h
  · rw [h, AList.lookup_erase]
  · exact AList.lookup_erase_ne h

end Lookup

/-- `f'` is `f` with the entries `l` written. -/
structure Puts (f f' : κ → Option ν) (l : List (κ × ν)) : Prop where
  at_entry : ∀ p ∈ l, f' p.1 = some p.2
  elsewhere : ∀ k, k ∉ l.map Prod.fst → f' k = f k

/-- `f'` is `f` without the keys `ks`. -/
structure Drops (f f' : κ → Option ν) (ks : List κ) : Prop where
  at_key : ∀ k ∈ ks, f' k = none
  elsewhere : ∀ k, k ∉ ks → f' k = f k

variable {f f' f'' : κ → Option ν} {k : κ} {ks : List κ} {l l' : List (κ × ν)}

theorem Puts.nil (f : κ → Option ν) : Puts f f [] := ⟨by simp, fun _ _ => rfl⟩

theorem Drops.nil (f : κ → Option ν) : Drops f f [] := ⟨by simp, fun _ _ => rfl⟩

section Cons

variable [DecidableEq κ]

theorem Puts.cons {v : ν} (h : Puts (Function.update f k (some v)) f' l)
    (hk : k ∉ l.map Prod.fst) : Puts f f' ((k, v) :: l) := by
  refine ⟨List.forall_mem_cons.mpr ⟨?_, h.at_entry⟩, fun k' hk' => ?_⟩
  · simp [h.elsewhere k hk]
  · rw [List.map_cons, List.mem_cons, not_or] at hk'
    rw [h.elsewhere k' hk'.2, Function.update_of_ne hk'.1]

theorem Drops.cons (h : Drops (Function.update f k none) f' ks) : Drops f f' (k :: ks) := by
  have hk : f' k = none := by
    by_cases hmem : k ∈ ks
    · exact h.at_key k hmem
    simp [h.elsewhere k hmem]
  refine ⟨List.forall_mem_cons.mpr ⟨hk, h.at_key⟩, fun k' hk' => ?_⟩
  rw [List.mem_cons, not_or] at hk'
  rw [h.elsewhere k' hk'.2, Function.update_of_ne hk'.1]

end Cons

/-- A write under another key does not change what a list of keys has. -/
theorem update_of_notMem [DecidableEq κ] {α : Type w} {l : List α} {key : α → κ} {v : Option ν}
    (h : k ∉ l.map key) {a : α} (ha : a ∈ l) : Function.update f k v (key a) = f (key a) :=
  Function.update_of_ne (fun heq : key a = k => h (heq ▸ List.mem_map_of_mem ha)) _ _

/-- What is there after entries were put was put, or was there before. -/
theorem Puts.mem_or {v : ν} (h : Puts f f' l) (hk : f' k = some v) : (k, v) ∈ l ∨ f k = some v := by
  by_cases hmem : k ∈ l.map Prod.fst
  · obtain ⟨⟨_, v'⟩, hp, rfl⟩ := List.mem_map.mp hmem
    rw [h.at_entry _ hp] at hk
    cases hk
    exact Or.inl hp
  · rw [h.elsewhere k hmem] at hk
    exact Or.inr hk

/-- What is there after keys were dropped was there before. -/
theorem Drops.of_some {v : ν} (h : Drops f f' ks) (hk : f' k = some v) : f k = some v := by
  by_cases hmem : k ∈ ks
  · rw [h.at_key k hmem] at hk
    cases hk
  · rwa [h.elsewhere k hmem] at hk

/-- **What was put under new keys is taken back** by dropping them. -/
theorem Puts.undo (h : Puts f f' l) (hnew : ∀ p ∈ l, f p.1 = none)
    (hdrops : Drops f' f'' (l.map Prod.fst)) : f'' = f := by
  funext k
  by_cases hk : k ∈ l.map Prod.fst
  · obtain ⟨p, hp, rfl⟩ := List.mem_map.mp hk
    rw [hdrops.at_key _ hk, hnew p hp]
  · rw [hdrops.elsewhere k hk, h.elsewhere k hk]

/-- **What was dropped is brought back** by putting the same entries. -/
theorem Drops.undo (h : Drops f f' (l.map Prod.fst)) (hold : ∀ p ∈ l, f p.1 = some p.2)
    (hputs : Puts f' f'' l') (hsame : ∀ p, p ∈ l' ↔ p ∈ l) : f'' = f := by
  funext k
  by_cases hk : k ∈ l.map Prod.fst
  · obtain ⟨p, hp, rfl⟩ := List.mem_map.mp hk
    rw [hputs.at_entry p ((hsame p).mpr hp), hold p hp]
  have hk' : k ∉ l'.map Prod.fst := by
    rintro hmem
    obtain ⟨p, hp, rfl⟩ := List.mem_map.mp hmem
    exact hk (List.mem_map_of_mem ((hsame p).mp hp))
  rw [hputs.elsewhere k hk', h.elsewhere k hk]

end PartialMap
