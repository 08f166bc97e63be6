import Mathlib.Data.List.Basic

/-!
# Merkle paths

A path from a leaf to a root, as a list of siblings with the side on which each of them stands.
The hash and the encoding of a pair of nodes are arbitrary.

A hash into a finite type is never injective on all inputs, so the results ask only that there is no
collision among the inputs that the two paths really hash.  Two paths that go up in the same way and
end at the same root then start at the same leaf (`leaf_eq_of_root_eq`), and if one of two such paths
is longer, the leaf of the shorter one is itself a hash that the longer one computes
(`exists_input_of_suffix`).
-/

universe u v

namespace Merkle

variable {α : Type u} {β : Type v} {hash : β → α} {node : α → α → β}

/-- What is hashed when a node meets a sibling, which stands on the left if the flag is set. -/
def join (node : α → α → β) (leaf : α) (step : α × Bool) : β :=
  if step.2 then node step.1 leaf else node leaf step.1

/-- The node that a path leads to. -/
def root (hash : β → α) (node : α → α → β) (leaf : α) : List (α × Bool) → α
  | [] => leaf
  | step :: path => root hash node (hash (join node leaf step)) path

/-- What is hashed along a path. -/
def inputs (hash : β → α) (node : α → α → β) (leaf : α) : List (α × Bool) → List β
  | [] => []
  | step :: path => join node leaf step :: inputs hash node (hash (join node leaf step)) path

/-- No input of the first list collides with one of the second. -/
def NoCollision (hash : β → α) (xs ys : List β) : Prop :=
  ∀ x ∈ xs, ∀ y ∈ ys, hash x = hash y → x = y

theorem NoCollision.mono {xs xs' ys ys' : List β} (h : NoCollision hash xs ys)
    (hx : ∀ x ∈ xs', x ∈ xs) (hy : ∀ y ∈ ys', y ∈ ys) : NoCollision hash xs' ys' :=
  fun x hx' y hy' => h x (hx x hx') y (hy y hy')

theorem NoCollision.symm {xs ys : List β} (h : NoCollision hash xs ys) : NoCollision hash ys xs :=
  fun y hy x hx heq => (h x hx y hy heq.symm).symm

/-- Lists with the same hashes are the same. -/
theorem NoCollision.eq_of_map_eq {xs ys : List β} (h : NoCollision hash xs ys)
    (heq : xs.map hash = ys.map hash) : xs = ys := by
  refine List.ext_getElem (by simpa using congrArg List.length heq) fun i hx hy =>
    h _ (List.getElem_mem hx) _ (List.getElem_mem hy) ?_
  simpa [hx, hy] using congrArg (fun l => l[i]?) heq

theorem root_append (leaf : α) (p q : List (α × Bool)) :
    root hash node leaf (p ++ q) = root hash node (root hash node leaf p) q := by
  induction p generalizing leaf with
  | nil => rfl
  | cons step p ih => exact ih _

theorem inputs_append (leaf : α) (p q : List (α × Bool)) :
    inputs hash node leaf (p ++ q) =
      inputs hash node leaf p ++ inputs hash node (root hash node leaf p) q := by
  induction p generalizing leaf with
  | nil => rfl
  | cons step p ih => exact congrArg _ (ih _)

/-- The end of a path that is not empty is a hash that was computed on the way. -/
theorem exists_input_eq_root (leaf : α) {path : List (α × Bool)} (hne : path ≠ []) :
    ∃ x ∈ inputs hash node leaf path, root hash node leaf path = hash x := by
  induction path generalizing leaf with
  | nil => exact absurd rfl hne
  | cons step path ih =>
    cases path with
    | nil => exact ⟨_, List.mem_cons_self, rfl⟩
    | cons next path =>
      obtain ⟨x, hx, hroot⟩ := ih (hash (join node leaf step)) (List.cons_ne_nil _ _)
      exact ⟨x, List.mem_cons_of_mem _ hx, hroot⟩

section Binding

variable {leaf leaf' : α} {path path' : List (α × Bool)}

/-- A pair encoding that can be read back. -/
def PairInjective (node : α → α → β) : Prop :=
  ∀ ⦃a b c d : α⦄, node a b = node c d → a = c ∧ b = d

variable (hnode : PairInjective node)

include hnode

theorem leaf_eq_of_join_eq {step step' : α × Bool} (hside : step.2 = step'.2)
    (h : join node leaf step = join node leaf' step') :
    leaf = leaf' := by
  rw [join, join, ← hside] at h
  cases hs : step.2 with
  | true =>
    rw [hs] at h
    exact (hnode h).2
  | false =>
    rw [hs] at h
    exact (hnode h).1

/-- **A root binds the leaf** that a path of given sides leads up from. -/
theorem leaf_eq_of_root_eq (hsides : path.map Prod.snd = path'.map Prod.snd)
    (hfree : NoCollision hash (inputs hash node leaf path) (inputs hash node leaf' path'))
    (hroot : root hash node leaf path = root hash node leaf' path') : leaf = leaf' := by
  induction path generalizing leaf leaf' path' with
  | nil =>
    obtain rfl := List.map_eq_nil_iff.mp hsides.symm
    exact hroot
  | cons step path ih =>
    rcases path' with _ | ⟨step', path'⟩
    · simp at hsides
    obtain ⟨hside, hsides⟩ := List.cons.inj hsides
    have hhash : hash (join node leaf step) = hash (join node leaf' step') :=
      ih hsides (hfree.mono (fun _ => List.mem_cons_of_mem _) fun _ => List.mem_cons_of_mem _) hroot
    exact leaf_eq_of_join_eq hnode hside (hfree _ List.mem_cons_self _ List.mem_cons_self hhash)

/-- If the sides of a path are the last ones of a longer path to the same root, the leaf is a node
inside the longer path. -/
theorem exists_input_of_suffix
    {lower upper : List (α × Bool)}
    (hsides : path.map Prod.snd = upper.map Prod.snd) (hlower : lower ≠ [])
    (hfree : NoCollision hash (inputs hash node leaf path)
      (inputs hash node leaf' (lower ++ upper)))
    (hroot : root hash node leaf path = root hash node leaf' (lower ++ upper)) :
    ∃ x ∈ inputs hash node leaf' (lower ++ upper), leaf = hash x := by
  rw [root_append] at hroot
  rw [inputs_append] at hfree ⊢
  have hleaf := leaf_eq_of_root_eq hnode hsides
    (hfree.mono (fun _ h => h) fun _ => List.mem_append_right _) hroot
  obtain ⟨x, hx, hlast⟩ := exists_input_eq_root leaf' hlower
  exact ⟨x, List.mem_append_left _ hx, hleaf.trans hlast⟩

end Binding

end Merkle
