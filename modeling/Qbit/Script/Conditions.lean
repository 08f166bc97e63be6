import Qbit.Script.Interpreter

/-!
# The condition stack

`ConditionStack` keeps a stack of conditions as its size and the position of the first false
condition.  What it forgets are the conditions above the first false one, and these cannot be told
apart: before a change below can make them matter they have all been popped.  So the stack is the
image of a list (`ConditionStack.ofList`), the operations on the two correspond, and `empty` and
`allTrue` are those of the list.

The two counters have 32 bits.  A stack of 2³² conditions has size 0, and up to there the
correspondence holds (`agree_iff`).
-/

open Checked

namespace Qbit

/-! ## The operations -/

/-- What can be done to the conditions. -/
inductive ConditionOp where
  | pushBack (f : Bool)
  | popBack
  | toggleTop
  deriving DecidableEq

namespace ConditionOp

/-- On a `ConditionStack`. -/
def onStack (v : ConditionStack) : ConditionOp → Result ConditionStack
  | pushBack f => .ok (v.pushBack f)
  | popBack => v.popBack
  | toggleTop => v.toggleTop

/-- On a list of conditions, the last of which is the top.  An empty list has no top to pop or to
toggle. -/
def onList (l : List Bool) : ConditionOp → Option (List Bool)
  | pushBack f => some (l ++ [f])
  | popBack => l.getLast?.map fun _ => l.dropLast
  | toggleTop => l.getLast?.map fun f => l.dropLast ++ [!f]

variable (ops : List ConditionOp)

/-- From the empty stack. -/
def stackAfter : Result ConditionStack := ops.foldlM onStack {}

/-- From the empty list. -/
def listAfter : Option (List Bool) := ops.foldlM onList []

/-- After some operations, the stack and the list cannot be told apart. -/
def Agree : Prop :=
  ∃ v l, stackAfter ops = .ok v ∧ listAfter ops = some l ∧ v.empty = l.isEmpty ∧
    v.allTrue = l.all id

end ConditionOp

/-! ## The stack of a list -/

namespace ConditionStack

/-- The stack that stands for a list of conditions. -/
def ofList (l : List Bool) : ConditionStack where
  m_stack_size := UInt32.ofNat l.length
  m_first_false_pos := if false ∈ l then UInt32.ofNat (l.idxOf false) else noFalse

variable {l l' : List Bool} {f : Bool} {n m : Nat}

theorem ofNat_ne_noFalse (h : n < 2 ^ 32 - 1) : UInt32.ofNat n ≠ noFalse := by
  rw [Ne, UInt32.ofNat_eq_iff_mod_eq_toNat, Nat.mod_eq_of_lt (by omega)]
  exact h.ne

theorem ofNat_inj (hn : n < 2 ^ 32) (hm : m < 2 ^ 32) : UInt32.ofNat n = UInt32.ofNat m ↔ n = m := by
  rw [UInt32.ofNat_eq_iff_mod_eq_toNat, UInt32.toNat_ofNat', Nat.mod_eq_of_lt hn, Nat.mod_eq_of_lt hm]

theorem ofList_eq_noFalse_iff (h : l.length < 2 ^ 32) :
    (ofList l).m_first_false_pos = noFalse ↔ false ∉ l := by
  by_cases hmem : false ∈ l
  · have hlt := List.idxOf_lt_length_of_mem hmem
    simp [ofList, hmem, ofNat_ne_noFalse (show l.idxOf false < 2 ^ 32 - 1 by omega)]
  · simp [ofList, hmem]

theorem pushBack_ofList (h : l.length < 2 ^ 32) : (ofList l).pushBack f = ofList (l ++ [f]) := by
  simp only [pushBack, ofList_eq_noFalse_iff h]
  by_cases hmem : false ∈ l
  · simp [hmem, ofList, List.idxOf_append, UInt32.ofNat_add]
  · cases f <;> simp [hmem, ofList, List.idxOf_append, UInt32.ofNat_add]

theorem size_ofList_concat : (ofList (l ++ [f])).m_stack_size - 1 = (ofList l).m_stack_size := by
  simp [ofList, UInt32.ofNat_add]

section Concat

variable (h : (l ++ [f]).length < 2 ^ 32)

include h

theorem size_ofList_pos : 0 < (ofList (l ++ [f])).m_stack_size := by
  rw [UInt32.lt_iff_toNat_lt, ofList, UInt32.toNat_ofNat', Nat.mod_eq_of_lt h]
  simp

theorem ofList_concat_eq_top_iff :
    (ofList (l ++ [f])).m_first_false_pos = (ofList l).m_stack_size ↔ false ∉ l ∧ f = false := by
  rw [List.length_append, List.length_singleton] at h
  have hne : noFalse ≠ UInt32.ofNat l.length := (ofNat_ne_noFalse (by omega)).symm
  by_cases hmem : false ∈ l
  · have hlt := List.idxOf_lt_length_of_mem hmem
    have hpos : UInt32.ofNat (l.idxOf false) ≠ UInt32.ofNat l.length := by
      rw [Ne, ofNat_inj (by omega) (by omega)]
      exact hlt.ne
    simp [ofList, hmem, List.idxOf_append, hpos]
  · cases f <;> simp [ofList, hmem, List.idxOf_append, hne]

theorem popBack_ofList : (ofList (l ++ [f])).popBack = .ok (ofList l) := by
  rw [popBack, require_pos (size_ofList_pos h), ok_bind, size_ofList_concat]
  simp only [ofList_concat_eq_top_iff h, pure_eq_ok]
  by_cases hmem : false ∈ l
  · simp [ofList, hmem, List.idxOf_append]
  · cases f <;> simp [ofList, hmem]

theorem toggleTop_ofList : (ofList (l ++ [f])).toggleTop = .ok (ofList (l ++ [!f])) := by
  rw [toggleTop, require_pos (size_ofList_pos h), ok_bind, size_ofList_concat]
  simp only [ofList_concat_eq_top_iff h, ofList_eq_noFalse_iff h, pure_eq_ok]
  by_cases hmem : false ∈ l
  · simp [ofList, hmem, List.idxOf_append]
  · cases f <;> simp [ofList, hmem, List.idxOf_append]

end Concat

/-- **`empty` and `allTrue` are those of the list** as long as the size fits, and not beyond. -/
theorem ofList_agrees_iff (h : l.length ≤ 2 ^ 32) :
    (ofList l).empty = l.isEmpty ∧ (ofList l).allTrue = l.all id ↔ l.length < 2 ^ 32 := by
  constructor
  · rintro ⟨hempty, -⟩
    by_contra hge
    have hlen : l.length = 2 ^ 32 := by omega
    have hne : l ≠ [] := by
      rintro rfl
      cases hlen
    simp [empty, ofList, hlen, hne] at hempty
  · intro hlt
    refine ⟨Bool.eq_iff_iff.mpr ?_, Bool.eq_iff_iff.mpr ?_⟩
    · simpa [empty, ofList] using ofNat_inj hlt (show 0 < 2 ^ 32 by decide)
    · simp [allTrue, ofList_eq_noFalse_iff hlt]

end ConditionStack

/-! ## Runs -/

namespace ConditionOp

variable {ops : List ConditionOp} {op : ConditionOp} {l l' : List Bool}

theorem exists_concat {g : Bool → List Bool} (h : l.getLast?.map g = some l') :
    ∃ below f, l = below ++ [f] ∧ l' = g f := by
  obtain ⟨f, hlast, rfl⟩ := Option.map_eq_some_iff.mp h
  obtain ⟨below, rfl⟩ := List.getLast?_eq_some_iff.mp hlast
  exact ⟨below, f, rfl, rfl⟩

theorem length_onList_le (hop : op.onList l = some l') : l'.length ≤ l.length + 1 := by
  cases op with
  | pushBack f => simp [← Option.some.inj hop]
  | popBack =>
    obtain ⟨below, f, rfl, rfl⟩ := exists_concat hop
    simp
    omega
  | toggleTop =>
    obtain ⟨below, f, rfl, rfl⟩ := exists_concat hop
    simp

/-- **One operation** does the same to a list and to its stack. -/
theorem onStack_ofList (h : l.length < 2 ^ 32) (hop : op.onList l = some l') :
    op.onStack (.ofList l) = .ok (.ofList l') := by
  cases op with
  | pushBack f =>
    cases hop
    exact congrArg _ (ConditionStack.pushBack_ofList h)
  | popBack =>
    obtain ⟨below, f, rfl, rfl⟩ := exists_concat hop
    rw [List.dropLast_concat]
    exact ConditionStack.popBack_ofList h
  | toggleTop =>
    obtain ⟨below, f, rfl, rfl⟩ := exists_concat hop
    rw [List.dropLast_concat]
    exact ConditionStack.toggleTop_ofList h

theorem listAfter_concat_eq_some_iff : listAfter (ops ++ [op]) = some l' ↔
    ∃ l, listAfter ops = some l ∧ op.onList l = some l' := by
  simp [listAfter, List.foldlM_append, Option.bind_eq_some_iff]

theorem stackAfter_concat {v : ConditionStack} (h : stackAfter ops = .ok v) :
    stackAfter (ops ++ [op]) = op.onStack v := by
  rw [stackAfter] at h ⊢
  rw [List.foldlM_append, h, ok_bind, List.foldlM_cons]
  exact bind_pure _

/-- The depth stays below 2³². -/
def Shallow (ops : List ConditionOp) : Prop :=
  ∀ done, done <+: ops → ∀ l, listAfter done = some l → l.length < 2 ^ 32

theorem shallow_concat_iff : Shallow (ops ++ [op]) ↔
    (∀ l, listAfter (ops ++ [op]) = some l → l.length < 2 ^ 32) ∧ Shallow ops := by
  simp [Shallow, List.prefix_concat_iff, or_imp, forall_and]

/-- **A run** of operations takes the empty stack to the stack of the list. -/
theorem stackAfter_eq (h : Shallow ops) (hl : listAfter ops = some l) :
    stackAfter ops = .ok (.ofList l) := by
  induction ops using List.reverseRecOn generalizing l with
  | nil =>
    cases hl
    rfl
  | append_singleton ops op ih =>
    obtain ⟨before, hbefore, hop⟩ := listAfter_concat_eq_some_iff.mp hl
    obtain ⟨-, h⟩ := shallow_concat_iff.mp h
    rw [stackAfter_concat (ih h hbefore)]
    exact onStack_ofList (h ops List.prefix_rfl before hbefore) hop

/-- Fewer operations than 2³² do not get that deep. -/
theorem length_le_of_listAfter (hl : listAfter ops = some l) : l.length ≤ ops.length := by
  induction ops using List.reverseRecOn generalizing l with
  | nil =>
    cases hl
    rfl
  | append_singleton ops op ih =>
    obtain ⟨before, hbefore, hop⟩ := listAfter_concat_eq_some_iff.mp hl
    have hle := ih hbefore
    have hop := length_onList_le hop
    rw [List.length_append, List.length_singleton]
    omega

/-- **The condition stack is a stack of conditions up to a depth of 2³².**  Take any operations that
never pop or toggle an empty stack.  After each of them `empty` and `allTrue` are those of the list
of conditions if and only if the depth stays below 2³². -/
theorem agree_iff (hops : (listAfter ops).isSome) :
    (∀ done, done <+: ops → Agree done) ↔
      ∀ done, done <+: ops → ∀ l, listAfter done = some l → l.length < 2 ^ 32 := by
  change _ ↔ Shallow ops
  induction ops using List.reverseRecOn with
  | nil =>
    have hagree : Agree [] := ⟨{}, [], rfl, rfl, rfl, rfl⟩
    simp [hagree, Shallow, listAfter]
  | append_singleton ops op ih =>
    obtain ⟨after, hafter⟩ := Option.isSome_iff_exists.mp hops
    obtain ⟨before, hbefore, hop⟩ := listAfter_concat_eq_some_iff.mp hafter
    rw [shallow_concat_iff, ← ih (Option.isSome_of_eq_some hbefore)]
    simp only [List.prefix_concat_iff, or_imp, forall_and, forall_eq]
    refine and_congr_left fun hagree => ?_
    have hshallow := (ih (Option.isSome_of_eq_some hbefore)).mp hagree
    have hlt := hshallow ops List.prefix_rfl before hbefore
    have hstack := onStack_ofList hlt hop
    rw [← stackAfter_concat (stackAfter_eq hshallow hbefore)] at hstack
    have hiff := ConditionStack.ofList_agrees_iff ((length_onList_le hop).trans hlt)
    simp [Agree, hstack, hafter, hiff]

/-- A false condition is pushed on a true one, turned, and both are popped. -/
theorem agree_iff_turned :
    (listAfter [pushBack true, pushBack false, toggleTop, popBack, popBack]).isSome ∧
      ∀ done, done <+: [pushBack true, pushBack false, toggleTop, popBack, popBack] →
        Agree done := by
  refine ⟨by decide, (agree_iff (by decide)).mpr fun done hdone l hl => ?_⟩
  have hle := (length_le_of_listAfter hl).trans hdone.length_le
  exact hle.trans_lt (by decide)

theorem after_replicate {n : Nat} (h : n ≤ 2 ^ 32) :
    listAfter (List.replicate n (pushBack true)) = some (List.replicate n true) ∧
      stackAfter (List.replicate n (pushBack true)) = .ok (.ofList (List.replicate n true)) := by
  induction n with
  | zero => exact ⟨rfl, rfl⟩
  | succ n ih =>
    obtain ⟨hlist, hstack⟩ := ih (Nat.le_of_succ_le h)
    have hlt : (List.replicate n true).length < 2 ^ 32 := by rwa [List.length_replicate]
    rw [List.replicate_succ', List.replicate_succ', listAfter_concat_eq_some_iff,
      stackAfter_concat hstack]
    exact ⟨⟨_, hlist, rfl⟩, onStack_ofList hlt rfl⟩

theorem not_agree_replicate {n : Nat} (h : n = 2 ^ 32) :
    (listAfter (List.replicate n (pushBack true))).isSome = true ∧
      ¬ Agree (List.replicate n (pushBack true)) := by
  obtain ⟨hlist, hstack⟩ := after_replicate h.le
  refine ⟨Option.isSome_of_eq_some hlist, ?_⟩
  rintro ⟨v, l, hv, hl, hagree⟩
  cases hstack.symm.trans hv
  cases hlist.symm.trans hl
  have hlt := (ConditionStack.ofList_agrees_iff (List.length_replicate.trans_le h.le)).mp hagree
  rw [List.length_replicate, h] at hlt
  exact lt_irrefl _ hlt

/-- **After 2³² conditions the stack is empty again**, and the list is not. -/
theorem not_agree_wrapped :
    (listAfter (List.replicate (2 ^ 32) (pushBack true))).isSome = true ∧
      ¬ Agree (List.replicate (2 ^ 32) (pushBack true)) := not_agree_replicate rfl

end ConditionOp

end Qbit
