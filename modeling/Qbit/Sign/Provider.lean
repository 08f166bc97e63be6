import Mathlib.Data.List.Lex
import Mathlib.Data.List.Sort
import Qbit.Wallet.DescriptorMan

/-!
# Signing providers

`FlatSigningProvider` of `script/signingprovider.cpp`, as far as it deals with P2MR outputs: the PQC
keys with the counters that the provider has seen, where it reserves counters, and the scripts of
the outputs.

A builder of an output is represented by the spending data that it computes.  The reservers are
functions in the source; here they are of an arbitrary type `ρ`.
-/

namespace Qbit

/-! ## Spending data -/

/-- `ShortestVectorFirstComparator` -/
def ShortestVectorFirst (a b : List UInt8) : Prop :=
  a.length < b.length ∨ a.length = b.length ∧ (a.map UInt8.toNat ≤ b.map UInt8.toNat)

instance : DecidableRel ShortestVectorFirst := fun _ _ => inferInstanceAs (Decidable (_ ∨ _ ∧ _))

/-- A set of control blocks, the shortest first. -/
abbrev ControlBlocks := List (List UInt8)

/-- `std::set::insert` -/
def ControlBlocks.add (blocks : ControlBlocks) (control_block : List UInt8) : ControlBlocks :=
  if control_block ∈ blocks then blocks
  else blocks.orderedInsert ShortestVectorFirst control_block

/-- `P2MRSpendData`: the control blocks of each leaf script with its leaf version. -/
structure P2MRSpendData where
  scripts : AList fun _ : List UInt8 × Int => ControlBlocks := ∅

/-- `P2MRSpendData::Merge` -/
def P2MRSpendData.merge (data other : P2MRSpendData) : P2MRSpendData where
  scripts := other.scripts.entries.foldl (fun scripts leaf =>
    scripts.insert leaf.1 (leaf.2.foldl ControlBlocks.add ((scripts.lookup leaf.1).getD [])))
    data.scripts

/-! ## The provider -/

/-- `FlatSigningProvider` -/
structure FlatSigningProvider (ρ : Type) where
  pqc_keys : KeyMap CPQCKey := ∅
  pqc_sig_counters : KeyMap UInt32 := ∅
  pqc_counter_reserver : Option ρ := none
  pqc_counter_batch_reserver : Option ρ := none
  p2mr_spenddata : KeyMap P2MRSpendData := ∅
  mr_trees : KeyMap P2MRSpendData := ∅

namespace FlatSigningProvider

variable {ρ : Type}

/-- The counters after a merge: the greater one of each key. -/
def mergeCounters (counters other : KeyMap UInt32) : KeyMap UInt32 :=
  other.entries.foldl (fun counters entry =>
    match counters.lookup entry.1 with
    | none => counters.insert entry.1 entry.2
    | some counter => if counter < entry.2 then counters.insert entry.1 entry.2 else counters)
    counters

/-- `Merge` -/
def merge (a b : FlatSigningProvider ρ) : FlatSigningProvider ρ where
  pqc_keys := a.pqc_keys ∪ b.pqc_keys
  pqc_sig_counters := mergeCounters a.pqc_sig_counters b.pqc_sig_counters
  pqc_counter_reserver := a.pqc_counter_reserver.or b.pqc_counter_reserver
  pqc_counter_batch_reserver := a.pqc_counter_batch_reserver.or b.pqc_counter_batch_reserver
  p2mr_spenddata := b.p2mr_spenddata.entries.foldl (fun data entry =>
    data.insert entry.1 (((data.lookup entry.1).getD {}).merge entry.2)) a.p2mr_spenddata
  mr_trees := a.mr_trees ∪ b.mr_trees

end FlatSigningProvider

end Qbit
