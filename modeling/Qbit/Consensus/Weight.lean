import Mathlib.Algebra.Order.BigOperators.Group.List
import Qbit.Primitives.Block

/-!
# Sizes and weights

`GetSerializeSize` of a block and `GetBlockWeight` of `consensus/validation.h`, with the limits of
`consensus/consensus.h`.  The scale factor is 1, so that the weight is the size with witnesses.

A transaction's bytes contain the bytes of its inputs: `CTransaction.inputs_le_serialize` bounds
them from below by what every input needs outside its witness, and by the witnesses.
-/

open Bytes Checked

namespace Qbit

def maxBlockWeight : Nat := 2000000

def witnessScaleFactor : Nat := 1

/-- `GetSerializeSize` of a block, with or without the witnesses of its transactions. -/
def CBlock.getSerializeSize (allow_witness : Bool) (block : CBlock) : Result Nat := do
  let bytes ← block.serialize allow_witness
  return bytes.length

/-- `GetBlockWeight` -/
def getBlockWeight (block : CBlock) : Result Nat := do
  let stripped ← block.getSerializeSize false
  let total ← block.getSerializeSize true
  return stripped * (witnessScaleFactor - 1) + total

/-! ## What a transaction contains -/

/-- An input without its script and its witness is an outpoint, an empty script and a sequence
number: 41 bytes. -/
theorem CTxIn.le_length_serialize (i : CTxIn) : 41 ≤ i.serialize.length := by
  have hscript : 1 ≤ i.scriptSig.serialize.length := by
    rw [CScript.serialize, length_serBytes]
    have := length_writeCompactSize_pos i.scriptSig.bytes.length
    omega
  simp only [CTxIn.serialize, List.length_append, COutPoint.length_serialize, length_serUint32]
  omega

/-- **The inputs of a transaction with a witness fit into it**, each with its own witness. -/
theorem CTransaction.inputs_le_serialize {tx : CTransaction} (h : tx.hasWitness) :
    (tx.vin.map fun i => 41 + (serWitness i.scriptWitness).length).sum ≤
      (tx.serialize true).length := by
  have hinputs : (tx.vin.map fun i => 41 + (serWitness i.scriptWitness).length).sum ≤
      (tx.vin.map fun i => i.serialize.length).sum +
        (tx.vin.map fun i => (serWitness i.scriptWitness).length).sum := by
    rw [← List.sum_map_add]
    refine List.sum_le_sum fun i _ => ?_
    have := i.le_length_serialize
    omega
  rw [CTransaction.serialize, h]
  simp only [Bool.and_self, if_true, List.length_append, List.length_flatMap, length_serVector]
  omega

theorem CTransaction.length_vout_le (tx : CTransaction) :
    tx.vout.length ≤ (tx.serialize false).length := by
  have houtputs : tx.vout.length ≤ (tx.vout.map fun out => out.serialize.length).sum := by
    rw [← List.length_map fun out : CTxOut => out.serialize.length]
    refine List.length_le_sum_of_one_le _ fun n hn => ?_
    obtain ⟨out, -, rfl⟩ := List.mem_map.mp hn
    rw [CTxOut.serialize, List.length_append, length_serInt64]
    omega
  simp only [CTransaction.serialize, Bool.false_and, Bool.false_eq_true, if_false,
    List.length_append, length_serVector]
  omega

theorem vtx_le_of_getBlockWeight {block : CBlock} {weight : Nat}
    (h : getBlockWeight block = .ok weight) :
    (block.vtx.map fun tx => (tx.serialize true).length).sum ≤ weight := by
  obtain ⟨stripped, -, h⟩ := bind_eq_ok_iff.mp h
  obtain ⟨total, htotal, h⟩ := bind_eq_ok_iff.mp h
  obtain ⟨bytes, hbytes, htotal⟩ := bind_eq_ok_iff.mp htotal
  obtain ⟨header, -, hbytes⟩ := bind_eq_ok_iff.mp hbytes
  cases hbytes
  cases htotal
  cases h
  simp only [List.length_append, length_serVector]
  omega

end Qbit
