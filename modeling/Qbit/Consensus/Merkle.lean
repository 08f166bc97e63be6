import Qbit.Primitives.Block
import Qbit.Script.Script

/-!
# Merkle roots of a block

`ComputeMerkleRoot` of `consensus/merkle.cpp` and the two roots of a block, with the search for the
witness commitment of `consensus/validation.h`.
-/

namespace Qbit

/-- One level of the tree: the hashes of neighbours, the last hash paired with itself if there is an
odd number. -/
def pairUp (hash256 : HashFn) : List Uint256 → List Uint256
  | a :: b :: rest => hash256 (serUint256 a ++ serUint256 b) :: pairUp hash256 rest
  | [a] => [hash256 (serUint256 a ++ serUint256 a)]
  | [] => []

/-- Whether two neighbours are equal. -/
def hasEqualPair : List Uint256 → Bool
  | a :: b :: rest => a == b || hasEqualPair rest
  | _ => false

/-- The loop of `ComputeMerkleRoot`, with `mutation`. -/
def merkleLevels (hash256 : HashFn) : Nat → List Uint256 → Bool → Uint256 × Bool
  | 0, hashes, mutation => (hashes.headD 0, mutation)
  | fuel + 1, hashes, mutation =>
    if 1 < hashes.length then
      merkleLevels hash256 fuel (pairUp hash256 hashes) (mutation || hasEqualPair hashes)
    else (hashes.headD 0, mutation)

variable (hash256 : HashFn)

/-- `ComputeMerkleRoot`.  Every level is shorter than the one below, so as many turns as there are
hashes are enough: `merkleLevels_fuel`. -/
def computeMerkleRoot (hashes : List Uint256) : Uint256 × Bool :=
  merkleLevels hash256 hashes.length hashes false

theorem length_pairUp (hashes : List Uint256) :
    (pairUp hash256 hashes).length = (hashes.length + 1) / 2 := by
  fun_induction pairUp hash256 hashes with grind

/-- More fuel than there are hashes changes nothing. -/
theorem merkleLevels_fuel {fuel : Nat} {hashes : List Uint256} {mutation : Bool}
    (h : hashes.length ≤ fuel) :
    merkleLevels hash256 fuel hashes mutation =
      merkleLevels hash256 hashes.length hashes mutation := by
  induction fuel using Nat.strong_induction_on generalizing hashes mutation with
  | _ fuel ih =>
    match fuel, hashes with
    | 0, hashes =>
      rw [Nat.le_zero.mp h]
    | fuel + 1, [] => simp [merkleLevels]
    | fuel + 1, a :: rest =>
      rw [List.length_cons] at h ⊢
      simp only [merkleLevels]
      split
      · rename_i hlong
        have hshort := length_pairUp hash256 (a :: rest)
        rw [List.length_cons] at hshort hlong
        rw [ih fuel (by omega) (by omega)]
        by_cases heq : rest.length = fuel
        · rw [heq, ih fuel (by omega) (by omega)]
        · rw [ih rest.length (by omega) (by omega)]
      · rfl

variable (block : CBlock)

/-- `BlockMerkleRoot`, with `mutated`. -/
def blockMerkleRoot : Uint256 × Bool :=
  computeMerkleRoot hash256 (block.vtx.map fun tx => tx.getHash hash256)

/-- `BlockWitnessMerkleRoot`.  The witness hash of the coinbase is 0. -/
def blockWitnessMerkleRoot : Uint256 :=
  (computeMerkleRoot hash256 (0 :: block.vtx.tail.map fun tx => tx.getWitnessHash hash256)).1

/-! ## Witness commitments -/

/-- `MINIMUM_WITNESS_COMMITMENT` -/
def minimumWitnessCommitment : Nat := 38

/-- An output that commits to witnesses. -/
def CTxOut.commitsToWitness (out : CTxOut) : Bool :=
  decide (minimumWitnessCommitment ≤ out.scriptPubKey.bytes.length) &&
    out.scriptPubKey.bytes.take 6 == [opReturn, 0x24, 0xaa, 0x21, 0xa9, 0xed]

/-- `GetWitnessCommitmentIndex`: the last such output of the coinbase. -/
def getWitnessCommitmentIndex : Option Nat :=
  match block.vtx with
  | [] => none
  | coinbase :: _ =>
    (coinbase.vout.zipIdx.filter fun out => out.1.commitsToWitness).getLast?.map Prod.snd

/-- `HasAnyWitnessData` -/
def hasAnyWitnessData : Bool := block.vtx.any CTransaction.hasWitness

end Qbit
