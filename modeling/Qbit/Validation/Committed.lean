import Qbit.AuxPow.Unique
import Qbit.Script.Commitments
import Qbit.Validation.CheckBlock

/-!
# What a block commits to

`ComputeMerkleRoot` pairs the last hash of an odd level with itself, so a list and the same list with
its end repeated have the same root.  It reports equal neighbours as a mutation, and this is enough:
blocks with the same root that pass `CheckMerkleRoot` have the same transactions, up to the witnesses
(`serialize_eq_of_checkMerkleRoot`).  The trees have to be of one depth, since nothing tells a node
from a leaf.

The witnesses are committed to by the coinbase, in a tree with as many leaves
(`witnessHashes_eq_of_contextualCheckBlock`).
-/

namespace Qbit

open Merkle Auxpow Checked

/-- The strings that are hashed for the level above some hashes. -/
def pairInputs : List Uint256 → List (List UInt8)
  | a :: b :: rest => hashPair a b :: pairInputs rest
  | [a] => [hashPair a a]
  | [] => []

/-- No string that is hashed in one tree collides with one hashed at the same height of the other. -/
def NoTreeCollision (hash256 : HashFn) (n : Nat) (xs ys : List Uint256) : Prop :=
  ∀ k < n, NoCollision hash256 (pairInputs ((pairUp hash256)^[k] xs))
    (pairInputs ((pairUp hash256)^[k] ys))

section Tree

variable {hash256 : HashFn} {xs ys : List Uint256}

theorem pairUp_eq : pairUp hash256 xs = (pairInputs xs).map hash256 := by
  fun_induction pairUp hash256 xs <;> simp_all [pairInputs, hashPair]

/-- The hashes can be read off these strings, if their number is known or no neighbours are equal. -/
theorem pairInputs_inj
    (hpairs : xs.length = ys.length ∨ hasEqualPair xs = false ∧ hasEqualPair ys = false)
    (h : pairInputs xs = pairInputs ys) : xs = ys := by
  fun_induction pairInputs xs generalizing ys with
  | case1 a b rest ih =>
    match ys with
    | [] => cases h
    | [c] =>
      obtain ⟨rfl, rfl⟩ := pairInjective_hashPair (List.cons.inj h).1
      simp [hasEqualPair] at hpairs
    | c :: d :: rest' =>
      obtain ⟨hhead, htail⟩ := List.cons.inj h
      obtain ⟨rfl, rfl⟩ := pairInjective_hashPair hhead
      rw [ih (by grind [hasEqualPair]) htail]
  | case2 a =>
    match ys with
    | [] => cases h
    | [c] => rw [(pairInjective_hashPair (List.cons.inj h).1).1]
    | c :: d :: rest =>
      obtain ⟨rfl, rfl⟩ := pairInjective_hashPair (List.cons.inj h).1
      simp [hasEqualPair] at hpairs
  | case3 =>
    match ys with
    | [] => rfl
    | [_] | _ :: _ :: _ => cases h

/-- A mutation that was seen is reported. -/
theorem merkleLevels_unmutated {n : Nat} {mutation : Bool}
    (h : (merkleLevels hash256 n xs mutation).2 = false) : mutation = false := by
  induction n generalizing xs mutation with
  | zero => exact h
  | succ n ih =>
    rw [merkleLevels] at h
    split at h
    · exact (Bool.or_eq_false_iff.mp (ih h)).1
    · exact h

/-- **Trees of one depth with the same root have the same leaves**, if they have as many or neither
is reported as mutated. -/
theorem merkleLevels_inj {n m : Nat} {b c : Bool} (hfree : NoTreeCollision hash256 n xs ys)
    (hxs : 0 < xs.length) (hys : 0 < ys.length) (hn : xs.length ≤ n) (hm : ys.length ≤ m)
    (hdepth : ∀ k, xs.length ≤ 2 ^ k ↔ ys.length ≤ 2 ^ k)
    (hpairs : xs.length = ys.length ∨
      (merkleLevels hash256 n xs b).2 = false ∧ (merkleLevels hash256 m ys c).2 = false)
    (hroot : (merkleLevels hash256 n xs b).1 = (merkleLevels hash256 m ys c).1) : xs = ys := by
  induction n generalizing xs ys m b c with
  | zero => omega
  | succ n ih =>
    obtain _ | m := m
    · omega
    have hlong : 1 < xs.length ↔ 1 < ys.length := by
      have := hdepth 0
      omega
    rw [merkleLevels, merkleLevels] at hroot hpairs
    by_cases hx : 1 < xs.length
    · rw [if_pos hx, if_pos (hlong.mp hx)] at hroot hpairs
      -- The level above is the same, by induction.
      have hnext : pairUp hash256 xs = pairUp hash256 ys := by
        refine ih (fun k hk => hfree (k + 1) (by omega)) ?_ ?_ ?_ ?_ (fun k => ?_)
          (hpairs.imp_left fun h => ?_) hroot
        on_goal 5 => have := hdepth (k + 1)
        all_goals
          simp only [length_pairUp, pow_succ] at *
          omega
      rw [pairUp_eq, pairUp_eq] at hnext
      refine pairInputs_inj (hpairs.imp_right fun h => ⟨?_, ?_⟩)
        ((hfree 0 (by omega)).eq_of_map_eq hnext)
      · exact (Bool.or_eq_false_iff.mp (merkleLevels_unmutated h.1)).2
      · exact (Bool.or_eq_false_iff.mp (merkleLevels_unmutated h.2)).2
    · rw [if_neg hx, if_neg (hlong.not.mp hx)] at hroot
      obtain ⟨x, rfl⟩ : ∃ x, xs = [x] := List.length_eq_one_iff.mp (by omega)
      obtain ⟨y, rfl⟩ : ∃ y, ys = [y] := List.length_eq_one_iff.mp (by omega)
      exact congrArg (fun x => [x]) hroot

end Tree

/-- **The Merkle root of a block commits to its transactions**, up to their witnesses. -/
theorem serialize_eq_of_checkMerkleRoot {C : Crypto} {block block' : CBlock}
    (hroot : block.hashMerkleRoot = block'.hashMerkleRoot)
    (hcheck : checkMerkleRoot C block = .ok ()) (hcheck' : checkMerkleRoot C block' = .ok ())
    (hvtx : 0 < block.vtx.length) (hvtx' : 0 < block'.vtx.length)
    (hdepth : ∀ k, block.vtx.length ≤ 2 ^ k ↔ block'.vtx.length ≤ 2 ^ k)
    (hfree : NoCollision C.hash256 (block.vtx.map (CTransaction.serialize false))
      (block'.vtx.map (CTransaction.serialize false)))
    (htree : NoTreeCollision C.hash256 block.vtx.length
      (block.vtx.map (CTransaction.getHash C.hash256))
      (block'.vtx.map (CTransaction.getHash C.hash256))) :
    block.vtx.map (CTransaction.serialize false) =
      block'.vtx.map (CTransaction.serialize false) := by
  simp [checkMerkleRoot] at hcheck hcheck'
  refine hfree.eq_of_map_eq ?_
  rw [List.map_map, List.map_map]
  rw [← List.length_map (CTransaction.getHash C.hash256)] at htree
  refine merkleLevels_inj htree (by simpa) (by simpa) le_rfl le_rfl (by simpa)
    (.inr ⟨hcheck.2, hcheck'.2⟩) ?_
  exact hcheck.1.symm.trans (hroot.trans hcheck'.1)

/-- A block of three transactions, whose coinbase has a witness. -/
def rootedBlock (witness : List (List UInt8)) : CBlock :=
  let vtx := [CAuxPow.sampleCoinbase witness, templateTx 0 .empty, templateTx 1 .empty]
  { vtx, hashMerkleRoot := (blockMerkleRoot foldCrypto.hash256 { vtx }).1 }

/-- Blocks that differ in a witness. -/
theorem serialize_eq_of_checkMerkleRoot_witness :
    rootedBlock [] ≠ rootedBlock [[1]] ∧
      (rootedBlock []).vtx.map (CTransaction.serialize false) =
        (rootedBlock [[1]]).vtx.map (CTransaction.serialize false) := by
  refine ⟨by decide +kernel, serialize_eq_of_checkMerkleRoot (C := foldCrypto) (by decide +kernel)
    (by decide +kernel) (by decide +kernel) (by decide) (by decide) (fun _ => Iff.rfl) ?_ ?_⟩
  · unfold NoCollision
    decide +kernel
  · unfold NoTreeCollision NoCollision
    decide +kernel

/-! ## Witnesses -/

/-- The leaves of the witness tree. -/
def witnessHashes (hash256 : HashFn) (block : CBlock) : List Uint256 :=
  0 :: block.vtx.tail.map (CTransaction.getWitnessHash hash256)

/-- The string whose hash the coinbase holds: the root of that tree and the coinbase's witness. -/
def commitmentInput (hash256 : HashFn) (block : CBlock) : List UInt8 :=
  serUint256 (blockWitnessMerkleRoot hash256 block) ++
    ((block.vtx.head?.bind fun tx => tx.vin.head?).map (·.scriptWitness.flatten)).getD []

section Witnesses

variable {C : Crypto} {params : Params} {block block' : CBlock} {pos : Nat}
  {pindexPrev pindex pindex' : Option CBlockIndex}

theorem checkWitnessMalleation_eq_ok (hpos : getWitnessCommitmentIndex block = some pos)
    (hcheck : checkWitnessMalleation C block true false = .ok ()) :
    ∃ coinbase vtx, block.vtx = coinbase :: vtx ∧
      serUint256 (C.hash256 (commitmentInput C.hash256 block)) =
        ((coinbase.vout[pos]?).map fun out => (out.scriptPubKey.bytes.drop 6).take 32).getD [] := by
  rw [checkWitnessMalleation, if_pos rfl, hpos] at hcheck
  simp only [Bool.false_and, Bool.false_eq_true, if_false] at hcheck
  split at hcheck
  · next hvtx =>
    split at hcheck
    · next hnonce =>
      refine ⟨_, _, hvtx, ?_⟩
      simp at hcheck
      simp [commitmentInput, hvtx, hnonce, hcheck]
    · simp [invalid] at hcheck
  · cases hcheck

theorem checkWitnessMalleation_of_contextualCheckBlock
    (hactive : deploymentActiveAfter pindexPrev params.SegwitHeight)
    (hcheck : contextualCheckBlock C params block pindexPrev pindex false = .ok ()) :
    checkWitnessMalleation C block true false = .ok () := by
  simp only [contextualCheckBlock, bind_eq_ok_iff, hactive] at hcheck
  obtain ⟨_, _, _, _, _, _, _, _, _, hwitness, _⟩ := hcheck
  exact hwitness

/-- **The witness commitment binds all witnesses**, although the mutation report of the witness tree
is ignored: there are as many leaves as transactions, whose number is known. -/
theorem witnessHashes_eq_of_contextualCheckBlock
    (hvout : block.vtx.map CTransaction.vout = block'.vtx.map CTransaction.vout)
    (hpos : getWitnessCommitmentIndex block = some pos)
    (hactive : deploymentActiveAfter pindexPrev params.SegwitHeight)
    (hcheck : contextualCheckBlock C params block pindexPrev pindex false = .ok ())
    (hcheck' : contextualCheckBlock C params block' pindexPrev pindex' false = .ok ())
    (hfree : NoCollision C.hash256 [commitmentInput C.hash256 block]
      [commitmentInput C.hash256 block'])
    (htree : NoTreeCollision C.hash256 block.vtx.length (witnessHashes C.hash256 block)
      (witnessHashes C.hash256 block')) :
    commitmentInput C.hash256 block = commitmentInput C.hash256 block' ∧
      witnessHashes C.hash256 block = witnessHashes C.hash256 block' := by
  obtain ⟨coinbase, vtx, hvtx, hcommitted⟩ := checkWitnessMalleation_eq_ok hpos
    (checkWitnessMalleation_of_contextualCheckBlock hactive hcheck)
  have hpos' : getWitnessCommitmentIndex block' = some pos := by
    rw [← hpos, getWitnessCommitmentIndex, getWitnessCommitmentIndex]
    cases hb : block'.vtx <;> simp_all
  obtain ⟨coinbase', vtx', hvtx', hcommitted'⟩ := checkWitnessMalleation_eq_ok hpos'
    (checkWitnessMalleation_of_contextualCheckBlock hactive hcheck')
  rw [hvtx, hvtx'] at hvout
  obtain ⟨hcoinbase, hrest⟩ := List.cons.inj hvout
  rw [hcoinbase, ← hcommitted'] at hcommitted
  have hinput := hfree _ (by simp) _ (by simp) (serUint256_injective hcommitted)
  have hlen : (witnessHashes C.hash256 block).length =
      (witnessHashes C.hash256 block').length := by
    simpa [witnessHashes, hvtx, hvtx'] using congrArg List.length hrest
  have hn : block.vtx.length = (witnessHashes C.hash256 block).length := by
    simp [witnessHashes, hvtx]
  rw [hn] at htree
  exact ⟨hinput, merkleLevels_inj htree Nat.succ_pos' Nat.succ_pos' le_rfl le_rfl
    (fun _ => hlen ▸ Iff.rfl) (.inl hlen)
    (serUint256_injective (List.append_inj hinput (by simp)).1)⟩

end Witnesses

/-- A block of two transactions that commits to the witness of the second. -/
def committedBlock (nNonce : UInt32) : CBlock :=
  let spend := { templateTx 0 .empty with vin := [{ prevout := {}, scriptWitness := [[1]] }] }
  let root := (computeMerkleRoot foldCrypto.hash256 [0, spend.getWitnessHash foldCrypto.hash256]).1
  let nonce := List.replicate 32 0
  let script := [opReturn, 0x24, 0xaa, 0x21, 0xa9, 0xed] ++
    serUint256 (foldCrypto.hash256 (serUint256 root ++ nonce))
  { nNonce, vtx := [
    { vin := [{ prevout := {}, scriptSig := .ofBytes [op1], scriptWitness := [nonce] }]
      vout := [{ nValue := 0, scriptPubKey := .ofBytes script }] }, spend] }

theorem witnessHashes_eq_of_contextualCheckBlock_nonce :
    commitmentInput foldCrypto.hash256 (committedBlock 0) =
      commitmentInput foldCrypto.hash256 (committedBlock 1) := by
  refine (@witnessHashes_eq_of_contextualCheckBlock foldCrypto mainParams (committedBlock 0) _ 0
    (some (addToBlockIndex foldCrypto.hash256 none mainGenesis)) none none rfl (by decide +kernel)
    (by decide +kernel) (by decide +kernel) (by decide +kernel) ?_ ?_).1
  · unfold NoCollision
    decide +kernel
  · unfold NoTreeCollision NoCollision
    decide +kernel

end Qbit
