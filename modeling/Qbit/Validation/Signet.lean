import Qbit.Consensus.Merkle
import Qbit.Consensus.Params
import Qbit.Consensus.Validation
import Qbit.Script.Verify

/-!
# The solution of a signet block

`signet.cpp`.  On a signet the coinbase's witness commitment also holds a solution: an input script
and a witness that spend the challenge.  What is signed is the block without its solution, that is
its version, its parent, its time and the Merkle root of its transactions.
-/

open Bytes Checked

namespace Qbit

/-! ## Reading -/

/-- `MAX_SIZE` of `serialize.h`. -/
def maxSize : Nat := 0x02000000

/-- `ReadCompactSize`; `none` is its exception. -/
def readCompactSize : List UInt8 → Option (Nat × List UInt8)
  | [] => none
  | tag :: rest =>
    let width := compactSizeWidth tag
    let nSize := if width = 0 then tag.toNat else ofLE (rest.take width)
    if rest.length < width then none
    else if width = 2 ∧ nSize < 253 ∨ width = 4 ∧ nSize < 0x10000 ∨ width = 8 ∧ nSize < 0x100000000 then
      none
    else if maxSize < nSize then none
    else some (nSize, rest.drop width)

/-- Read a byte string behind its size. -/
def readBytes (bs : List UInt8) : Option (List UInt8 × List UInt8) := do
  let (nSize, rest) ← readCompactSize bs
  if rest.length < nSize then none else some (rest.take nSize, rest.drop nSize)

/-- Read a number of byte strings. -/
def readStack : Nat → List UInt8 → Option (List (List UInt8) × List UInt8)
  | 0, bs => some ([], bs)
  | n + 1, bs => do
    let (item, rest) ← readBytes bs
    let (stack, rest) ← readStack n rest
    return (item :: stack, rest)

/-! ## The two transactions -/

/-- `SIGNET_HEADER` -/
def signetHeader : List UInt8 := [0xec, 0xc7, 0xda, 0xa2]

/-- The loop of `FetchAndClearCommitmentSection` over the instructions of the commitment: the script
without the solution, and the solution once it was found. -/
def clearCommitmentSection : Option (List UInt8) → List (UInt8 × Valtype) →
    List UInt8 × Option (List UInt8)
  | found, [] => ([], found)
  | found, (opcode, pushdata) :: rest =>
    if pushdata.isEmpty then
      let (script, solution) := clearCommitmentSection found rest
      (opcode :: script, solution)
    else if found.isNone && decide (signetHeader.length < pushdata.length) &&
        pushdata.take signetHeader.length == signetHeader then
      let (script, solution) :=
        clearCommitmentSection (some (pushdata.drop signetHeader.length)) rest
      (pushData signetHeader ++ script, solution)
    else
      let (script, solution) := clearCommitmentSection found rest
      (pushData pushdata ++ script, solution)

/-- The input script and the witness of a solution; `none` is a parsing error or data left over. -/
def readSolution (solution : List UInt8) : Option (List UInt8 × List (List UInt8)) := do
  let (scriptSig, rest) ← readBytes solution
  let (nSize, rest) ← readCompactSize rest
  let (stack, rest) ← readStack nSize rest
  if rest.isEmpty then some (scriptSig, stack) else none

/-- `SignetTxs::Create`: the spending transaction, and the output that it spends. -/
def signetTxs (hash256 : HashFn) (block : CBlock) (challenge : List UInt8) :
    Option (CTransaction × CTxOut) :=
  match block.vtx with
  | [] => none
  | coinbase :: rest => do
    let cidx ← getWitnessCommitmentIndex block
    let commitment ← coinbase.vout[cidx]?
    let bytes := commitment.scriptPubKey.bytes
    let (cleared, solution) := clearCommitmentSection none (instructions bytes.length bytes).1
    let vout := if solution.isSome then
        coinbase.vout.set cidx { commitment with scriptPubKey := .ofBytes cleared }
      else coinbase.vout
    let (scriptSig, witness) ← match solution with
      | none => some ([], [])
      | some solution => readSolution solution
    let modified_cb : CTransaction := { coinbase with vout }
    let signet_merkle :=
      (computeMerkleRoot hash256 ((modified_cb :: rest).map fun tx => tx.getHash hash256)).1
    let block_data := serInt32 block.nVersion ++ serUint256 block.hashPrevBlock ++
      serUint256 signet_merkle ++ serUint32 block.nTime
    let txout : CTxOut := { nValue := 0, scriptPubKey := .ofBytes challenge }
    let m_to_spend : CTransaction :=
      { version := 0
        vin := [{ prevout := {}, scriptSig := .ofBytes (op0 :: pushData block_data), nSequence := 0 }]
        vout := [txout] }
    let prevout : COutPoint := { hash := m_to_spend.getHash hash256, n := 0 }
    let m_to_sign : CTransaction :=
      { version := 0
        vin := [{ prevout, scriptSig := .ofBytes scriptSig, nSequence := 0, scriptWitness := witness }]
        vout := [{ nValue := 0, scriptPubKey := .ofBytes [opReturn] }] }
    return (m_to_sign, txout)

/-- `BLOCK_SCRIPT_VERIFY_FLAGS` -/
def signetScriptFlags : VerifyFlags := {.p2sh, .witness, .dersig, .nulldummy}

/-- `CheckSignetBlockSolution` -/
def checkSignetBlockSolution (C : Crypto) (block : CBlock) (params : Params) : BlockCheck Bool :=
  if block.getHash C.hash256 = params.hashGenesisBlock then .ok true
  else match signetTxs C.hash256 block params.signet_challenge with
  | none => .ok false
  | some (m_to_sign, txout) => do
    let txdata ← liftFault (PrecomputedTransactionData.init C m_to_sign [txout])
    match m_to_sign.vin with
    | [] => return false
    | txin :: _ =>
      match verifyScript C signetScriptFlags
          (transactionSignatureChecker C m_to_sign 0 txout.nValue txdata) txin.scriptWitness
          txin.scriptSig.bytes txout.scriptPubKey.bytes with
      | .ok _ => return true
      | .error (.invalid _) => return false
      | .error (.fault f) => .error (.scriptFault f)

end Qbit
