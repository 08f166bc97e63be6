import Qbit.Script.Interpreter

/-!
# Script verification

`VerifyScript` of `script/interpreter.cpp` and what it calls: the evaluation of the two scripts of
an input, of the script behind a script hash, and of witness programs.  A verification that succeeds
returns the PQC verifications that were made in it.

A witness is a list with the top of the stack last.  Its reverse is therefore a stack, and popping
from the back of the witness is taking the head of the reverse.
-/

open Bytes Checked

namespace Qbit

/-! ## Witness programs -/

def witnessV0ScripthashSize : Nat := 32
def witnessV0KeyhashSize : Nat := 20
def witnessV1TaprootSize : Nat := 32
def witnessV2P2MRSize : Nat := 32
def taprootLeafMask : UInt8 := 0xfe
def taprootLeafTapscript : UInt8 := 0xc0
def p2mrLeafVersionV1 : UInt8 := 0xc0

/-- A control block is its base followed by at most 128 nodes of 32 bytes. -/
def isControlSize (base size : Nat) : Bool :=
  base ≤ size && size ≤ base + 32 * 128 && (size - base) % 32 == 0

def taprootControlBaseSize : Nat := 33
def p2mrControlBaseSize : Nat := 1

/-- `VerifyP2MRCommitment`: the program is the Merkle root. -/
def verifyP2MRCommitment (C : Crypto) (control program : Valtype) (leaf_hash : Uint256) : Bool :=
  let path := control.drop p2mrControlBaseSize
  serUint256 (C.merkleRoot "P2MRBranch" (path.length / 32) path leaf_hash) == program

/-- `VerifyTaprootCommitment`: the program is the internal key tweaked by the Merkle root. -/
def verifyTaprootCommitment (C : Crypto) (control program : Valtype) (tapleaf_hash : Uint256) :
    Bool :=
  let path := control.drop taprootControlBaseSize
  let merkle_root := C.merkleRoot "TapBranch" (path.length / 32) path tapleaf_hash
  let p := (control.take taprootControlBaseSize).drop 1
  C.checkTapTweak program p merkle_root (control.headD 0 &&& 1 == 1)

/-- The first scan of a Tapscript or P2MR script: true if it has an `OP_SUCCESSx`, which ends the
verification with success. -/
def scanOpSuccess (flags : VerifyFlags) (sigversion : SigVersion) (script : List UInt8) :
    Eval Bool :=
  let ops := instructions script.length script
  let known (opcode : UInt8) : Bool := sigversion = .p2mr ∧
    (opcode = opChecktemplateverify ∨ opcode = opCheckdatasigpqc ∨ opcode = opCheckdatasigaddpqc)
  if ops.1.any fun op => isOpSuccess op.1 && !known op.1 then
    if .discourageOpSuccess ∈ flags then setError .discourageOpSuccess else .ok true
  else if ops.2 then .ok false
  else setError .badOpcode

variable (C : Crypto) (flags : VerifyFlags) (checker : BaseSignatureChecker)

/-- `ExecuteWitnessScript` -/
def executeWitnessScript (sigversion : SigVersion) (stack : Stack) (exec_script : List UInt8)
    (execdata : ScriptExecutionData) : Eval (List PQCVerification) := do
  let tapscript := sigversion = .tapscript ∨ sigversion = .p2mr
  let success ← (if tapscript then scanOpSuccess flags sigversion exec_script else return false)
  if success then return []
  else if tapscript ∧ stack.length > maxStackSize then setError .stackSize
  else if sigversion ≠ .p2mr ∧ stack.any (·.length > maxScriptElementSize) then setError .pushSize
  else
    let s ← evalScript { crypto := C, flags, checker, sigversion } stack exec_script execdata
    match s.stack with
    | [top] => if castToBool top then return s.pqcVerifications else setError .evalFalse
    | _ => setError .cleanstack

/-- `CheckP2MRV1InitialStackResourceLimits` -/
def checkP2MRV1InitialStackResourceLimits (stack : Stack) : Eval Unit :=
  if stack.length > maxStackSize then setError .stackSize
  else if stack.any (·.length > maxP2MRV1StackItemSize) then setError .pushSize
  else if (stack.map List.length).sum > maxP2MRV1TotalInitialStackBytes then setError .pushSize
  else .ok ()

/-- The annex, if there is one, and the stack without it. -/
def splitAnnex (C : Crypto) : Stack → Option Uint256 × Stack
  | annex :: x :: stack =>
    if annex.head? = some annexTag then (some (C.sha256 (serBytes annex)), x :: stack)
    else (none, annex :: x :: stack)
  | stack => (none, stack)

variable (witness : List Valtype)

/-- The validation weight of an input: the size of its serialized witness, and some more. -/
def validationWeight : Int :=
  (serWitness witness).length + validationWeightOffset

/-- `VerifyWitnessProgram` for version 0. -/
def verifyWitnessV0 (stack : Stack) (program : Valtype) : Eval (List PQCVerification) :=
  if program.length = witnessV0ScripthashSize then
    match stack with
    | [] => setError .witnessProgramWitnessEmpty
    | exec_script :: stack =>
      if serUint256 (C.sha256 exec_script) ≠ program then setError .witnessProgramMismatch
      else executeWitnessScript C flags checker .witnessV0 stack exec_script {}
  else if program.length = witnessV0KeyhashSize then
    if stack.length ≠ 2 then setError .witnessProgramMismatch
    else executeWitnessScript C flags checker .witnessV0 stack
      ([opDup, opHash160] ++ pushData program ++ [opEqualverify, opChecksig]) {}
  else setError .witnessProgramWrongLength

/-- `VerifyWitnessProgram` for Taproot. -/
def verifyTaproot (program : Valtype) : Eval (List PQCVerification) :=
  if .taproot ∉ flags then .ok []
  else
    let (annex, stack) := splitAnnex C witness.reverse
    let execdata : ScriptExecutionData := { m_annex := some annex }
    match stack with
    | [] => setError .witnessProgramWitnessEmpty
    | [sig] => do
      let _ ← checker.checkSchnorrSignature sig program .taproot execdata
      return []
    | control :: script :: stack =>
      if !isControlSize taprootControlBaseSize control.length then
        setError .taprootWrongControlSize
      else
        let leaf_version := control.headD 0 &&& taprootLeafMask
        let tapleaf_hash := C.computeTapleafHash leaf_version script
        if !verifyTaprootCommitment C control program tapleaf_hash then
          setError .witnessProgramMismatch
        else if leaf_version = taprootLeafTapscript then
          executeWitnessScript C flags checker .tapscript stack script { execdata with
            m_tapleaf_hash := some tapleaf_hash
            m_validation_weight_left := some (validationWeight witness) }
        else if .discourageUpgradableTaprootVersion ∈ flags then
          setError .discourageUpgradableTaprootVersion
        else .ok []

/-- `VerifyWitnessProgram` for P2MR. -/
def verifyP2MR (program : Valtype) : Eval (List PQCVerification) :=
  if .p2mrRules ∉ flags then .ok []
  else
    let (annex, stack) := splitAnnex C witness.reverse
    match stack with
    | control :: script :: stack =>
      if !isControlSize p2mrControlBaseSize control.length then setError .p2mrWrongControlSize
      else if control.headD 0 &&& 0x01 ≠ 1 then setError .p2mrControlBit0
      else
        let leaf_version := control.headD 0 &&& taprootLeafMask
        let leaf_hash := C.computeP2MRLeafHash leaf_version script
        if !verifyP2MRCommitment C control program leaf_hash then setError .witnessProgramMismatch
        else if leaf_version = p2mrLeafVersionV1 then do
          checkP2MRV1InitialStackResourceLimits stack
          executeWitnessScript C flags checker .p2mr stack script
            { m_annex := some annex
              m_tapleaf_hash := some leaf_hash
              m_validation_weight_left := some (validationWeight witness) }
        else if .discourageUpgradableTaprootVersion ∈ flags then
          setError .discourageUpgradableTaprootVersion
        else .ok []
    | _ => setError .witnessProgramWitnessEmpty

/-- `VerifyWitnessProgram` -/
def verifyWitnessProgram (witversion : Nat) (program : Valtype) (is_p2sh : Bool) :
    Eval (List PQCVerification) :=
  if witversion = 0 then verifyWitnessV0 C flags checker witness.reverse program
  else if witversion = 1 ∧ program.length = witnessV1TaprootSize ∧ !is_p2sh then
    verifyTaproot C flags checker witness program
  else if witversion = 2 ∧ program.length = witnessV2P2MRSize ∧ !is_p2sh then
    verifyP2MR C flags checker witness program
  else if !is_p2sh ∧ isPayToAnchor witversion program then .ok []
  else if .discourageUpgradableWitnessProgram ∈ flags then
    setError .discourageUpgradableWitnessProgram
  else .ok []

/-! ## The whole input -/

/-- What `VerifyScript` carries from part to part. -/
structure VerifyState where
  stack : Stack
  hadWitness : Bool := false
  pqcVerifications : List PQCVerification

/-- The script must leave a true value on the stack. -/
def checkStackTrue (stack : Stack) : Eval Unit :=
  match stack with
  | [] => setError .evalFalse
  | top :: _ => if castToBool top then .ok () else setError .evalFalse

section VerifyScript

variable (C : Crypto) (flags : VerifyFlags) (checker : BaseSignatureChecker)
  (witness : List Valtype)

/-- Evaluate a script outside a witness. -/
def evalBase (stack : Stack) (script : List UInt8) : Eval EvalState :=
  evalScript { crypto := C, flags, checker, sigversion := .base } stack script {}

/-- If `script` is a witness program, verify it; `malleated` is the error if there is more than
the program asks for.  The stack is cut to one element then. -/
def verifyIfWitnessProgram (script : List UInt8) (is_p2sh clean : Bool) (malleated : ScriptError)
    (v : VerifyState) : Eval VerifyState :=
  if .witness ∉ flags then .ok v
  else match isWitnessProgram script with
    | none => .ok v
    | some (version, program) =>
      if !clean then setError malleated
      else do
        let calls ← verifyWitnessProgram C flags checker witness version program is_p2sh
        return {
          stack := v.stack.reverse.take 1
          hadWitness := true
          pqcVerifications := v.pqcVerifications ++ calls }

/-- The part of `VerifyScript` for outputs that pay to a script hash; `stackCopy` is the stack that
the input's script left. -/
def verifyP2SH (scriptSig : List UInt8) (stackCopy : Stack) (v : VerifyState) : Eval VerifyState :=
  if !isPushOnly scriptSig then setError .sigPushonly
  else match stackCopy with
    | [] => .error (.fault .assertion)
    | pubKey2 :: stack => do
      let s ← evalBase C flags checker stack pubKey2
      checkStackTrue s.stack
      verifyIfWitnessProgram C flags checker witness pubKey2 true (scriptSig == pushData pubKey2)
        .witnessMalleatedP2SH
        { v with stack := s.stack, pqcVerifications := v.pqcVerifications ++ s.pqcVerifications }

/-- The last checks of `VerifyScript`. -/
def checkCleanStackAndWitness (v : VerifyState) : Eval Unit := do
  (if .cleanstack ∈ flags then do
    Eval.require (.p2sh ∈ flags)
    Eval.require (.witness ∈ flags)
    if v.stack.length ≠ 1 then setError .cleanstack
    else return ()
  else return ())
  if .witness ∈ flags then
    Eval.require (.p2sh ∈ flags)
    if !v.hadWitness ∧ !witness.isEmpty then setError .witnessUnexpected else return ()
  else return ()

/-- `VerifyScript`: the PQC verifications that were made, if the input is accepted. -/
def verifyScript (scriptSig scriptPubKey : List UInt8) : Eval (List PQCVerification) :=
  if .sigpushonly ∈ flags ∧ !isPushOnly scriptSig then setError .sigPushonly
  else do
    let s ← evalBase C flags checker [] scriptSig
    let t ← evalBase C flags checker s.stack scriptPubKey
    checkStackTrue t.stack
    let v ← verifyIfWitnessProgram C flags checker witness scriptPubKey false scriptSig.isEmpty
      .witnessMalleated
      { stack := t.stack, pqcVerifications := s.pqcVerifications ++ t.pqcVerifications }
    let v ← (if .p2sh ∈ flags ∧ isPayToScriptHash scriptPubKey then
        verifyP2SH C flags checker witness scriptSig s.stack v
      else return v)
    checkCleanStackAndWitness flags witness v
    return v.pqcVerifications

end VerifyScript

end Qbit
