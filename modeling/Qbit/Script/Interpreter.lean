import Qbit.Script.Checker

/-!
# The script interpreter

`EvalScript` of `script/interpreter.cpp`, for all signature versions that execute scripts.

The main loop reads an instruction and switches on its opcode.  `cases` is that switch: a list of
case labels, each with its body, in the order of the source.  Most bodies only replace the stack;
they are functions on stacks, and `onStack` runs one of them.

An exception inside the loop ends the script with `SCRIPT_ERR_UNKNOWN_ERROR`: the only ones that can
be thrown come from the conversion of stack elements to numbers, in `CScriptNum.ofVch`.
-/

open Bytes Checked

namespace Qbit

open CScriptNum

abbrev Stack := List Valtype

def vchFalse : Valtype := []

def vchTrue : Valtype := [1]

def ofBool (b : Bool) : Valtype := if b then vchTrue else vchFalse

/-! ## Signature and key encodings -/

/-- `IsCompressedOrUncompressedPubKey` -/
def isCompressedOrUncompressedPubKey (vchPubKey : Valtype) : Bool :=
  match vchPubKey with
  | 0x04 :: _ => vchPubKey.length == 65
  | 0x02 :: _ | 0x03 :: _ => vchPubKey.length == 33
  | _ => false

/-- `IsCompressedPubKey` -/
def isCompressedPubKey (vchPubKey : Valtype) : Bool :=
  vchPubKey.length == 33 && (vchPubKey.head? == some 0x02 || vchPubKey.head? == some 0x03)

/-- `IsValidSignatureEncoding`: strict DER with a hash type at the end. -/
def isValidSignatureEncoding (sig : Valtype) : Bool :=
  let byte (i : Nat) : Nat := (sig.getD i 0).toNat
  let negative (i : Nat) : Bool := byte i ≥ 0x80
  let lenR := byte 3
  let lenS := byte (5 + lenR)
  9 ≤ sig.length && sig.length ≤ 73 && byte 0 == 0x30 && byte 1 == sig.length - 3 &&
    5 + lenR < sig.length && lenR + lenS + 7 == sig.length &&
    byte 2 == 0x02 && lenR != 0 && !negative 4 && !(1 < lenR && byte 4 == 0 && !negative 5) &&
    byte (lenR + 4) == 0x02 && lenS != 0 && !negative (lenR + 6) &&
    !(1 < lenS && byte (lenR + 6) == 0 && !negative (lenR + 7))

/-- `IsDefinedHashtypeSignature` -/
def isDefinedHashtypeSignature (vchSig : Valtype) : Bool :=
  match vchSig.getLast? with
  | none => false
  | some nHashType => let n := nHashType &&& 0x7f; 1 ≤ n && n ≤ 3

/-- `CheckSignatureEncoding` -/
def checkSignatureEncoding (C : Crypto) (flags : VerifyFlags) (vchSig : Valtype) : Eval Unit :=
  if vchSig.isEmpty then .ok ()
  else if (.dersig ∈ flags ∨ .lowS ∈ flags ∨ .strictenc ∈ flags) ∧
      ¬ isValidSignatureEncoding vchSig then setError .sigDer
  else if .lowS ∈ flags ∧ ¬ C.checkLowS vchSig.dropLast then setError .sigHighS
  else if .strictenc ∈ flags ∧ ¬ isDefinedHashtypeSignature vchSig then setError .sigHashtype
  else .ok ()

/-- `CheckPubKeyEncoding` -/
def checkPubKeyEncoding (flags : VerifyFlags) (sigversion : SigVersion) (vchPubKey : Valtype) :
    Eval Unit :=
  if .strictenc ∈ flags ∧ ¬ isCompressedOrUncompressedPubKey vchPubKey then setError .pubkeytype
  else if .witnessPubkeytype ∈ flags ∧ sigversion = .witnessV0 ∧ ¬ isCompressedPubKey vchPubKey then
    setError .witnessPubkeytype
  else .ok ()

/-- Drop `b` from the front of `pc` as often as it stands there, and count. -/
def dropRepeated (b : List UInt8) : Nat → List UInt8 → List UInt8 × Nat
  | 0, pc => (pc, 0)
  | fuel + 1, pc =>
    if b.isPrefixOf pc then
      let r := dropRepeated b fuel (pc.drop b.length)
      (r.1, r.2 + 1)
    else (pc, 0)

/-- The loop of `FindAndDelete`: delete `b` wherever it stands at the start of an instruction. -/
def findAndDeleteFrom (b : List UInt8) : Nat → List UInt8 → List UInt8 × Nat
  | 0, pc => (pc, 0)
  | fuel + 1, pc =>
    let (pc, found) := dropRepeated b pc.length pc
    match getScriptOp pc with
    | none => (pc, found)
    | some (_, _, rest) =>
      let r := findAndDeleteFrom b fuel rest
      (pc.take (pc.length - rest.length) ++ r.1, found + r.2)

/-- `FindAndDelete`: the script without `b`, and how often `b` was found. -/
def findAndDelete (script b : List UInt8) : List UInt8 × Nat :=
  if b.isEmpty then (script, 0) else findAndDeleteFrom b (script.length + 1) script

/-! ## The condition stack -/

/-- `ConditionStack`: the size of the stack of conditions and the position of the first false one,
`noFalse` if there is none. -/
structure ConditionStack where
  m_stack_size : UInt32 := 0
  m_first_false_pos : UInt32 := 0xffffffff
  deriving DecidableEq

namespace ConditionStack

/-- `NO_FALSE` -/
def noFalse : UInt32 := 0xffffffff

variable (v : ConditionStack)

def empty : Bool := v.m_stack_size == 0

def allTrue : Bool := v.m_first_false_pos == noFalse

def pushBack (f : Bool) : ConditionStack where
  m_first_false_pos :=
    if v.m_first_false_pos = noFalse ∧ f = false then v.m_stack_size else v.m_first_false_pos
  m_stack_size := v.m_stack_size + 1

def popBack : Result ConditionStack := do
  require (0 < v.m_stack_size)
  let m_stack_size := v.m_stack_size - 1
  return {
    m_stack_size
    m_first_false_pos :=
      if v.m_first_false_pos = m_stack_size then noFalse else v.m_first_false_pos }

def toggleTop : Result ConditionStack := do
  require (0 < v.m_stack_size)
  return { v with
    m_first_false_pos :=
      if v.m_first_false_pos = noFalse then v.m_stack_size - 1
      else if v.m_first_false_pos = v.m_stack_size - 1 then noFalse
      else v.m_first_false_pos }

end ConditionStack

/-! ## State -/

/-- What does not change while a script is evaluated. -/
structure EvalContext where
  crypto : Crypto
  flags : VerifyFlags
  checker : BaseSignatureChecker
  sigversion : SigVersion

namespace EvalContext

def fRequireMinimal (c : EvalContext) : Bool := .minimaldata ∈ c.flags

/-- The validation weight of a non-empty PQC signature. -/
def pqcValidationCost (flags : VerifyFlags) : Int :=
  if .p2mrLegacyValidationWeight ∈ flags then p2mrValidationWeightPerSigopLegacy
  else p2mrValidationWeightPerSigopV2

/-- A number on the stack; the exception of a malformed one is caught around the loop. -/
def num (c : EvalContext) (vch : Valtype) (nMaxNumSize : Nat := 4) : Eval Int :=
  match ofVch vch c.fRequireMinimal nMaxNumSize with
  | none => setError .unknownError
  | some n => .ok n

end EvalContext

/-- The variables of `EvalScript`.  `pc` and `pbegincodehash` are what is left of the script from
the position they point to.  `pqcVerifications` records the PQC verifications that were made. -/
structure EvalState where
  stack : Stack
  altstack : Stack := []
  vfExec : ConditionStack := {}
  pc : List UInt8
  pbegincodehash : List UInt8
  nOpCount : Nat := 0
  opcode_pos : UInt32 := 0
  execdata : ScriptExecutionData
  pqcVerifications : List PQCVerification := []

/-- The body of a case. -/
abbrev OpBody := EvalState → Eval EvalState

/-- A body that only replaces the stack. -/
def onStack (f : Stack → Eval Stack) : OpBody := fun s => do
  let stack ← f s.stack
  return { s with stack }

/-- Take `cost` from the validation weight that is left, and fail if it does not suffice. -/
def debitValidationWeight (cost : Int) (exhausted : ScriptError) (s : EvalState) :
    Eval EvalState := do
  let left ← Eval.init s.execdata.m_validation_weight_left
  if left - cost < 0 then setError exhausted
  else return { s with execdata := { s.execdata with m_validation_weight_left := some (left - cost) } }

/-! ## Signature opcodes -/

/-- `EvalChecksigPreTapscript` -/
def evalChecksigPreTapscript (c : EvalContext) (vchSig vchPubKey : Valtype) (s : EvalState) :
    Eval (Bool × EvalState) := do
  Eval.require (c.sigversion = .base ∨ c.sigversion = .witnessV0)
  let (scriptCode, found) := if c.sigversion = .base then
      findAndDelete s.pbegincodehash (pushData vchSig)
    else (s.pbegincodehash, 0)
  if found > 0 ∧ .constScriptcode ∈ c.flags then setError .sigFindanddelete
  else
    checkSignatureEncoding c.crypto c.flags vchSig
    checkPubKeyEncoding c.flags c.sigversion vchPubKey
    let fSuccess := c.checker.checkECDSASignature vchSig vchPubKey scriptCode c.sigversion
    if !fSuccess ∧ .nullfail ∈ c.flags ∧ !vchSig.isEmpty then setError .sigNullfail
    else return (fSuccess, s)

variable (c : EvalContext) (sig pubkey : Valtype) (s : EvalState)

/-- `EvalChecksigTapscript` -/
def evalChecksigTapscript : Eval (Bool × EvalState) := do
  Eval.require (c.sigversion = .tapscript)
  let success := !sig.isEmpty
  let s ← (if success then
      debitValidationWeight validationWeightPerSigopPassed .tapscriptValidationWeight s
    else return s)
  if pubkey.length = 0 then setError .pubkeytype
  else if pubkey.length = 32 then
    if success then
      let execdata ← c.checker.checkSchnorrSignature sig pubkey c.sigversion s.execdata
      return (true, { s with execdata })
    else return (false, s)
  else if .discourageUpgradablePubkeytype ∈ c.flags then
    setError .discourageUpgradablePubkeytype
  else return (success, s)

/-- `EvalChecksigP2MR` -/
def evalChecksigP2MR : Eval (Bool × EvalState) := do
  Eval.require (c.sigversion = .p2mr)
  let success := !sig.isEmpty
  let s ← (if success then
      debitValidationWeight (EvalContext.pqcValidationCost c.flags) .p2mrValidationWeight s
    else return s)
  if pubkey.length = 0 then setError .pubkeytype
  else if pubkey.length = 32 then
    if success then
      let (execdata, calls) ← c.checker.checkPQCSignature sig pubkey c.sigversion s.execdata
      return (true, { s with execdata, pqcVerifications := s.pqcVerifications ++ calls })
    else return (false, s)
  else setError .pubkeytype

/-- `EvalCheckDataSigPQC` -/
def evalCheckDataSigPQC (c : EvalContext) (sig msg_hash pubkey : Valtype) (s : EvalState) :
    Eval (Bool × EvalState) := do
  let success := !sig.isEmpty
  let s ← (if success then
      debitValidationWeight (EvalContext.pqcValidationCost c.flags) .p2mrValidationWeight s
    else return s)
  if pubkey.length ≠ pqcPubkeySize then setError .pubkeytype
  else if msg_hash.length ≠ 32 then setError .pushSize
  else if !success then return (false, s)
  else if sig.length ≠ pqcSigSize then setError .p2mrSigSize
  else
    let call : PQCVerification :=
      { pubkey, hash := c.crypto.computeQbitDataSigPQCHash msg_hash, sig }
    if c.crypto.verifyPQC call then
      return (true, { s with pqcVerifications := s.pqcVerifications ++ [call] })
    else setError .p2mrSig

/-- `EvalChecksig` -/
def evalChecksig : Eval (Bool × EvalState) :=
  match c.sigversion with
  | .base | .witnessV0 => evalChecksigPreTapscript c sig pubkey s
  | .tapscript => evalChecksigTapscript c sig pubkey s
  | .p2mr => evalChecksigP2MR c sig pubkey s
  | .taproot => .error (.fault .assertion)

/-! ## Stack opcodes

One function on stacks for each case of the switch.  A case that the source writes once for several
opcodes takes the opcode. -/

namespace StackOp

variable (c : EvalContext)

/-- The error of an opcode that finds too few elements on the stack. -/
def invalid {α : Type} : Eval α := setError .invalidStackOperation

/-- `OP_1NEGATE`, `OP_1` to `OP_16` -/
def smallInt (opcode : UInt8) (stack : Stack) : Eval Stack :=
  .ok (serialize ((opcode.toNat : Int) - (op1.toNat - 1)) :: stack)

def checklocktimeverify : Stack → Eval Stack
  | stack => if .checklocktimeverify ∉ c.flags then .ok stack else
    match stack with
    | [] => invalid
    | top :: _ => do
      let nLockTime ← c.num top 5
      if nLockTime < 0 then setError .negativeLocktime
      else if !c.checker.checkLockTime nLockTime then setError .unsatisfiedLocktime
      else return stack

def checksequenceverify : Stack → Eval Stack
  | stack => if .checksequenceverify ∉ c.flags then .ok stack else
    match stack with
    | [] => invalid
    | top :: _ => do
      let nSequence ← c.num top 5
      if nSequence < 0 then setError .negativeLocktime
      else if nSequence.toNat &&& sequenceLocktimeDisableFlag ≠ 0 then
        return stack
      else if !c.checker.checkSequence nSequence then setError .unsatisfiedLocktime
      else return stack

def checktemplateverify : Stack → Eval Stack
  | stack => if c.sigversion ≠ .p2mr then setError .badOpcode else
    match stack with
    | [] => invalid
    | expected :: _ =>
      if expected.length = 32 then do
        c.checker.checkTemplateVerifyHash expected
        return stack
      else if .discourageOpSuccess ∈ c.flags then setError .discourageOpSuccess
      else .ok stack

/-- `OP_NOP1`, `OP_NOP5` to `OP_NOP10` -/
def upgradableNop (stack : Stack) : Eval Stack :=
  if .discourageUpgradableNops ∈ c.flags then setError .discourageUpgradableNops else .ok stack

def verify : Stack → Eval Stack
  | top :: stack => if castToBool top then .ok stack else setError .verify
  | _ => invalid

def return_ (_ : Stack) : Eval Stack := setError .opReturn

def twodrop : Stack → Eval Stack
  | _ :: _ :: stack => .ok stack
  | _ => invalid

def twodup : Stack → Eval Stack
  | x2 :: x1 :: stack => .ok (x2 :: x1 :: x2 :: x1 :: stack)
  | _ => invalid

def threedup : Stack → Eval Stack
  | x3 :: x2 :: x1 :: stack => .ok (x3 :: x2 :: x1 :: x3 :: x2 :: x1 :: stack)
  | _ => invalid

def twoover : Stack → Eval Stack
  | x4 :: x3 :: x2 :: x1 :: stack => .ok (x2 :: x1 :: x4 :: x3 :: x2 :: x1 :: stack)
  | _ => invalid

def tworot : Stack → Eval Stack
  | x6 :: x5 :: x4 :: x3 :: x2 :: x1 :: stack => .ok (x2 :: x1 :: x6 :: x5 :: x4 :: x3 :: stack)
  | _ => invalid

def twoswap : Stack → Eval Stack
  | x4 :: x3 :: x2 :: x1 :: stack => .ok (x2 :: x1 :: x4 :: x3 :: stack)
  | _ => invalid

def ifdup : Stack → Eval Stack
  | vch :: stack => .ok (if castToBool vch then vch :: vch :: stack else vch :: stack)
  | _ => invalid

def depth (stack : Stack) : Eval Stack := .ok (serialize stack.length :: stack)

def drop : Stack → Eval Stack
  | _ :: stack => .ok stack
  | _ => invalid

def dup : Stack → Eval Stack
  | vch :: stack => .ok (vch :: vch :: stack)
  | _ => invalid

def nip : Stack → Eval Stack
  | x2 :: _ :: stack => .ok (x2 :: stack)
  | _ => invalid

def over_ : Stack → Eval Stack
  | x2 :: x1 :: stack => .ok (x1 :: x2 :: x1 :: stack)
  | _ => invalid

variable (opcode : UInt8)

/-- `OP_PICK` and `OP_ROLL` -/
def pickRoll : Stack → Eval Stack
  | top :: x0 :: stack => do
    let n := getint (← c.num top)
    let stack := x0 :: stack
    if n < 0 then invalid
    else match stack[n.toNat]? with
      | none => invalid
      | some vch => return vch :: (if opcode = opRoll then stack.eraseIdx n.toNat else stack)
  | _ => invalid

def rot : Stack → Eval Stack
  | x3 :: x2 :: x1 :: stack => .ok (x1 :: x3 :: x2 :: stack)
  | _ => invalid

def swap : Stack → Eval Stack
  | x2 :: x1 :: stack => .ok (x1 :: x2 :: stack)
  | _ => invalid

def tuck : Stack → Eval Stack
  | x2 :: x1 :: stack => .ok (x2 :: x1 :: x2 :: stack)
  | _ => invalid

def size : Stack → Eval Stack
  | vch :: stack => .ok (serialize vch.length :: vch :: stack)
  | _ => invalid

/-- `OP_EQUAL` and `OP_EQUALVERIFY` -/
def equal : Stack → Eval Stack
  | x2 :: x1 :: stack =>
    if opcode = opEqualverify then
      if x1 = x2 then .ok stack else setError .equalverify
    else .ok (ofBool (x1 == x2) :: stack)
  | _ => invalid

/-- The inner switch of the unary numeric opcodes. -/
def unaryResult (bn : Int) : Int :=
  if opcode = op1add then bn + 1
  else if opcode = op1sub then bn - 1
  else if opcode = opNegate then -bn
  else if opcode = opAbs then (if bn < 0 then -bn else bn)
  else if opcode = opNot then (if bn = 0 then 1 else 0)
  else if bn ≠ 0 then 1 else 0

/-- `OP_1ADD`, `OP_1SUB`, `OP_NEGATE`, `OP_ABS`, `OP_NOT`, `OP_0NOTEQUAL` -/
def unary : Stack → Eval Stack
  | top :: stack => do
    let bn ← c.num top
    return serialize (unaryResult opcode bn) :: stack
  | _ => invalid

/-- The inner switch of the binary numeric opcodes. -/
def binaryResult (bn1 bn2 : Int) : Int :=
  let bool (b : Bool) : Int := if b then 1 else 0
  if opcode = opAdd then bn1 + bn2
  else if opcode = opSub then bn1 - bn2
  else if opcode = opBooland then bool (bn1 != 0 && bn2 != 0)
  else if opcode = opBoolor then bool (bn1 != 0 || bn2 != 0)
  else if opcode = opNumequal then bool (bn1 == bn2)
  else if opcode = opNumequalverify then bool (bn1 == bn2)
  else if opcode = opNumnotequal then bool (bn1 != bn2)
  else if opcode = opLessthan then bool (bn1 < bn2)
  else if opcode = opGreaterthan then bool (bn1 > bn2)
  else if opcode = opLessthanorequal then bool (bn1 ≤ bn2)
  else if opcode = opGreaterthanorequal then bool (bn1 ≥ bn2)
  else if opcode = opMin then (if bn1 < bn2 then bn1 else bn2)
  else if bn1 > bn2 then bn1 else bn2

/-- `OP_ADD` to `OP_MAX`, without the disabled ones. -/
def binary : Stack → Eval Stack
  | x2 :: x1 :: stack => do
    let bn1 ← c.num x1
    let bn2 ← c.num x2
    let vch := serialize (binaryResult opcode bn1 bn2)
    if opcode = opNumequalverify then
      if castToBool vch then return stack else setError .numequalverify
    else return vch :: stack
  | _ => invalid

def within : Stack → Eval Stack
  | x3 :: x2 :: x1 :: stack => do
    let bn1 ← c.num x1
    let bn2 ← c.num x2
    let bn3 ← c.num x3
    return ofBool (bn2 ≤ bn1 && bn1 < bn3) :: stack
  | _ => invalid

/-- `OP_RIPEMD160`, `OP_SHA1`, `OP_SHA256`, `OP_HASH160`, `OP_HASH256` -/
def hash : Stack → Eval Stack
  | vch :: stack =>
    let vchHash :=
      if opcode = opRipemd160 then leBytes 20 (c.crypto.ripemd160 vch).toNat
      else if opcode = opSha1 then leBytes 20 (c.crypto.sha1 vch).toNat
      else if opcode = opSha256 then serUint256 (c.crypto.sha256 vch)
      else if opcode = opHash160 then leBytes 20 (c.crypto.hash160 vch).toNat
      else serUint256 (c.crypto.hash256 vch)
    .ok (vchHash :: stack)
  | _ => invalid

end StackOp

/-! ## The other opcodes -/

namespace OpBody

variable (c : EvalContext)

def toaltstack : OpBody := fun s =>
  match s.stack with
  | top :: stack => .ok { s with stack, altstack := top :: s.altstack }
  | [] => StackOp.invalid

def fromaltstack : OpBody := fun s =>
  match s.altstack with
  | top :: altstack => .ok { s with stack := top :: s.stack, altstack }
  | [] => setError .invalidAltstackOperation

/-- The argument of `OP_IF` must be minimal: by consensus in Tapscript and P2MR, by policy in
witness version 0. -/
def checkMinimalIf (vch : Valtype) : Eval Unit :=
  if vch = [] ∨ vch = [1] then .ok ()
  else if c.sigversion = .tapscript ∨ c.sigversion = .p2mr then setError .tapscriptMinimalif
  else if c.sigversion = .witnessV0 ∧ .minimalif ∈ c.flags then setError .minimalif
  else .ok ()

/-- `OP_IF` and `OP_NOTIF` -/
def ifNotif (opcode : UInt8) : OpBody := fun s =>
  if s.vfExec.allTrue then
    match s.stack with
    | [] => setError .unbalancedConditional
    | vch :: stack => do
      checkMinimalIf c vch
      let fValue := if opcode = opNotif then !castToBool vch else castToBool vch
      return { s with stack, vfExec := s.vfExec.pushBack fValue }
  else .ok { s with vfExec := s.vfExec.pushBack false }

def else_ : OpBody := fun s =>
  if s.vfExec.empty then setError .unbalancedConditional
  else do
    let vfExec ← s.vfExec.toggleTop.mapError .fault
    return { s with vfExec }

def endif : OpBody := fun s =>
  if s.vfExec.empty then setError .unbalancedConditional
  else do
    let vfExec ← s.vfExec.popBack.mapError .fault
    return { s with vfExec }

def codeseparator : OpBody := fun s =>
  .ok { s with
    pbegincodehash := s.pc
    execdata := { s.execdata with m_codeseparator_pos := some s.opcode_pos } }

def checksigpqc : OpBody := fun s =>
  if c.sigversion ≠ .p2mr then setError .badOpcode
  else match s.stack with
    | vchPubKey :: vchSig :: stack => do
      let (fSuccess, s) ← evalChecksig c vchSig vchPubKey s
      return { s with stack := ofBool fSuccess :: stack }
    | _ => StackOp.invalid

/-- `OP_CHECKSIG` and `OP_CHECKSIGVERIFY` -/
def checksig (opcode : UInt8) : OpBody := fun s =>
  if c.sigversion = .p2mr then setError .p2mrChecksig
  else match s.stack with
    | vchPubKey :: vchSig :: stack => do
      let (fSuccess, s) ← evalChecksig c vchSig vchPubKey s
      if opcode = opChecksigverify then
        if fSuccess then return { s with stack } else setError .checksigverify
      else return { s with stack := ofBool fSuccess :: stack }
    | _ => StackOp.invalid

def checksigadd : OpBody := fun s =>
  if c.sigversion ≠ .tapscript ∧ c.sigversion ≠ .p2mr then setError .badOpcode
  else match s.stack with
    | pubkey :: top :: sig :: stack => do
      let num ← c.num top
      let (success, s) ← evalChecksig c sig pubkey s
      return { s with stack := serialize (num + if success then 1 else 0) :: stack }
    | _ => StackOp.invalid

def checkdatasigpqc : OpBody := fun s =>
  if c.sigversion ≠ .p2mr then setError .badOpcode
  else match s.stack with
    | pubkey :: msg_hash :: sig :: stack => do
      let (success, s) ← evalCheckDataSigPQC c sig msg_hash pubkey s
      return { s with stack := ofBool success :: stack }
    | _ => StackOp.invalid

def checkdatasigaddpqc : OpBody := fun s =>
  if c.sigversion ≠ .p2mr then setError .badOpcode
  else match s.stack with
    | pubkey :: top :: msg_hash :: sig :: stack => do
      let num ← c.num top
      let (success, s) ← evalCheckDataSigPQC c sig msg_hash pubkey s
      return { s with stack := serialize (num + if success then 1 else 0) :: stack }
    | _ => StackOp.invalid

/-- `CHECKMULTISIG` drops the signatures from the code of a base script. -/
def multisigScriptCode (sigs : Stack) (scriptCode : List UInt8) : Eval (List UInt8) :=
  if c.sigversion = .base then
    sigs.foldlM (fun code vchSig =>
      let (code, found) := findAndDelete code (pushData vchSig)
      if found > 0 ∧ .constScriptcode ∈ c.flags then setError .sigFindanddelete else .ok code)
      scriptCode
  else .ok scriptCode

/-- The loop of `CHECKMULTISIG` over the keys: it stops when the signatures are used up, or when
more of them are left than keys. -/
def checkmultisigLoop (scriptCode : List UInt8) : (keys sigs : Stack) → Eval Bool
  | _, [] => .ok true
  | [], _ :: _ => .ok false
  | vchPubKey :: keys, vchSig :: sigs => do
    checkSignatureEncoding c.crypto c.flags vchSig
    checkPubKeyEncoding c.flags c.sigversion vchPubKey
    let fOk := c.checker.checkECDSASignature vchSig vchPubKey scriptCode c.sigversion
    let sigs := if fOk then sigs else vchSig :: sigs
    if sigs.length > keys.length then return false else checkmultisigLoop scriptCode keys sigs

/-- `OP_CHECKMULTISIG` and `OP_CHECKMULTISIGVERIFY`.  On the stack are, from the top, the number of
keys and the keys, the number of signatures and the signatures, and one more element. -/
def checkmultisig (opcode : UInt8) : OpBody := fun s =>
  if c.sigversion = .tapscript ∨ c.sigversion = .p2mr then setError .tapscriptCheckmultisig
  else match s.stack with
    | [] => StackOp.invalid
    | top :: stack => do
      let nKeysCount := getint (← c.num top)
      if nKeysCount < 0 ∨ nKeysCount > maxPubkeysPerMultisig then setError .pubkeyCount
      else
        let nOpCount := s.nOpCount + nKeysCount.toNat
        if nOpCount > maxOpsPerScript then setError .opCount
        else match stack.drop nKeysCount.toNat with
          | [] => StackOp.invalid
          | top :: stack' => do
            let nSigsCount := getint (← c.num top)
            if nSigsCount < 0 ∨ nSigsCount > nKeysCount then setError .sigCount
            else match stack'.drop nSigsCount.toNat with
              | [] => StackOp.invalid
              | dummy :: rest => do
                let sigs := stack'.take nSigsCount.toNat
                let scriptCode ← multisigScriptCode c sigs s.pbegincodehash
                let fSuccess ← checkmultisigLoop c scriptCode (stack.take nKeysCount.toNat) sigs
                if !fSuccess ∧ .nullfail ∈ c.flags ∧ sigs.any (!·.isEmpty) then
                  setError .sigNullfail
                else if .nulldummy ∈ c.flags ∧ !dummy.isEmpty then setError .sigNulldummy
                else if opcode = opCheckmultisigverify then
                  if fSuccess then return { s with stack := rest, nOpCount }
                  else setError .checkmultisigverify
                else return { s with stack := ofBool fSuccess :: rest, nOpCount }

end OpBody

/-! ## The main loop -/

/-- The disabled opcodes. -/
def disabledOpcodes : List UInt8 :=
  [opCat, opSubstr, opLeft, opRight, opInvert, opAnd, opOr, opXor, op2mul, op2div, opMul, opDiv,
    opMod, opLshift, opRshift]

section Cases

variable (c : EvalContext) (opcode : UInt8)

open StackOp OpBody in
/-- The switch of the main loop: case labels and bodies, for the current opcode. -/
def cases : List (List UInt8 × OpBody) :=
  [ ([op1negate, op1, op2, 0x53, 0x54, 0x55, 0x56, 0x57, 0x58, 0x59, 0x5a, 0x5b, 0x5c, 0x5d, 0x5e,
      0x5f, op16], onStack (smallInt opcode)),
    ([opNop], onStack .ok),
    ([opChecklocktimeverify], onStack (checklocktimeverify c)),
    ([opChecksequenceverify], onStack (checksequenceverify c)),
    ([opChecksigpqc], checksigpqc c),
    ([opChecktemplateverify], onStack (checktemplateverify c)),
    ([opNop1, opNop5, opNop6, opNop7, opNop8, opNop9, opNop10], onStack (upgradableNop c)),
    ([opIf, opNotif], ifNotif c opcode),
    ([opElse], else_),
    ([opEndif], endif),
    ([opVerify], onStack verify),
    ([opReturn], onStack return_),
    ([opToaltstack], toaltstack),
    ([opFromaltstack], fromaltstack),
    ([op2drop], onStack twodrop),
    ([op2dup], onStack twodup),
    ([op3dup], onStack threedup),
    ([op2over], onStack twoover),
    ([op2rot], onStack tworot),
    ([op2swap], onStack twoswap),
    ([opIfdup], onStack ifdup),
    ([opDepth], onStack depth),
    ([opDrop], onStack drop),
    ([opDup], onStack dup),
    ([opNip], onStack nip),
    ([opOver], onStack over_),
    ([opPick, opRoll], onStack (pickRoll c opcode)),
    ([opRot], onStack rot),
    ([opSwap], onStack swap),
    ([opTuck], onStack tuck),
    ([opSize], onStack size),
    ([opEqual, opEqualverify], onStack (equal opcode)),
    ([op1add, op1sub, opNegate, opAbs, opNot, op0notequal], onStack (unary c opcode)),
    ([opAdd, opSub, opBooland, opBoolor, opNumequal, opNumequalverify, opNumnotequal, opLessthan,
      opGreaterthan, opLessthanorequal, opGreaterthanorequal, opMin, opMax],
      onStack (binary c opcode)),
    ([opWithin], onStack (within c)),
    ([opRipemd160, opSha1, opSha256, opHash160, opHash256], onStack (hash c opcode)),
    ([opCodeseparator], codeseparator),
    ([opChecksig, opChecksigverify], checksig c opcode),
    ([opChecksigadd], checksigadd c),
    ([opCheckdatasigpqc], checkdatasigpqc c),
    ([opCheckdatasigaddpqc], checkdatasigaddpqc c),
    ([opCheckmultisig, opCheckmultisigverify], checkmultisig c opcode) ]

/-- The switch: the body of the case that has the opcode among its labels, or the default. -/
def switch : OpBody :=
  match (cases c opcode).find? fun k => k.1.contains opcode with
  | some (_, body) => body
  | none => fun _ => setError .badOpcode

/-- Pre-segwit and version 0 scripts count their opcodes. -/
def countOp (s : EvalState) : Eval EvalState :=
  if (c.sigversion = .base ∨ c.sigversion = .witnessV0) ∧ opcode > op16 then
    if s.nOpCount + 1 > maxOpsPerScript then setError .opCount
    else .ok { s with nOpCount := s.nOpCount + 1 }
  else .ok s

/-- Execute an instruction that was read. -/
def execute (vchPushValue : Valtype) (s : EvalState) : Eval EvalState :=
  let fExec := s.vfExec.allTrue
  if fExec ∧ opcode ≤ opPushdata4 then
    if c.fRequireMinimal ∧ !checkMinimalPush vchPushValue opcode then setError .minimaldata
    else .ok { s with stack := vchPushValue :: s.stack }
  else if fExec ∨ (opIf ≤ opcode ∧ opcode ≤ opEndif) then switch c opcode s
  else .ok s

end Cases

/-- One round of the main loop. -/
def step (c : EvalContext) (s : EvalState) : Eval EvalState :=
  match getScriptOp s.pc with
  | none => setError .badOpcode
  | some (opcode, vchPushValue, pc) =>
    if vchPushValue.length > maxScriptElementSize then setError .pushSize
    else do
      let s ← countOp c opcode { s with pc }
      if disabledOpcodes.contains opcode then setError .disabledOpcode
      else if opcode = opCodeseparator ∧ c.sigversion = .base ∧ .constScriptcode ∈ c.flags then
        setError .opCodeseparator
      else
        let s ← execute c opcode vchPushValue s
        if s.stack.length + s.altstack.length > maxStackSize then setError .stackSize
        else return { s with opcode_pos := s.opcode_pos + 1 }

/-- The main loop.  A round takes at least one byte from the script, so that as many rounds as there
are bytes reach its end. -/
def evalLoop (c : EvalContext) : Nat → EvalState → Eval EvalState
  | 0, s => .ok s
  | rounds + 1, s => if s.pc.isEmpty then .ok s else step c s >>= evalLoop c rounds

/-- `EvalScript`: the stack, the execution data and the PQC verifications that were made. -/
def evalScript (c : EvalContext) (stack : Stack) (script : List UInt8)
    (execdata : ScriptExecutionData) : Eval EvalState := do
  Eval.require (c.sigversion ≠ .taproot)
  if (c.sigversion = .base ∨ c.sigversion = .witnessV0) ∧ script.length > maxScriptSize then
    setError .scriptSize
  else
    let execdata := { execdata with m_codeseparator_pos := some 0xffffffff }
    let s ← evalLoop c script.length { stack, pc := script, pbegincodehash := script, execdata }
    if !s.vfExec.empty then setError .unbalancedConditional else return s

end Qbit
