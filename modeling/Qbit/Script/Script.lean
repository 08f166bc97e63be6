import Qbit.Primitives.Transaction

/-!
# Scripts

`script/script.h` and `script/script.cpp`: the opcodes, the numbers that scripts compute with, how a
script is read instruction by instruction, and the shapes of scripts that validation recognises.

An opcode is a byte.  The source casts any byte to its enumeration and compares opcodes by their
numeric order, so the enumeration here is a list of named bytes.
-/

open Bytes

namespace Qbit

/-- `valtype`, a stack element. -/
abbrev Valtype := List UInt8

/-! ## Limits -/

def maxScriptElementSize : Nat := 520
def maxOpsPerScript : Nat := 201
def maxPubkeysPerMultisig : Nat := 20
def maxScriptSize : Nat := 10000
def maxStackSize : Nat := 1000
def maxP2MRV1StackItemSize : Nat := 16 * 1024
def maxP2MRV1TotalInitialStackBytes : Nat := 128 * 1024
def locktimeThreshold : Int := 500000000
def annexTag : UInt8 := 0x50

/-- The validation weight of a passing Tapscript signature. -/
def validationWeightPerSigopPassed : Int := 50

/-- The validation weight of a non-empty PQC signature under the original rule. -/
def p2mrValidationWeightPerSigopLegacy : Int := 3730

/-- The validation weight of a non-empty PQC signature after validation-weight v2: the size of a
serialized default-sighash signature. -/
def p2mrValidationWeightPerSigopV2 : Int := 3683

/-- What is added to the witness size to give an input's validation weight. -/
def validationWeightOffset : Int := 50

/-! ## Opcodes -/

def op0 : UInt8 := 0x00
def opPushdata1 : UInt8 := 0x4c
def opPushdata2 : UInt8 := 0x4d
def opPushdata4 : UInt8 := 0x4e
def op1negate : UInt8 := 0x4f
def opReserved : UInt8 := 0x50
def op1 : UInt8 := 0x51
def op2 : UInt8 := 0x52
def op16 : UInt8 := 0x60
def opNop : UInt8 := 0x61
def opIf : UInt8 := 0x63
def opNotif : UInt8 := 0x64
def opElse : UInt8 := 0x67
def opEndif : UInt8 := 0x68
def opVerify : UInt8 := 0x69
def opReturn : UInt8 := 0x6a
def opToaltstack : UInt8 := 0x6b
def opFromaltstack : UInt8 := 0x6c
def op2drop : UInt8 := 0x6d
def op2dup : UInt8 := 0x6e
def op3dup : UInt8 := 0x6f
def op2over : UInt8 := 0x70
def op2rot : UInt8 := 0x71
def op2swap : UInt8 := 0x72
def opIfdup : UInt8 := 0x73
def opDepth : UInt8 := 0x74
def opDrop : UInt8 := 0x75
def opDup : UInt8 := 0x76
def opNip : UInt8 := 0x77
def opOver : UInt8 := 0x78
def opPick : UInt8 := 0x79
def opRoll : UInt8 := 0x7a
def opRot : UInt8 := 0x7b
def opSwap : UInt8 := 0x7c
def opTuck : UInt8 := 0x7d
def opCat : UInt8 := 0x7e
def opSubstr : UInt8 := 0x7f
def opLeft : UInt8 := 0x80
def opRight : UInt8 := 0x81
def opSize : UInt8 := 0x82
def opInvert : UInt8 := 0x83
def opAnd : UInt8 := 0x84
def opOr : UInt8 := 0x85
def opXor : UInt8 := 0x86
def opEqual : UInt8 := 0x87
def opEqualverify : UInt8 := 0x88
def op1add : UInt8 := 0x8b
def op1sub : UInt8 := 0x8c
def op2mul : UInt8 := 0x8d
def op2div : UInt8 := 0x8e
def opNegate : UInt8 := 0x8f
def opAbs : UInt8 := 0x90
def opNot : UInt8 := 0x91
def op0notequal : UInt8 := 0x92
def opAdd : UInt8 := 0x93
def opSub : UInt8 := 0x94
def opMul : UInt8 := 0x95
def opDiv : UInt8 := 0x96
def opMod : UInt8 := 0x97
def opLshift : UInt8 := 0x98
def opRshift : UInt8 := 0x99
def opBooland : UInt8 := 0x9a
def opBoolor : UInt8 := 0x9b
def opNumequal : UInt8 := 0x9c
def opNumequalverify : UInt8 := 0x9d
def opNumnotequal : UInt8 := 0x9e
def opLessthan : UInt8 := 0x9f
def opGreaterthan : UInt8 := 0xa0
def opLessthanorequal : UInt8 := 0xa1
def opGreaterthanorequal : UInt8 := 0xa2
def opMin : UInt8 := 0xa3
def opMax : UInt8 := 0xa4
def opWithin : UInt8 := 0xa5
def opRipemd160 : UInt8 := 0xa6
def opSha1 : UInt8 := 0xa7
def opSha256 : UInt8 := 0xa8
def opHash160 : UInt8 := 0xa9
def opHash256 : UInt8 := 0xaa
def opCodeseparator : UInt8 := 0xab
def opChecksig : UInt8 := 0xac
def opChecksigverify : UInt8 := 0xad
def opCheckmultisig : UInt8 := 0xae
def opCheckmultisigverify : UInt8 := 0xaf
def opNop1 : UInt8 := 0xb0
def opChecklocktimeverify : UInt8 := 0xb1
def opChecksequenceverify : UInt8 := 0xb2
def opChecksigpqc : UInt8 := 0xb3
def opNop5 : UInt8 := 0xb4
def opNop6 : UInt8 := 0xb5
def opNop7 : UInt8 := 0xb6
def opNop8 : UInt8 := 0xb7
def opNop9 : UInt8 := 0xb8
def opNop10 : UInt8 := 0xb9
def opChecksigadd : UInt8 := 0xba
def opChecktemplateverify : UInt8 := 0xbb
def opCheckdatasigpqc : UInt8 := 0xbc
def opCheckdatasigaddpqc : UInt8 := 0xbd

/-- `IsOpSuccess` -/
def isOpSuccess (opcode : UInt8) : Bool :=
  let n := opcode.toNat
  n == 80 || n == 98 || (126 ≤ n && n ≤ 129) || (131 ≤ n && n ≤ 134) || (137 ≤ n && n ≤ 138) ||
    (141 ≤ n && n ≤ 142) || (149 ≤ n && n ≤ 153) || (187 ≤ n && n ≤ 254)

/-! ## Numbers

A `CScriptNum` holds an `int64_t`.  Operands come from at most five bytes, so that the sums and
differences the interpreter forms of two of them stay far inside 64 bits: the values here are
integers. -/

namespace CScriptNum

/-- The little-endian digits of `absvalue`, as many as it has and at most `k`. -/
def digits : Nat → Nat → List UInt8
  | 0, _ => []
  | k + 1, absvalue => if absvalue = 0 then [] else UInt8.ofNat absvalue :: digits k (absvalue / 256)

/-- `CScriptNum::serialize`: the digits of the absolute value, with the sign in the top bit of the
last byte, or in a byte of its own if that bit is taken. -/
def serialize (value : Int) : Valtype :=
  let result := digits 8 value.natAbs
  match result.getLast? with
  | none => []
  | some last =>
    if last &&& 0x80 != 0 then result ++ [if value < 0 then 0x80 else 0]
    else if value < 0 then result.dropLast ++ [last ||| 0x80]
    else result

/-- `CScriptNum::set_vch` -/
def setVch (vch : Valtype) : Int :=
  match vch.getLast? with
  | none => 0
  | some last =>
    if last &&& 0x80 != 0 then -((ofLE vch : Int) - 0x80 * 256 ^ (vch.length - 1)) else ofLE vch

/-- Whether the number is encoded with as few bytes as possible. -/
def isMinimal (vch : Valtype) : Bool :=
  match vch.reverse with
  | [] => true
  | last :: rest =>
    last &&& 0x7f != 0 ||
      match rest with
      | [] => false
      | second :: _ => second &&& 0x80 != 0

/-- The constructor from bytes; `none` is the exception `scriptnum_error`. -/
def ofVch (vch : Valtype) (fRequireMinimal : Bool) (nMaxNumSize : Nat := 4) : Option Int :=
  if vch.length > nMaxNumSize then none
  else if fRequireMinimal && !isMinimal vch then none
  else some (setVch vch)

/-- `CScriptNum::getint`, which saturates. -/
def getint (value : Int) : Int := max (-2 ^ 31) (min (2 ^ 31 - 1) value)

end CScriptNum

/-- `CastToBool`: false is any zero, a negative one included. -/
def castToBool : Valtype → Bool
  | [] => false
  | [b] => b != 0 && b != 0x80
  | b :: bs => b != 0 || castToBool bs

/-! ## Reading a script -/

/-- The size of the immediate operand of `opcode`, and what follows the size. -/
def immediateSize (opcode : UInt8) (pc : List UInt8) : Option (Nat × List UInt8) :=
  if opcode < opPushdata1 then some (opcode.toNat, pc)
  else
    let width := if opcode = opPushdata1 then 1 else if opcode = opPushdata2 then 2 else 4
    if pc.length < width then none else some (ofLE (pc.take width), pc.drop width)

/-- `GetScriptOp`: the next opcode, its immediate operand, and what follows. -/
def getScriptOp : List UInt8 → Option (UInt8 × Valtype × List UInt8)
  | [] => none
  | opcode :: pc =>
    if opcode ≤ opPushdata4 then
      match immediateSize opcode pc with
      | none => none
      | some (nSize, pc) =>
        if pc.length < nSize then none else some (opcode, pc.take nSize, pc.drop nSize)
    else some (opcode, [], pc)

/-- The instructions of a script, up to its end or to the first one that cannot be read; the flag
tells which.  The number is the fuel: an instruction is at least one byte. -/
def instructions : Nat → List UInt8 → List (UInt8 × Valtype) × Bool
  | 0, _ => ([], true)
  | _ + 1, [] => ([], true)
  | fuel + 1, pc =>
    match getScriptOp pc with
    | none => ([], false)
    | some (opcode, data, rest) =>
      let tail := instructions fuel rest
      ((opcode, data) :: tail.1, tail.2)

/-- `CheckMinimalPush` -/
def checkMinimalPush (data : Valtype) (opcode : UInt8) : Bool :=
  match data with
  | [] => opcode == op0
  | [b] => !(1 ≤ b && b ≤ 16) && b != 0x81 && opcode == 1
  | _ =>
    if data.length ≤ 75 then opcode.toNat == data.length
    else if data.length ≤ 255 then opcode == opPushdata1
    else if data.length ≤ 65535 then opcode == opPushdata2
    else true

/-- `CScript() << data`: the push of `data`. -/
def pushData (data : Valtype) : List UInt8 :=
  let size := data.length
  (if size < opPushdata1.toNat then leBytes 1 size
    else if size ≤ 0xff then opPushdata1 :: leBytes 1 size
    else if size ≤ 0xffff then opPushdata2 :: leBytes 2 size
    else opPushdata4 :: leBytes 4 size) ++ data

/-- `CScript() << n` for an integer. -/
def pushInt64 (n : Int) : List UInt8 :=
  if n = -1 ∨ (1 ≤ n ∧ n ≤ 16) then [UInt8.ofNat (n + (op1.toNat - 1)).toNat]
  else if n = 0 then [op0]
  else pushData (CScriptNum.serialize n)

variable (script : List UInt8)

/-- `CScript::IsPayToScriptHash` -/
def isPayToScriptHash : Bool :=
  script.length == 23 && script[0]? == some opHash160 && script[1]? == some 0x14 &&
    script[22]? == some opEqual

/-- `CScript::IsWitnessProgram`: the version and the program. -/
def isWitnessProgram : Option (Nat × Valtype) :=
  match script with
  | version :: size :: program =>
    if script.length < 4 ∨ script.length > 42 then none
    else if version ≠ op0 ∧ (version < op1 ∨ version > op16) then none
    else if size.toNat + 2 = script.length then
      some (if version = op0 then 0 else version.toNat - (op1.toNat - 1), program)
    else none
  | _ => none

/-- `CScript::IsPushOnly` -/
def isPushOnly : Bool :=
  let ops := instructions script.length script
  ops.2 && ops.1.all (·.1 ≤ op16)

/-- `CScript::IsUnspendable` -/
def isUnspendable : Bool :=
  script.head? == some opReturn || script.length > maxScriptSize

/-- `CScript::IsPayToAnchor` on a witness version and program. -/
def isPayToAnchor (version : Nat) (program : Valtype) : Bool :=
  version == 1 && program == [0x4e, 0x73]

end Qbit
