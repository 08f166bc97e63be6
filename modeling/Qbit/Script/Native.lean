import Qbit.Script.Verify

/-!
# Native P2MR inputs

An output whose script is a native witness program of version 2 with 32 bytes.  Outside the witness
such an input does nothing of interest: its own script has to be empty, and the output's script
pushes two elements.  `verifyScript_native` says what is left of `VerifyScript`.
-/

open Bytes Checked

namespace Qbit

/-- The script of a native P2MR output: `OP_2` and the push of the program. -/
def p2mrScript (program : Valtype) : List UInt8 := op2 :: 0x20 :: program

section Native

variable (C : Crypto) (flags : VerifyFlags) (checker : BaseSignatureChecker)

variable {program : Valtype} {s : EvalState}

theorem isWitnessProgram_p2mrScript (hlen : program.length = 32) :
    isWitnessProgram (p2mrScript program) = some (2, program) := by
  simp [isWitnessProgram, p2mrScript, hlen, op0, op1, op2, op16]

theorem evalBase_nil : ∃ s, evalBase C flags checker [] [] = .ok s ∧ s.stack = [] ∧
    s.pqcVerifications = [] := by
  refine ⟨_, rfl, rfl, rfl⟩

theorem evalLoop_succ (c : EvalContext) (rounds : Nat) (h : s.pc ≠ []) :
    evalLoop c (rounds + 1) s = step c s >>= evalLoop c rounds := by
  rw [evalLoop, if_neg (by simpa using h)]

theorem evalLoop_of_nil (c : EvalContext) (rounds : Nat) (h : s.pc = []) :
    evalLoop c rounds s = .ok s := by
  cases rounds with
  | zero => rfl
  | succ rounds => rw [evalLoop, if_pos (by simp [h])]

theorem evalBase_p2mrScript (hlen : program.length = 32) :
    ∃ s, evalBase C flags checker [] (p2mrScript program) = .ok s ∧ s.stack = [program, [2]] ∧
      s.pqcVerifications = [] := by
  let c : EvalContext := { crypto := C, flags, checker, sigversion := .base }
  let execdata : ScriptExecutionData := { m_codeseparator_pos := some 0xffffffff }
  let begin : EvalState :=
    { stack := [], pc := p2mrScript program, pbegincodehash := p2mrScript program, execdata }
  have hversion : step c begin =
      .ok { begin with stack := [[2]], pc := 0x20 :: program, opcode_pos := 1 } := rfl
  have hop : getScriptOp (0x20 :: program) = some (0x20, program, []) := by
    have himmediate : immediateSize 0x20 program = some (32, program) := rfl
    rw [getScriptOp, if_pos (by decide), himmediate]
    simp [hlen]
  have hminimal : checkMinimalPush program 0x20 = true := by
    rcases program with _ | ⟨a, _ | ⟨b, rest⟩⟩
    · cases hlen
    · cases hlen
    · rw [checkMinimalPush, if_pos (by rw [hlen]; decide), hlen]
      · rfl
      · rintro ⟨⟩
      · simp
  let pushed : EvalState := { begin with stack := [[2]], pc := [], opcode_pos := 1 }
  have hexecute : execute c 0x20 program pushed = .ok { pushed with stack := [program, [2]] } := by
    rw [execute, if_pos ⟨rfl, by decide⟩, if_neg (by simp [hminimal])]
  have hprogram : step c { begin with stack := [[2]], pc := 0x20 :: program, opcode_pos := 1 } =
      .ok { begin with stack := [program, [2]], pc := [], opcode_pos := 2 } := by
    rw [step]
    simp only [hop]
    rw [if_neg (by rw [hlen]; decide)]
    change (execute c 0x20 program pushed >>= _) = _
    rw [hexecute]
    rfl
  refine ⟨{ begin with stack := [program, [2]], pc := [], opcode_pos := 2 }, ?_, rfl, rfl⟩
  have hsize : (p2mrScript program).length = 34 := by simp [p2mrScript, hlen]
  have hloop : evalLoop c 34 begin =
      .ok { begin with stack := [program, [2]], pc := [], opcode_pos := 2 } := by
    rw [evalLoop_succ c 33 (List.cons_ne_nil _ _), hversion, ok_bind,
      evalLoop_succ c 32 (List.cons_ne_nil _ _), hprogram, ok_bind, evalLoop_of_nil c 32 rfl]
  have hscript : ¬ ((c.sigversion = .base ∨ c.sigversion = .witnessV0) ∧
      (p2mrScript program).length > maxScriptSize) := by
    rintro ⟨-, h⟩
    rw [hsize] at h
    exact absurd h (by decide)
  have hrequire : Eval.require (c.sigversion ≠ .taproot) = .ok () := rfl
  rw [evalBase, evalScript, hrequire, ok_bind, if_neg hscript, hsize]
  exact congrArg (· >>= _) hloop

variable (witness : List Valtype)

theorem verifyWitnessProgram_p2mr (hlen : program.length = 32) :
    verifyWitnessProgram C flags checker witness 2 program false =
      verifyP2MR C flags checker witness program := by
  rw [verifyWitnessProgram, if_neg (by decide), if_neg (by simp), if_pos ⟨rfl, hlen, rfl⟩]

theorem verifyScript_native_nil (hlen : program.length = 32) (hp2sh : .p2sh ∈ flags)
    (hwitness : .witness ∈ flags) :
    verifyScript C flags checker witness [] (p2mrScript program) =
      if castToBool program then verifyP2MR C flags checker witness program
      else setError .evalFalse := by
  obtain ⟨s, hs, hstack, hcalls⟩ := evalBase_nil C flags checker
  obtain ⟨t, ht, htop, htcalls⟩ := evalBase_p2mrScript C flags checker hlen
  have hprogram := verifyWitnessProgram_p2mr C flags checker witness hlen
  have hhash : isPayToScriptHash (p2mrScript program) = false := by
    simp [isPayToScriptHash, p2mrScript]
  have hrequire (p : Prop) [Decidable p] (hp : p) : Eval.require p = .ok () := by
    rw [Eval.require, require_pos hp]
    rfl
  have hclean (calls : List PQCVerification) : checkCleanStackAndWitness flags witness
      { stack := [[2]], hadWitness := true, pqcVerifications := calls } = .ok () := by
    rw [checkCleanStackAndWitness]
    simp [hp2sh, hwitness, hrequire]
  rw [verifyScript, if_neg (fun h => absurd h.2 (by decide)), hs, ok_bind, hstack, ht, ok_bind,
    htop]
  by_cases htrue : castToBool program = true
  · rw [if_pos htrue, checkStackTrue, if_pos htrue, ok_bind, verifyIfWitnessProgram,
      if_neg (not_not.mpr hwitness), isWitnessProgram_p2mrScript hlen]
    simp only [Bool.false_eq_true, hprogram, hcalls, htcalls, hhash, and_false]
    rcases verifyP2MR C flags checker witness program with e | calls
    · rfl
    change (checkCleanStackAndWitness flags witness
      { stack := [[2]], hadWitness := true, pqcVerifications := calls } >>= _) = _
    rw [hclean]
    rfl
  · rw [if_neg htrue, checkStackTrue, if_neg htrue]
    rfl

/-- **What is left of `VerifyScript`** for a native P2MR input, under flags with P2SH and WITNESS: the
input's own script is empty, the program is not zero, and the witness program is accepted. -/
theorem verifyScript_native (scriptSig : List UInt8) (hlen : program.length = 32)
    (hp2sh : .p2sh ∈ flags) (hwitness : .witness ∈ flags) (calls : List PQCVerification) :
    verifyScript C flags checker witness scriptSig (p2mrScript program) = .ok calls ↔
      scriptSig = [] ∧ castToBool program = true ∧
        verifyP2MR C flags checker witness program = .ok calls := by
  constructor
  · intro h
    have hempty : scriptSig = [] := by
      rw [verifyScript] at h
      split at h
      · cases h
      obtain ⟨s, -, h⟩ := bind_eq_ok_iff.mp h
      obtain ⟨t, -, h⟩ := bind_eq_ok_iff.mp h
      obtain ⟨_, -, h⟩ := bind_eq_ok_iff.mp h
      obtain ⟨v, hv, -⟩ := bind_eq_ok_iff.mp h
      rw [verifyIfWitnessProgram, if_neg (not_not.mpr hwitness),
        isWitnessProgram_p2mrScript hlen] at hv
      cases scriptSig with
      | nil => rfl
      | cons b bs => cases hv
    rw [hempty, verifyScript_native_nil C flags checker witness hlen hp2sh hwitness] at h
    split at h
    · exact ⟨hempty, ‹_›, h⟩
    · cases h
  · rintro ⟨rfl, htrue, hcalls⟩
    rw [verifyScript_native_nil C flags checker witness hlen hp2sh hwitness, if_pos htrue, hcalls]

end Native

end Qbit
