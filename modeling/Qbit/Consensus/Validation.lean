import Qbit.Lib.Checked

/-!
# The outcome of a check

A check of `consensus/validation.h` returns whether it passed, and a `ValidationState` that says why
it did not.  Here a check is a computation that stops where the source returns false: with the
result and the reject reason of `Invalid`, or with a run-time error.  It can also stop with a fault,
where the program itself would.

The debug messages of the states are left out; nothing but the log reads them.
-/

open Checked

namespace Qbit

/-- `TxValidationResult`, as far as the modelled checks give it. -/
inductive TxValidationResult where
  | consensus | missingInputs | prematureSpend
  deriving DecidableEq, Repr

/-- `BlockValidationResult` -/
inductive BlockValidationResult where
  | consensus | cachedInvalid | invalidHeader | mutated | missingPrev | invalidPrev | timeFuture
  | headerLowWork
  deriving DecidableEq, Repr

/-- How a check ends when it does not pass. -/
inductive Stop (ρ : Type) where
  /-- `Invalid` -/
  | invalid (result : ρ) (reject_reason : String)
  /-- `Error` -/
  | error (reject_reason : String)
  /-- The program stops. -/
  | fault (f : Fault)
  /-- The program stops inside a script. -/
  | scriptFault (f : Fault)
  deriving DecidableEq, Repr

abbrev TxCheck (α : Type) := Except (Stop TxValidationResult) α

abbrev BlockCheck (α : Type) := Except (Stop BlockValidationResult) α

section Stop

variable {ρ α : Type}

/-- `state.Invalid(result, reject_reason)` -/
def invalid (result : ρ) (reject_reason : String) : Except (Stop ρ) α :=
  .error (.invalid result reject_reason)

/-- `if (p) return state.Invalid(result, reject_reason);` -/
def rejectIf (p : Bool) (result : ρ) (reject_reason : String) : Except (Stop ρ) Unit :=
  if p then invalid result reject_reason else .ok ()

/-- A computation that may fault, inside a check. -/
def liftFault (x : Result α) : Except (Stop ρ) α := x.mapError .fault

variable {result : ρ} {reject_reason : String} {x : Result α} {f : Fault}

@[simp] theorem rejectIf_eq_ok_iff {p : Bool} {u : Unit} :
    rejectIf p result reject_reason = .ok u ↔ p = false := by
  cases p <;> simp [rejectIf, invalid]

@[simp] theorem liftFault_eq_ok_iff {a : α} :
    (liftFault x : Except (Stop ρ) α) = .ok a ↔ x = .ok a := by
  cases x <;> simp [liftFault, Except.mapError]

@[simp] theorem avoids_invalid :
    Avoids (.fault f) (invalid result reject_reason : Except (Stop ρ) α) := by
  simp [invalid]

@[simp] theorem avoids_rejectIf {p : Bool} :
    Avoids (.fault f) (rejectIf p result reject_reason) := by
  simp [rejectIf]

@[simp] theorem avoids_liftFault :
    Avoids (.fault f) (liftFault x : Except (Stop ρ) α) ↔ Avoids f x := by
  cases x <;> simp [liftFault, Except.mapError]

end Stop

end Qbit
