import Mathlib.Tactic.Common

/-!
# What holds at every step of a run

A machine is a step function on states.  `Along step P s as` says that `P` holds at every step of the
run from `s` that does `as` one after another: of the state in which the step is taken and of what is
done.  Properties that depend on each other's past are compared along a run with an invariant
(`along_iff`).
-/

namespace Runs

universe u v

variable {σ : Type u} {α : Type v} (step : σ → α → σ)

/-- At every step of the run. -/
def Along (P : σ → α → Prop) : σ → List α → Prop
  | _, [] => True
  | s, a :: as => P s a ∧ Along P (step s a) as

variable {step}

instance decidableAlong {P : σ → α → Prop} [∀ s a, Decidable (P s a)] :
    ∀ (s : σ) (as : List α), Decidable (Along step P s as)
  | _, [] => isTrue trivial
  | s, a :: as => @instDecidableAnd _ _ _ (decidableAlong (step s a) as)

variable {P Q : σ → α → Prop} {s : σ} {as : List α}

/-- Two properties agree along a run if they agree at each step in which an invariant holds that one
of them keeps.  What is assumed of the run may be used in each step. -/
theorem along_iff (assumed : σ → α → Prop) (invariant : σ → Prop)
    (hiff : ∀ s a, invariant s → assumed s a → (P s a ↔ Q s a))
    (hkeep : ∀ s a, invariant s → assumed s a → Q s a → invariant (step s a)) (hs : invariant s)
    (hassumed : Along step assumed s as) :
    Along step P s as ↔ Along step Q s as := by
  induction as generalizing s with
  | nil => exact Iff.rfl
  | cons a as ih =>
    obtain ⟨ha, has⟩ := hassumed
    have hhead := hiff s a hs ha
    constructor
    · rintro ⟨hP, hrest⟩
      have hQ := hhead.mp hP
      exact ⟨hQ, (ih (hkeep s a hs ha hQ) has).mp hrest⟩
    · rintro ⟨hQ, hrest⟩
      exact ⟨hhead.mpr hQ, (ih (hkeep s a hs ha hQ) has).mpr hrest⟩

/-- What holds of every step whatever the state holds along every run. -/
theorem Along.of_forall (h : ∀ s, ∀ a ∈ as, P s a) : Along step P s as := by
  induction as generalizing s with
  | nil => trivial
  | cons a as ih =>
    exact ⟨h s a List.mem_cons_self, ih fun s b hb => h s b (List.mem_cons_of_mem a hb)⟩

theorem Along.and (hP : Along step P s as) (hQ : Along step Q s as) :
    Along step (fun s a => P s a ∧ Q s a) s as := by
  induction as generalizing s with
  | nil => trivial
  | cons a as ih => exact ⟨⟨hP.1, hQ.1⟩, ih hP.2 hQ.2⟩

end Runs
