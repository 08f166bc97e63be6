import Mathlib.Algebra.Ring.Int.Defs
import Mathlib.Tactic.Common

/-!
# Computations that report their faults

A program that asserts, or that adds two signed machine integers, can stop without an answer.
`Checked.Result` is the monad of such computations: `.ok a` is an answer, and `.error f` says which
kind of fault stopped the run.  A theorem that a computation is `.ok` is then, in one statement, the
theorem that no assertion in it fails and that no signed operation in it overflows.

* `Checked.require p` is `assert(p)`.
* `Checked.int64 x` is a signed 64-bit operation whose mathematical result is `x`; `add64`, `sub64`
  and `mul64` are the three operations that use it.
-/

namespace Checked

universe u v

/-- Why a computation stopped. -/
inductive Fault where
  /-- An assertion whose condition is false. -/
  | assertion
  /-- A signed operation whose result does not fit its machine word. -/
  | overflow
  /-- An exception that leaves the computation. -/
  | exception
  /-- A null pointer that is dereferenced. -/
  | nullPointer
deriving DecidableEq, Repr

/-- The answer of a computation, or the fault that stopped it. -/
abbrev Result (α : Type u) := Except Fault α

variable {α β : Type u}

/-! ## Assertions -/

/-- `assert(p)`. -/
def require (p : Prop) [Decidable p] : Result Unit := if p then .ok () else .error .assertion

variable {p : Prop}

theorem require_pos [Decidable p] (h : p) : require p = .ok () := if_pos h

@[simp] theorem require_eq_ok_iff [Decidable p] {u : Unit} : require p = .ok u ↔ p := by
  unfold require
  split <;> simp_all

/-! ## Signed 64-bit arithmetic -/

/-- The values of a signed 64-bit integer. -/
def InRange64 (x : Int) : Prop := -2 ^ 63 ≤ x ∧ x < 2 ^ 63

instance (x : Int) : Decidable (InRange64 x) := inferInstanceAs (Decidable (_ ∧ _))

/-- A signed 64-bit operation whose mathematical result is `x`. -/
def int64 (x : Int) : Result Int := if InRange64 x then .ok x else .error .overflow

theorem int64_of_inRange {x : Int} (h : InRange64 x) : int64 x = .ok x := if_pos h

theorem int64_eq_ok_iff {x y : Int} : int64 x = .ok y ↔ InRange64 x ∧ x = y := by
  unfold int64
  split <;> simp_all

def add64 (a b : Int) : Result Int := int64 (a + b)

def sub64 (a b : Int) : Result Int := int64 (a - b)

def mul64 (a b : Int) : Result Int := int64 (a * b)

/-! ## Sequencing -/

variable {ε : Type v}

@[simp] theorem pure_eq_ok (a : α) : (pure a : Except ε α) = .ok a := rfl

@[simp] theorem ok_bind (a : α) (f : α → Except ε β) : (Except.ok a >>= f) = f a := rfl

@[simp] theorem error_bind (e : ε) (f : α → Except ε β) :
    (Except.error e >>= f) = .error e := rfl

/-- **A sequence that answers has answered at every stage.** -/
@[simp] theorem bind_eq_ok_iff {x : Except ε α} {f : α → Except ε β} {b : β} :
    (x >>= f) = .ok b ↔ ∃ a, x = .ok a ∧ f a = .ok b := by
  cases x with
  | error e => simp
  | ok a => simp

@[simp] theorem ite_error_eq_ok_iff [Decidable p] {e : ε} {x : Except ε α} {a : α} :
    (if p then .error e else x) = .ok a ↔ ¬ p ∧ x = .ok a := by
  split <;> simp_all

theorem map_bind {γ : Type u} (g : β → γ) (x : Except ε α) (f : α → Except ε β) :
    (x >>= f).map g = x >>= fun a => (f a).map g := by
  cases x with
  | error e => rfl
  | ok a => rfl

theorem exists_ok_of_toOption_map {x : Except ε α} {f : α → β} {b : β}
    (h : x.toOption.map f = some b) : ∃ a, x = .ok a ∧ f a = b := by
  cases x with
  | error e => cases h
  | ok a => exact ⟨a, rfl, Option.some.inj h⟩

/-! ## Postconditions

`Ensures x Q` says that every answer of `x` satisfies `Q`.  It is partial: a computation that stops
without an answer ensures everything.  There is a rule for each way to build a computation, so that
a proof follows the computation's own structure. -/

/-- Every answer of `x` satisfies `Q`. -/
def Ensures (x : Except ε α) (Q : α → Prop) : Prop := ∀ a, x = .ok a → Q a

section Ensures

variable {x : Except ε α} {f : α → Except ε β} {P Q : α → Prop} {R : β → Prop}

theorem Ensures.ok {a : α} (h : Q a) : Ensures (Except.ok a : Except ε α) Q := by
  rintro b ⟨⟩
  exact h

theorem Ensures.error {e : ε} : Ensures (Except.error e : Except ε α) Q := by
  rintro a ⟨⟩

@[simp] theorem ensures_ok {a : α} : Ensures (Except.ok a : Except ε α) Q ↔ Q a := by
  simp [Ensures]

@[simp] theorem ensures_error {e : ε} : Ensures (Except.error e : Except ε α) Q := .error

theorem Ensures.mono (h : Ensures x P) (hPQ : ∀ a, P a → Q a) : Ensures x Q :=
  fun a ha => hPQ a (h a ha)

/-- **The rule for sequences.** -/
theorem Ensures.bind (hx : Ensures x P) (hf : ∀ a, P a → Ensures (f a) R) :
    Ensures (x >>= f) R := by
  intro b hb
  obtain ⟨a, ha, hfa⟩ := bind_eq_ok_iff.mp hb
  exact hf a (hx a ha) b hfa

theorem Ensures.bind_any (hf : ∀ a, Ensures (f a) R) : Ensures (x >>= f) R :=
  .bind (P := fun _ => True) (fun _ _ => trivial) fun a _ => hf a

/-- **The rule for conditionals.** -/
theorem Ensures.ite {c : Prop} [Decidable c] {y : Except ε α} (hx : c → Ensures x Q)
    (hy : ¬ c → Ensures y Q) : Ensures (if c then x else y) Q := by
  split
  · exact hx ‹_›
  · exact hy ‹_›

/-- **The rule for checks.** -/
theorem Ensures.guard {c : Prop} [Decidable c] {e : ε} (h : ¬ c → Ensures x Q) :
    Ensures (if c then .error e else x) Q :=
  .ite (fun _ => .error) h

end Ensures

/-! ## Failures that do not happen

`Avoids e x` says that `x` does not stop with the failure `e`.  To follow a sequence, it is enough to
look at what comes after an answer. -/

/-- `x` does not stop with `e`. -/
def Avoids (e : ε) (x : Except ε α) : Prop := x ≠ .error e

section Avoids

variable {e e' : ε} {x : Except ε α} {f : α → Except ε β}

@[simp] theorem avoids_ok {a : α} : Avoids e (Except.ok a : Except ε α) := by
  rintro ⟨⟩

@[simp] theorem avoids_error : Avoids e (Except.error e' : Except ε α) ↔ e' ≠ e := by
  simp [Avoids]

/-- **The rule for sequences.** -/
@[simp] theorem avoids_bind :
    Avoids e (x >>= f) ↔ Avoids e x ∧ ∀ a, x = .ok a → Avoids e (f a) := by
  cases x <;> simp

/-- **The rule for conditionals.** -/
@[simp] theorem avoids_ite {c : Prop} [Decidable c] {y : Except ε α} :
    Avoids e (if c then x else y) ↔ (c → Avoids e x) ∧ (¬ c → Avoids e y) := by
  split <;> simp_all

end Avoids

/-! ## Answers and failures together

`Safe bad x Q` says that `x` does not stop with a bad failure, and that every answer of it satisfies
`Q`.  Which failures are bad is left open: with none of them, only the answers count. -/

/-- `x` stops with no bad failure, and its answer satisfies `Q`. -/
def Safe (bad : ε → Prop) (x : Except ε α) (Q : α → Prop) : Prop :=
  (∀ e, x = .error e → ¬ bad e) ∧ Ensures x Q

section Safe

variable {bad : ε → Prop} {x : Except ε α} {f : α → Except ε β} {P Q : α → Prop} {R : β → Prop}

@[simp] theorem safe_ok {a : α} : Safe bad (Except.ok a : Except ε α) Q ↔ Q a := by
  simp [Safe, Ensures]

@[simp] theorem safe_error {e : ε} : Safe bad (Except.error e : Except ε α) Q ↔ ¬ bad e := by
  simp [Safe, Ensures]

theorem Safe.mono (h : Safe bad x P) (hPQ : ∀ a, P a → Q a) : Safe bad x Q :=
  ⟨h.1, h.2.mono hPQ⟩

/-- **The rule for sequences.** -/
@[simp] theorem safe_bind : Safe bad (x >>= f) R ↔ Safe bad x fun a => Safe bad (f a) R := by
  cases x with
  | error e => simp
  | ok a => simp

theorem Safe.bind (hx : Safe bad x P) (hf : ∀ a, P a → Safe bad (f a) R) :
    Safe bad (x >>= f) R := safe_bind.mpr (hx.mono hf)

/-- **The rule for conditionals.** -/
@[simp] theorem safe_ite {c : Prop} [Decidable c] {y : Except ε α} :
    Safe bad (if c then x else y) Q ↔ (c → Safe bad x Q) ∧ (¬ c → Safe bad y Q) := by
  split <;> simp_all

theorem Safe.ite {c : Prop} [Decidable c] {y : Except ε α} (hx : c → Safe bad x Q)
    (hy : ¬ c → Safe bad y Q) : Safe bad (if c then x else y) Q := safe_ite.mpr ⟨hx, hy⟩

theorem Ensures.safe (h : Ensures x Q) : Safe (fun _ => False) x Q := ⟨fun _ _ => id, h⟩

end Safe

/-! ## Two runs

`Follows x y R` says that `y` answers whenever `x` does, with an answer that is related by `R`.  The
rules go through two computations of the same shape side by side.  A computation that fails early is
followed by everything, so the second may ask for less than the first: `Follows.guard`. -/

/-- Whenever `x` answers, `y` does, with a related answer. -/
def Follows {β : Type u} (x : Except ε α) (y : Except ε β) (R : α → β → Prop) : Prop :=
  ∀ a, x = .ok a → ∃ b, y = .ok b ∧ R a b

section Follows

variable {γ δ : Type u} {x : Except ε α} {y : Except ε β} {R S : α → β → Prop}

theorem Follows.ok {a : α} {b : β} (h : R a b) :
    Follows (Except.ok a : Except ε α) (Except.ok b : Except ε β) R := by
  rintro a ⟨⟩
  exact ⟨b, rfl, h⟩

theorem Follows.error {e : ε} : Follows (Except.error e : Except ε α) y R := by
  rintro a ⟨⟩

theorem Follows.refl {R : α → α → Prop} (h : ∀ a, R a a) : Follows x x R :=
  fun a ha => ⟨a, ha, h a⟩

variable {x' : Except ε α} {P : α → Prop}

theorem Follows.of_eq (h : x = x') : Follows x x' Eq :=
  fun a ha => ⟨a, h ▸ ha, rfl⟩

/-- What holds of every answer, as a relation of a computation with itself. -/
theorem Ensures.follows (h : Ensures x P) : Follows x x fun a b => a = b ∧ P a :=
  fun a ha => ⟨a, ha, rfl, h a ha⟩

theorem Follows.ensures (h : Follows x x fun a b => a = b ∧ P a) : Ensures x P := by
  intro a ha
  obtain ⟨_, -, -, hP⟩ := h a ha
  exact hP

theorem Follows.mono (h : Follows x y R) (hRS : ∀ a b, R a b → S a b) : Follows x y S := by
  intro a ha
  obtain ⟨b, hb, hab⟩ := h a ha
  exact ⟨b, hb, hRS a b hab⟩

/-- **The rule for sequences.** -/
theorem Follows.bind {f : α → Except ε γ} {g : β → Except ε δ} {T : γ → δ → Prop}
    (hxy : Follows x y R) (hfg : ∀ a b, R a b → Follows (f a) (g b) T) :
    Follows (x >>= f) (y >>= g) T := by
  intro c hc
  obtain ⟨a, ha, hfa⟩ := bind_eq_ok_iff.mp hc
  obtain ⟨b, hb, hab⟩ := hxy a ha
  obtain ⟨d, hd, hcd⟩ := hfg a b hab c hfa
  exact ⟨d, bind_eq_ok_iff.mpr ⟨b, hb, hd⟩, hcd⟩

theorem Follows.rfl : Follows x x Eq := .refl fun _ => Eq.refl _

theorem Follows.bind_same {f g : α → Except ε γ} {T : γ → γ → Prop} (hx : Follows x x' Eq)
    (hfg : ∀ a, Follows (f a) (g a) T) : Follows (x >>= f) (x' >>= g) T :=
  .bind hx fun a _ hab => hab ▸ hfg a

/-- **The rule for conditionals** with one condition. -/
theorem Follows.ite [Decidable p] {y' : Except ε β} (hpos : p → Follows x y R)
    (hneg : ¬ p → Follows x' y' R) :
    Follows (if p then x else x') (if p then y else y') R := by
  split
  · exact hpos ‹_›
  · exact hneg ‹_›

theorem Follows.ite_left [Decidable p] (hpos : p → Follows x y R) (hneg : ¬ p → Follows x' y R) :
    Follows (if p then x else x') y R := by
  split
  · exact hpos ‹_›
  · exact hneg ‹_›

/-- A computation that never answers is followed by everything. -/
theorem Follows.of_ensures (h : Ensures x fun _ => False) : Follows x y R :=
  fun a ha => (h a ha).elim

/-- **The rule for checks.**  The second computation refuses no more than the first. -/
theorem Follows.guard {q : Prop} [Decidable p] [Decidable q] {e e' : ε} (himp : q → p)
    (h : ¬ p → Follows x y R) :
    Follows (if p then .error e else x) (if q then .error e' else y) R := by
  split
  · exact .error
  · rename_i hp
    rw [if_neg (mt himp hp)]
    exact h hp

end Follows

/-! ## Loops

A loop over a list whose body may refuse an element, and then ends the loop.  An invariant of such
a loop speaks about the state and the elements that were accepted so far. -/

section Loops

variable {σ : Type u} {α : Type u} {f : σ → α → Result (Bool × σ)}

/-- Run `f` on the elements in turn, up to the first one that it refuses. -/
def forEach (f : σ → α → Result (Bool × σ)) : σ → List α → Result (Bool × σ)
  | s, [] => .ok (true, s)
  | s, a :: as => f s a >>= fun r => if r.1 then forEach f r.2 as else .ok r

variable {I : σ → List α → Prop}

/-- **What every accepted element preserves, the whole loop preserves.** -/
theorem forEach_invariant
    (step : ∀ s done a s', I s done → f s a = .ok (true, s') → I s' (done ++ [a])) {s s' : σ}
    {done as : List α} (hs : I s done) (h : forEach f s as = .ok (true, s')) :
    I s' (done ++ as) := by
  induction as generalizing s done with
  | nil =>
    cases h
    rwa [List.append_nil]
  | cons a as ih =>
    obtain ⟨⟨accepted, t⟩, hstep, hrest⟩ := bind_eq_ok_iff.mp h
    cases accepted with
    | false => cases hrest
    | true =>
      have := ih (step s done a t hs hstep) hrest
      rwa [List.append_assoc] at this

/-- **A loop that refuses nothing.**  If the invariant makes `f` accept each element of `all` in its
place, the loop accepts them all. -/
theorem forEach_total {all : List α}
    (step : ∀ s done a rest, all = done ++ a :: rest → I s done →
      ∃ s', f s a = .ok (true, s') ∧ I s' (done ++ [a])) {s : σ} {done as rest : List α}
    (hall : all = done ++ as ++ rest) (hs : I s done) :
    ∃ s', forEach f s as = .ok (true, s') ∧ I s' (done ++ as) := by
  induction as generalizing s done with
  | nil => exact ⟨s, rfl, by rwa [List.append_nil]⟩
  | cons a as ih =>
    have hall' : all = done ++ [a] ++ as ++ rest := by simpa using hall
    obtain ⟨t, hstep, ht⟩ := step s done a (as ++ rest) (by simpa using hall) hs
    obtain ⟨s', hrest, hs'⟩ := ih hall' ht
    refine ⟨s', ?_, by simpa using hs'⟩
    rw [forEach, hstep]
    exact hrest

/-- **Two bodies that agree where an invariant holds** make the same loop, and the loop keeps the
invariant, also when it ends early. -/
theorem forEach_congr {g : σ → α → Result (Bool × σ)} {I : σ → Prop}
    (step : ∀ s a, I s → f s a = g s a ∧ Ensures (g s a) fun r => I r.2) {s : σ} (hs : I s)
    (as : List α) :
    forEach f s as = forEach g s as ∧ Ensures (forEach g s as) fun r => I r.2 := by
  induction as generalizing s with
  | nil => exact ⟨rfl, .ok hs⟩
  | cons a as ih =>
    obtain ⟨heq, hkeep⟩ := step s a hs
    rw [forEach, forEach, heq]
    rcases hga : g s a with e | r
    · exact ⟨rfl, .error⟩
    have hr := hkeep r hga
    simp only [ok_bind]
    split_ifs
    · exact ih hr
    · exact ⟨rfl, .ok hr⟩

end Loops

end Checked
