import Mathlib.Algebra.GroupWithZero.Nat
import Mathlib.Data.List.Basic
import Mathlib.Data.List.Nodup
import Mathlib.Data.List.Perm.Basic
import Mathlib.Logic.Function.Basic
import Mathlib.Tactic.Common

/-!
# Workers that share a list of jobs

Some threads work off `n` jobs.  A shared counter tells which job is next: a worker takes its value
and increments it in one step, does the job, and stores the result.  A worker whose job fails says
so, asks the others to stop, and ends.  The others look for this before they take another job.

A schedule is a list of workers, each of which makes its next step.

* `Pool.Inv` is the invariant of every run (`Pool.inv_run`).
* `Pool.Inv.failed_of_ended` and `Pool.Inv.results_of_ended` say what is left when all workers have
  ended: a failure is reported, and without one the results are those of the jobs, whatever the
  schedule was.
* `Pool.ended_of_rounds`: the workers do end, if each gets its turns.
-/

namespace JobPool

variable {ρ : Type}

/-- Where a worker is. -/
inductive Worker (ρ : Type) where
  /-- about to look whether it should stop -/
  | testing
  /-- about to take a job -/
  | claiming
  /-- about to do a job -/
  | working (job : Nat)
  /-- about to store a result -/
  | storing (job : Nat) (result : ρ)
  /-- about to say that a job has failed -/
  | failing
  /-- about to ask the others to stop -/
  | cancelling
  | ended
  deriving DecidableEq

/-- The state that the workers share, and the workers. -/
structure Pool (ρ : Type) where
  next : Nat := 0
  cancel : Bool := false
  failed : Bool := false
  results : Nat → Option ρ := fun _ => none
  /-- The jobs that were done so far, or tried. -/
  calls : List Nat := []
  workers : List (Worker ρ)

namespace Pool

/-- The pool in the beginning. -/
def init (workers : Nat) : Pool ρ := { workers := List.replicate workers .testing }

/-- Worker `i` goes on to `w`. -/
def move (s : Pool ρ) (i : Nat) (w : Worker ρ) : Pool ρ := { s with workers := s.workers.set i w }

variable (n : Nat) (outcome : Nat → Option ρ)

/-- The next step of worker `i`. -/
def step (s : Pool ρ) (i : Nat) : Pool ρ :=
  match s.workers[i]? with
  | none => s
  | some .testing => s.move i (if s.cancel then .ended else .claiming)
  | some .claiming =>
    { s with next := s.next + 1 }.move i (if s.next < n then .working s.next else .ended)
  | some (.working job) =>
    { s with calls := s.calls ++ [job] }.move i
      (match outcome job with
        | some result => .storing job result
        | none => .failing)
  | some (.storing job result) =>
    { s with results := Function.update s.results job (some result) }.move i .testing
  | some .failing => { s with failed := true }.move i .cancelling
  | some .cancelling => { s with cancel := true }.move i .ended
  | some .ended => s

def run (s : Pool ρ) (schedule : List Nat) : Pool ρ := schedule.foldl (step n outcome) s

/-- All workers have ended. -/
def Ended (s : Pool ρ) : Prop := ∀ w ∈ s.workers, w = .ended

instance [DecidableEq ρ] (s : Pool ρ) : Decidable s.Ended :=
  inferInstanceAs (Decidable (∀ w ∈ s.workers, w = .ended))

end Pool

/-- The job that a worker has taken and not done yet. -/
def Worker.held : Worker ρ → Option Nat
  | .working job => some job
  | _ => none

/-- How many steps a worker can still make before it takes another job. -/
def Worker.weight : Worker ρ → Nat
  | .working _ => 5
  | .storing _ _ => 4
  | .testing => 3
  | .claiming => 2
  | .failing => 2
  | .cancelling => 1
  | .ended => 0

/-! ## The invariant -/

namespace Pool

variable {n : Nat} {outcome : Nat → Option ρ} {s : Pool ρ} {i : Nat}

/-- What holds in every run. -/
structure Inv (n : Nat) (outcome : Nat → Option ρ) (s : Pool ρ) : Prop where
  /-- The jobs below the counter were taken, each by one worker. -/
  taken : (s.calls ++ s.workers.filterMap Worker.held).Perm (List.range (min s.next n))
  /-- A result is the result of its job. -/
  result : ∀ job r, s.results job = some r → outcome job = some r
  storing : ∀ job r, .storing job r ∈ s.workers → outcome job = some r
  /-- A job that was done has its result stored, or a worker is about to store it. -/
  done : ∀ job ∈ s.calls, ∀ r, outcome job = some r →
    s.results job = some r ∨ .storing job r ∈ s.workers
  /-- A failure is reported, or a worker is about to report it. -/
  failure : ∀ job ∈ s.calls, outcome job = none → s.failed = true ∨ .failing ∈ s.workers
  /-- Nothing else is reported. -/
  reported : s.failed = true ∨ .failing ∈ s.workers → ∃ job ∈ s.calls, outcome job = none
  cancelled : s.cancel = true ∨ .cancelling ∈ s.workers → s.failed = true
  /-- A worker ends when it is asked to, or when there are no more jobs. -/
  ended : .ended ∈ s.workers → s.cancel = true ∨ n ≤ s.next

theorem inv_init (n : Nat) (outcome : Nat → Option ρ) (workers : Nat) :
    Inv n outcome (init workers : Pool ρ) := by
  have hmem : ∀ w ∈ (init workers : Pool ρ).workers, w = .testing := fun w hw =>
    List.eq_of_mem_replicate hw
  have hheld : (init workers : Pool ρ).workers.filterMap Worker.held = [] := by
    rw [List.filterMap_eq_nil_iff]
    intro w hw
    rw [hmem w hw]
    rfl
  refine ⟨?_, fun _ _ h => ?_, fun _ _ h => ?_, fun _ h => ?_, fun _ h => ?_, ?_, ?_, fun h => ?_⟩
  · rw [hheld]
    simp [init]
  · cases h
  · cases hmem _ h
  · simp [init] at h
  · simp [init] at h
  · rintro (h | h)
    · cases h
    · cases hmem _ h
  · rintro (h | h)
    · cases h
    · cases hmem _ h
  · cases hmem _ h

variable {w : Worker ρ}

/-- A worker and the others, before and after it moves on. -/
theorem exists_split (h : s.workers[i]? = some w) :
    ∃ front back, s.workers = front ++ w :: back ∧
      ∀ w', s.workers.set i w' = front ++ w' :: back := by
  obtain ⟨hi, hw⟩ := List.getElem?_eq_some_iff.mp h
  refine ⟨s.workers.take i, s.workers.drop (i + 1), ?_, fun w' => ?_⟩
  · rw [← hw, List.getElem_cons_drop, List.take_append_drop]
  · rw [List.set_eq_take_append_cons_drop, if_pos hi]

theorem filterMap_held_split (front back : List (Worker ρ)) (w : Worker ρ) :
    (front ++ w :: back).filterMap Worker.held =
      front.filterMap Worker.held ++ (w.held.toList ++ back.filterMap Worker.held) := by
  rw [List.filterMap_append, List.filterMap_cons]
  cases w.held <;> rfl

/-- **One step of one worker keeps account of the jobs.** -/
theorem Inv.taken_step (h : Inv n outcome s) (i : Nat) :
    ((s.step n outcome i).calls ++ (s.step n outcome i).workers.filterMap Worker.held).Perm
      (List.range (min (s.step n outcome i).next n)) := by
  have htaken := h.taken
  rcases hw : s.workers[i]? with _ | w
  · simpa only [Pool.step, hw] using htaken
  obtain ⟨front, back, hsplit, hset⟩ := exists_split hw
  rw [hsplit, filterMap_held_split] at htaken
  cases w with
  | ended =>
    simp only [Pool.step, hw]
    rw [hsplit, filterMap_held_split]
    exact htaken
  | testing =>
    simp only [Pool.step, hw, Pool.move, hset, filterMap_held_split]
    split <;> exact htaken
  | claiming =>
    simp only [Pool.step, hw, Pool.move, hset, filterMap_held_split]
    split
    next hlt =>
      -- the counter's value is the new job
      have hmin : min (s.next + 1) n = min s.next n + 1 := by omega
      have hval : min s.next n = s.next := by omega
      rw [hmin, List.range_succ, hval]
      rw [hval] at htaken
      refine List.Perm.trans ?_ (htaken.append_right [s.next])
      simp only [List.append_assoc]
      exact (List.perm_append_comm.append_left _).append_left _
    next hge =>
      have hmin : min (s.next + 1) n = min s.next n := by omega
      rw [hmin]
      exact htaken
  | working job =>
    simp only [Pool.step, hw, Pool.move, hset, filterMap_held_split]
    refine List.Perm.trans ?_ htaken
    have hnone : (match outcome job with
        | some result => Worker.storing job result
        | none => .failing).held = none := by
      cases outcome job <;> rfl
    rw [hnone]
    simp only [List.append_assoc, List.singleton_append]
    exact List.perm_middle.symm.append_left _
  | storing job r =>
    simp only [Pool.step, hw, Pool.move, hset, filterMap_held_split]
    exact htaken
  | failing =>
    simp only [Pool.step, hw, Pool.move, hset, filterMap_held_split]
    exact htaken
  | cancelling =>
    simp only [Pool.step, hw, Pool.move, hset, filterMap_held_split]
    exact htaken

/-- The worker that moves on is one of the workers; of the others only that they stay matters. -/
theorem exists_others (h : s.workers[i]? = some w) :
    ∃ others : Worker ρ → Prop, (∀ x, x ∈ s.workers ↔ x = w ∨ others x) ∧
      ∀ w' x, x ∈ s.workers.set i w' ↔ x = w' ∨ others x := by
  obtain ⟨front, back, hsplit, hset⟩ := exists_split h
  refine ⟨fun x => x ∈ front ∨ x ∈ back, fun x => ?_, fun w' x => ?_⟩
  · simp [hsplit, or_left_comm]
  simp [hset, or_left_comm]

/-- Results stay those of their jobs, and none is lost. -/
theorem Inv.results_step (h : Inv n outcome s) (i : Nat) :
    (∀ job r, (s.step n outcome i).results job = some r → outcome job = some r) ∧
      (∀ job r, .storing job r ∈ (s.step n outcome i).workers → outcome job = some r) ∧
      ∀ job ∈ (s.step n outcome i).calls, ∀ r, outcome job = some r →
        (s.step n outcome i).results job = some r ∨
          .storing job r ∈ (s.step n outcome i).workers := by
  obtain ⟨-, hresult, hstoring, hdone, -, -, -, -⟩ := h
  rcases hw : s.workers[i]? with _ | w
  · simp only [Pool.step, hw]
    exact ⟨hresult, hstoring, hdone⟩
  obtain ⟨others, hmem, hset⟩ := exists_others hw
  cases w <;> simp only [Pool.step, hw, Pool.move] <;> refine ⟨?_, ?_, ?_⟩ <;>
    grind [Function.update_apply]

/-- **One step of one worker keeps the invariant.** -/
theorem Inv.step (h : Inv n outcome s) (i : Nat) : Inv n outcome (s.step n outcome i) := by
  obtain ⟨hresult, hstoring, hdone⟩ := h.results_step i
  refine ⟨h.taken_step i, hresult, hstoring, hdone, ?_, ?_, ?_, ?_⟩
  all_goals
    obtain ⟨-, -, -, -, hfailure, hreported, hcancelled, hended⟩ := h
    cases hw : s.workers[i]? with
    | none => simpa only [Pool.step, hw]
    | some w =>
      obtain ⟨others, hmem, hset⟩ := exists_others hw
      cases w <;> simp only [Pool.step, hw, Pool.move] <;> grind

/-- **The invariant holds in every run.** -/
theorem inv_run (n : Nat) (outcome : Nat → Option ρ) (workers : Nat) (schedule : List Nat) :
    Inv n outcome ((init workers).run n outcome schedule) := by
  suffices h : ∀ s : Pool ρ, Inv n outcome s → Inv n outcome (s.run n outcome schedule) from
    h _ (inv_init n outcome workers)
  induction schedule with
  | nil => exact fun s hs => hs
  | cons i schedule ih => exact fun s hs => ih _ (hs.step i)

/-! ## What a run can say about the jobs -/

theorem Inv.nodup_calls (h : Inv n outcome s) : s.calls.Nodup :=
  (List.nodup_append.mp (h.taken.nodup_iff.mpr List.nodup_range)).1

theorem Inv.lt_of_mem_calls (h : Inv n outcome s) {job : Nat} (hjob : job ∈ s.calls) : job < n := by
  have hmem := h.taken.mem_iff.mp (List.mem_append_left _ hjob)
  rw [List.mem_range] at hmem
  omega

theorem Inv.not_mem_of_ended (hs : s.Ended) (hw : w ≠ .ended) : w ∉ s.workers :=
  fun hmem => hw (hs w hmem)

/-- **A failed job is reported, and has no result.** -/
theorem Inv.failed_of_ended (h : Inv n outcome s) (hs : s.Ended) {job : Nat} (hjob : job ∈ s.calls)
    (hnone : outcome job = none) : s.failed = true ∧ s.results job = none := by
  refine ⟨?_, ?_⟩
  · rcases h.failure job hjob hnone with hfailed | hmem
    · exact hfailed
    · exact absurd hmem (Inv.not_mem_of_ended hs (by simp))
  · cases hr : s.results job with
    | none => rfl
    | some r => rw [h.result job r hr] at hnone; cases hnone

/-- **Without a failure the results are those of the jobs**, whatever the schedule was. -/
theorem Inv.results_of_ended (h : Inv n outcome s) (hs : s.Ended) (hworkers : s.workers ≠ [])
    (hall : ∀ job < n, (outcome job).isSome) :
    s.failed = false ∧ s.cancel = false ∧ ∀ job < n, s.results job = outcome job := by
  have hfailed : s.failed = false := by
    rw [← Bool.not_eq_true]
    intro hfailed
    obtain ⟨job, hjob, hnone⟩ := h.reported (Or.inl hfailed)
    have hsome := hall job (h.lt_of_mem_calls hjob)
    rw [hnone] at hsome
    cases hsome
  have hcancel : s.cancel = false := by
    rw [← Bool.not_eq_true]
    intro hcancel
    rw [h.cancelled (Or.inl hcancel)] at hfailed
    cases hfailed
  refine ⟨hfailed, hcancel, fun job hjob => ?_⟩
  -- a worker has ended, so there was no job left to take
  have hended : .ended ∈ s.workers := by
    obtain ⟨w, hw⟩ := List.exists_mem_of_ne_nil _ hworkers
    rwa [hs w hw] at hw
  have hnext : n ≤ s.next := by
    rcases h.ended hended with hc | hnext
    · rw [hc] at hcancel; cases hcancel
    · exact hnext
  have hheld : s.workers.filterMap Worker.held = [] := by
    rw [List.filterMap_eq_nil_iff]
    intro w hw
    rw [hs w hw]
    rfl
  have hcall : job ∈ s.calls := by
    have hmem := h.taken.mem_iff.mpr (List.mem_range.mpr (by omega : job < min s.next n))
    rwa [hheld, List.append_nil] at hmem
  obtain ⟨r, hr⟩ := Option.isSome_iff_exists.mp (hall job hjob)
  rcases h.done job hcall r hr with hresult | hmem
  · rw [hresult, hr]
  · exact absurd hmem (Inv.not_mem_of_ended hs (by simp))

theorem length_workers_step (s : Pool ρ) (i : Nat) :
    (s.step n outcome i).workers.length = s.workers.length := by
  rw [Pool.step]
  split <;> simp only [Pool.move, List.length_set]

theorem length_workers_run (s : Pool ρ) (schedule : List Nat) :
    (s.run n outcome schedule).workers.length = s.workers.length := by
  induction schedule generalizing s with
  | nil => rfl
  | cons i schedule ih => rw [run, List.foldl_cons, ← run, ih, length_workers_step]

/-! ## The workers end -/

/-- How many steps can still be made: those of the workers, and four for each job that is left. -/
def remaining (n : Nat) (s : Pool ρ) : Nat := 4 * (n - s.next) + (s.workers.map Worker.weight).sum

theorem remaining_init (n workers : Nat) :
    (init workers : Pool ρ).remaining n = 4 * n + workers * 3 := by
  simp [remaining, init, Worker.weight]

theorem sum_weight_set (hw : s.workers[i]? = some w) (w' : Worker ρ) :
    ((s.workers.set i w').map Worker.weight).sum + w.weight =
      (s.workers.map Worker.weight).sum + w'.weight := by
  obtain ⟨front, back, hsplit, hset⟩ := exists_split hw
  rw [hset, hsplit]
  simp only [List.map_append, List.map_cons, List.sum_append, List.sum_cons]
  omega

/-- A worker that has not ended gets on. -/
theorem remaining_step_lt (hw : s.workers[i]? = some w) (hend : w ≠ .ended) :
    (s.step n outcome i).remaining n < s.remaining n := by
  have hsum := sum_weight_set hw
  cases w with
  | ended => exact absurd rfl hend
  | testing =>
    simp only [Pool.step, hw, Pool.move, remaining]
    have h := hsum (if s.cancel = true then .ended else .claiming)
    have hweight : (if s.cancel = true then Worker.ended else .claiming : Worker ρ).weight ≤ 2 := by
      split <;> simp [Worker.weight]
    simp only [Worker.weight] at h hweight ⊢
    omega
  | claiming =>
    simp only [Pool.step, hw, Pool.move, remaining]
    split
    next hlt =>
      have h := hsum (.working s.next)
      simp only [Worker.weight] at h ⊢
      omega
    next =>
      have h := hsum .ended
      simp only [Worker.weight] at h ⊢
      omega
  | working job =>
    simp only [Pool.step, hw, Pool.move, remaining]
    split
    next result _ =>
      have h := hsum (.storing job result)
      simp only [Worker.weight] at h ⊢
      omega
    next =>
      have h := hsum .failing
      simp only [Worker.weight] at h ⊢
      omega
  | storing job result =>
    have h := hsum .testing
    simp only [Pool.step, hw, Pool.move, remaining, Worker.weight] at h ⊢
    omega
  | failing =>
    have h := hsum .cancelling
    simp only [Pool.step, hw, Pool.move, remaining, Worker.weight] at h ⊢
    omega
  | cancelling =>
    have h := hsum .ended
    simp only [Pool.step, hw, Pool.move, remaining, Worker.weight] at h ⊢
    omega

/-- A worker that has ended, or is not there, changes nothing. -/
theorem step_eq_self (hw : ∀ w, s.workers[i]? = some w → w = .ended) : s.step n outcome i = s := by
  cases hi : s.workers[i]? with
  | none => rw [Pool.step, hi]
  | some w => simp [hw w hi, Pool.step, hi]

theorem step_cases (n : Nat) (outcome : Nat → Option ρ) (s : Pool ρ) (i : Nat) :
    s.step n outcome i = s ∨ (s.step n outcome i).remaining n < s.remaining n := by
  by_cases hw : ∀ w, s.workers[i]? = some w → w = .ended
  · exact Or.inl (step_eq_self hw)
  · push Not at hw
    obtain ⟨w, hw, hend⟩ := hw
    exact Or.inr (remaining_step_lt hw hend)

theorem getElem?_workers_step {j : Nat} (h : i ≠ j) :
    (s.step n outcome i).workers[j]? = s.workers[j]? := by
  rw [Pool.step]
  split <;> simp only [Pool.move, List.getElem?_set_ne h]

theorem remaining_run_le (s : Pool ρ) (schedule : List Nat) :
    (s.run n outcome schedule).remaining n ≤ s.remaining n := by
  induction schedule generalizing s with
  | nil => exact Nat.le_refl _
  | cons i schedule ih =>
    refine Nat.le_trans (ih (s.step n outcome i)) ?_
    rcases step_cases n outcome s i with h | h
    · simp [h]
    omega

/-- A worker that has not ended gets on when its turn comes. -/
theorem remaining_run_lt (hw : s.workers[i]? = some w) (hend : w ≠ .ended) {schedule : List Nat}
    (hi : i ∈ schedule) :
    (s.run n outcome schedule).remaining n < s.remaining n := by
  induction schedule generalizing s with
  | nil => cases hi
  | cons j schedule ih =>
    by_cases hj : j = i
    · subst hj
      exact Nat.lt_of_le_of_lt (remaining_run_le _ schedule) (remaining_step_lt hw hend)
    · have hturn : i ∈ schedule := (List.mem_cons.mp hi).resolve_left (Ne.symm hj)
      have hlt := ih (s := s.step n outcome j) ((getElem?_workers_step hj).trans hw) hturn
      exact Nat.lt_of_lt_of_le hlt (remaining_run_le s [j])

theorem run_eq_self (hs : s.Ended) (schedule : List Nat) : s.run n outcome schedule = s := by
  induction schedule with
  | nil => rfl
  | cons i schedule ih =>
    have hstep : s.step n outcome i = s := step_eq_self fun w hw => hs w (List.mem_of_getElem? hw)
    rw [run, List.foldl_cons, hstep]
    exact ih

/-- **The workers end**, if each of them has its turn in each of enough rounds. -/
theorem ended_of_rounds (s : Pool ρ) (rounds : List (List Nat))
    (hturns : ∀ round ∈ rounds, ∀ i < s.workers.length, i ∈ round)
    (hrounds : s.remaining n ≤ rounds.length) : (s.run n outcome rounds.flatten).Ended := by
  induction rounds generalizing s with
  | nil =>
    intro w hw
    have hsum : (s.workers.map Worker.weight).sum = 0 := by
      have hzero : s.remaining n ≤ 0 := hrounds
      rw [remaining] at hzero
      omega
    have hweight : w.weight = 0 :=
      List.sum_eq_zero_iff_forall_eq_nat.mp hsum _ (List.mem_map_of_mem hw)
    cases w <;> simp_all [Worker.weight]
  | cons round rounds ih =>
    by_cases hs : s.Ended
    · rw [run_eq_self hs]
      exact hs
    have hex : ∃ w ∈ s.workers, w ≠ .ended := by
      simpa only [Ended, not_forall, exists_prop] using hs
    obtain ⟨w, hmem, hend⟩ := hex
    obtain ⟨i, hi, hw⟩ := List.getElem_of_mem hmem
    have hlt : (s.run n outcome round).remaining n < s.remaining n :=
      remaining_run_lt (List.getElem?_eq_some_iff.mpr ⟨hi, hw⟩) hend
        (hturns round List.mem_cons_self i hi)
    rw [List.length_cons] at hrounds
    have hrun : s.run n outcome (round :: rounds).flatten =
        (s.run n outcome round).run n outcome rounds.flatten := by simp [run]
    rw [hrun]
    refine ih _ (fun round' hround' i hi => ?_) (by omega)
    rw [length_workers_run] at hi
    exact hturns round' (List.mem_cons_of_mem _ hround') i hi

end Pool

end JobPool
