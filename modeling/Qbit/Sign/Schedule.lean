import Qbit.Sign.Parallel

/-!
# Signing in parallel does not depend on the schedule

What `TrySignTransactionPQCParallel` does, whatever the number of workers is and in whatever order
they make their steps.

* No two calls of `CPQCKey::Sign` are made with the same public key and the same counter, and each
  counter lies in the range that was reserved for its key.
* If all calls succeed, then the result does not depend on the schedule and on the number of
  workers.
* If a call that was made fails, then the function returns false and leaves the transaction as it
  was.
-/

namespace Qbit

open JobPool ParallelPQCSigning
open DescriptorMan (PQCSignatureCounterRange)

/-! ## How many jobs a key has -/

/-- The number of jobs of a key. -/
def jobCount (jobs : List ParallelPQCSigningJob) (pubkey : CPQCPubKey) : Nat :=
  jobs.countP (·.pubkey = pubkey)

theorem jobCount_append (jobs jobs' : List ParallelPQCSigningJob) (pubkey : CPQCPubKey) :
    jobCount (jobs ++ jobs') pubkey = jobCount jobs pubkey + jobCount jobs' pubkey :=
  List.countP_append

theorem jobCount_cons (job : ParallelPQCSigningJob) (jobs : List ParallelPQCSigningJob)
    (pubkey : CPQCPubKey) : jobCount (job :: jobs) pubkey =
      (if job.pubkey = pubkey then 1 else 0) + jobCount jobs pubkey := by
  rw [jobCount, jobCount, List.countP_cons, Nat.add_comm]
  simp

/-- The counts are the numbers of jobs, in 32 bits. -/
def JobQueue.Counted (queue : JobQueue) : Prop :=
  ∀ pubkey, queue.counts.lookup pubkey =
    if jobCount queue.jobs pubkey = 0 then none
    else some (UInt32.ofNat (jobCount queue.jobs pubkey))

theorem JobQueue.counted_empty : JobQueue.Counted {} := fun _ => rfl

theorem JobQueue.jobCount_push (queue : JobQueue) (job : ParallelPQCSigningJob)
    (pubkey : CPQCPubKey) : jobCount (queue.push job).jobs pubkey =
      jobCount queue.jobs pubkey + if job.pubkey = pubkey then 1 else 0 := by
  rw [JobQueue.push, jobCount_append, jobCount_cons]
  rfl

variable {queue : JobQueue} {ranges : KeyMap PQCSignatureCounterRange}
  {cursors cursors' : KeyMap UInt32} {jobs jobs' : List ParallelPQCSigningJob}

theorem JobQueue.Counted.push (h : queue.Counted) (job : ParallelPQCSigningJob) :
    (queue.push job).Counted := by
  intro pubkey
  rw [JobQueue.jobCount_push]
  by_cases hkey : job.pubkey = pubkey
  · subst hkey
    have hlookup : (queue.push job).counts.lookup job.pubkey =
        some ((queue.counts.lookup job.pubkey).getD 0 + 1) := AList.lookup_insert _
    rw [hlookup, if_pos rfl, if_neg (Nat.succ_ne_zero _), h job.pubkey]
    split
    next hzero => rw [hzero]; rfl
    next => rw [Option.getD_some, UInt32.ofNat_add]; rfl
  · have hlookup : (queue.push job).counts.lookup pubkey = queue.counts.lookup pubkey :=
      AList.lookup_insert_ne (Ne.symm hkey)
    rw [hlookup, if_neg hkey, Nat.add_zero]
    exact h pubkey

section Queue

variable {C : Crypto} {W : Type} {provider : BatchSigningProvider W}

variable {queue queue' : JobQueue} {mtx : CTransaction} {coins : COutPoint → Option Coin}
  {nHashType : Int} {txdata : PrecomputedTransactionData}

/-- An input adds at most one job to each key, and none to a key that it has queued already. -/
theorem queueJobs_spec {creator : MutableTransactionSignatureCreator} {sigdata : SignatureData}
    {plan : P2MRScriptSigningPlan} {keys : List (CPQCPubKey × Bool)} {num_signed num_signed' : Nat}
    {queued : List CPQCPubKey} {job_indices job_indices' : List Nat} (hcounted : queue.Counted)
    (h : queueJobs C provider creator sigdata plan keys num_signed queued job_indices queue =
      some (num_signed', job_indices', queue')) :
    queue'.Counted ∧ ∀ pubkey, jobCount queue'.jobs pubkey ≤
      jobCount queue.jobs pubkey + if pubkey ∈ queued then 0 else 1 := by
  induction keys generalizing num_signed queued job_indices queue with
  | nil =>
    cases h
    exact ⟨hcounted, fun _ => Nat.le_add_right _ _⟩
  | cons key keys ih =>
    obtain ⟨pubkey, candidate⟩ := key
    rw [queueJobs] at h
    split at h
    · exact ih hcounted h
    split at h
    · exact ih hcounted h
    next hnew =>
    split at h
    next key sighash hkey hsighash =>
      obtain ⟨hcounted', hcount⟩ := ih (hcounted.push _) h
      refine ⟨hcounted', fun pubkey' => ?_⟩
      have hle := hcount pubkey'
      rw [JobQueue.jobCount_push] at hle
      have hqueued : pubkey ∉ queued := by
        intro hmem
        rw [List.contains_iff_mem.mpr hmem, Bool.or_true] at hnew
        exact hnew rfl
      by_cases heq : pubkey = pubkey'
      · subst heq
        rw [if_pos rfl, if_pos List.mem_cons_self] at hle
        simp [hqueued, hle]
      · simp only [List.mem_cons, Ne.symm heq, false_or, if_neg heq] at hle
        exact hle
    · cases h

theorem prepareInput_spec {w : W} {i : Nat} {txin : CTxIn} {plan : ParallelPQCInputPlan}
    (hcounted : queue.Counted)
    (h : prepareInput C provider mtx coins nHashType txdata w i txin queue = some (plan, queue')) :
    queue'.Counted ∧ ∀ pubkey, jobCount queue'.jobs pubkey ≤ jobCount queue.jobs pubkey + 1 := by
  rw [prepareInput] at h
  split at h
  · cases h
  split at h
  · cases h
  split at h
  · cases h
  split at h
  · cases h
  rw [planInput] at h
  split at h
  · cases h
    exact ⟨hcounted, fun _ => Nat.le_succ _⟩
  split at h
  · cases h
  split at h
  · cases h
  next hqueue =>
  split at h
  · cases h
  cases h
  obtain ⟨hcounted', hcount⟩ := queueJobs_spec hcounted hqueue
  refine ⟨hcounted', fun pubkey => ?_⟩
  have hle := hcount pubkey
  rwa [if_neg List.not_mem_nil] at hle

/-- **A key has at most one job for each input.** -/
theorem prepareInputs_spec {w : W} {vin : List CTxIn} {i : Nat} {plans : List ParallelPQCInputPlan}
    (hcounted : queue.Counted)
    (h : prepareInputs C provider mtx coins nHashType txdata w vin i queue = some (plans, queue')) :
    queue'.Counted ∧
      ∀ pubkey, jobCount queue'.jobs pubkey ≤ jobCount queue.jobs pubkey + vin.length := by
  induction vin generalizing i queue plans with
  | nil =>
    cases h
    exact ⟨hcounted, fun _ => le_rfl⟩
  | cons txin vin ih =>
    rw [prepareInputs] at h
    split at h
    · cases h
    next hplan =>
    split at h
    · cases h
    next hplans =>
    cases h
    obtain ⟨hcounted₁, hcount₁⟩ := prepareInput_spec hcounted hplan
    obtain ⟨hcounted₂, hcount₂⟩ := ih hcounted₁ hplans
    refine ⟨hcounted₂, fun pubkey => ?_⟩
    have hle₁ := hcount₁ pubkey
    have hle₂ := hcount₂ pubkey
    rw [List.length_cons]
    omega

end Queue

/-! ## The counters of the jobs -/

/-- The ranges were checked, and each key begins where its range begins. -/
theorem initialCursors_spec {counts : List (Sigma fun _ : CPQCPubKey => UInt32)}
    (hnodup : (counts.map Sigma.fst).Nodup)
    (h : initialCursors ranges counts cursors = some cursors') :
    (∀ pubkey count, ⟨pubkey, count⟩ ∈ counts → ∃ range, ranges.lookup pubkey = some range ∧
      range.previous_counter ≤ range.reserved_counter ∧
      range.reserved_counter - range.previous_counter = count ∧
      cursors'.lookup pubkey = some range.previous_counter) ∧
    ∀ pubkey, pubkey ∉ counts.map Sigma.fst → cursors'.lookup pubkey = cursors.lookup pubkey := by
  induction counts generalizing cursors with
  | nil =>
    cases h
    simp
  | cons entry counts ih =>
    obtain ⟨pubkey, count⟩ := entry
    rw [List.map_cons, List.nodup_cons] at hnodup
    rw [initialCursors] at h
    split at h
    · cases h
    next range hrange =>
    split at h
    next hok =>
      obtain ⟨hall, hothers⟩ := ih hnodup.2 h
      refine ⟨fun pubkey' count' hmem => ?_, fun pubkey' hmem => ?_⟩
      · rcases List.mem_cons.mp hmem with heq | hmem
        · cases heq
          exact ⟨range, hrange, hok.2.1, hok.2.2,
            (hothers pubkey hnodup.1).trans (AList.lookup_insert _)⟩
        · exact hall pubkey' count' hmem
      · rw [List.map_cons, List.mem_cons, not_or] at hmem
        rw [hothers pubkey' hmem.2, AList.lookup_insert_ne hmem.1]
    · cases h

/-- **The jobs of a key get consecutive counters**, in the order of the jobs. -/
theorem assignCounters_spec (h : assignCounters jobs cursors = .ok (jobs', cursors')) :
    jobs'.length = jobs.length ∧ ∀ (j : Nat) job', jobs'[j]? = some job' →
      ∃ (job : ParallelPQCSigningJob) (start : UInt32), jobs[j]? = some job ∧
        cursors.lookup job.pubkey = some start ∧ job' = { job with
          assigned_counter := start + UInt32.ofNat (jobCount (jobs.take j) job.pubkey) } := by
  induction jobs generalizing cursors jobs' with
  | nil =>
    cases h
    simp
  | cons job jobs ih =>
    rw [assignCounters] at h
    split at h
    · cases h
    next cursor hcursor =>
    split at h
    · cases h
    next jobs₁ cursors₁ hrest =>
    cases h
    obtain ⟨hlength, hall⟩ := ih hrest
    refine ⟨by rw [List.length_cons, List.length_cons, hlength], fun j job' hget => ?_⟩
    cases j with
    | zero =>
      cases hget
      refine ⟨job, cursor, rfl, hcursor, ?_⟩
      have hzero : cursor + UInt32.ofNat (jobCount (List.take 0 (job :: jobs)) job.pubkey) =
          cursor := UInt32.add_zero cursor
      rw [hzero]
    | succ j =>
      obtain ⟨job₀, start, hget₀, hstart, rfl⟩ := hall j job' hget
      by_cases hkey : job.pubkey = job₀.pubkey
      · rw [← hkey, AList.lookup_insert] at hstart
        cases hstart
        refine ⟨job₀, cursor, hget₀, by rw [← hkey]; exact hcursor, ?_⟩
        simp [jobCount_cons, hkey, UInt32.add_assoc]
      · rw [AList.lookup_insert_ne (Ne.symm hkey)] at hstart
        refine ⟨job₀, start, hget₀, hstart, ?_⟩
        simp [jobCount_cons, hkey]

theorem jobCount_le_of_sublist (h : jobs.Sublist jobs') (pubkey : CPQCPubKey) :
    jobCount jobs pubkey ≤ jobCount jobs' pubkey :=
  h.countP_le

/-- A job has fewer jobs of its key before it than a later position has. -/
theorem jobCount_take_lt {i j : Nat} (hij : i < j) {job : ParallelPQCSigningJob}
    (hjob : jobs[i]? = some job) :
    jobCount (jobs.take i) job.pubkey < jobCount (jobs.take j) job.pubkey := by
  have hsucc : jobCount (jobs.take (i + 1)) job.pubkey = jobCount (jobs.take i) job.pubkey + 1 := by
    rw [List.take_add_one, hjob, Option.toList_some, jobCount_append, jobCount_cons, if_pos rfl]
    rfl
  have hle : jobCount (jobs.take (i + 1)) job.pubkey ≤ jobCount (jobs.take j) job.pubkey :=
    jobCount_le_of_sublist (List.take_sublist_take_left hij) job.pubkey
  omega

/-- The counter of a job lies in the range of its key, behind those of the jobs before it. -/
theorem assignRanges_spec (hcounted : queue.Counted)
    (hbound : ∀ pubkey, jobCount queue.jobs pubkey < 2 ^ 32)
    (h : assignRanges queue ranges = .ok jobs) :
    jobs.length = queue.jobs.length ∧ ∀ (j : Nat) job, jobs[j]? = some job →
      ∃ job₀ range, queue.jobs[j]? = some job₀ ∧ job₀.pubkey = job.pubkey ∧
        ranges.lookup job.pubkey = some range ∧
        job.assigned_counter.toNat =
          range.previous_counter.toNat + jobCount (queue.jobs.take j) job.pubkey ∧
        job.assigned_counter.toNat < range.reserved_counter.toNat := by
  rw [assignRanges] at h
  split at h
  · cases h
  split at h
  · cases h
  next cursors hcursors =>
  split at h
  · cases h
  next jobs' cursors' hassign =>
  split at h
  · cases h
    obtain ⟨hlength, hall⟩ := assignCounters_spec hassign
    refine ⟨hlength, fun j job hjob => ?_⟩
    obtain ⟨job₀, start, hjob₀, hstart, rfl⟩ := hall j job hjob
    -- the key of the job has a count, which is how long its range is
    have hlt : jobCount (queue.jobs.take j) job₀.pubkey < jobCount queue.jobs job₀.pubkey := by
      have hend : j < queue.jobs.length := (List.getElem?_eq_some_iff.mp hjob₀).1
      have htake := jobCount_take_lt hend hjob₀
      rwa [List.take_length] at htake
    have hlookup := hcounted job₀.pubkey
    rw [if_neg (by omega)] at hlookup
    obtain ⟨range, hrange, hle, hsub, hcursor⟩ :=
      (initialCursors_spec queue.counts.nodupKeys hcursors).1 _ _ (AList.mem_lookup_iff.mp hlookup)
    cases hstart.symm.trans hcursor
    refine ⟨job₀, range, hjob₀, rfl, hrange, ?_⟩
    have hbound := hbound job₀.pubkey
    have hcount : range.reserved_counter.toNat =
        range.previous_counter.toNat + jobCount queue.jobs job₀.pubkey := by
      have hnat := congrArg UInt32.toNat hsub
      rw [UInt32.toNat_sub_of_le _ _ hle, UInt32.toNat_ofNat_of_lt' hbound] at hnat
      omega
    have hmax := range.reserved_counter.toNat_lt
    have hadd : (range.previous_counter +
        UInt32.ofNat (jobCount (queue.jobs.take j) job₀.pubkey)).toNat =
          range.previous_counter.toNat + jobCount (queue.jobs.take j) job₀.pubkey := by
      rw [UInt32.toNat_add, UInt32.toNat_ofNat_of_lt' (by rw [UInt32.size]; omega),
        Nat.mod_eq_of_lt (by omega)]
    rw [hadd]
    exact ⟨rfl, by omega⟩
  · cases h

/-! ## Whole runs -/

namespace ParallelPQCSigning

/-- What the jobs satisfy when the workers start: each has a counter of the range of its key, and no
two of them have the same. -/
structure Assigned (p : ParallelPQCSigning) : Prop where
  range : ∀ (j : Nat) job, p.jobs[j]? = some job → ∃ range, p.ranges.lookup job.pubkey = some range ∧
    range.previous_counter ≤ job.assigned_counter ∧ job.assigned_counter < range.reserved_counter
  inj : ∀ (i j : Nat) job job', p.jobs[i]? = some job → p.jobs[j]? = some job' →
    job.pubkey = job'.pubkey → job.assigned_counter = job'.assigned_counter → i = j

theorem assigned_of_assignRanges {p : ParallelPQCSigning} (hcounted : queue.Counted)
    (hbound : ∀ pubkey, jobCount queue.jobs pubkey < 2 ^ 32)
    (h : assignRanges queue p.ranges = .ok p.jobs) : p.Assigned := by
  obtain ⟨-, hall⟩ := assignRanges_spec hcounted hbound h
  refine ⟨fun j job hjob => ?_, ?_⟩
  · obtain ⟨-, range, -, -, hrange, hcounter, hlt⟩ := hall j job hjob
    refine ⟨range, hrange, UInt32.le_iff_toNat_le.mpr ?_, UInt32.lt_iff_toNat_lt.mpr hlt⟩
    omega
  · -- of two jobs of a key, the later one has more jobs of the key before it
    have hne : ∀ (i j : Nat) job job', i < j → p.jobs[i]? = some job → p.jobs[j]? = some job' →
        job.pubkey = job'.pubkey → job.assigned_counter ≠ job'.assigned_counter := by
      intro i j job job' hij hjob hjob' hkey hcounter
      obtain ⟨job₀, range, hjob₀, hkey₀, hrange, hc, -⟩ := hall i job hjob
      obtain ⟨_, range', _, _, hrange', hc', -⟩ := hall j job' hjob'
      rw [← hkey] at hrange' hc'
      cases hrange.symm.trans hrange'
      have hlt := jobCount_take_lt hij hjob₀
      rw [hkey₀] at hlt
      rw [← hcounter] at hc'
      omega
    intro i j job job' hjob hjob' hkey hcounter
    rcases Nat.lt_trichotomy i j with hlt | heq | hgt
    · exact absurd hcounter (hne i j job job' hlt hjob hjob' hkey)
    · exact heq
    · exact absurd hcounter.symm (hne j i job' job hgt hjob' hjob hkey.symm)

variable {p : ParallelPQCSigning} {sign : ParallelPQCSigningJob → SignOutcome}

section Pool

variable (p : ParallelPQCSigning) (sign : ParallelPQCSigningJob → SignOutcome) (worker_count : Nat)
  (schedule : List Nat)

theorem inv_pool : Pool.Inv p.jobs.length (p.outcome sign) (p.pool sign worker_count schedule) :=
  Pool.inv_run _ _ _ _

theorem length_workers_pool :
    (p.pool sign worker_count schedule).workers.length = worker_count := by
  simp [pool, Pool.length_workers_run, Pool.init]

end Pool

/-- **No counter of a key is used twice**, and each lies in the range that was reserved. -/
theorem Assigned.signCalls (h : p.Assigned) (worker_count : Nat) (schedule : List Nat) :
    (p.signCalls sign worker_count schedule).Nodup ∧
      ∀ call ∈ p.signCalls sign worker_count schedule, ∃ range,
        p.ranges.lookup call.1 = some range ∧ range.previous_counter ≤ call.2 ∧
          call.2 < range.reserved_counter := by
  have hinv := p.inv_pool sign worker_count schedule
  refine ⟨hinv.nodup_calls.filterMap ?_, fun call hcall => ?_⟩
  · intro i j call hi hj
    obtain ⟨job, hjob, rfl⟩ := Option.map_eq_some_iff.mp hi
    obtain ⟨job', hjob', heq⟩ := Option.map_eq_some_iff.mp hj
    obtain ⟨hkey, hcounter⟩ := Prod.mk.inj heq
    exact h.inj i j job job' hjob hjob' hkey.symm hcounter.symm
  · obtain ⟨j, -, hj⟩ := List.mem_filterMap.mp hcall
    obtain ⟨job, hjob, rfl⟩ := Option.map_eq_some_iff.mp hj
    exact h.range j job hjob

variable {j worker_count : Nat} {schedule : List Nat}

theorem outcome_eq_none_of_le (h : p.jobs.length ≤ j) : p.outcome sign j = none := by
  rw [outcome, List.getElem?_eq_none h]

/-- If all calls succeed, then the workers leave the same whatever the schedule was. -/
theorem pool_of_signed
    (hsigned : ∀ job ∈ p.jobs, ∃ signature,
      sign job = .returned true signature (job.assigned_counter + 1)) (hworkers : worker_count ≠ 0)
    (hended : (p.pool sign worker_count schedule).Ended) :
    (p.pool sign worker_count schedule).failed = false ∧
      (p.pool sign worker_count schedule).cancel = false ∧
        (p.pool sign worker_count schedule).results = p.outcome sign := by
  have hinv := p.inv_pool sign worker_count schedule
  have hsome : (p.pool sign worker_count schedule).workers ≠ [] := by
    intro hnil
    have hlength := p.length_workers_pool sign worker_count schedule
    rw [hnil] at hlength
    exact hworkers hlength.symm
  have hall : ∀ j < p.jobs.length, (p.outcome sign j).isSome = true := by
    intro j hj
    obtain ⟨signature, hsign⟩ := hsigned _ (List.getElem_mem hj)
    rw [outcome, List.getElem?_eq_getElem hj]
    simp [hsign, ParallelPQCSigningJob.accept]
  obtain ⟨hfailed, hcancel, hresults⟩ := hinv.results_of_ended hended hsome hall
  refine ⟨hfailed, hcancel, funext fun j => ?_⟩
  by_cases hj : j < p.jobs.length
  · exact hresults j hj
  rw [outcome_eq_none_of_le (by omega)]
  rcases hr : (p.pool sign worker_count schedule).results j with _ | r
  · rfl
  have hsome := hinv.result j r hr
  rw [outcome_eq_none_of_le (by omega)] at hsome
  cases hsome

theorem isSome_firstUnsigned {results : Nat → Option Valtype} (hj : j < p.jobs.length)
    (hresult : results j = none) : (p.firstUnsigned results).isSome = true := by
  rw [firstUnsigned, Option.isSome_map, List.find?_isSome]
  exact ⟨(p.jobs[j], j), List.mk_mem_zipIdx_iff_getElem?.mpr (List.getElem?_eq_getElem hj),
    Option.isNone_iff_eq_none.mpr hresult⟩

/-- If a call fails, then there is an error after the workers have ended. -/
theorem isSome_workerError (hended : (p.pool sign worker_count schedule).Ended)
    (hcall : j ∈ (p.pool sign worker_count schedule).calls) (hnone : p.outcome sign j = none) :
    (p.workerError (p.pool sign worker_count schedule)).isSome = true := by
  have hinv := p.inv_pool sign worker_count schedule
  obtain ⟨hfailed, hresult⟩ := hinv.failed_of_ended hended hcall hnone
  have hsome := isSome_firstUnsigned (hinv.lt_of_mem_calls hcall) hresult
  rw [workerError]
  rw [if_pos hfailed, Option.isSome_or, Option.isSome_map]
  rw [Bool.or_eq_true]
  exact Or.inl hsome

end ParallelPQCSigning

section Whole

variable (C : Crypto) {W : Type} (config : SigningConfig) (other : OtherSigner W)
  (provider : BatchSigningProvider W) (mtx : CTransaction) (coins : COutPoint → Option Coin)
  (nHashType : Int) (txdata : PrecomputedTransactionData) (input_errors : InputErrors)
  (progress_callback : SigningProgressCallback) (w : W)

theorem prepared_counted {input_plans : List ParallelPQCInputPlan}
    (h : Prepared C config provider mtx coins nHashType txdata w input_plans queue) :
    queue.Counted ∧ ∀ pubkey, jobCount queue.jobs pubkey < 2 ^ 32 := by
  obtain ⟨hcounted, hcount⟩ := prepareInputs_spec JobQueue.counted_empty h.inputs
  refine ⟨hcounted, fun pubkey => ?_⟩
  have hle := hcount pubkey
  have hzero : jobCount ({} : JobQueue).jobs pubkey = 0 := rfl
  have hlength := h.length
  omega

/-- The preparation depends on the settings only in whether there are workers at all. -/
theorem prepareSigning_config {config' : SigningConfig} {p : ParallelPQCSigning} {w' : W}
    (h : prepareSigning C config provider mtx coins nHashType txdata input_errors progress_callback w =
      .ready p w')
    (henabled : config'.walletpqcparallel = true)
    (hworkers : getParallelPQCSigningWorkerCount config' p.jobs.length ≠ 0) :
    prepareSigning C config' provider mtx coins nHashType txdata input_errors progress_callback w =
      .ready p w' := by
  have hcases := prepareSigning_cases C config provider mtx coins nHashType txdata input_errors
    progress_callback w
  rw [h] at hcases
  obtain ⟨queue, hprepared, hcount, hassign⟩ := hcases
  obtain ⟨hcounted, hbound⟩ := prepared_counted C config provider mtx coins nHashType txdata w hprepared
  rw [(assignRanges_spec hcounted hbound hassign).1] at hworkers
  obtain ⟨reserve, hreserve⟩ := Option.isSome_iff_exists.mp hprepared.reserver
  have hlength := hprepared.length
  have hinputs := hprepared.inputs
  rw [← List.take_of_length_le (by omega : mtx.vin.length ≤ 2 ^ 32)] at hinputs
  rw [prepareSigning] at h ⊢
  simp only [hprepared.enabled, henabled, hreserve, Bool.not_true, Bool.false_eq_true, if_false]
    at h ⊢
  have hvin : ¬mtx.vin.isEmpty = true := by
    rw [List.isEmpty_iff]
    exact hprepared.vin
  rw [if_neg hvin] at h ⊢
  split at h
  · cases h
  next hnotify =>
  rw [hinputs] at h
  rw [if_neg hnotify, hinputs]
  dsimp only at h ⊢
  have hlong : ¬2 ^ 32 ≤ mtx.vin.length := by omega
  rw [if_neg hlong] at h ⊢
  split at h
  · split at h <;> cases h
  next hjobs =>
    rw [if_neg hjobs, if_neg hworkers]
    exact h

/-- **Signing in parallel does not depend on the schedule, and never uses a counter twice.**  The
workers end if each of them has its turns. -/
theorem parallel_signing_any_schedule {p : ParallelPQCSigning} {w' : W}
    (hready : prepareSigning C config provider mtx coins nHashType txdata input_errors
      progress_callback w = .ready p w') (sign : ParallelPQCSigningJob → SignOutcome) :
    -- no counter is used twice, and all of them were reserved
    (∀ worker_count schedule, (p.signCalls sign worker_count schedule).Nodup ∧
      ∀ call ∈ p.signCalls sign worker_count schedule, ∃ range,
        p.ranges.lookup call.1 = some range ∧ range.previous_counter ≤ call.2 ∧
          call.2 < range.reserved_counter) ∧
    -- if all calls succeed, then the result is always the same
    ((∀ job ∈ p.jobs, ∃ signature,
        sign job = .returned true signature (job.assigned_counter + 1)) →
      ∃ result : SignResult W, ∀ config', config'.walletpqcparallel = true →
        getParallelPQCSigningWorkerCount config' p.jobs.length ≠ 0 → ∀ schedule,
          trySignTransactionPQCParallel C config' other provider mtx coins nHashType txdata
              input_errors progress_callback w sign schedule = .running ∨
            trySignTransactionPQCParallel C config' other provider mtx coins nHashType txdata
              input_errors progress_callback w sign schedule = .returned result) ∧
    -- if a call fails or throws, then the function fails and changes nothing
    (∀ schedule result,
      trySignTransactionPQCParallel C config other provider mtx coins nHashType txdata input_errors
        progress_callback w sign schedule = .returned result →
      ∀ job_index ∈ (p.pool sign (getParallelPQCSigningWorkerCount config p.jobs.length)
          schedule).calls,
      ∀ job, p.jobs[job_index]? = some job →
      (sign job = .threw ∨ ∃ signature counter, sign job = .returned false signature counter) →
        result.success = false ∧ result.mtx = mtx) ∧
    -- the function returns if each worker has its turns
    ∀ rounds : List (List Nat),
      4 * p.jobs.length + getParallelPQCSigningWorkerCount config p.jobs.length * 3 ≤ rounds.length →
      (∀ round ∈ rounds, ∀ i < getParallelPQCSigningWorkerCount config p.jobs.length, i ∈ round) →
        trySignTransactionPQCParallel C config other provider mtx coins nHashType txdata input_errors
          progress_callback w sign rounds.flatten ≠ .running := by
  have hcases := prepareSigning_cases C config provider mtx coins nHashType txdata input_errors
    progress_callback w
  rw [hready] at hcases
  obtain ⟨queue, hprepared, -, hassign⟩ := hcases
  obtain ⟨hcounted, hbound⟩ := prepared_counted C config provider mtx coins nHashType txdata w hprepared
  have hassigned := assigned_of_assignRanges hcounted hbound hassign
  refine ⟨hassigned.signCalls, fun hsigned => ?_, ?_, ?_⟩
  · refine ⟨finishSigning C other provider mtx nHashType txdata input_errors w' p
      { failed := false, cancel := false, results := p.outcome sign, workers := [] },
      fun config' henabled hworkers schedule => ?_⟩
    have hready' := prepareSigning_config C config provider mtx coins nHashType txdata input_errors
      progress_callback w hready henabled hworkers
    rw [trySignTransactionPQCParallel, hready']
    dsimp only
    split
    next hended =>
      obtain ⟨hfailed, hcancel, hresults⟩ :=
        pool_of_signed hsigned hworkers hended
      right
      rw [finishSigning, finishSigning, workerError,
        workerError, hfailed, hcancel, hresults]
    · exact Or.inl rfl
  · intro schedule result hresult job_index hcall job hjob hfail
    rw [trySignTransactionPQCParallel, hready] at hresult
    dsimp only at hresult
    split at hresult
    next hended =>
      have hnone : p.outcome sign job_index = none := by
        rw [outcome, hjob]
        rcases hfail with h | ⟨signature, counter, h⟩ <;> dsimp only <;> rw [h] <;> rfl
      have herror := isSome_workerError hended hcall hnone
      obtain ⟨⟨i, error⟩, herror⟩ := Option.isSome_iff_exists.mp herror
      cases hresult
      rw [finishSigning, herror]
      exact ⟨rfl, rfl⟩
    · cases hresult
  · intro rounds hrounds hturns hrunning
    rw [trySignTransactionPQCParallel, hready] at hrunning
    dsimp only at hrunning
    split at hrunning
    · cases hrunning
    next hnot =>
    refine hnot (Pool.ended_of_rounds _ rounds ?_ ?_)
    · rw [Pool.init, List.length_replicate]
      exact hturns
    · rw [Pool.remaining_init]
      exact hrounds

end Whole

/-- A provider that can sign for the first key, and has reserved one counter. -/
def firstKeyProvider : BatchSigningProvider Unit where
  getP2MRSpendData := fun output => if output = oneOfTwoLeafHash then
    some { scripts := (∅ : AList _).insert (oneOfTwoScript, 0xc0) [[0xc1]] } else none
  getP2MRBuilder := fun _ => none
  canSignPQC := fun pubkey _ => pubkey == 1
  signPQC := fun _ _ w => (none, w)
  getPQCKey := fun pubkey => if pubkey = 1 then some (List.replicate 64 0) else none
  pqc_counter_batch_reserver := some fun _ w =>
    (some ((∅ : KeyMap PQCSignatureCounterRange).insert 1 ⟨1, 5, 6⟩), w)

def firstKeyPreparation : Preparation Unit :=
  prepareSigning oneOfTwoCrypto {} firstKeyProvider (oneOfTwoTx []) oneOfTwoCoins 0
    (.initForced oneOfTwoCrypto (oneOfTwoTx []) [oneOfTwoCoin.out]) ∅ (fun _ => true) ()

/-- The input without a signature has one job, and a single worker makes one call. -/
theorem parallel_signing_first_key : ∃ p w', firstKeyPreparation = .ready p w' ∧ p.jobs.length = 1 ∧
    ∀ worker_count schedule, (p.signCalls (fun _ => .threw) worker_count schedule).Nodup := by
  have hjobs : (match firstKeyPreparation with
      | .ready p _ => p.jobs.length
      | _ => 0) = 1 := by
    decide +kernel
  cases hready : firstKeyPreparation with
  | ready p w' =>
    rw [hready] at hjobs
    exact ⟨p, w', rfl, hjobs, fun worker_count schedule =>
      ((parallel_signing_any_schedule oneOfTwoCrypto {} idleSigner firstKeyProvider (oneOfTwoTx [])
        oneOfTwoCoins 0 _ ∅ (fun _ => true) () hready fun _ => .threw).1 worker_count schedule).1⟩
  | notApplicable => rw [hready] at hjobs; cases hjobs
  | running => rw [hready] at hjobs; cases hjobs
  | returned result => rw [hready] at hjobs; cases hjobs

end Qbit
