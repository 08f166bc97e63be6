import Qbit.Lib.JobPool
import Qbit.Sign.Produce

/-!
# Signing P2MR inputs in parallel

`TrySignTransactionPQCParallel` of `script/sign.cpp`.  If all inputs of a transaction spend P2MR
outputs and can be signed completely, then the signatures that are needed are listed as jobs, the
counters for all of them are reserved at once, each job gets its counter, and worker threads make
the signatures.  After that each input is put together by a provider that cannot sign.

The worker threads are a `JobPool`.  A schedule tells in which order they make their steps, and a
call of `CPQCKey::Sign` is a function `sign` of the job that it is made for.

Progress reports that cannot cancel anything have no effect and are left out, and so is the failure
to start a thread.
-/

open Bytes Checked

namespace Qbit

/-! ## Results -/

/-- The errors by the input that they are about; the keys are of type `int`. -/
abbrev InputErrors := AList fun _ : Int32 => String

/-- The errors after an input, which has an error or has none. -/
def InputErrors.set (input_errors : InputErrors) (i : Nat) : Option String → InputErrors
  | none => input_errors.erase (Int32.ofNat i)
  | some error => input_errors.insert (Int32.ofNat i) error

/-- What signing a transaction leaves. -/
structure SignResult (W : Type) where
  success : Bool
  mtx : CTransaction
  input_errors : InputErrors
  w : W

/-- `SigningProgressPhase` -/
inductive SigningProgressPhase where
  | PREPARING_TRANSACTION
  | RESERVING_PQC_COUNTERS
  | SIGNING_INPUTS
  | FINALIZING_TRANSACTION
  deriving DecidableEq

/-- `SigningProgress` -/
structure SigningProgress where
  phase : SigningProgressPhase
  completed : Nat
  total : Nat
  input_index : Option Nat := none
  cancellable : Bool := true

/-- `SigningProgressCallback`; without a callback it is always true. -/
abbrev SigningProgressCallback := SigningProgress → Bool

/-- `NotifySigningProgressPhase` -/
def notifySigningProgressPhase (progress_callback : SigningProgressCallback)
    (report : SigningProgress) : Bool :=
  progress_callback report || !report.cancellable

/-- What is set for the node: `-walletpqcparallel`, `-walletpqcsignthreads`, and the number of cores
of the machine. -/
structure SigningConfig where
  walletpqcparallel : Bool := true
  walletpqcsignthreads : Int := 0
  numCores : Int := 1

/-- `GetParallelPQCSigningWorkerCount` -/
def getParallelPQCSigningWorkerCount (config : SigningConfig) (jobs : Nat) : Nat :=
  if jobs = 0 then 0
  else if config.walletpqcsignthreads < 0 then 0
  else if 0 < config.walletpqcsignthreads then min config.walletpqcsignthreads.toNat jobs % 2 ^ 32
  else min (max 1 (config.numCores - 1)).toNat (min 4 (jobs % 2 ^ 32))

/-- `FlatSigningProvider`, as far as signing in parallel needs more of it: its keys, where only the
valid ones count, and where it reserves counters for several keys at once. -/
structure BatchSigningProvider (W : Type) extends SigningProvider W where
  getPQCKey : CPQCPubKey → Option CPQCKey
  pqc_counter_batch_reserver :
    Option (KeyMap UInt32 → W → Option (KeyMap DescriptorMan.PQCSignatureCounterRange) × W)

/-! ## Jobs -/

/-- `ParallelPQCSigningJob` -/
structure ParallelPQCSigningJob where
  input_index : Nat
  pubkey : CPQCPubKey
  key : CPQCKey
  leaf_hash : Uint256
  sighash : Uint256
  sighash_type : Int
  assigned_counter : UInt32 := 0

/-- The jobs, and how many of them each key has. -/
structure JobQueue where
  jobs : List ParallelPQCSigningJob := []
  counts : KeyMap UInt32 := ∅

def JobQueue.push (queue : JobQueue) (job : ParallelPQCSigningJob) : JobQueue where
  jobs := queue.jobs ++ [job]
  counts := queue.counts.insert job.pubkey ((queue.counts.lookup job.pubkey).getD 0 + 1)

/-- `ParallelPQCInputPlan` -/
structure ParallelPQCInputPlan where
  prev_pub_key : List UInt8
  amount : CAmount
  sigdata : SignatureData
  job_indices : List Nat := []

/-- The output that a P2MR script pays to: `Solver` with the type `WITNESS_V2_P2MR`. -/
def p2mrOutput (scriptPubKey : List UInt8) : Option Uint256 :=
  match isWitnessProgram scriptPubKey with
  | some (version, program) =>
    if version = 2 ∧ program.length = witnessV2P2MRSize then some (CPQCPubKey.ofBytes program)
    else none
  | none => none

/-- The hash type is `SIGHASH_SINGLE`, with `SIGHASH_ANYONECANPAY` or without. -/
def isHashSingle (nHashType : Int) : Bool := nHashType == 3 || nHashType == 0x83

section Prepare

variable (C : Crypto) {W : Type} (provider : BatchSigningProvider W)

/-- `CompleteP2MRWitnessAlreadyPresent`.  Before the script and the control block, the witness holds
one element for each key, the last key's first. -/
def completeP2MRWitnessAlreadyPresent (txin : CTxIn) (output : Uint256)
    (creator : MutableTransactionSignatureCreator) : Bool :=
  match txin.scriptWitness.reverse with
  | control_block :: script :: items =>
    if !txin.scriptSig.bytes.isEmpty || items.isEmpty || control_block.isEmpty then false
    else
      let leaf_version := control_block.headD 0 &&& taprootLeafMask
      if (findValidP2MRControlBlock C [control_block] script leaf_version.toNat output).isNone then
        false
      else match parseP2MRScript script with
      | none => false
      | some (pubkeys, threshold) =>
        let leaf_hash := C.computeP2MRLeafHash leaf_version script
        items.length == pubkeys.length &&
          (pubkeys.zip items).all (fun (pubkey, signature) => signature.isEmpty ||
            (getP2MRSignatureHashType signature).isSome &&
              creator.verifyP2MRScriptSignature C signature pubkey leaf_hash) &&
          decide (threshold ≤ items.countP (!·.isEmpty))
  | _ => false

/-- The loop that makes the jobs of an input: how many signatures the input will have, and its jobs.
A key that is there twice needs one job. -/
def queueJobs (creator : MutableTransactionSignatureCreator) (sigdata : SignatureData)
    (plan : P2MRScriptSigningPlan) :
    List (CPQCPubKey × Bool) → Nat → List CPQCPubKey → List Nat → JobQueue →
      Option (Nat × List Nat × JobQueue)
  | [], num_signed, _, job_indices, queue => some (num_signed, job_indices, queue)
  | (pubkey, candidate) :: keys, num_signed, queued, job_indices, queue =>
    if !candidate || decide (plan.threshold ≤ num_signed) then
      queueJobs creator sigdata plan keys num_signed queued job_indices queue
    else if (lookupValidP2MRScriptSig C creator sigdata pubkey plan.leaf_hash).1.isSome ||
        queued.contains pubkey then
      queueJobs creator sigdata plan keys (num_signed + 1) queued job_indices queue
    else match provider.getPQCKey pubkey, creator.createPQCSignatureHash C plan.leaf_hash with
    | some key, some sighash =>
      queueJobs creator sigdata plan keys (num_signed + 1) (pubkey :: queued)
        (job_indices ++ [queue.jobs.length])
        (queue.push
          { input_index := creator.nIn
            pubkey
            key
            leaf_hash := plan.leaf_hash
            sighash
            sighash_type := creator.nHashType })
    | _, _ => none

variable (mtx : CTransaction) (coins : COutPoint → Option Coin) (nHashType : Int)
  (txdata : PrecomputedTransactionData) (w : W)

/-- What is planned for an input with this output. -/
def planInput (i : Nat) (txin : CTxIn) (txout : CTxOut) (output : Uint256) (queue : JobQueue) :
    Option (ParallelPQCInputPlan × JobQueue) :=
  let sigdata := dataFromTransaction C mtx i txin txout
  let creator : MutableTransactionSignatureCreator := ⟨mtx, i, txout.nValue, some txdata, nHashType⟩
  let input_plan (sigdata : SignatureData) (job_indices : List Nat) : ParallelPQCInputPlan :=
    { prev_pub_key := txout.scriptPubKey.bytes, amount := txout.nValue, sigdata, job_indices }
  if sigdata.complete || completeP2MRWitnessAlreadyPresent C txin output creator then
    some (input_plan { sigdata with complete := true } [], queue)
  else match selectCompleteP2MRSigningPlan C provider.toSigningProvider creator output sigdata w with
  | (none, _) => none
  | (some script_plan, sigdata) =>
    match queueJobs C provider creator sigdata script_plan script_plan.signers 0 [] [] queue with
    | none => none
    | some (num_signed, job_indices, queue) =>
      if num_signed < script_plan.threshold then none
      else some (input_plan sigdata job_indices, queue)

/-- One round of the loop over the inputs. -/
def prepareInput (i : Nat) (txin : CTxIn) (queue : JobQueue) :
    Option (ParallelPQCInputPlan × JobQueue) :=
  if isHashSingle nHashType && decide (mtx.vout.length ≤ i) then none
  else match coins txin.prevout with
  | none => none
  | some coin =>
    if coin.isSpent || coin.out.nValue.toInt == maxMoney then none
    else match p2mrOutput coin.out.scriptPubKey.bytes with
    | none => none
    | some output => planInput C provider mtx nHashType txdata w i txin coin.out output queue

/-- The loop over the inputs. -/
def prepareInputs : List CTxIn → Nat → JobQueue → Option (List ParallelPQCInputPlan × JobQueue)
  | [], _, queue => some ([], queue)
  | txin :: vin, i, queue =>
    match prepareInput C provider mtx coins nHashType txdata w i txin queue with
    | none => none
    | some (input_plan, queue) =>
      match prepareInputs vin (i + 1) queue with
      | none => none
      | some (input_plans, queue) => some (input_plan :: input_plans, queue)

end Prepare

/-! ## Counters -/

open DescriptorMan (PQCSignatureCounterRange)

/-- The loop that checks the ranges: where each key begins. -/
def initialCursors (ranges : KeyMap PQCSignatureCounterRange) :
    List (Sigma fun _ : CPQCPubKey => UInt32) → KeyMap UInt32 → Option (KeyMap UInt32)
  | [], cursors => some cursors
  | ⟨pubkey, count⟩ :: counts, cursors =>
    match ranges.lookup pubkey with
    | none => none
    | some range =>
      if range.pubkey = pubkey ∧ range.previous_counter ≤ range.reserved_counter ∧
          range.reserved_counter - range.previous_counter = count then
        initialCursors ranges counts (cursors.insert pubkey range.previous_counter)
      else none

/-- The loop that gives each job its counter; the error is the input of a job without one. -/
def assignCounters : List ParallelPQCSigningJob → KeyMap UInt32 →
    Except Nat (List ParallelPQCSigningJob × KeyMap UInt32)
  | [], cursors => .ok ([], cursors)
  | job :: jobs, cursors =>
    match cursors.lookup job.pubkey with
    | none => .error job.input_index
    | some cursor =>
      match assignCounters jobs (cursors.insert job.pubkey (cursor + 1)) with
      | .error i => .error i
      | .ok (jobs, cursors) => .ok ({ job with assigned_counter := cursor } :: jobs, cursors)

/-- The jobs with their counters out of the ranges that were reserved. -/
def assignRanges (queue : JobQueue) (ranges : KeyMap PQCSignatureCounterRange) :
    Except Nat (List ParallelPQCSigningJob) :=
  if ranges.keys.length ≠ queue.counts.keys.length then .error 0
  else match initialCursors ranges queue.counts.entries ∅ with
  | none => .error 0
  | some cursors =>
    match assignCounters queue.jobs cursors with
    | .error i => .error i
    | .ok (jobs, cursors) =>
      if ranges.entries.all fun range =>
          (cursors.lookup range.1).getD 0 == range.2.reserved_counter then .ok jobs
      else .error 0

/-! ## Workers -/

/-- What a call of `CPQCKey::Sign` does: it returns, with a signature and the next counter, or it
throws. -/
inductive SignOutcome where
  | returned (signed_ok : Bool) (signature : Valtype) (counter : UInt32)
  | threw

/-- The signature that a worker stores. -/
def ParallelPQCSigningJob.accept (job : ParallelPQCSigningJob) : SignOutcome → Option Valtype
  | .returned signed_ok signature counter =>
    if signed_ok && counter == job.assigned_counter + 1 then
      some (if job.sighash_type ≠ 0 then signature ++ [UInt8.ofInt job.sighash_type] else signature)
    else none
  | .threw => none

/-- What is there when the workers start. -/
structure ParallelPQCSigning where
  input_plans : List ParallelPQCInputPlan
  jobs : List ParallelPQCSigningJob
  ranges : KeyMap PQCSignatureCounterRange

namespace ParallelPQCSigning

variable (p : ParallelPQCSigning) (sign : ParallelPQCSigningJob → SignOutcome)

/-- What a worker stores for the job with this number. -/
def outcome (job_index : Nat) : Option Valtype :=
  match p.jobs[job_index]? with
  | none => none
  | some job => job.accept (sign job)

/-- The workers after a schedule. -/
def pool (worker_count : Nat) (schedule : List Nat) : JobPool.Pool Valtype :=
  (JobPool.Pool.init worker_count).run p.jobs.length (p.outcome sign) schedule

/-- The calls of `CPQCKey::Sign` that were made: the public keys and the counters. -/
def signCalls (worker_count : Nat) (schedule : List Nat) : List (CPQCPubKey × UInt32) :=
  (p.pool sign worker_count schedule).calls.filterMap fun job_index =>
    p.jobs[job_index]?.map fun job => (job.pubkey, job.assigned_counter)

/-- The input of the first job without a signature. -/
def firstUnsigned (results : Nat → Option Valtype) : Option Nat :=
  (p.jobs.zipIdx.find? fun (_, job_index) => (results job_index).isNone).map fun (job, _) =>
    job.input_index

/-- The checks after the workers have ended: the error, and the input that it is about. -/
def workerError (pool : JobPool.Pool Valtype) : Option (Nat × String) :=
  let unsigned (error : String) := (p.firstUnsigned pool.results).map fun i => (i, error)
  (if pool.failed then unsigned "PQC signing failed" else none).or
    ((if pool.cancel then unsigned "Signing cancelled" else none).or
      (unsigned "PQC signing failed"))

end ParallelPQCSigning

/-! ## Putting the inputs together -/

/-- The transaction after `UpdateInput` on one of its inputs. -/
def CTransaction.updateInput (mtx : CTransaction) (i : Nat) (sigdata : SignatureData) :
    CTransaction :=
  { mtx with vin := mtx.vin.modify i fun txin => Qbit.updateInput txin sigdata }

/-- The error of `VerifyScript` under the flags of policy, if there is one. -/
def SignatureData.verifyError (C : Crypto) (checker : BaseSignatureChecker)
    (scriptPubKey : List UInt8) (sigdata : SignatureData) : Option ScriptError :=
  match verifyScript C standardScriptVerifyFlags checker sigdata.scriptWitness
    sigdata.scriptSig.bytes scriptPubKey with
  | .ok _ => none
  | .error (.invalid serror) => some serror
  | .error (.fault _) => some .unknownError

section Finalize

variable (C : Crypto) {W : Type} (other : OtherSigner W) (provider : BatchSigningProvider W)

/-- The signatures of an input's jobs are put into its data. -/
def ParallelPQCInputPlan.withSignatures (input_plan : ParallelPQCInputPlan)
    (jobs : List ParallelPQCSigningJob) (results : Nat → Option Valtype) : SignatureData :=
  input_plan.job_indices.foldl (fun sigdata job_index =>
    match jobs[job_index]? with
    | none => sigdata
    | some job => { sigdata with
        p2mr_script_sigs := sigdata.p2mr_script_sigs.insert (job.pubkey, job.leaf_hash)
          ((results job_index).getD []) })
    input_plan.sigdata

variable (txConst : CTransaction) (nHashType : Int) (txdata : PrecomputedTransactionData)
  (jobs : List ParallelPQCSigningJob) (results : Nat → Option Valtype)

/-- One round of the loop over the inputs. -/
def finalizeInput (i : Nat) (input_plan : ParallelPQCInputPlan) (mtx : CTransaction)
    (input_errors : InputErrors) (w : W) : CTransaction × InputErrors × W :=
  let creator : MutableTransactionSignatureCreator :=
    ⟨mtx, i, input_plan.amount, some txdata, nHashType⟩
  let (sigdata, w) := produceSignature C other provider.noPQC creator input_plan.prev_pub_key
    (input_plan.withSignatures jobs results) w
  -- the error of `VerifyScript` replaces the one that is set before it is called
  let error := if sigdata.complete then none
    else some (((sigdata.verifyError C (signingChecker C txConst i input_plan.amount (some txdata))
      input_plan.prev_pub_key).map scriptErrorString).getD "PQC signing failed")
  (mtx.updateInput i sigdata, input_errors.set i error, w)

/-- The loop over the inputs. -/
def finalizeInputs : List ParallelPQCInputPlan → Nat → CTransaction → InputErrors → W → SignResult W
  | [], _, mtx, input_errors, w => ⟨input_errors.entries.isEmpty, mtx, input_errors, w⟩
  | input_plan :: input_plans, i, mtx, input_errors, w =>
    let (mtx, input_errors, w) := finalizeInput C other provider txConst nHashType txdata jobs results
      i input_plan mtx input_errors w
    finalizeInputs input_plans (i + 1) mtx input_errors w

end Finalize

/-! ## The whole -/

/-- What happens before the workers start. -/
inductive Preparation (W : Type) where
  /-- The transaction is not signed in parallel. -/
  | notApplicable
  /-- The function does not return. -/
  | running
  | returned (result : SignResult W)
  | ready (p : ParallelPQCSigning) (w : W)

/-- What the function does. -/
inductive Attempt (W : Type) where
  | notApplicable
  | running
  | returned (result : SignResult W)

section Sign

variable (C : Crypto) {W : Type} (config : SigningConfig) (other : OtherSigner W)
  (provider : BatchSigningProvider W) (mtx : CTransaction) (coins : COutPoint → Option Coin)
  (nHashType : Int) (txdata : PrecomputedTransactionData) (input_errors : InputErrors)
  (progress_callback : SigningProgressCallback) (w : W)

/-- The part of `TrySignTransactionPQCParallel` before the workers start.  The index of the loop over
the inputs has 32 bits and never gets past the end of a longer list. -/
def prepareSigning : Preparation W :=
  let failed (i : Nat) (error : String) (w : W) : Preparation W :=
    .returned ⟨false, mtx, input_errors.insert (Int32.ofNat i) error, w⟩
  if !config.walletpqcparallel then .notApplicable
  else match provider.pqc_counter_batch_reserver with
  | none => .notApplicable
  | some pqc_counter_batch_reserver =>
    if mtx.vin.isEmpty then .notApplicable
    else if !notifySigningProgressPhase progress_callback
        { phase := .PREPARING_TRANSACTION, completed := 0, total := mtx.vin.length } then
      failed 0 "Signing cancelled" w
    else match prepareInputs C provider mtx coins nHashType txdata w (mtx.vin.take (2 ^ 32)) 0 {} with
    | none => .notApplicable
    | some (input_plans, queue) =>
      if 2 ^ 32 ≤ mtx.vin.length then .running
      else if queue.jobs.isEmpty then
        if input_plans.all (·.sigdata.complete) then .returned ⟨true, mtx, ∅, w⟩
        else .notApplicable
      else if getParallelPQCSigningWorkerCount config queue.jobs.length = 0 then .notApplicable
      else if !notifySigningProgressPhase progress_callback
          { phase := .RESERVING_PQC_COUNTERS, completed := 0,
            total := queue.counts.keys.length } then
        failed 0 "Signing cancelled" w
      else match pqc_counter_batch_reserver queue.counts w with
      | (none, w) => failed 0 "PQC signature counter reservation failed" w
      | (some ranges, w) =>
        match assignRanges queue ranges with
        | .error i => failed i "PQC signature counter reservation failed" w
        | .ok jobs => .ready ⟨input_plans, jobs, ranges⟩ w

/-- The part of `TrySignTransactionPQCParallel` after the workers have ended. -/
def finishSigning (p : ParallelPQCSigning) (pool : JobPool.Pool Valtype) : SignResult W :=
  match p.workerError pool with
  | some (i, error) => ⟨false, mtx, input_errors.insert (Int32.ofNat i) error, w⟩
  | none => finalizeInputs C other provider mtx nHashType txdata p.jobs pool.results p.input_plans 0
      mtx input_errors w

/-- `TrySignTransactionPQCParallel`, with the outcome of each call of `CPQCKey::Sign`, and the order
in which the workers make their steps. -/
def trySignTransactionPQCParallel (sign : ParallelPQCSigningJob → SignOutcome)
    (schedule : List Nat) : Attempt W :=
  match prepareSigning C config provider mtx coins nHashType txdata input_errors progress_callback w
    with
  | .notApplicable => .notApplicable
  | .running => .running
  | .returned result => .returned result
  | .ready p w =>
    let pool := p.pool sign (getParallelPQCSigningWorkerCount config p.jobs.length) schedule
    if pool.Ended then
      .returned (finishSigning C other provider mtx nHashType txdata input_errors w p pool)
    else .running

/-! ## What the preparation can end with -/

/-- The inputs could be prepared. -/
structure Prepared (input_plans : List ParallelPQCInputPlan) (queue : JobQueue) : Prop where
  enabled : config.walletpqcparallel = true
  reserver : provider.pqc_counter_batch_reserver.isSome = true
  vin : mtx.vin ≠ []
  length : mtx.vin.length < 2 ^ 32
  inputs : prepareInputs C provider mtx coins nHashType txdata w mtx.vin 0 {} =
    some (input_plans, queue)

theorem prepareSigning_cases :
    match prepareSigning C config provider mtx coins nHashType txdata input_errors progress_callback w
      with
    | .notApplicable => True
    | .running => True
    | .returned result => (result.success = false ∧ result.mtx = mtx) ∨ ∃ input_plans queue,
        Prepared C config provider mtx coins nHashType txdata w input_plans queue ∧
        (∀ plan ∈ input_plans, plan.sigdata.complete = true) ∧ result = ⟨true, mtx, ∅, w⟩
    | .ready p _ => ∃ queue,
        Prepared C config provider mtx coins nHashType txdata w p.input_plans queue ∧
        getParallelPQCSigningWorkerCount config queue.jobs.length ≠ 0 ∧
        assignRanges queue p.ranges = .ok p.jobs := by
  rw [prepareSigning]
  rcases henabled : config.walletpqcparallel with _ | _
  · exact trivial
  rw [if_neg (by decide)]
  rcases hreserver : provider.pqc_counter_batch_reserver with _ | reserve
  · exact trivial
  dsimp only
  by_cases hvin : mtx.vin = []
  · simp [hvin]
  rw [if_neg (by rw [List.isEmpty_iff]; exact hvin)]
  by_cases hnotify : (!notifySigningProgressPhase progress_callback
      { phase := .PREPARING_TRANSACTION, completed := 0, total := mtx.vin.length }) = true
  · simp [hnotify]
  rw [if_neg hnotify]
  rcases hinputs : prepareInputs C provider mtx coins nHashType txdata w
      (mtx.vin.take (2 ^ 32)) 0 {} with _ | ⟨input_plans, queue⟩
  · exact trivial
  dsimp only
  by_cases hlength : 2 ^ 32 ≤ mtx.vin.length
  · rw [if_pos hlength]
    exact trivial
  rw [if_neg hlength]
  rw [List.take_of_length_le (by omega)] at hinputs
  have hprepared : Prepared C config provider mtx coins nHashType txdata w input_plans
      queue := ⟨henabled, by rw [hreserver]; rfl, hvin, by omega, hinputs⟩
  by_cases hjobs : queue.jobs.isEmpty = true
  · rw [if_pos hjobs]
    by_cases hall : (input_plans.all fun plan => plan.sigdata.complete) = true
    · rw [if_pos hall]
      exact Or.inr ⟨input_plans, queue, hprepared, List.all_eq_true.mp hall, rfl⟩
    · simp [hall]
  rw [if_neg hjobs]
  by_cases hworkers : getParallelPQCSigningWorkerCount config queue.jobs.length = 0
  · simp [hworkers]
  rw [if_neg hworkers]
  by_cases hreserving : (!notifySigningProgressPhase progress_callback
      { phase := .RESERVING_PQC_COUNTERS, completed := 0,
        total := queue.counts.keys.length }) = true
  · simp [hreserving]
  rw [if_neg hreserving]
  obtain ⟨ranges, w'⟩ := reserve queue.counts w
  rcases ranges with _ | ranges
  · exact Or.inl ⟨rfl, rfl⟩
  dsimp only
  cases hassign : assignRanges queue ranges with
  | error i => exact Or.inl ⟨rfl, rfl⟩
  | ok jobs => exact ⟨queue, hprepared, hworkers, hassign⟩

end Sign

/-! ## A leaf with one signature of two keys

A transaction with one input, which comes with the witness of a leaf that asks for one signature of
two keys.  The hash and the PQC verification are given where the checks ask for them. -/

def oneOfTwoKeys : List CPQCPubKey := [1, 2]

def oneOfTwoScript : List UInt8 := buildMultiAScript 1 (oneOfTwoKeys.map serUint256)

def oneOfTwoLeafHash : Uint256 :=
  0x613c504eb771832f3dd4fd54b521fa8871093ea05c02ce4936fe1eb7c1a078af

def oneOfTwoSighash : Uint256 :=
  0x26e741fd646e229bf5aebe20e2b9bf18221a9e13ab3873f181fae91df1d2f3e5

/-- The two signatures. -/
def oneOfTwoSignature (key : UInt8) : Valtype := List.replicate pqcSigSize key

def oneOfTwoPrevout : COutPoint := { hash := 7, n := 0 }

theorem length_op1_lt : [op1].length < 2 ^ 64 := by decide

def oneOfTwoTx (items : List Valtype) : CTransaction where
  vin := [{ prevout := oneOfTwoPrevout, scriptWitness := items ++ [oneOfTwoScript, [0xc1]] }]
  vout := [{ nValue := 900, scriptPubKey := ⟨[op1], length_op1_lt⟩ }]

def oneOfTwoCoin : Coin where
  out := { nValue := 1000, scriptPubKey := ⟨[op2, 32] ++ serUint256 oneOfTwoLeafHash, by simp⟩ }

def oneOfTwoCoins : COutPoint → Option Coin :=
  fun prevout => if prevout = oneOfTwoPrevout then some oneOfTwoCoin else none

/-- SHA-256 on the byte strings that are hashed when the input is checked. -/
def oneOfTwoSha256 : HashFn :=
  let tagBytes (tag : String) : List UInt8 := tag.toList.map fun c => UInt8.ofNat c.toNat
  let tagged (taghash : Uint256) (bs : List UInt8) : List UInt8 :=
    serUint256 taghash ++ serUint256 taghash ++ bs
  let leafTag : Uint256 := 0xa49b1ae96df769ade6f92691eb2b3ced47ee46a6cdc721b3b8dccc463a92468b
  let sighashTag : Uint256 :=
    0x6648e10dd9ac5c674b42ddf61c32b6c8d936eeb2ec486418da845ed83a5f5208
  let prevouts : Uint256 :=
    0x8b714c4bc1ad59bc17aa881d6241b93c39ea79368c0e111b66a5f255578ca3dd
  let amounts : Uint256 := 0x2c33b9dd712bd35da300955e425bf62f712491c27feb24666064f859f2c71a92
  let scripts : Uint256 := 0x5e3b21991b285db07f235031fc944c71bc1ac2fc4c037bf1e66de6dda0a6e414
  let sequences : Uint256 :=
    0xefd7b36e8b7ac90f08be47960f7a9a626cf4fb17f47afb1c099b7c01b1395ad
  let outputs : Uint256 := 0x578d6828945b826fb0a00d8e329c34c250d3211552648ccd9ce50e4cab276d25
  tableHash [
    (tagBytes "P2MRLeaf", leafTag),
    (tagBytes "P2MRSighash", sighashTag),
    (oneOfTwoPrevout.serialize, prevouts),
    (serInt64 1000, amounts),
    (oneOfTwoCoin.out.scriptPubKey.serialize, scripts),
    (serUint32 0xffffffff, sequences),
    ((oneOfTwoTx []).vout.flatMap CTxOut.serialize, outputs),
    (tagged leafTag (0xc0 :: serBytes oneOfTwoScript), oneOfTwoLeafHash),
    (tagged sighashTag ([0, 0] ++ serUint32 2 ++ serUint32 0 ++
      [prevouts, amounts, scripts, sequences, outputs].flatMap serUint256 ++ [2] ++ leBytes 4 0 ++
      serUint256 oneOfTwoLeafHash ++ [0] ++ serUint32 0xffffffff), oneOfTwoSighash)]

def oneOfTwoCrypto : Crypto :=
  { vectorCrypto with
    sha256 := oneOfTwoSha256
    verifyPQC := fun call => [1, 2].any fun key : UInt8 =>
      call == { pubkey := serUint256 (BitVec.ofNat 256 key.toNat), hash := oneOfTwoSighash,
                sig := oneOfTwoSignature key } }

def oneOfTwoTxdata : PrecomputedTransactionData :=
  .initForced oneOfTwoCrypto (oneOfTwoTx []) [oneOfTwoCoin.out]

/-- A provider without keys, which could reserve counters. -/
def keylessProvider : BatchSigningProvider Unit where
  getP2MRSpendData := fun _ => none
  getP2MRBuilder := fun _ => none
  canSignPQC := fun _ _ => false
  signPQC := fun _ _ w => (none, w)
  getPQCKey := fun _ => none
  pqc_counter_batch_reserver := some fun _ w => (none, w)

/-- A signer with one of the two keys. -/
def oneKeyProvider (key : UInt8) : SigningProvider Unit where
  getP2MRSpendData := fun _ => none
  getP2MRBuilder := fun _ => none
  canSignPQC := fun pubkey _ => pubkey == BitVec.ofNat 256 key.toNat
  signPQC := fun pubkey hash w =>
    (if pubkey = BitVec.ofNat 256 key.toNat ∧ hash = oneOfTwoSighash then
      some (oneOfTwoSignature key) else none, w)

/-- A signer that signs nothing. -/
def idleSigner : OtherSigner Unit where
  signWitness := fun _ _ w => ((false, []), w)
  signScript := fun _ _ w => ((false, .empty, []), w)

end Qbit
