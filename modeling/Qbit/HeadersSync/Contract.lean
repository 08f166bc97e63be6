import Qbit.HeadersSync.Invariants

/-!
# What header sync hands out

The contract of `HeadersSyncState` over a whole run.  A run is a sequence of messages, and what it
leaves behind is read off its steps: the headers that the first pass took in (`firstPass`), those
that the second pass stored (`secondPass`), and those that were handed out (`handedOut`).

What is handed out is a beginning of the stored chain, header by header as it was received, and
nothing is handed out before either the work is there or `REDOWNLOAD_BUFFER_SIZE` headers have
followed whose commitments were checked (`headersSync_contract`).
-/

open Checked

namespace Qbit

/-! ## Runs -/

/-- One call of `ProcessNextHeaders`: the phase that it found, the message, and the answer. -/
structure SyncStep where
  phase : DownloadState
  headers : List CBlockHeader
  result : ProcessingResult

/-- The headers of a step that was successful in the given phase. -/
def SyncStep.accepted (s : SyncStep) (phase : DownloadState) : List CBlockHeader :=
  if s.phase = phase ∧ s.result.success = true then s.headers else []

/-- A sequence of calls.  A failed assertion ends the process, and with it the run. -/
def runSync (cfg : SyncConfig) (st : HeadersSyncState) :
    List (List CBlockHeader × Bool) → List SyncStep
  | [] => []
  | (headers, full_headers_message) :: calls =>
    match st.processNextHeaders cfg headers full_headers_message with
    | .error _ => []
    | .ok (result, st') => ⟨st.m_download_state, headers, result⟩ :: runSync cfg st' calls

variable (steps : List SyncStep)

/-- The headers that the first pass took in. -/
def firstPass : List CBlockHeader :=
  steps.flatMap fun s => s.accepted .PRESYNC

/-- The headers that the second pass stored. -/
def secondPass : List CBlockHeader :=
  steps.flatMap fun s => s.accepted .REDOWNLOAD

/-- The headers that were handed out. -/
def handedOut : List CBlockHeader :=
  steps.flatMap fun s => s.result.pow_validated_headers

section History

variable (steps : List SyncStep) (s : SyncStep)

@[simp] theorem firstPass_append_singleton :
    firstPass (steps ++ [s]) = firstPass steps ++ s.accepted .PRESYNC := by
  simp [firstPass]

@[simp] theorem secondPass_append_singleton :
    secondPass (steps ++ [s]) = secondPass steps ++ s.accepted .REDOWNLOAD := by
  simp [secondPass]

@[simp] theorem handedOut_append_singleton :
    handedOut (steps ++ [s]) = handedOut steps ++ s.result.pow_validated_headers := by
  simp [handedOut]

end History

/-! ## The two phases of a message -/

variable {cfg : SyncConfig} {st st' : HeadersSyncState} {headers buf : List CBlockHeader}
  {full_headers_message : Bool} {ret : ProcessingResult}

section Messages

open HeadersSyncState

variable {seen out : List CBlockHeader}

/-- A message in the first pass hands out nothing.  If it is accepted, all its headers were taken in,
and either the first pass goes on or the second one starts. -/
theorem PresyncInv.message (inv : PresyncInv cfg seen st) (hne : headers ≠ [])
    (h : processPresync cfg st headers full_headers_message = .ok (ret, st')) :
    ret.pow_validated_headers = [] ∧ (ret.success = true →
      PresyncInv cfg (seen ++ headers) st' ∨ RedownloadInv cfg (seen ++ headers) [] [] st') := by
  obtain ⟨⟨success, st₁⟩, hstore, hret⟩ := bind_eq_ok_iff.mp h
  cases hret
  refine ⟨rfl, fun hsuccess => ?_⟩
  obtain rfl : success = true := hsuccess
  obtain ⟨first, rest, rfl⟩ := List.exists_cons_of_ne_nil hne
  rw [validateAndStoreHeadersCommitments, if_neg (not_not_intro inv.state)] at hstore
  split_ifs at hstore with hprev
  · cases hstore
  obtain ⟨⟨valid, st₂⟩, hloop, hret⟩ := bind_eq_ok_iff.mp hstore
  rcases valid with _ | _
  · cases hret
  have inv₂ := forEach_invariant (I := fun s done => PresyncInv cfg done s)
    (fun _ _ _ _ inv hstep => inv.step hstep) inv hloop
  simp only [Bool.not_true, Bool.false_eq_true, if_false] at hret
  split_ifs at hret
  · cases hret
    exact .inr inv₂.startRedownload
  · cases hret
    exact .inl inv₂

/-- A message in the second pass that is accepted goes to the end of the buffer, and what it hands
out comes from the front.  If something is handed out, the work is there or the buffer is left
with exactly `REDOWNLOAD_BUFFER_SIZE` headers. -/
theorem RedownloadInv.message (inv : RedownloadInv cfg seen out buf st)
    (h : processRedownload cfg st headers full_headers_message = .ok (ret, st')) :
    (ret.success = false ∧ ret.pow_validated_headers = []) ∨
    ret.success = true ∧ ∃ rest, buf ++ headers = ret.pow_validated_headers ++ rest ∧
      RedownloadInv cfg seen (out ++ ret.pow_validated_headers) rest st' ∧
      (ret.pow_validated_headers ≠ [] →
        st'.m_process_all_remaining_headers = true ∨ rest.length = redownloadBufferSize) := by
  obtain ⟨⟨success, st₁⟩, hloop, hret⟩ := bind_eq_ok_iff.mp h
  rcases success with _ | _
  · cases hret
    simp
  have inv₁ := forEach_invariant (I := fun s done => RedownloadInv cfg seen out done s)
    (fun _ _ _ _ inv hstep => inv.step hstep) inv hloop
  obtain ⟨st₂, hpop, hflag, inv₂⟩ := inv₁.pop
  simp only [hpop] at hret
  cases hret
  refine .inr ⟨rfl, _, (List.take_append_drop _ _).symm, inv₂, fun hne => ?_⟩
  rw [hflag]
  cases hall : st₁.m_process_all_remaining_headers with
  | true => exact .inl rfl
  | false =>
    rw [hall] at hne
    have hpos : readyCount false (buf ++ headers).length ≠ 0 := fun h0 =>
      hne (by simp only [h0, List.take_zero])
    simp only [readyCount, Bool.false_eq_true, if_false] at hpos ⊢
    exact .inr (by rw [List.length_drop]; omega)

/-- What a call can do: nothing, or the work of one of the two phases, after which the object is
finished unless the call was successful and asks for more. -/
theorem processNextHeaders_cases
    (h : st.processNextHeaders cfg headers full_headers_message = .ok (ret, st')) :
    ret = {} ∧ st' = st ∨
    headers ≠ [] ∧ st.m_download_state = .PRESYNC ∧ (∃ st₁,
      processPresync cfg st headers full_headers_message = .ok (ret, st₁) ∧
      st' = if ret.success && ret.request_more then st₁ else st₁.finalize) ∨
    headers ≠ [] ∧ st.m_download_state = .REDOWNLOAD ∧ (∃ st₁,
      processRedownload cfg st headers full_headers_message = .ok (ret, st₁) ∧
      st' = if ret.success && ret.request_more then st₁ else st₁.finalize) := by
  unfold processNextHeaders at h
  split_ifs at h with hempty
  · cases h
    simp
  cases hstate : st.m_download_state with
  | PRESYNC =>
    simp only [hstate, bind_eq_ok_iff] at h
    obtain ⟨⟨ret₁, st₁⟩, hphase, hret⟩ := h
    cases hret
    exact .inr (.inl ⟨hempty, rfl, st₁, hphase, rfl⟩)
  | REDOWNLOAD =>
    simp only [hstate, bind_eq_ok_iff] at h
    obtain ⟨⟨ret₁, st₁⟩, hphase, hret⟩ := h
    cases hret
    exact .inr (.inr ⟨hempty, rfl, st₁, hphase, rfl⟩)
  | FINAL =>
    simp only [hstate] at h
    cases h
    simp

end Messages

/-! ## The contract -/

section Contract

open HeadersSyncState

variable {steps : List SyncStep}

/-- Why the last step of a run may hand out headers: the stored chain has the required work, or
`REDOWNLOAD_BUFFER_SIZE` stored headers are still held back, and every stored header at a
commitment height has the bit that the first pass recorded there. -/
def Justified (cfg : SyncConfig) (steps : List SyncStep) : Prop :=
  cfg.minimum_required_work.toNat ≤ totalWork cfg.chain_start.nChainWork (secondPass steps) ∨
  (handedOut steps).length + redownloadBufferSize ≤ (secondPass steps).length ∧
    CommitmentsMatch cfg cfg.chain_start.nHeight (firstPass steps) (secondPass steps)

/-- The contract of a run. -/
structure SyncContract (cfg : SyncConfig) (steps : List SyncStep) : Prop where
  linked : HashLinked cfg.hash256 cfg.chain_start.hashBlock (secondPass steps)
  difficulty : ∃ difficulty, PassesDifficulty cfg (secondPass steps) difficulty
  received : handedOut steps <+: secondPass steps
  justified : ∀ pre s suf, steps = pre ++ s :: suf → s.result.pow_validated_headers ≠ [] →
    Justified cfg (pre ++ [s])

/-- What the object knows about the run so far.  A finished object knows nothing any more. -/
def RunInv (cfg : SyncConfig) (steps : List SyncStep) (st : HeadersSyncState) : Prop :=
  match st.m_download_state with
  | .PRESYNC => PresyncInv cfg (firstPass steps) st ∧ secondPass steps = [] ∧ handedOut steps = []
  | .REDOWNLOAD => ∃ buf, secondPass steps = handedOut steps ++ buf ∧
      RedownloadInv cfg (firstPass steps) (handedOut steps) buf st
  | .FINAL => True

variable {hs : List CBlockHeader} {s : SyncStep}

theorem totalWork_le_of_prefix (work : Uint256) {ks : List CBlockHeader} (h : hs <+: ks) :
    totalWork work hs ≤ totalWork work ks := by
  obtain ⟨rest, rfl⟩ := h
  simp [totalWork]

theorem ReachesWork.le_totalWork (h : ReachesWork cfg hs) :
    cfg.minimum_required_work.toNat ≤ totalWork cfg.chain_start.nChainWork hs := by
  obtain ⟨p, hp, -, hwork⟩ := h
  calc cfg.minimum_required_work.toNat
      ≤ (chainWork cfg.chain_start.nChainWork p).toNat := BitVec.le_def.mp hwork
    _ ≤ totalWork cfg.chain_start.nChainWork p := toNat_chainWork_le _ _
    _ ≤ totalWork cfg.chain_start.nChainWork hs := totalWork_le_of_prefix _ hp

/-- One more step is justified if it hands out nothing, or in itself. -/
theorem SyncContract.justified_concat (h : SyncContract cfg steps)
    (hlast : s.result.pow_validated_headers ≠ [] → Justified cfg (steps ++ [s])) :
    ∀ pre t suf, steps ++ [s] = pre ++ t :: suf → t.result.pow_validated_headers ≠ [] →
      Justified cfg (pre ++ [t]) := by
  intro pre t suf hsplit hne
  rcases List.eq_nil_or_concat suf with rfl | ⟨suf, u, rfl⟩
  · obtain ⟨-, hst⟩ := List.append_inj' hsplit rfl
    cases hst
    exact hsplit ▸ hlast hne
  · rw [List.concat_eq_append, ← List.cons_append, ← List.append_assoc] at hsplit
    exact h.justified pre t suf (List.append_inj' hsplit rfl).1 hne

theorem SyncContract.skip (h : SyncContract cfg steps) (hstored : s.accepted .REDOWNLOAD = [])
    (hout : s.result.pow_validated_headers = []) :
    SyncContract cfg (steps ++ [s]) where
  linked := by simpa [hstored] using h.linked
  difficulty := by simpa [hstored] using h.difficulty
  received := by simpa [hstored, hout] using h.received
  justified := h.justified_concat (absurd hout)

/-- A step that stores its headers keeps the contract if the object still knows the run. -/
theorem SyncContract.extend (h : SyncContract cfg steps)
    (hstored : secondPass (steps ++ [s]) = handedOut (steps ++ [s]) ++ buf)
    (inv : RedownloadInv cfg (firstPass (steps ++ [s])) (handedOut (steps ++ [s])) buf st)
    (hready : s.result.pow_validated_headers ≠ [] →
      st.m_process_all_remaining_headers = true ∨ buf.length = redownloadBufferSize) :
    SyncContract cfg (steps ++ [s]) where
  linked := hstored ▸ inv.linked
  difficulty := ⟨_, hstored ▸ inv.difficulty⟩
  received := ⟨buf, hstored.symm⟩
  justified := h.justified_concat fun hne => by
    rw [Justified]
    by_cases hwork : ReachesWork cfg (handedOut (steps ++ [s]) ++ buf)
    · exact .inl (hstored ▸ hwork.le_totalWork)
    -- The work is not there, so the buffer was full and the commitments were checked.
    have hfull := (hready hne).resolve_left fun hflag => hwork (inv.released.mp hflag)
    refine .inr ⟨?_, ?_⟩
    · rw [hstored, List.length_append, hfull]
    · rw [hstored]
      exact commitmentsMatch_of_prefix cfg (inv.checked hwork)

theorem runInv_finalize (cfg : SyncConfig) (steps : List SyncStep) (st : HeadersSyncState) :
    RunInv cfg steps st.finalize := trivial

theorem runInv_of_presyncInv (inv : PresyncInv cfg (firstPass steps) st)
    (hstored : secondPass steps = []) (hout : handedOut steps = []) : RunInv cfg steps st := by
  rw [RunInv, inv.state]
  exact ⟨inv, hstored, hout⟩

theorem runInv_of_redownloadInv (inv : RedownloadInv cfg (firstPass steps) (handedOut steps) buf st)
    (hstored : secondPass steps = handedOut steps ++ buf) : RunInv cfg steps st := by
  rw [RunInv, inv.state]
  exact ⟨buf, hstored, inv⟩

/-- Only a call that was successful leaves an object that is not finished. -/
theorem runInv_next {st₁ : HeadersSyncState} (h : ret.success = true → RunInv cfg steps st₁) :
    RunInv cfg steps (if ret.success && ret.request_more then st₁ else st₁.finalize) := by
  split_ifs with hmore
  · exact h (Bool.and_eq_true_iff.mp hmore).1
  · exact runInv_finalize cfg steps st₁

/-- **One call.**  It keeps the contract, and what the object knows about the run. -/
theorem processNextHeaders_contract (inv : RunInv cfg steps st) (hc : SyncContract cfg steps)
    (h : st.processNextHeaders cfg headers full_headers_message = .ok (ret, st')) :
    RunInv cfg (steps ++ [⟨st.m_download_state, headers, ret⟩]) st' ∧
      SyncContract cfg (steps ++ [⟨st.m_download_state, headers, ret⟩]) := by
  rcases processNextHeaders_cases h with
    ⟨rfl, rfl⟩ | ⟨hne, hstate, st₁, hphase, rfl⟩ | ⟨-, hstate, st₁, hphase, rfl⟩
  · refine ⟨?_, hc.skip (by simp [SyncStep.accepted]) rfl⟩
    simpa [RunInv, SyncStep.accepted] using inv
  · -- The first pass: nothing is stored and nothing is handed out.
    rw [RunInv, hstate] at inv
    obtain ⟨inv, hstored, hout⟩ := inv
    obtain ⟨hnone, hnext⟩ := inv.message hne hphase
    refine ⟨runInv_next fun hsuccess => ?_, hc.skip (by simp [SyncStep.accepted, hstate]) hnone⟩
    have hfirst : firstPass (steps ++ [⟨st.m_download_state, headers, ret⟩]) =
        firstPass steps ++ headers := by simp [SyncStep.accepted, hstate, hsuccess]
    have hsecond : secondPass (steps ++ [⟨st.m_download_state, headers, ret⟩]) = [] := by
      simp [SyncStep.accepted, hstate, hstored]
    have hhanded : handedOut (steps ++ [⟨st.m_download_state, headers, ret⟩]) = [] := by
      simp [hout, hnone]
    rcases hnext hsuccess with inv | inv
    · exact runInv_of_presyncInv (by rwa [hfirst]) hsecond hhanded
    · exact runInv_of_redownloadInv (by rwa [hfirst, hhanded]) (by rw [hsecond, hhanded]; rfl)
  · rw [RunInv, hstate] at inv
    obtain ⟨buf, hstored, inv⟩ := inv
    rcases inv.message hphase with ⟨hfail, hnone⟩ | ⟨hsuccess, rest, hbuf, inv, hready⟩
    · exact ⟨runInv_next fun hsuccess => by simp [hfail] at hsuccess,
        hc.skip (by simp [SyncStep.accepted, hfail]) hnone⟩
    have hstored' : secondPass (steps ++ [⟨st.m_download_state, headers, ret⟩]) =
        handedOut (steps ++ [⟨st.m_download_state, headers, ret⟩]) ++ rest := by
      simp [SyncStep.accepted, hstate, hsuccess, hstored, hbuf]
    have inv' : RedownloadInv cfg (firstPass (steps ++ [⟨st.m_download_state, headers, ret⟩]))
        (handedOut (steps ++ [⟨st.m_download_state, headers, ret⟩])) rest st₁ := by
      simpa [SyncStep.accepted, hstate] using inv
    exact ⟨runInv_next fun _ => runInv_of_redownloadInv inv' hstored',
      hc.extend hstored' inv' hready⟩

theorem syncContract_nil (cfg : SyncConfig) : SyncContract cfg [] where
  linked := trivial
  difficulty := ⟨_, rfl⟩
  received := List.prefix_rfl
  justified pre s suf h := by simp at h

theorem syncContract_runSync (inv : RunInv cfg steps st) (hc : SyncContract cfg steps)
    (calls : List (List CBlockHeader × Bool)) : SyncContract cfg (steps ++ runSync cfg st calls) := by
  induction calls generalizing steps st with
  | nil => simpa [runSync] using hc
  | cons call calls ih =>
    obtain ⟨headers, full_headers_message⟩ := call
    rw [runSync]
    cases h : st.processNextHeaders cfg headers full_headers_message with
    | error fault => simpa using hc
    | ok r =>
      obtain ⟨inv', hc'⟩ := processNextHeaders_contract inv hc h
      simpa using ih inv' hc'

/-- **The contract of header sync.**  Whatever messages come, the headers handed out are a chain on
top of the start of the sync, made of headers exactly as they were received in the second pass,
where they passed the difficulty check in turn.  Headers are handed out only by a call after which
the stored chain has the required work, or `REDOWNLOAD_BUFFER_SIZE` more headers are stored and all
commitments were right. -/
theorem headersSync_contract (cfg : SyncConfig) (calls : List (List CBlockHeader × Bool)) :
    HashLinked cfg.hash256 cfg.chain_start.hashBlock (handedOut (runSync cfg (new cfg) calls)) ∧
    handedOut (runSync cfg (new cfg) calls) <+: secondPass (runSync cfg (new cfg) calls) ∧
    (∃ difficulty, PassesDifficulty cfg (handedOut (runSync cfg (new cfg) calls)) difficulty) ∧
    ∀ pre s suf, runSync cfg (new cfg) calls = pre ++ s :: suf →
      s.result.pow_validated_headers ≠ [] → Justified cfg (pre ++ [s]) := by
  have inv : RunInv cfg [] (new cfg) := runInv_of_presyncInv (presyncInv_new cfg) rfl rfl
  have hc : SyncContract cfg (runSync cfg (new cfg) calls) :=
    syncContract_runSync inv (syncContract_nil cfg) calls
  obtain ⟨rest, hrest⟩ := hc.received
  have hlinked := hc.linked
  obtain ⟨difficulty, hpass⟩ := hc.difficulty
  rw [← hrest, hashLinked_append] at hlinked
  rw [← hrest, PassesDifficulty, validateHeaderRun_append] at hpass
  obtain ⟨mid, hmid, -⟩ := hpass
  exact ⟨hlinked.1, hc.received, ⟨mid, hmid⟩, hc.justified⟩

end Contract

end Qbit
