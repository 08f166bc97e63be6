import Qbit.HeadersSync.State

/-!
# Invariants of header sync

What the object remembers of the headers it has seen, in terms of the lists of these headers.

`PresyncInv` is about the first pass, which keeps the work, the last header and the commitments.
`RedownloadInv` is about the second, where the headers seen so far are those already handed out,
followed by those in the buffer, and the buffer has them without their previous hashes.  Each pass
has a step lemma (`PresyncInv.step`, `RedownloadInv.step`) for a header that it accepts, and
`popHeadersReadyForAcceptance_eq` says what leaves the buffer.
-/

open Checked

namespace Qbit

/-! ## Chains of headers -/

/-- Each header names the one before it, and the first one names `prev`. -/
def HashLinked (hash256 : HashFn) : Uint256 → List CBlockHeader → Prop
  | _, [] => True
  | prev, h :: hs => h.hashPrevBlock = prev ∧ HashLinked hash256 (h.getHash hash256) hs

/-- The hash of the last header, or `prev` if there is none. -/
def lastHash (hash256 : HashFn) : Uint256 → List CBlockHeader → Uint256
  | prev, [] => prev
  | _, h :: hs => lastHash hash256 (h.getHash hash256) hs

section Chains

variable {hash256 : HashFn}

theorem lastHash_append (prev : Uint256) (hs ks : List CBlockHeader) :
    lastHash hash256 prev (hs ++ ks) = lastHash hash256 (lastHash hash256 prev hs) ks := by
  induction hs generalizing prev with
  | nil => rfl
  | cons h hs ih => exact ih (h.getHash hash256)

theorem hashLinked_append {prev : Uint256} {hs ks : List CBlockHeader} :
    HashLinked hash256 prev (hs ++ ks) ↔
      HashLinked hash256 prev hs ∧ HashLinked hash256 (lastHash hash256 prev hs) ks := by
  induction hs generalizing prev with
  | nil => simp [HashLinked, lastHash]
  | cons h hs ih => simp only [List.cons_append, HashLinked, ih, lastHash, and_assoc]

end Chains

theorem validateHeaderRun_append {params : Params} {state state' : HeaderDifficultyState}
    {hs ks : List CBlockHeader} :
    validateHeaderRun params state (hs ++ ks) = .ok (some state') ↔
      ∃ mid, validateHeaderRun params state hs = .ok (some mid) ∧
        validateHeaderRun params mid ks = .ok (some state') := by
  induction hs generalizing state with
  | nil => exact ⟨fun h => ⟨state, rfl, h⟩, fun ⟨_, hmid, h⟩ => by cases hmid; exact h⟩
  | cons h hs ih =>
    simp only [List.cons_append, validateHeaderRun, bind_eq_ok_iff]
    constructor
    · rintro ⟨next, hnext, hrest⟩
      cases next with
      | none => cases hrest
      | some next =>
        obtain ⟨mid, hmid, hks⟩ := ih.mp hrest
        exact ⟨mid, ⟨some next, hnext, hmid⟩, hks⟩
    · rintro ⟨mid, ⟨next, hnext, hmid⟩, hks⟩
      cases next with
      | none => cases hmid
      | some next => exact ⟨some next, hnext, ih.mpr ⟨mid, hmid, hks⟩⟩

variable (work : Uint256) (hs : List CBlockHeader)

/-- The running total of `arith_uint256` work, which wraps. -/
def chainWork : Uint256 :=
  hs.foldl (fun w h => w + getBlockProof h.nBits) work

/-- The total work, as a number. -/
def totalWork : Nat :=
  work.toNat + (hs.map fun h => (getBlockProof h.nBits).toNat).sum

theorem chainWork_append_singleton (h : CBlockHeader) :
    chainWork work (hs ++ [h]) = chainWork work hs + getBlockProof h.nBits := by
  simp [chainWork]

theorem totalWork_append_singleton (h : CBlockHeader) :
    totalWork work (hs ++ [h]) = totalWork work hs + (getBlockProof h.nBits).toNat := by
  simp [totalWork, Nat.add_assoc]

theorem toNat_chainWork_le : (chainWork work hs).toNat ≤ totalWork work hs := by
  induction hs using List.reverseRecOn with
  | nil => simp [chainWork, totalWork]
  | append_singleton hs h ih =>
    rw [chainWork_append_singleton, totalWork_append_singleton, BitVec.toNat_add]
    omega

/-! ## Commitments -/

section Commitments

variable (cfg : SyncConfig)

open HeadersSyncState

/-- The commitments to a run of headers that starts above `height`. -/
def commitmentBits : Int → List CBlockHeader → List Bool
  | _, [] => []
  | height, h :: hs =>
    (if isCommitmentHeight cfg (height + 1) then [commitment cfg h] else []) ++
      commitmentBits (height + 1) hs

theorem commitmentBits_append (height : Int) (hs ks : List CBlockHeader) :
    commitmentBits cfg height (hs ++ ks) =
      commitmentBits cfg height hs ++ commitmentBits cfg (height + hs.length) ks := by
  induction hs generalizing height with
  | nil => simp [commitmentBits]
  | cons h hs ih =>
    rw [List.cons_append, commitmentBits, commitmentBits, ih, List.append_assoc, List.length_cons]
    congr 3
    omega

theorem commitmentBits_append_singleton (height : Int) (hs : List CBlockHeader) (h : CBlockHeader) :
    commitmentBits cfg height (hs ++ [h]) =
      commitmentBits cfg height hs ++
        (if isCommitmentHeight cfg (height + hs.length + 1) then [commitment cfg h] else []) := by
  simp [commitmentBits_append, commitmentBits]

/-- Two runs of headers above the same height agree on their commitments: where the second has one,
so has the first, and it is the same. -/
def CommitmentsMatch (height : Int) (hs ks : List CBlockHeader) : Prop :=
  ∀ (j : Nat) (k : CBlockHeader), ks[j]? = some k → isCommitmentHeight cfg (height + 1 + j) →
    ∃ h, hs[j]? = some h ∧ commitment cfg h = commitment cfg k

theorem commitmentsMatch_of_prefix {height : Int} {hs ks : List CBlockHeader} {rest : List Bool}
    (h : commitmentBits cfg height hs = commitmentBits cfg height ks ++ rest) :
    CommitmentsMatch cfg height hs ks := by
  induction ks generalizing height hs with
  | nil =>
    intro j k hk
    simp at hk
  | cons k ks ih =>
    cases hs with
    | nil =>
      -- The first run is over, so the second has no commitment left.
      have hnil := List.append_eq_nil_iff.mp h.symm
      obtain ⟨hfirst, hlater⟩ := List.append_eq_nil_iff.mp hnil.1
      intro j k' hk hheight
      cases j with
      | zero => simp_all
      | succ j =>
        have hmatch : CommitmentsMatch cfg (height + 1) [] ks := ih (by rw [hlater, hnil.2]; rfl)
        rw [show height + 1 + ((j + 1 : Nat) : Int) = height + 1 + 1 + j by omega] at hheight
        obtain ⟨p, hp, -⟩ := hmatch j k' (by simpa using hk) hheight
        simp at hp
    | cons p hs =>
      have hsplit : (isCommitmentHeight cfg (height + 1) → commitment cfg p = commitment cfg k) ∧
          commitmentBits cfg (height + 1) hs = commitmentBits cfg (height + 1) ks ++ rest := by
        by_cases hc : isCommitmentHeight cfg (height + 1) <;>
          simp_all [commitmentBits]
      intro j k' hk hheight
      cases j with
      | zero =>
        refine ⟨p, rfl, ?_⟩
        simp only [List.getElem?_cons_zero, Option.some.injEq] at hk
        exact hk ▸ hsplit.1 (by simpa using hheight)
      | succ j =>
        rw [show height + 1 + ((j + 1 : Nat) : Int) = height + 1 + 1 + j by omega] at hheight
        obtain ⟨p', hp', heq⟩ := ih hsplit.2 j k' (by simpa using hk) hheight
        exact ⟨p', by simpa using hp', heq⟩

end Commitments

/-! ## The first pass -/

section Invariants

open HeadersSyncState

variable {cfg : SyncConfig} {st st' : HeadersSyncState} {header : CBlockHeader}
  {seen out buf : List CBlockHeader}

/-- The headers pass the difficulty check in turn, from the start of the sync on, and leave the
running state `difficulty`. -/
def PassesDifficulty (cfg : SyncConfig) (hs : List CBlockHeader)
    (difficulty : HeaderDifficultyState) : Prop :=
  validateHeaderRun cfg.params (makeHeaderDifficultyState cfg.params cfg.chain_start) hs =
    .ok (some difficulty)

variable {difficulty : HeaderDifficultyState} {queue : List Bool} {process_all : Bool}

theorem PassesDifficulty.append_singleton {hs : List CBlockHeader}
    {difficulty' : HeaderDifficultyState} (h : PassesDifficulty cfg hs difficulty)
    (hnext : validateAndAdvanceHeaderDifficulty cfg.params difficulty header =
      .ok (some difficulty')) :
    PassesDifficulty cfg (hs ++ [header]) difficulty' := by
  refine validateHeaderRun_append.mpr ⟨difficulty, h, ?_⟩
  rw [validateHeaderRun, hnext]
  rfl

/-- The object in the first pass, after the headers `seen`. -/
structure PresyncInv (cfg : SyncConfig) (seen : List CBlockHeader) (st : HeadersSyncState) :
    Prop where
  state : st.m_download_state = .PRESYNC
  last : st.m_last_header_received = seen.getLastD cfg.chain_start.getBlockHeader
  height : st.m_current_height = cfg.chain_start.nHeight + seen.length
  difficulty : PassesDifficulty cfg seen st.m_presync_difficulty
  work : st.m_current_chain_work = chainWork cfg.chain_start.nChainWork seen
  commitments : st.m_header_commitments = commitmentBits cfg cfg.chain_start.nHeight seen
  holding : st.m_process_all_remaining_headers = false

theorem presyncInv_new (cfg : SyncConfig) : PresyncInv cfg [] (new cfg) where
  state := rfl
  last := rfl
  height := (Int.add_zero _).symm
  difficulty := rfl
  work := rfl
  commitments := rfl
  holding := rfl

theorem PresyncInv.presynced (inv : PresyncInv cfg seen st)
    (hnext : validateAndAdvanceHeaderDifficulty cfg.params st.m_presync_difficulty header =
      .ok (some difficulty)) :
    PresyncInv cfg (seen ++ [header]) (presynced cfg st difficulty header) where
  state := inv.state
  last := by simp [HeadersSyncState.presynced]
  height := by
    simp only [HeadersSyncState.presynced, inv.height, List.length_append, List.length_singleton]
    omega
  difficulty := inv.difficulty.append_singleton hnext
  work := by rw [chainWork_append_singleton, HeadersSyncState.presynced, inv.work]
  commitments := by
    rw [commitmentBits_append_singleton, HeadersSyncState.presynced, inv.commitments, inv.height]
  holding := inv.holding

theorem PresyncInv.step (inv : PresyncInv cfg seen st)
    (h : validateAndProcessSingleHeader cfg st header = .ok (true, st')) :
    PresyncInv cfg (seen ++ [header]) st' := by
  obtain ⟨-, difficulty, hnext, -, rfl⟩ := validateAndProcessSingleHeader_iff.mp h
  exact inv.presynced hnext

/-! ## The second pass -/

/-- Some beginning of the headers has the required work. -/
def ReachesWork (cfg : SyncConfig) (hs : List CBlockHeader) : Prop :=
  ∃ p, p <+: hs ∧ p ≠ [] ∧ cfg.minimum_required_work ≤ chainWork cfg.chain_start.nChainWork p

theorem reachesWork_append_singleton (hs : List CBlockHeader) :
    ReachesWork cfg (hs ++ [header]) ↔ ReachesWork cfg hs ∨
      cfg.minimum_required_work ≤ chainWork cfg.chain_start.nChainWork (hs ++ [header]) := by
  constructor
  · rintro ⟨p, hp, hne, hwork⟩
    rcases List.prefix_concat_iff.mp hp with rfl | hp
    · exact .inr hwork
    · exact .inl ⟨p, hp, hne, hwork⟩
  · rintro (⟨p, hp, hne, hwork⟩ | hwork)
    · exact ⟨p, hp.trans (List.prefix_append _ _), hne, hwork⟩
    · exact ⟨_, List.prefix_rfl, by simp, hwork⟩

/-- The object in the second pass, when the first one has seen `seen` and of the headers stored
since then `out` were handed out and `buf` are in the buffer. -/
structure RedownloadInv (cfg : SyncConfig) (seen out buf : List CBlockHeader)
    (st : HeadersSyncState) : Prop where
  state : st.m_download_state = .REDOWNLOAD
  linked : HashLinked cfg.hash256 cfg.chain_start.hashBlock (out ++ buf)
  lastHash : st.m_redownload_buffer_last_hash =
    lastHash cfg.hash256 cfg.chain_start.hashBlock (out ++ buf)
  firstPrev : st.m_redownload_buffer_first_prev_hash =
    Qbit.lastHash cfg.hash256 cfg.chain_start.hashBlock out
  height : st.m_redownload_buffer_last_height = cfg.chain_start.nHeight + (out ++ buf).length
  difficulty : PassesDifficulty cfg (out ++ buf) st.m_redownload_difficulty
  work : st.m_redownload_chain_work = chainWork cfg.chain_start.nChainWork (out ++ buf)
  buffer : st.m_redownloaded_headers = buf.map CompressedHeader.ofHeader
  size : st.m_redownload_auxpow_serialized_size = payloadSize buf
  released : st.m_process_all_remaining_headers = true ↔ ReachesWork cfg (out ++ buf)
  checked : ¬ ReachesWork cfg (out ++ buf) →
    commitmentBits cfg cfg.chain_start.nHeight seen =
      commitmentBits cfg cfg.chain_start.nHeight (out ++ buf) ++ st.m_header_commitments

theorem not_reachesWork_nil (cfg : SyncConfig) : ¬ ReachesWork cfg [] := by
  rintro ⟨p, hp, hne, -⟩
  exact hne (List.prefix_nil.mp hp)

theorem PresyncInv.startRedownload (inv : PresyncInv cfg seen st) :
    RedownloadInv cfg seen [] [] (startRedownload cfg st) where
  state := rfl
  linked := trivial
  lastHash := rfl
  firstPrev := rfl
  height := (Int.add_zero _).symm
  difficulty := rfl
  work := rfl
  buffer := rfl
  size := rfl
  released := by
    simp [HeadersSyncState.startRedownload, inv.holding, not_reachesWork_nil]
  checked _ := inv.commitments.symm

section Redownload

variable (inv : RedownloadInv cfg seen out buf st)

include inv

/-- The flag is set by the first header that brings the work. -/
theorem RedownloadInv.releasesAll_iff :
    releasesAll cfg st header = true ↔ ReachesWork cfg (out ++ buf ++ [header]) := by
  rw [releasesAll, Bool.or_eq_true, decide_eq_true_eq, redownloadWork, inv.work, inv.released,
    reachesWork_append_singleton, chainWork_append_singleton]

/-- A header of the second pass is compared with the bit that the first pass has for its height,
unless the work is known to be there. -/
theorem RedownloadInv.checksCommitment_iff (hwork : ¬ ReachesWork cfg (out ++ buf ++ [header])) :
    (tracked cfg st difficulty header).ChecksCommitment cfg header queue ↔
      commitmentBits cfg cfg.chain_start.nHeight seen =
        commitmentBits cfg cfg.chain_start.nHeight (out ++ buf ++ [header]) ++ queue := by
  have hold : ¬ ReachesWork cfg (out ++ buf) := fun h =>
    hwork ((reachesWork_append_singleton _).mpr (.inl h))
  have hflag : releasesAll cfg st header = false := by
    rw [Bool.eq_false_iff]
    exact fun h => hwork (inv.releasesAll_iff.mp h)
  rw [ChecksCommitment, tracked, hflag, inv.checked hold, inv.height,
    commitmentBits_append_singleton, List.append_assoc, List.append_cancel_left_eq, Bool.not_false,
    Bool.true_and]
  split_ifs
  · rfl
  · exact eq_comm

theorem RedownloadInv.restored (hprev : header.hashPrevBlock = st.m_redownload_buffer_last_hash)
    (hnext : validateAndAdvanceHeaderDifficulty cfg.params st.m_redownload_difficulty header =
      .ok (some difficulty))
    (hqueue : (tracked cfg st difficulty header).ChecksCommitment cfg header queue) :
    RedownloadInv cfg seen out (buf ++ [header]) (restored cfg st difficulty queue header) where
  state := inv.state
  linked := by
    rw [← List.append_assoc, hashLinked_append, ← inv.lastHash]
    exact ⟨inv.linked, hprev, trivial⟩
  lastHash := by
    rw [← List.append_assoc, lastHash_append]
    rfl
  firstPrev := inv.firstPrev
  height := by
    simp only [HeadersSyncState.restored, inv.height, List.length_append, List.length_singleton]
    omega
  difficulty := by
    rw [← List.append_assoc]
    exact inv.difficulty.append_singleton hnext
  work := by
    rw [← List.append_assoc, chainWork_append_singleton, ← inv.work]
    rfl
  buffer := by simp [HeadersSyncState.restored, inv.buffer]
  size := by
    rw [payloadSize_append, ← inv.size]
    rfl
  released := by
    rw [← List.append_assoc]
    exact inv.releasesAll_iff
  checked hwork := by
    rw [← List.append_assoc] at hwork ⊢
    exact (inv.checksCommitment_iff hwork).mp hqueue

theorem RedownloadInv.step (h : validateAndStoreRedownloadedHeader cfg st header = .ok (true, st'))
    :
    RedownloadInv cfg seen out (buf ++ [header]) st' := by
  obtain ⟨-, hprev, difficulty, queue, hnext, hqueue, -, rfl⟩ :=
    validateAndStoreRedownloadedHeader_iff.mp h
  exact inv.restored hprev hnext hqueue

end Redownload

/-! ## What leaves the buffer -/

/-- How many of `n` headers in the buffer are handed out. -/
def readyCount (process_all : Bool) (n : Nat) : Nat :=
  if process_all then n else n - redownloadBufferSize

theorem readyCount_succ {n : Nat} (h : redownloadBufferSize < n + 1 ∨ process_all) :
    readyCount process_all (n + 1) = readyCount process_all n + 1 := by
  cases process_all with
  | true => rfl
  | false =>
    simp only [readyCount, Bool.false_eq_true, or_false, if_false] at h ⊢
    omega

theorem readyCount_eq_zero {n : Nat} (h : ¬ (redownloadBufferSize < n ∨ process_all)) :
    readyCount process_all n = 0 := by
  obtain ⟨hn, hall⟩ := not_or.mp h
  rw [readyCount, if_neg hall]
  omega

/-- **The buffer gives back what was put in.**  With the right hash in front of it, the loop rebuilds
the headers that it takes out, and leaves the right hash in front of the rest. -/
theorem popLoop_eq (process_all : Bool) {prev : Uint256}
    (hlinked : HashLinked cfg.hash256 prev buf) :
    popLoop cfg process_all (buf.map CompressedHeader.ofHeader) prev (payloadSize buf) =
      (buf.take (readyCount process_all buf.length),
        (buf.drop (readyCount process_all buf.length)).map CompressedHeader.ofHeader,
        lastHash cfg.hash256 prev (buf.take (readyCount process_all buf.length)),
        payloadSize (buf.drop (readyCount process_all buf.length))) := by
  induction buf generalizing prev with
  | nil => simp [popLoop, lastHash]
  | cons front rest ih =>
    obtain ⟨rfl, hrest⟩ := hlinked
    have hsize : payloadSize (front :: rest) -
        (CompressedHeader.ofHeader front).auxpowSerializedSize = payloadSize rest :=
      Nat.add_sub_cancel_left _ _
    simp only [List.map_cons, popLoop, List.length_cons, List.length_map]
    split_ifs with hready
    · rw [readyCount_succ hready, CompressedHeader.getFullHeader_ofHeader, hsize, ih hrest]
      rfl
    · rw [readyCount_eq_zero hready]
      rfl

/-- `PopHeadersReadyForAcceptance` moves headers from the buffer to the ones handed out. -/
theorem RedownloadInv.pop (inv : RedownloadInv cfg seen out buf st) :
    ∃ st', popHeadersReadyForAcceptance cfg st =
        (buf.take (readyCount st.m_process_all_remaining_headers buf.length), st') ∧
      st'.m_process_all_remaining_headers = st.m_process_all_remaining_headers ∧
      RedownloadInv cfg seen
        (out ++ buf.take (readyCount st.m_process_all_remaining_headers buf.length))
        (buf.drop (readyCount st.m_process_all_remaining_headers buf.length)) st' := by
  have hlinked := (hashLinked_append.mp inv.linked).2
  rw [← inv.firstPrev] at hlinked
  rw [popHeadersReadyForAcceptance, if_neg (not_not_intro inv.state), inv.buffer, inv.size,
    popLoop_eq _ hlinked]
  set k := readyCount st.m_process_all_remaining_headers buf.length
  have hsplit : out ++ buf.take k ++ buf.drop k = out ++ buf := by simp
  refine ⟨_, rfl, rfl, ?_⟩
  constructor <;> (try rw [hsplit])
  · exact inv.state
  · exact inv.linked
  · exact inv.lastHash
  · rw [lastHash_append, ← inv.firstPrev]
  · exact inv.height
  · exact inv.difficulty
  · exact inv.work
  · rfl
  · rfl
  · exact inv.released
  · exact inv.checked

end Invariants

end Qbit
