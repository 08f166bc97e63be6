import Qbit.HeadersSync.Difficulty
import Qbit.Net.HeadersMessage

/-!
# The header sync state machine

`HeadersSyncState` downloads a peer's headers twice.  In the first pass it keeps one salted bit for
every 632nd header and adds up the work, and in the second it stores the headers, compares the bits,
and hands out a header when enough others have followed it or when the work is known to be there.

The state is passed explicitly.  A function of the source that returns `bool` and changes the object
returns here the answer together with the new object, also when the answer is `false`, and `Result`
is there for the assertions of the difficulty code.
-/

open Checked

namespace Qbit

/-- `HEADER_COMMITMENT_PERIOD` -/
def headerCommitmentPeriod : Nat := 632

/-- `REDOWNLOAD_BUFFER_SIZE` -/
def redownloadBufferSize : Nat := 15009

/-- `HEADERS_MESSAGE_SIZE` -/
def headersMessageSize : Nat := 2000

/-- `MAX_REDOWNLOAD_AUXPOW_SERIALIZED_SIZE` -/
def maxRedownloadAuxpowSerializedSize : Nat :=
  ((redownloadBufferSize + headersMessageSize + headersMessageSize - 1) / headersMessageSize) *
    maxProtocolMessageLength

/-! ## Compressed headers -/

/-- `CompressedHeader`: a header without its `hashPrevBlock`. -/
structure CompressedHeader where
  nVersion : Int32 := 0
  hashMerkleRoot : Uint256 := 0
  nTime : UInt32 := 0
  nBits : UInt32 := 0
  nNonce : UInt32 := 0
  auxpow : Option CAuxPow := none
  deriving DecidableEq

namespace CompressedHeader

variable (header : CBlockHeader)

/-- The constructor from a header. -/
def ofHeader : CompressedHeader :=
  { nVersion := header.nVersion
    hashMerkleRoot := header.hashMerkleRoot
    nTime := header.nTime
    nBits := header.nBits
    nNonce := header.nNonce
    auxpow := header.auxpow }

/-- `GetFullHeader` -/
def getFullHeader (c : CompressedHeader) (hash_prev_block : Uint256) : CBlockHeader :=
  { nVersion := c.nVersion
    hashPrevBlock := hash_prev_block
    hashMerkleRoot := c.hashMerkleRoot
    nTime := c.nTime
    nBits := c.nBits
    nNonce := c.nNonce
    auxpow := c.auxpow }

/-- `AuxpowSerializedSize` -/
def auxpowSerializedSize (c : CompressedHeader) : Nat :=
  match c.auxpow with
  | none => 0
  | some a =>
    match a.coinbase_tx with
    | none => 0
    | some tx => (a.payloadBytes tx).length

theorem auxpowSerializedSize_ofHeader :
    (ofHeader header).auxpowSerializedSize = header.auxpowSize := rfl

/-- **Compression loses nothing** that the previous hash does not bring back. -/
theorem getFullHeader_ofHeader :
    (ofHeader header).getFullHeader header.hashPrevBlock = header := rfl

end CompressedHeader

/-! ## The object -/

/-- `HeadersSyncState::State` -/
inductive DownloadState where
  | PRESYNC
  | REDOWNLOAD
  | FINAL
  deriving DecidableEq

/-- What a `HeadersSyncState` is made with, and what does not change afterwards. -/
structure SyncConfig where
  hash256 : HashFn
  /-- `m_hasher`, the salted hash whose lowest bit is the commitment. -/
  hasher : Uint256 → UInt64
  params : Params
  chain_start : CBlockIndex
  minimum_required_work : Uint256
  commit_offset : Nat
  max_commitments : Nat

/-- `HeadersSyncState` -/
structure HeadersSyncState where
  m_current_chain_work : Uint256
  m_header_commitments : List Bool := []
  m_last_header_received : CBlockHeader
  m_current_height : Int
  m_presync_difficulty : HeaderDifficultyState
  m_redownload_difficulty : HeaderDifficultyState
  m_redownloaded_headers : List CompressedHeader := []
  m_redownload_buffer_last_height : Int := 0
  m_redownload_buffer_last_hash : Uint256 := 0
  m_redownload_buffer_first_prev_hash : Uint256 := 0
  m_redownload_chain_work : Uint256 := 0
  m_redownload_auxpow_serialized_size : Nat := 0
  m_process_all_remaining_headers : Bool := false
  m_download_state : DownloadState := .PRESYNC

/-- `HeadersSyncState::ProcessingResult` -/
structure ProcessingResult where
  pow_validated_headers : List CBlockHeader := []
  success : Bool := false
  request_more : Bool := false
  deriving DecidableEq

namespace HeadersSyncState

variable (cfg : SyncConfig)

/-- The constructor. -/
def new : HeadersSyncState :=
  { m_current_chain_work := cfg.chain_start.nChainWork
    m_last_header_received := cfg.chain_start.getBlockHeader
    m_current_height := cfg.chain_start.nHeight
    m_presync_difficulty := makeHeaderDifficultyState cfg.params cfg.chain_start
    m_redownload_difficulty := makeHeaderDifficultyState cfg.params cfg.chain_start }

variable (st : HeadersSyncState)

/-- `Finalize` -/
def finalize : HeadersSyncState :=
  { st with
    m_header_commitments := []
    m_last_header_received := {}
    m_redownloaded_headers := []
    m_redownload_buffer_last_hash := 0
    m_redownload_buffer_first_prev_hash := 0
    m_redownload_auxpow_serialized_size := 0
    m_process_all_remaining_headers := false
    m_current_height := 0
    m_download_state := .FINAL }

/-- Is a commitment made, or checked, at this height? -/
def isCommitmentHeight (height : Int) : Bool :=
  decide (height % headerCommitmentPeriod = cfg.commit_offset)

variable (header : CBlockHeader)

/-- The commitment to a header. -/
def commitment : Bool :=
  cfg.hasher (header.getHash cfg.hash256) &&& 1 != 0

/-! ## The first pass -/

/-- `ValidateAndProcessSingleHeader` -/
def validateAndProcessSingleHeader (current : CBlockHeader) :
    Result (Bool × HeadersSyncState) := do
  if st.m_download_state ≠ .PRESYNC then return (false, st)
  let next_height := st.m_current_height + 1
  match ← validateAndAdvanceHeaderDifficulty cfg.params st.m_presync_difficulty current with
  | none => return (false, st)
  | some difficulty =>
    let commitments :=
      if isCommitmentHeight cfg next_height then st.m_header_commitments ++ [commitment cfg current]
      else st.m_header_commitments
    let st := { st with m_presync_difficulty := difficulty, m_header_commitments := commitments }
    if isCommitmentHeight cfg next_height && decide (cfg.max_commitments < commitments.length) then
      return (false, st)
    return (true,
      { st with
        m_current_chain_work := st.m_current_chain_work + getBlockProof current.nBits
        m_last_header_received := current
        m_current_height := next_height })

/-- The switch to the second pass. -/
def startRedownload : HeadersSyncState :=
  { st with
    m_redownloaded_headers := []
    m_redownload_buffer_last_height := cfg.chain_start.nHeight
    m_redownload_buffer_first_prev_hash := cfg.chain_start.hashBlock
    m_redownload_buffer_last_hash := cfg.chain_start.hashBlock
    m_redownload_auxpow_serialized_size := 0
    m_redownload_chain_work := cfg.chain_start.nChainWork
    m_redownload_difficulty := makeHeaderDifficultyState cfg.params cfg.chain_start
    m_download_state := .REDOWNLOAD }

/-- `ValidateAndStoreHeadersCommitments` -/
def validateAndStoreHeadersCommitments (headers : List CBlockHeader) :
    Result (Bool × HeadersSyncState) :=
  match headers with
  | [] => .ok (true, st)
  | first :: _ => do
    if st.m_download_state ≠ .PRESYNC then return (false, st)
    if first.hashPrevBlock ≠ st.m_last_header_received.getHash cfg.hash256 then return (false, st)
    let (valid, st) ← forEach (validateAndProcessSingleHeader cfg) st headers
    if !valid then return (false, st)
    if cfg.minimum_required_work ≤ st.m_current_chain_work then
      return (true, startRedownload cfg st)
    return (true, st)

/-! ## The second pass -/

/-- The end of `ValidateAndStoreRedownloadedHeader`: store the header, unless the payloads in the
buffer would get too large. -/
def storeRedownloadedHeader : Bool × HeadersSyncState :=
  let compressed_header := CompressedHeader.ofHeader header
  let auxpow_serialized_size := compressed_header.auxpowSerializedSize
  if maxRedownloadAuxpowSerializedSize - st.m_redownload_auxpow_serialized_size <
      auxpow_serialized_size then (false, st)
  else (true,
    { st with
      m_redownload_auxpow_serialized_size :=
        st.m_redownload_auxpow_serialized_size + auxpow_serialized_size
      m_redownloaded_headers := st.m_redownloaded_headers ++ [compressed_header]
      m_redownload_buffer_last_height := st.m_redownload_buffer_last_height + 1
      m_redownload_buffer_last_hash := header.getHash cfg.hash256 })

/-- The middle of `ValidateAndStoreRedownloadedHeader`: if there is a commitment for this height,
take it from the queue and compare.  Commitments are no longer checked once the work is known to be
there. -/
def checkCommitment : Bool × HeadersSyncState :=
  if !st.m_process_all_remaining_headers &&
      isCommitmentHeight cfg (st.m_redownload_buffer_last_height + 1) then
    match st.m_header_commitments with
    | [] => (false, st)
    | expected_commitment :: rest =>
      (commitment cfg header == expected_commitment, { st with m_header_commitments := rest })
  else (true, st)

/-- The total that the second pass has seen with this header. -/
def redownloadWork : Uint256 :=
  st.m_redownload_chain_work + getBlockProof header.nBits

/-- Is the work known to be there with this header? -/
def releasesAll : Bool :=
  st.m_process_all_remaining_headers || decide (cfg.minimum_required_work ≤ st.redownloadWork header)

/-- The object once the header's difficulty is checked and its work is counted. -/
def tracked (difficulty : HeaderDifficultyState) (header : CBlockHeader) : HeadersSyncState :=
  { st with
    m_redownload_difficulty := difficulty
    m_redownload_chain_work := st.redownloadWork header
    m_process_all_remaining_headers := st.releasesAll cfg header }

/-- `ValidateAndStoreRedownloadedHeader` -/
def validateAndStoreRedownloadedHeader :
    Result (Bool × HeadersSyncState) := do
  if st.m_download_state ≠ .REDOWNLOAD then return (false, st)
  if header.hashPrevBlock ≠ st.m_redownload_buffer_last_hash then return (false, st)
  match ← validateAndAdvanceHeaderDifficulty cfg.params st.m_redownload_difficulty header with
  | none => return (false, st)
  | some difficulty =>
    let (valid, st) := checkCommitment cfg (tracked cfg st difficulty header) header
    if !valid then return (false, st)
    return storeRedownloadedHeader cfg st header

/-- The loop of `PopHeadersReadyForAcceptance`, over the buffer, the hash in front of it and the size
of its payloads. -/
def popLoop (process_all : Bool) : List CompressedHeader → Uint256 → Nat →
    List CBlockHeader × List CompressedHeader × Uint256 × Nat
  | [], prev_hash, size => ([], [], prev_hash, size)
  | front :: rest, prev_hash, size =>
    if redownloadBufferSize < (front :: rest).length ∨ process_all then
      let header := front.getFullHeader prev_hash
      let (headers, buffer, prev_hash, size) := popLoop process_all rest
        (header.getHash cfg.hash256) (size - front.auxpowSerializedSize)
      (header :: headers, buffer, prev_hash, size)
    else ([], front :: rest, prev_hash, size)

/-- `PopHeadersReadyForAcceptance` -/
def popHeadersReadyForAcceptance : List CBlockHeader × HeadersSyncState :=
  if st.m_download_state ≠ .REDOWNLOAD then ([], st)
  else
    let (headers, buffer, prev_hash, size) := popLoop cfg st.m_process_all_remaining_headers
      st.m_redownloaded_headers st.m_redownload_buffer_first_prev_hash
      st.m_redownload_auxpow_serialized_size
    (headers,
      { st with
        m_redownloaded_headers := buffer
        m_redownload_buffer_first_prev_hash := prev_hash
        m_redownload_auxpow_serialized_size := size })

/-! ## Messages -/

variable (received_headers : List CBlockHeader) (full_headers_message : Bool)

/-- What `ProcessNextHeaders` does in the first pass. -/
def processPresync :
    Result (ProcessingResult × HeadersSyncState) := do
  let (success, st) ← validateAndStoreHeadersCommitments cfg st received_headers
  return ({ success := success
            request_more := success &&
              (full_headers_message || decide (st.m_download_state = .REDOWNLOAD)) }, st)

/-- What `ProcessNextHeaders` does in the second pass. -/
def processRedownload :
    Result (ProcessingResult × HeadersSyncState) := do
  let (success, st) ← forEach (validateAndStoreRedownloadedHeader cfg) st received_headers
  if !success then return ({}, st)
  let (headers, st) := popHeadersReadyForAcceptance cfg st
  let complete := st.m_redownloaded_headers.isEmpty && st.m_process_all_remaining_headers
  return ({ pow_validated_headers := headers
            success := true
            request_more := !complete && full_headers_message }, st)

/-- `ProcessNextHeaders` -/
def processNextHeaders :
    Result (ProcessingResult × HeadersSyncState) := do
  if received_headers = [] then return ({}, st)
  match st.m_download_state with
  | .FINAL => return ({}, st)
  | .PRESYNC =>
    let (ret, st) ← processPresync cfg st received_headers full_headers_message
    return (ret, if ret.success && ret.request_more then st else st.finalize)
  | .REDOWNLOAD =>
    let (ret, st) ← processRedownload cfg st received_headers full_headers_message
    return (ret, if ret.success && ret.request_more then st else st.finalize)

/-! ## What one header does

One lemma for each pass says when a header is accepted and what the object is afterwards. -/

section Steps

variable {cfg} {st st' : HeadersSyncState} {header : CBlockHeader}

/-- The object after a header was accepted in the first pass. -/
def presynced (cfg : SyncConfig) (st : HeadersSyncState) (difficulty : HeaderDifficultyState)
    (header : CBlockHeader) : HeadersSyncState :=
  { st with
    m_presync_difficulty := difficulty
    m_header_commitments := st.m_header_commitments ++
      (if isCommitmentHeight cfg (st.m_current_height + 1) then [commitment cfg header] else [])
    m_current_chain_work := st.m_current_chain_work + getBlockProof header.nBits
    m_last_header_received := header
    m_current_height := st.m_current_height + 1 }

theorem validateAndProcessSingleHeader_iff :
    validateAndProcessSingleHeader cfg st header = .ok (true, st') ↔
      st.m_download_state = .PRESYNC ∧ ∃ difficulty,
        validateAndAdvanceHeaderDifficulty cfg.params st.m_presync_difficulty header =
          .ok (some difficulty) ∧
        (isCommitmentHeight cfg (st.m_current_height + 1) →
          st.m_header_commitments.length < cfg.max_commitments) ∧
        st' = presynced cfg st difficulty header := by
  unfold validateAndProcessSingleHeader
  by_cases hstate : st.m_download_state = .PRESYNC
  · rw [if_neg (not_not_intro hstate), bind_eq_ok_iff, and_iff_right hstate]
    constructor
    · rintro ⟨next, hnext, hret⟩
      rcases next with _ | difficulty
      · cases hret
      refine ⟨difficulty, hnext, ?_⟩
      by_cases hc : isCommitmentHeight cfg (st.m_current_height + 1)
      · simp only [hc, if_true, Bool.true_and, decide_eq_true_eq] at hret
        split_ifs at hret with hmax
        · cases hret
        · cases hret
          simp only [List.length_append, Nat.not_lt] at hmax
          exact ⟨fun _ => hmax, by simp [presynced, hc]⟩
      · simp only [hc] at hret
        cases hret
        simp [presynced, hc]
    · rintro ⟨difficulty, hnext, hmax, rfl⟩
      refine ⟨some difficulty, hnext, ?_⟩
      by_cases hc : isCommitmentHeight cfg (st.m_current_height + 1)
      · have hlt := hmax hc
        have hle : ¬ cfg.max_commitments < st.m_header_commitments.length + 1 := by omega
        simp [presynced, hc, hle]
      · simp [presynced, hc]
  · simp [hstate]

/-- The object after a header was stored in the second pass, with `queue` left of the
commitments. -/
def restored (cfg : SyncConfig) (st : HeadersSyncState) (difficulty : HeaderDifficultyState)
    (queue : List Bool) (header : CBlockHeader) : HeadersSyncState :=
  { tracked cfg st difficulty header with
    m_header_commitments := queue
    m_redownload_auxpow_serialized_size := st.m_redownload_auxpow_serialized_size +
      (CompressedHeader.ofHeader header).auxpowSerializedSize
    m_redownloaded_headers := st.m_redownloaded_headers ++ [CompressedHeader.ofHeader header]
    m_redownload_buffer_last_height := st.m_redownload_buffer_last_height + 1
    m_redownload_buffer_last_hash := header.getHash cfg.hash256 }

/-- What the check takes from the queue: the commitment to this header where there is one to
check, and nothing otherwise. -/
def ChecksCommitment (cfg : SyncConfig) (st : HeadersSyncState) (header : CBlockHeader)
    (queue : List Bool) : Prop :=
  if !st.m_process_all_remaining_headers &&
      isCommitmentHeight cfg (st.m_redownload_buffer_last_height + 1)
  then st.m_header_commitments = commitment cfg header :: queue
  else queue = st.m_header_commitments

theorem checkCommitment_iff :
    checkCommitment cfg st header = (true, st') ↔ ∃ queue,
      st.ChecksCommitment cfg header queue ∧ st' = { st with m_header_commitments := queue } := by
  unfold checkCommitment ChecksCommitment
  split_ifs with hc
  · rcases hq : st.m_header_commitments with _ | ⟨expected, rest⟩
    · simp
    constructor
    · intro h
      obtain ⟨hbit, rfl⟩ := Prod.mk.inj h
      simp [eq_of_beq hbit]
    · rintro ⟨queue, hqueue, rfl⟩
      obtain ⟨rfl, rfl⟩ := List.cons.inj hqueue
      simp
  · constructor
    · intro h
      cases h
      simp
    · rintro ⟨queue, rfl, rfl⟩
      rfl

theorem storeRedownloadedHeader_iff :
    storeRedownloadedHeader cfg st header = (true, st') ↔
      (CompressedHeader.ofHeader header).auxpowSerializedSize ≤
        maxRedownloadAuxpowSerializedSize - st.m_redownload_auxpow_serialized_size ∧
      st' =
        { st with
          m_redownload_auxpow_serialized_size := st.m_redownload_auxpow_serialized_size +
            (CompressedHeader.ofHeader header).auxpowSerializedSize
          m_redownloaded_headers := st.m_redownloaded_headers ++ [CompressedHeader.ofHeader header]
          m_redownload_buffer_last_height := st.m_redownload_buffer_last_height + 1
          m_redownload_buffer_last_hash := header.getHash cfg.hash256 } := by
  simp only [storeRedownloadedHeader]
  split_ifs with hsize
  · simp [Nat.not_le.mpr hsize]
  · simp [Nat.not_lt.mp hsize, eq_comm]

theorem validateAndStoreRedownloadedHeader_iff :
    validateAndStoreRedownloadedHeader cfg st header = .ok (true, st') ↔
      st.m_download_state = .REDOWNLOAD ∧ header.hashPrevBlock = st.m_redownload_buffer_last_hash ∧
      ∃ difficulty queue,
        validateAndAdvanceHeaderDifficulty cfg.params st.m_redownload_difficulty header =
          .ok (some difficulty) ∧
        (tracked cfg st difficulty header).ChecksCommitment cfg header queue ∧
        (CompressedHeader.ofHeader header).auxpowSerializedSize ≤
          maxRedownloadAuxpowSerializedSize - st.m_redownload_auxpow_serialized_size ∧
        st' = restored cfg st difficulty queue header := by
  unfold validateAndStoreRedownloadedHeader
  by_cases hstate : st.m_download_state = .REDOWNLOAD
  · by_cases hprev : header.hashPrevBlock = st.m_redownload_buffer_last_hash
    · rw [if_neg (not_not_intro hstate), if_neg (not_not_intro hprev), bind_eq_ok_iff,
        and_iff_right hstate, and_iff_right hprev]
      constructor
      · rintro ⟨next, hnext, hret⟩
        rcases next with _ | difficulty
        · cases hret
        rcases hcheck : checkCommitment cfg (tracked cfg st difficulty header) header with
          ⟨valid, st₁⟩
        simp only [hcheck] at hret
        rcases valid with _ | _
        · cases hret
        obtain ⟨queue, hqueue, rfl⟩ := checkCommitment_iff.mp hcheck
        obtain ⟨hsize, rfl⟩ := storeRedownloadedHeader_iff.mp (Except.ok.inj hret)
        exact ⟨difficulty, queue, hnext, hqueue, hsize, rfl⟩
      · rintro ⟨difficulty, queue, hnext, hqueue, hsize, rfl⟩
        have hcheck := checkCommitment_iff.mpr ⟨queue, hqueue, rfl⟩
        refine ⟨some difficulty, hnext, ?_⟩
        simp only [hcheck]
        exact congrArg Except.ok (storeRedownloadedHeader_iff.mpr ⟨hsize, rfl⟩)
    · simp [hprev]
  · simp [hstate]

end Steps

end HeadersSyncState

end Qbit
