import Qbit.HeadersSync.Completion

/-!
# The payloads in the buffer

In the second pass the buffer keeps the AuxPoW payloads of its headers, and
`m_redownload_auxpow_serialized_size` is there to bound what they take.  The counter is a `size_t`,
and it is subtracted from twice.

The functions with the suffix `Checked` are those of the source with these subtractions checked, and
with every new value of the counter compared to the limit.  A counter that wraps or passes its limit
stops them with a fault that is a parameter, so that a function that agrees with its source for
every fault is one where no check stops.  `Accounted` is why they all agree: the counter is the sum
over the buffer, and it is within the limit.
-/

open Checked

namespace Qbit

/-- A `size_t` subtraction, with a fault where it would wrap. -/
def sizeSub (fault : Fault) (a b : Nat) : Result Nat :=
  if b ≤ a then .ok (a - b) else .error fault

theorem sizeSub_of_le {fault : Fault} {a b : Nat} (h : b ≤ a) :
    sizeSub fault a b = .ok (a - b) := if_pos h

/-- A value of the counter, with a fault where it would pass the limit. -/
def retained (fault : Fault) (size : Nat) : Result Nat :=
  if size ≤ maxRedownloadAuxpowSerializedSize then .ok size else .error fault

theorem retained_of_le {fault : Fault} {size : Nat}
    (h : size ≤ maxRedownloadAuxpowSerializedSize) : retained fault size = .ok size := if_pos h

namespace HeadersSyncState

section Checked

variable (cfg : SyncConfig) (fault : Fault)

variable (st : HeadersSyncState)

/-- `storeRedownloadedHeader`, checked. -/
def storeRedownloadedHeaderChecked (header : CBlockHeader) :
    Result (Bool × HeadersSyncState) := do
  let compressed_header := CompressedHeader.ofHeader header
  let auxpow_serialized_size := compressed_header.auxpowSerializedSize
  let room ← sizeSub fault maxRedownloadAuxpowSerializedSize st.m_redownload_auxpow_serialized_size
  if room < auxpow_serialized_size then return (false, st)
  let size ← retained fault (st.m_redownload_auxpow_serialized_size + auxpow_serialized_size)
  return (true,
    { st with
      m_redownload_auxpow_serialized_size := size
      m_redownloaded_headers := st.m_redownloaded_headers ++ [compressed_header]
      m_redownload_buffer_last_height := st.m_redownload_buffer_last_height + 1
      m_redownload_buffer_last_hash := header.getHash cfg.hash256 })

/-- `validateAndStoreRedownloadedHeader`, checked. -/
def validateAndStoreRedownloadedHeaderChecked (header : CBlockHeader) :
    Result (Bool × HeadersSyncState) := do
  if st.m_download_state ≠ .REDOWNLOAD then return (false, st)
  if header.hashPrevBlock ≠ st.m_redownload_buffer_last_hash then return (false, st)
  match ← validateAndAdvanceHeaderDifficulty cfg.params st.m_redownload_difficulty header with
  | none => return (false, st)
  | some difficulty =>
    let (valid, st) := checkCommitment cfg (tracked cfg st difficulty header) header
    if !valid then return (false, st)
    storeRedownloadedHeaderChecked cfg fault st header

/-- `popLoop`, checked. -/
def popLoopChecked (process_all : Bool) : List CompressedHeader → Uint256 → Nat →
    Result (List CBlockHeader × List CompressedHeader × Uint256 × Nat)
  | [], prev_hash, size => .ok ([], [], prev_hash, size)
  | front :: rest, prev_hash, size =>
    if redownloadBufferSize < (front :: rest).length ∨ process_all then do
      let header := front.getFullHeader prev_hash
      let size ← retained fault (← sizeSub fault size front.auxpowSerializedSize)
      let (headers, buffer, prev_hash, size) ←
        popLoopChecked process_all rest (header.getHash cfg.hash256) size
      return (header :: headers, buffer, prev_hash, size)
    else .ok ([], front :: rest, prev_hash, size)

/-- `popHeadersReadyForAcceptance`, checked. -/
def popHeadersReadyForAcceptanceChecked :
    Result (List CBlockHeader × HeadersSyncState) := do
  if st.m_download_state ≠ .REDOWNLOAD then return ([], st)
  let (headers, buffer, prev_hash, size) ← popLoopChecked cfg fault st.m_process_all_remaining_headers
    st.m_redownloaded_headers st.m_redownload_buffer_first_prev_hash
    st.m_redownload_auxpow_serialized_size
  return (headers,
    { st with
      m_redownloaded_headers := buffer
      m_redownload_buffer_first_prev_hash := prev_hash
      m_redownload_auxpow_serialized_size := size })

/-- `processRedownload`, checked. -/
def processRedownloadChecked (received_headers : List CBlockHeader) (full_headers_message : Bool) :
    Result (ProcessingResult × HeadersSyncState) := do
  let (success, st) ← forEach (validateAndStoreRedownloadedHeaderChecked cfg fault) st received_headers
  if !success then return ({}, st)
  let (headers, st) ← popHeadersReadyForAcceptanceChecked cfg fault st
  let complete := st.m_redownloaded_headers.isEmpty && st.m_process_all_remaining_headers
  return ({ pow_validated_headers := headers
            success := true
            request_more := !complete && full_headers_message }, st)

/-- `processNextHeaders`, checked.  The first pass sets the counter to zero when it ends, and so does
`Finalize`. -/
def processNextHeadersChecked (received_headers : List CBlockHeader) (full_headers_message : Bool) :
    Result (ProcessingResult × HeadersSyncState) := do
  if received_headers = [] then return ({}, st)
  match st.m_download_state with
  | .FINAL => return ({}, st)
  | .PRESYNC =>
    let (ret, st) ← processPresync cfg st received_headers full_headers_message
    return (ret, if ret.success && ret.request_more then st else st.finalize)
  | .REDOWNLOAD =>
    let (ret, st) ← processRedownloadChecked cfg fault st received_headers full_headers_message
    return (ret, if ret.success && ret.request_more then st else st.finalize)

end Checked

/-! ## The counter is the sum -/

/-- What the payloads of some headers take. -/
def retainedSize (buffer : List CompressedHeader) : Nat :=
  (buffer.map CompressedHeader.auxpowSerializedSize).sum

/-- The counter is the sum over the buffer, and within the limit. -/
structure Accounted (st : HeadersSyncState) : Prop where
  sum : st.m_redownload_auxpow_serialized_size = retainedSize st.m_redownloaded_headers
  le : st.m_redownload_auxpow_serialized_size ≤ maxRedownloadAuxpowSerializedSize

variable {cfg : SyncConfig} {st st' : HeadersSyncState}

theorem Accounted.congr (h : Accounted st)
    (hbuffer : st'.m_redownloaded_headers = st.m_redownloaded_headers)
    (hsize : st'.m_redownload_auxpow_serialized_size = st.m_redownload_auxpow_serialized_size) :
    Accounted st' :=
  ⟨by rw [hsize, hbuffer, h.sum], hsize ▸ h.le⟩

theorem accounted_zero (hbuffer : st.m_redownloaded_headers = [])
    (hsize : st.m_redownload_auxpow_serialized_size = 0) : Accounted st :=
  ⟨by rw [hbuffer, hsize]; rfl, by rw [hsize]; exact Nat.zero_le _⟩

/-- **Storing a header** keeps the account, and the subtraction of the check does not wrap. -/
theorem Accounted.storeRedownloadedHeader (h : Accounted st) (cfg : SyncConfig) (fault : Fault)
    (header : CBlockHeader) :
    storeRedownloadedHeaderChecked cfg fault st header =
        .ok (storeRedownloadedHeader cfg st header) ∧
      Accounted (storeRedownloadedHeader cfg st header).2 ∧
      (storeRedownloadedHeader cfg st header).2.m_download_state = st.m_download_state := by
  simp only [storeRedownloadedHeaderChecked, HeadersSyncState.storeRedownloadedHeader,
    sizeSub_of_le h.le, ok_bind]
  split_ifs with hroom
  · exact ⟨rfl, h, rfl⟩
  have hle := h.le
  have hfits : st.m_redownload_auxpow_serialized_size +
      (CompressedHeader.ofHeader header).auxpowSerializedSize ≤
        maxRedownloadAuxpowSerializedSize := by omega
  refine ⟨by rw [retained_of_le hfits]; rfl, ⟨?_, hfits⟩, rfl⟩
  simp [h.sum, retainedSize]

/-- The check of a commitment takes from the queue and changes nothing else. -/
theorem checkCommitment_snd (cfg : SyncConfig) (st : HeadersSyncState) (header : CBlockHeader) :
    ∃ queue, (checkCommitment cfg st header).2 = { st with m_header_commitments := queue } := by
  unfold checkCommitment
  split_ifs
  · cases st.m_header_commitments <;> exact ⟨_, rfl⟩
  · exact ⟨_, rfl⟩

/-- **One received header**, whether it is stored or not. -/
theorem Accounted.validateAndStore (h : Accounted st) (hstate : st.m_download_state = .REDOWNLOAD)
    (cfg : SyncConfig) (fault : Fault) (header : CBlockHeader) :
    validateAndStoreRedownloadedHeaderChecked cfg fault st header =
        validateAndStoreRedownloadedHeader cfg st header ∧
      Ensures (validateAndStoreRedownloadedHeader cfg st header) fun r =>
        Accounted r.2 ∧ r.2.m_download_state = .REDOWNLOAD := by
  unfold validateAndStoreRedownloadedHeaderChecked validateAndStoreRedownloadedHeader
  rw [if_neg (not_not_intro hstate), if_neg (not_not_intro hstate)]
  split_ifs with hprev
  · exact ⟨rfl, .ok ⟨h, hstate⟩⟩
  rcases validateAndAdvanceHeaderDifficulty cfg.params st.m_redownload_difficulty header
      with f | next
  · exact ⟨rfl, .error⟩
  rcases next with _ | difficulty
  · exact ⟨rfl, .ok ⟨h, hstate⟩⟩
  obtain ⟨queue, hqueue⟩ := checkCommitment_snd cfg (tracked cfg st difficulty header) header
  have hchecked :
      Accounted (checkCommitment cfg (tracked cfg st difficulty header) header).2 :=
    h.congr (by rw [hqueue]; rfl) (by rw [hqueue]; rfl)
  have hkept : (checkCommitment cfg (tracked cfg st difficulty header)
      header).2.m_download_state = .REDOWNLOAD := by
    rw [hqueue]
    exact hstate
  simp only [ok_bind]
  split_ifs
  · exact ⟨rfl, .ok ⟨hchecked, hkept⟩⟩
  · obtain ⟨heq, hstored, hsame⟩ := hchecked.storeRedownloadedHeader cfg fault header
    exact ⟨heq, .ok ⟨hstored, hsame.trans hkept⟩⟩

/-! ## What leaves the buffer -/

/-- **The loop that empties the buffer** subtracts what was added for each header, and ends with at
most `REDOWNLOAD_BUFFER_SIZE` headers. -/
theorem popLoopChecked_eq (cfg : SyncConfig) (fault : Fault) (process_all : Bool)
    {buffer : List CompressedHeader} (prev : Uint256) {size : Nat} (hsum : size = retainedSize buffer)
    (hle : size ≤ maxRedownloadAuxpowSerializedSize) :
    ∃ headers buffer' prev' size', popLoop cfg process_all buffer prev size =
        (headers, buffer', prev', size') ∧
      popLoopChecked cfg fault process_all buffer prev size = .ok (headers, buffer', prev', size') ∧
      size' = retainedSize buffer' ∧ size' ≤ maxRedownloadAuxpowSerializedSize ∧
      buffer'.length ≤ redownloadBufferSize := by
  induction buffer generalizing prev size with
  | nil => exact ⟨_, _, _, _, rfl, rfl, hsum, hle, Nat.zero_le _⟩
  | cons front rest ih =>
    have hsplit : size = front.auxpowSerializedSize + retainedSize rest := hsum
    simp only [popLoop, popLoopChecked]
    split_ifs with hready
    · rw [sizeSub_of_le (by omega), ok_bind, retained_of_le (by omega), ok_bind]
      have hless : size - front.auxpowSerializedSize = retainedSize rest := by omega
      obtain ⟨headers, buffer', prev', size', hplain, hchecked, hrest⟩ :=
        ih ((front.getFullHeader prev).getHash cfg.hash256) hless (by omega)
      rw [hplain, hchecked]
      exact ⟨_, _, _, _, rfl, rfl, hrest⟩
    · refine ⟨_, _, _, _, rfl, rfl, hsum, hle, ?_⟩
      omega

/-- The object between two calls. -/
structure Idle (st : HeadersSyncState) : Prop extends Accounted st where
  length : st.m_redownloaded_headers.length ≤ redownloadBufferSize

theorem idle_finalize (st : HeadersSyncState) : Idle st.finalize :=
  ⟨accounted_zero rfl rfl, Nat.zero_le _⟩

theorem Accounted.popHeaders (h : Accounted st) (cfg : SyncConfig) (fault : Fault)
    (hstate : st.m_download_state = .REDOWNLOAD) :
    popHeadersReadyForAcceptanceChecked cfg fault st = .ok (popHeadersReadyForAcceptance cfg st) ∧
      Idle (popHeadersReadyForAcceptance cfg st).2 := by
  obtain ⟨headers, buffer, prev, size, hplain, hchecked, hsum, hle, hlen⟩ :=
    popLoopChecked_eq cfg fault st.m_process_all_remaining_headers
      st.m_redownload_buffer_first_prev_hash h.sum h.le
  rw [popHeadersReadyForAcceptanceChecked, popHeadersReadyForAcceptance,
    if_neg (not_not_intro hstate), if_neg (not_not_intro hstate), hchecked, hplain]
  exact ⟨rfl, ⟨hsum, hle⟩, hlen⟩

/-! ## Calls -/

variable (h : Idle st)

include h

theorem Idle.congr (hbuffer : st'.m_redownloaded_headers = st.m_redownloaded_headers)
    (hsize : st'.m_redownload_auxpow_serialized_size = st.m_redownload_auxpow_serialized_size) :
    Idle st' :=
  ⟨h.toAccounted.congr hbuffer hsize, hbuffer ▸ h.length⟩

theorem Idle.validateAndProcess (cfg : SyncConfig) (header : CBlockHeader) :
    Ensures (validateAndProcessSingleHeader cfg st header) fun r => Idle r.2 := by
  unfold validateAndProcessSingleHeader
  split_ifs
  · exact .ok h
  refine .bind_any fun next => ?_
  rcases next with _ | difficulty
  · exact .ok h
  simp only
  split_ifs
  · exact .ok (h.congr rfl rfl)
  · exact .ok (h.congr rfl rfl)
  · exact .ok (h.congr rfl rfl)
  · exact .ok (h.congr rfl rfl)

theorem Idle.processPresync (cfg : SyncConfig) (headers : List CBlockHeader)
    (full_headers_message : Bool) :
    Ensures (processPresync cfg st headers full_headers_message) fun r => Idle r.2 := by
  refine .bind (P := fun r => Idle r.2) ?_ fun r hr => .ok hr
  rcases headers with _ | ⟨first, rest⟩
  · exact .ok h
  simp only [validateAndStoreHeadersCommitments]
  split_ifs
  · exact .ok h
  · exact .ok h
  · refine .bind (forEach_congr (fun s a hs => ⟨rfl, hs.validateAndProcess cfg a⟩) h _).2
      fun r hr => ?_
    split_ifs
    · exact .ok hr
    · exact .ok ⟨accounted_zero rfl rfl, Nat.zero_le _⟩
    · exact .ok hr

theorem Idle.processRedownload (hstate : st.m_download_state = .REDOWNLOAD) (cfg : SyncConfig)
    (fault : Fault) (headers : List CBlockHeader) (full_headers_message : Bool) :
    processRedownloadChecked cfg fault st headers full_headers_message =
        processRedownload cfg st headers full_headers_message ∧
      Ensures (processRedownload cfg st headers full_headers_message) fun r =>
        r.1.success = true → Idle r.2 := by
  obtain ⟨heq, hkeep⟩ := forEach_congr
    (I := fun s => Accounted s ∧ s.m_download_state = .REDOWNLOAD)
    (fun s a hs => hs.1.validateAndStore hs.2 cfg fault a) ⟨h.toAccounted, hstate⟩ headers
  unfold processRedownloadChecked HeadersSyncState.processRedownload
  rw [heq]
  rcases hloop : forEach (validateAndStoreRedownloadedHeader cfg) st headers with f | r
  · exact ⟨rfl, .error⟩
  obtain ⟨hacc, hred⟩ := hkeep r hloop
  simp only [ok_bind]
  split_ifs
  · exact ⟨rfl, .ok nofun⟩
  · obtain ⟨hpop, hidle⟩ := hacc.popHeaders cfg fault hred
    rw [hpop]
    exact ⟨rfl, .ok fun _ => hidle⟩

/-- **One call** faults nowhere, and leaves the object accounted for. -/
theorem Idle.processNextHeaders (cfg : SyncConfig) (fault : Fault) (headers : List CBlockHeader)
    (full_headers_message : Bool) :
    processNextHeadersChecked cfg fault st headers full_headers_message =
        processNextHeaders cfg st headers full_headers_message ∧
      Ensures (processNextHeaders cfg st headers full_headers_message) fun r => Idle r.2 := by
  unfold processNextHeadersChecked HeadersSyncState.processNextHeaders
  split_ifs with hempty
  · exact ⟨rfl, .ok h⟩
  cases hstate : st.m_download_state with
  | FINAL => exact ⟨rfl, .ok h⟩
  | PRESYNC =>
    refine ⟨rfl, .bind (h.processPresync cfg headers full_headers_message) fun r hr => .ok ?_⟩
    split_ifs
    · exact hr
    · exact idle_finalize r.2
  | REDOWNLOAD =>
    obtain ⟨heq, hkeep⟩ := h.processRedownload hstate cfg fault headers full_headers_message
    simp only [heq]
    refine ⟨trivial, .bind hkeep fun r hr => .ok ?_⟩
    split_ifs with hmore
    · exact hr (Bool.and_eq_true_iff.mp hmore).1
    · exact idle_finalize r.2

end HeadersSyncState

/-! ## Runs -/

open HeadersSyncState

/-- The object after a sequence of calls of `ProcessNextHeaders`. -/
def syncAfter (cfg : SyncConfig) (st : HeadersSyncState)
    (calls : List (List CBlockHeader × Bool)) : Result HeadersSyncState :=
  calls.foldlM (fun st call => do return (← st.processNextHeaders cfg call.1 call.2).2) st

theorem HeadersSyncState.Idle.syncAfter {st : HeadersSyncState} (h : Idle st) (cfg : SyncConfig)
    (calls : List (List CBlockHeader × Bool)) : Ensures (syncAfter cfg st calls) Idle := by
  induction calls generalizing st with
  | nil => exact .ok h
  | cons call calls ih =>
    refine .bind (P := Idle) ?_ fun st' hst' => ih hst'
    exact .bind (h.processNextHeaders cfg .assertion call.1 call.2).2 fun r hr => .ok hr

/-- **The payloads in the buffer are accounted for**, whatever headers come.  After every sequence
of calls of `ProcessNextHeaders`:

* the counter is the sum over the buffer, and within the limit;
* the buffer holds at most `REDOWNLOAD_BUFFER_SIZE` headers;
* the next call, whatever it is given, does the same with its subtractions and the values of the
  counter checked at every point, and whatever fault a check would stop with: no subtraction wraps,
  and no value passes the limit. -/
theorem redownload_accounting {cfg : SyncConfig} {calls : List (List CBlockHeader × Bool)}
    {st : HeadersSyncState} (h : syncAfter cfg (new cfg) calls = .ok st) :
    (st.m_download_state = .REDOWNLOAD → st.m_redownload_auxpow_serialized_size =
      (st.m_redownloaded_headers.map CompressedHeader.auxpowSerializedSize).sum) ∧
    st.m_redownload_auxpow_serialized_size ≤ maxRedownloadAuxpowSerializedSize ∧
    st.m_redownloaded_headers.length ≤ redownloadBufferSize ∧
    ∀ fault headers full_headers_message,
      processNextHeadersChecked cfg fault st headers full_headers_message =
        processNextHeaders cfg st headers full_headers_message := by
  have hnew : Idle (new cfg) := ⟨accounted_zero rfl rfl, Nat.zero_le _⟩
  have hidle := hnew.syncAfter cfg calls st h
  exact ⟨fun _ => hidle.sum, hidle.le, hidle.length,
    fun fault headers full => (hidle.processNextHeaders cfg fault headers full).1⟩

/-- The second pass after one header of the main chain: the object holds nothing, and the next call
faults nowhere. -/
theorem redownload_accounting_main :
    ∃ st, syncAfter mainSync (new mainSync) [([mainHeader1], true)] = .ok st ∧
      st.m_download_state = .REDOWNLOAD ∧
      st.m_redownload_auxpow_serialized_size =
        (st.m_redownloaded_headers.map CompressedHeader.auxpowSerializedSize).sum ∧
      ∀ fault, processNextHeadersChecked mainSync fault st [mainHeader1] true =
        processNextHeaders mainSync st [mainHeader1] true := by
  obtain ⟨st, hst, hphase⟩ : ∃ st,
      syncAfter mainSync (new mainSync) [([mainHeader1], true)] = .ok st ∧
        st.m_download_state = .REDOWNLOAD :=
    exists_ok_of_toOption_map (by decide +kernel)
  obtain ⟨hsum, -, -, hnext⟩ := redownload_accounting hst
  exact ⟨st, hst, hphase, hsum hphase, fun fault => hnext fault _ _⟩

end Qbit
