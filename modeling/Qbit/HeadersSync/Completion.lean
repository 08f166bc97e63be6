import Qbit.HeadersSync.Contract

/-!
# Header sync with an honest peer

A peer that has a chain with enough work, and sends it twice in full messages, is followed to the
end: every call is successful, and all the headers come out (`headersSync_complete`).

The first pass cannot fail because the headers are linked, pass the difficulty check and have no
more commitments than allowed.  In the second one the payloads in memory stay below the limit
because the buffer and the message that is being read overlap at most nine messages
(`payloadSize_buffer_le`).
-/

open Checked

namespace Qbit

open HeadersSyncState

variable {cfg : SyncConfig} {st : HeadersSyncState}

/-! ## The peer -/

/-- A chain sent as the messages `front`, which are full, and `last`, in which the work is reached.
Work is compared as the node adds it up. -/
structure HonestChain (cfg : SyncConfig) (front : List (List CBlockHeader))
    (last : List CBlockHeader) : Prop where
  /-- The block index has the start of the sync under its hash. -/
  start : cfg.chain_start.getBlockHeader.getHash cfg.hash256 = cfg.chain_start.hashBlock
  full : ∀ m ∈ front, m.length = headersMessageSize
  /-- The headers were read from messages. -/
  wire : ∀ m ∈ front ++ [last], ∀ h ∈ m, h.OffWire
  size : ∀ m ∈ front ++ [last], ∀ bytes, serializeHeadersMessage m = .ok bytes →
    bytes.length ≤ maxProtocolMessageLength
  linked : HashLinked cfg.hash256 cfg.chain_start.hashBlock (front.flatten ++ last)
  difficulty : ∃ difficulty, PassesDifficulty cfg (front.flatten ++ last) difficulty
  commitments : (commitmentBits cfg cfg.chain_start.nHeight (front.flatten ++ last)).length ≤
    cfg.max_commitments
  before : ∀ p, p <+: front.flatten →
    chainWork cfg.chain_start.nChainWork p < cfg.minimum_required_work
  reached : cfg.minimum_required_work ≤
    chainWork cfg.chain_start.nChainWork (front.flatten ++ last)

/-- The calls for a list of messages. -/
def callsFor (messages : List (List CBlockHeader)) : List (List CBlockHeader × Bool) :=
  messages.map fun m => (m, decide (m.length = headersMessageSize))

variable {front : List (List CBlockHeader)} {last m : List CBlockHeader}

section Peer

variable (h : HonestChain cfg front last)

include h

theorem HonestChain.payloadSize_le (hm : m ∈ front ++ [last]) :
    payloadSize m ≤ maxProtocolMessageLength := by
  obtain ⟨bytes, hbytes, hlen⟩ := serializeHeadersMessage_ok (h.wire m hm)
  have hsize := h.size m hm bytes hbytes
  omega

theorem HonestChain.not_reachesWork {hs : List CBlockHeader} (hhs : hs <+: front.flatten) :
    ¬ ReachesWork cfg hs := by
  rintro ⟨p, hp, -, hwork⟩
  exact absurd hwork (BitVec.not_le.mpr (h.before p (hp.trans hhs)))

theorem HonestChain.last_ne_nil : last ≠ [] := by
  rintro rfl
  have hreached := h.reached
  rw [List.append_nil] at hreached
  exact absurd hreached (BitVec.not_le.mpr (h.before _ List.prefix_rfl))

theorem HonestChain.ne_nil (hm : m ∈ front) : m ≠ [] := by
  rintro rfl
  exact absurd (h.full [] hm) (by decide)

end Peer

/-! ## Headers that fit -/

variable {hs rest : List CBlockHeader} {header : CBlockHeader} {hash256 : HashFn}
  {st₁ st₂ : HeadersSyncState}

theorem PassesDifficulty.next {difficulty final : HeaderDifficultyState}
    (hall : PassesDifficulty cfg (hs ++ header :: rest) final)
    (h : PassesDifficulty cfg hs difficulty) :
    ∃ difficulty', validateAndAdvanceHeaderDifficulty cfg.params difficulty header =
      .ok (some difficulty') := by
  obtain ⟨mid, hmid, hrest⟩ := validateHeaderRun_append.mp hall
  obtain rfl : difficulty = mid := by
    rw [PassesDifficulty, hmid] at h
    cases h
    rfl
  rw [validateHeaderRun, bind_eq_ok_iff] at hrest
  obtain ⟨next, hnext, hret⟩ := hrest
  cases next with
  | none => cases hret
  | some difficulty' => exact ⟨difficulty', hnext⟩

theorem hashPrevBlock_of_hashLinked {prev : Uint256}
    (h : HashLinked hash256 prev (hs ++ header :: rest)) :
    header.hashPrevBlock = lastHash hash256 prev hs :=
  (hashLinked_append.mp h).2.1

theorem getHash_getLastD (first : CBlockHeader) (hs : List CBlockHeader) :
    (hs.getLastD first).getHash hash256 = lastHash hash256 (first.getHash hash256) hs := by
  induction hs generalizing first with
  | nil => rfl
  | cons h hs ih =>
    rw [List.getLastD_cons]
    exact ih h

/-- There is room for one more commitment if the whole chain has no more than allowed. -/
theorem length_commitmentBits_lt {height : Int}
    (hmax : (commitmentBits cfg height (hs ++ header :: rest)).length ≤ cfg.max_commitments)
    (hc : isCommitmentHeight cfg (height + hs.length + 1)) :
    (commitmentBits cfg height hs).length < cfg.max_commitments := by
  rw [commitmentBits_append, commitmentBits, if_pos hc, List.length_append, List.length_append,
    List.length_singleton] at hmax
  omega

/-- Once the work is there, nothing is taken from the queue. -/
theorem RedownloadInv.checksCommitment_of_reachesWork {seen out buf : List CBlockHeader}
    (inv : RedownloadInv cfg seen out buf st) {difficulty : HeaderDifficultyState}
    (hwork : ReachesWork cfg (out ++ buf ++ [header])) :
    (tracked cfg st difficulty header).ChecksCommitment cfg header st.m_header_commitments := by
  simp [ChecksCommitment, tracked, inv.releasesAll_iff.mpr hwork]

variable {out buf : List CBlockHeader}

section Messages

variable {done : List CBlockHeader}

/-! ## The first pass -/

variable (h : HonestChain cfg front last)

include h

theorem HonestChain.presync_headers (hsplit : front.flatten ++ last = done ++ m ++ rest)
    (inv : PresyncInv cfg done st) :
    ∃ st₁, forEach (validateAndProcessSingleHeader cfg) st m = .ok (true, st₁) ∧
      PresyncInv cfg (done ++ m) st₁ := by
  refine forEach_total (I := fun s done => PresyncInv cfg done s) ?_ hsplit inv
  intro s done header rest hall inv
  obtain ⟨final, hpass⟩ := h.difficulty
  rw [hall] at hpass
  obtain ⟨difficulty, hnext⟩ := hpass.next inv.difficulty
  refine ⟨_, validateAndProcessSingleHeader_iff.mpr ⟨inv.state, difficulty, hnext, ?_, rfl⟩,
    inv.presynced hnext⟩
  intro hc
  rw [inv.height] at hc
  rw [inv.commitments]
  exact length_commitmentBits_lt (hall ▸ h.commitments) hc

theorem HonestChain.presync_stored (hsplit : front.flatten ++ last = done ++ m ++ rest)
    (hne : m ≠ []) (inv : PresyncInv cfg done st) :
    ∃ st₁, PresyncInv cfg (done ++ m) st₁ ∧
      validateAndStoreHeadersCommitments cfg st m = .ok (true,
        if cfg.minimum_required_work ≤ chainWork cfg.chain_start.nChainWork (done ++ m)
          then startRedownload cfg st₁ else st₁) := by
  obtain ⟨st₁, hloop, inv₁⟩ := h.presync_headers hsplit inv
  obtain ⟨first, ms, rfl⟩ := List.exists_cons_of_ne_nil hne
  have hprev : first.hashPrevBlock = st.m_last_header_received.getHash cfg.hash256 := by
    have hlinked := h.linked
    rw [hsplit, List.append_assoc, List.cons_append] at hlinked
    rw [hashPrevBlock_of_hashLinked hlinked, inv.last, getHash_getLastD, h.start]
  refine ⟨st₁, inv₁, ?_⟩
  rw [validateAndStoreHeadersCommitments, if_neg (not_not_intro inv.state),
    if_neg (not_not_intro hprev), hloop, ok_bind, ← inv₁.work]
  simp only [Bool.not_true, Bool.false_eq_true, if_false]
  split_ifs <;> rfl

theorem HonestChain.presync_front (hm : m ∈ front) (hsplit : front.flatten = done ++ m ++ rest)
    (inv : PresyncInv cfg done st) :
    ∃ st₁, PresyncInv cfg (done ++ m) st₁ ∧
      st.processNextHeaders cfg m true = .ok ({ success := true, request_more := true }, st₁) := by
  have hall : front.flatten ++ last = done ++ m ++ (rest ++ last) := by simp [hsplit]
  obtain ⟨st₁, inv₁, hstored⟩ := h.presync_stored hall (h.ne_nil hm) inv
  rw [if_neg (BitVec.not_le.mpr (h.before _ ⟨rest, hsplit.symm⟩))] at hstored
  refine ⟨st₁, inv₁, ?_⟩
  rw [processNextHeaders, if_neg (h.ne_nil hm), inv.state]
  simp [processPresync, hstored]

/-- The message that brings the work starts the second pass. -/
theorem HonestChain.presync_last (full_headers_message : Bool)
    (inv : PresyncInv cfg front.flatten st) :
    ∃ st₁, RedownloadInv cfg (front.flatten ++ last) [] [] st₁ ∧
      st.processNextHeaders cfg last full_headers_message =
        .ok ({ success := true, request_more := true }, st₁) := by
  have hall : front.flatten ++ last = front.flatten ++ last ++ [] := (List.append_nil _).symm
  obtain ⟨st₁, inv₁, hstored⟩ := h.presync_stored hall h.last_ne_nil inv
  rw [if_pos h.reached] at hstored
  refine ⟨_, inv₁.startRedownload, ?_⟩
  simp [processNextHeaders, h.last_ne_nil, inv.state, processPresync, hstored, startRedownload]

/-! ## The second pass -/

/-- The second pass stores every header of the chain in its turn, as long as the payloads fit. -/
theorem HonestChain.redownload_headers (hsplit : front.flatten ++ last = out ++ (buf ++ m) ++ rest)
    (hsize : payloadSize (buf ++ m) ≤ maxRedownloadAuxpowSerializedSize)
    (inv : RedownloadInv cfg (front.flatten ++ last) out buf st) :
    ∃ st₁, forEach (validateAndStoreRedownloadedHeader cfg) st m = .ok (true, st₁) ∧
      RedownloadInv cfg (front.flatten ++ last) out (buf ++ m) st₁ := by
  have hall : buf ++ m = buf ++ m ++ [] := (List.append_nil _).symm
  refine forEach_total (I := fun s buf => RedownloadInv cfg (front.flatten ++ last) out buf s)
    ?_ hall inv
  intro s done header later hdone inv
  have hchain : front.flatten ++ last = out ++ done ++ header :: (later ++ rest) := by
    rw [hsplit, hdone]
    simp
  obtain ⟨final, hpass⟩ := h.difficulty
  obtain ⟨difficulty, hnext⟩ := PassesDifficulty.next (hchain ▸ hpass) inv.difficulty
  have hprev : header.hashPrevBlock = s.m_redownload_buffer_last_hash := by
    rw [inv.lastHash]
    exact hashPrevBlock_of_hashLinked (hchain ▸ h.linked)
  -- The commitments that are left are those of the rest of the chain.
  obtain ⟨queue, hqueue⟩ : ∃ queue,
      (tracked cfg s difficulty header).ChecksCommitment cfg header queue := by
    by_cases hwork : ReachesWork cfg (out ++ done ++ [header])
    · exact ⟨_, inv.checksCommitment_of_reachesWork hwork⟩
    have hbits := commitmentBits_append cfg cfg.chain_start.nHeight (out ++ done ++ [header])
      (later ++ rest)
    rw [← List.append_cons, ← hchain] at hbits
    exact ⟨_, (inv.checksCommitment_iff hwork).mpr hbits⟩
  have hfits : (CompressedHeader.ofHeader header).auxpowSerializedSize ≤
      maxRedownloadAuxpowSerializedSize - s.m_redownload_auxpow_serialized_size := by
    rw [hdone, payloadSize_append, payloadSize_cons] at hsize
    rw [inv.size, CompressedHeader.auxpowSerializedSize_ofHeader]
    omega
  exact ⟨_, validateAndStoreRedownloadedHeader_iff.mpr
    ⟨inv.state, hprev, difficulty, queue, hnext, hqueue, hfits, rfl⟩,
    inv.restored hprev hnext hqueue⟩

theorem HonestChain.redownload_front (hm : m ∈ front)
    (hsplit : front.flatten = out ++ (buf ++ m) ++ rest)
    (hsize : payloadSize (buf ++ m) ≤ maxRedownloadAuxpowSerializedSize)
    (inv : RedownloadInv cfg (front.flatten ++ last) out buf st) :
    ∃ headers buf' st₁, buf ++ m = headers ++ buf' ∧ buf'.length ≤ redownloadBufferSize ∧
      RedownloadInv cfg (front.flatten ++ last) (out ++ headers) buf' st₁ ∧
      st.processNextHeaders cfg m true = .ok
        ({ pow_validated_headers := headers, success := true, request_more := true }, st₁) := by
  have hall : front.flatten ++ last = out ++ (buf ++ m) ++ (rest ++ last) := by simp [hsplit]
  obtain ⟨st₁, hloop, inv₁⟩ := h.redownload_headers hall hsize inv
  have hflag : st₁.m_process_all_remaining_headers = false := by
    rw [Bool.eq_false_iff]
    exact fun hset => h.not_reachesWork ⟨rest, hsplit.symm⟩ (inv₁.released.mp hset)
  obtain ⟨st₂, hpop, hflag₂, inv₂⟩ := inv₁.pop
  rw [hflag] at hpop hflag₂ inv₂
  refine ⟨_, _, st₂, (List.take_append_drop _ _).symm, ?_, inv₂, ?_⟩
  · rw [List.length_drop, readyCount, if_neg Bool.false_ne_true]
    omega
  · rw [processNextHeaders, if_neg (h.ne_nil hm), inv.state]
    simp [processRedownload, hloop, hpop, hflag₂]

/-- The message that brings the work releases the whole buffer. -/
theorem HonestChain.redownload_last (full_headers_message : Bool)
    (hsplit : front.flatten = out ++ buf)
    (hsize : payloadSize (buf ++ last) ≤ maxRedownloadAuxpowSerializedSize)
    (inv : RedownloadInv cfg (front.flatten ++ last) out buf st) :
    ∃ st₁, st.processNextHeaders cfg last full_headers_message = .ok
        ({ pow_validated_headers := buf ++ last, success := true, request_more := false }, st₁) := by
  have hall : front.flatten ++ last = out ++ (buf ++ last) ++ [] := by simp [hsplit]
  obtain ⟨st₁, hloop, inv₁⟩ := h.redownload_headers hall hsize inv
  have hflag : st₁.m_process_all_remaining_headers = true := by
    have hprefix : front.flatten ++ last <+: out ++ (buf ++ last) :=
      ⟨[], by rw [hall, List.append_nil, List.append_nil]⟩
    exact inv₁.released.mpr ⟨front.flatten ++ last, hprefix, by simp [h.last_ne_nil], h.reached⟩
  obtain ⟨st₂, hpop, hflag₂, inv₂⟩ := inv₁.pop
  rw [hflag] at hpop hflag₂ inv₂
  have hempty : st₂.m_redownloaded_headers = [] := by
    rw [inv₂.buffer, readyCount, if_pos rfl, List.drop_length, List.map_nil]
  rw [readyCount, if_pos rfl, List.take_length] at hpop
  refine ⟨st₂.finalize, ?_⟩
  rw [processNextHeaders, if_neg h.last_ne_nil, inv.state]
  simp [processRedownload, hloop, hpop, hflag₂, hempty]

end Messages

/-! ## The payloads in memory -/

section Payloads

variable {messages : List (List CBlockHeader)} {limit : Nat}

theorem payloadSize_le_of_suffix {ks : List CBlockHeader} (h : hs <:+ ks) :
    payloadSize hs ≤ payloadSize ks := by
  obtain ⟨front, rfl⟩ := h
  simp

theorem payloadSize_flatten_le (h : ∀ m ∈ messages, payloadSize m ≤ limit) :
    payloadSize messages.flatten ≤ messages.length * limit := by
  induction messages with
  | nil => exact Nat.zero_le _
  | cons m ms ih =>
    have hm := h m List.mem_cons_self
    have hms := ih fun k hk => h k (List.mem_cons_of_mem _ hk)
    rw [List.flatten_cons, payloadSize_append, List.length_cons, Nat.succ_mul]
    omega

/-- **The buffer overlaps at most eight full messages**, since eight of them are longer than it. -/
theorem payloadSize_buffer_le (hfull : ∀ m ∈ messages, m.length = headersMessageSize)
    (h : ∀ m ∈ messages, payloadSize m ≤ limit) (hbuf : buf <:+ messages.flatten)
    (hlen : buf.length ≤ redownloadBufferSize) : payloadSize buf ≤ 8 * limit := by
  have hlast : ∀ m ∈ messages.drop (messages.length - 8), m ∈ messages :=
    fun m hm => List.mem_of_mem_drop hm
  have hbound := payloadSize_flatten_le fun m hm => h m (hlast m hm)
  have height : (messages.drop (messages.length - 8)).length ≤ 8 := by
    rw [List.length_drop]
    omega
  -- The buffer lies in the last eight messages.
  have hsuffix : buf <:+ (messages.drop (messages.length - 8)).flatten := by
    by_cases hshort : messages.length ≤ 8
    · rwa [Nat.sub_eq_zero_of_le hshort, List.drop_zero]
    have hdrop : (messages.drop (messages.length - 8)).flatten <:+ messages.flatten :=
      ⟨(messages.take (messages.length - 8)).flatten,
        by rw [← List.flatten_append, List.take_append_drop]⟩
    refine List.suffix_of_suffix_length_le hbuf hdrop ?_
    have hlengths : (messages.drop (messages.length - 8)).map List.length =
        List.replicate 8 headersMessageSize := by
      rw [List.eq_replicate_iff, List.length_map, List.length_drop]
      refine ⟨by omega, fun n hn => ?_⟩
      obtain ⟨m, hm, rfl⟩ := List.mem_map.mp hn
      exact hfull m (hlast m hm)
    rw [List.length_flatten, hlengths]
    exact hlen.trans (by decide)
  calc payloadSize buf ≤ payloadSize (messages.drop (messages.length - 8)).flatten :=
        payloadSize_le_of_suffix hsuffix
    _ ≤ (messages.drop (messages.length - 8)).length * limit := hbound
    _ ≤ 8 * limit := Nat.mul_le_mul_right _ height

/-- So the buffer and the message that is being read stay below the limit. -/
theorem HonestChain.payloadSize_buffer_append_le {done todo : List (List CBlockHeader)}
    (h : HonestChain cfg front last) (hsplit : front = done ++ todo) (hbuf : buf <:+ done.flatten)
    (hlen : buf.length ≤ redownloadBufferSize) (hm : m ∈ front ++ [last]) :
    payloadSize (buf ++ m) ≤ maxRedownloadAuxpowSerializedSize := by
  have hdone : ∀ k ∈ done, k ∈ front := fun k hk => by simp [hsplit, hk]
  have hbuffer := payloadSize_buffer_le (fun k hk => h.full k (hdone k hk))
    (fun k hk => h.payloadSize_le (List.mem_append_left _ (hdone k hk))) hbuf hlen
  have hmessage := h.payloadSize_le hm
  have hmax : maxRedownloadAuxpowSerializedSize = 9 * maxProtocolMessageLength := by decide
  rw [payloadSize_append, hmax]
  omega

end Payloads

/-! ## The whole run -/

/-- The calls lead from `st` to `st'` and are the steps `steps`. -/
def Runs (cfg : SyncConfig) (st : HeadersSyncState) (calls : List (List CBlockHeader × Bool))
    (steps : List SyncStep) (st' : HeadersSyncState) : Prop :=
  ∀ more, runSync cfg st (calls ++ more) = steps ++ runSync cfg st' more

theorem Runs.nil (cfg : SyncConfig) (st : HeadersSyncState) : Runs cfg st [] [] st := fun _ => rfl

theorem Runs.cons {headers : List CBlockHeader} {full_headers_message : Bool}
    {ret : ProcessingResult} {calls : List (List CBlockHeader × Bool)} {steps : List SyncStep}
    (hcall : st.processNextHeaders cfg headers full_headers_message = .ok (ret, st₁))
    (hrest : Runs cfg st₁ calls steps st₂) :
    Runs cfg st ((headers, full_headers_message) :: calls)
      (⟨st.m_download_state, headers, ret⟩ :: steps) st₂ := by
  intro more
  rw [List.cons_append, runSync, hcall]
  exact congrArg _ (hrest more)

theorem Runs.append {calls calls' : List (List CBlockHeader × Bool)} {steps steps' : List SyncStep}
    (h : Runs cfg st calls steps st₁) (h' : Runs cfg st₁ calls' steps' st₂) :
    Runs cfg st (calls ++ calls') (steps ++ steps') st₂ := by
  intro more
  rw [List.append_assoc, h, h', List.append_assoc]

/-- A step that was successful and asks for more. -/
def SyncStep.GoesOn (s : SyncStep) : Prop :=
  s.result.success = true ∧ s.result.request_more = true

section Run

variable {done todo : List (List CBlockHeader)}

theorem HonestChain.callsFor_cons (h : HonestChain cfg front last) (hm : m ∈ front)
    (ms : List (List CBlockHeader)) :
    callsFor (m :: ms) = (m, true) :: callsFor ms := by
  simp [callsFor, decide_eq_true (h.full m hm)]

theorem HonestChain.presync_run (h : HonestChain cfg front last) (hsplit : front = done ++ todo)
    (inv : PresyncInv cfg done.flatten st) :
    ∃ steps st₁, Runs cfg st (callsFor todo) steps st₁ ∧ steps.length = todo.length ∧
      (∀ s ∈ steps, s.GoesOn) ∧ handedOut steps = [] ∧ PresyncInv cfg front.flatten st₁ := by
  induction todo generalizing done st with
  | nil =>
    rw [List.append_nil] at hsplit
    exact ⟨[], st, Runs.nil cfg st, rfl, by simp, rfl, hsplit ▸ inv⟩
  | cons m ms ih =>
    have hm : m ∈ front := by simp [hsplit]
    have hflat : front.flatten = done.flatten ++ m ++ ms.flatten := by simp [hsplit]
    obtain ⟨st₁, inv₁, hcall⟩ := h.presync_front hm hflat inv
    have hdone : front = done ++ [m] ++ ms := by rw [hsplit, List.append_cons]
    obtain ⟨steps, st₂, hruns, hlen, hgo, hout, inv₂⟩ := ih hdone (by simpa using inv₁)
    rw [h.callsFor_cons hm]
    refine ⟨_, st₂, Runs.cons hcall hruns, by simp [hlen], ?_, ?_, inv₂⟩
    · rintro s (_ | ⟨_, hs⟩)
      · exact ⟨rfl, rfl⟩
      · exact hgo s hs
    · exact hout

theorem HonestChain.redownload_run (h : HonestChain cfg front last) (hsplit : front = done ++ todo)
    (hflat : done.flatten = out ++ buf) (hbuf : buf.length ≤ redownloadBufferSize)
    (inv : RedownloadInv cfg (front.flatten ++ last) out buf st) :
    ∃ steps buf' st₁, Runs cfg st (callsFor todo) steps st₁ ∧ steps.length = todo.length ∧
      (∀ s ∈ steps, s.GoesOn) ∧ front.flatten = out ++ handedOut steps ++ buf' ∧
      buf'.length ≤ redownloadBufferSize ∧
      RedownloadInv cfg (front.flatten ++ last) (out ++ handedOut steps) buf' st₁ := by
  induction todo generalizing done out buf st with
  | nil =>
    rw [List.append_nil] at hsplit
    refine ⟨[], buf, st, Runs.nil cfg st, rfl, by simp, ?_, hbuf, ?_⟩
    · simp [hsplit, hflat, handedOut]
    · simpa [handedOut] using inv
  | cons m ms ih =>
    have hm : m ∈ front := by simp [hsplit]
    have hfront : front.flatten = out ++ (buf ++ m) ++ ms.flatten := by
      simp [hsplit, hflat]
    have hsize := h.payloadSize_buffer_append_le hsplit ⟨out, hflat.symm⟩ hbuf
      (List.mem_append_left _ hm)
    obtain ⟨headers, buf₁, st₁, hpop, hbuf₁, inv₁, hcall⟩ := h.redownload_front hm hfront hsize inv
    have hdone : front = done ++ [m] ++ ms := by rw [hsplit, List.append_cons]
    have hflat₁ : (done ++ [m]).flatten = out ++ headers ++ buf₁ := by simp [hpop, hflat]
    obtain ⟨steps, buf₂, st₂, hruns, hlen, hgo, hout, hbuf₂, inv₂⟩ := ih hdone hflat₁ hbuf₁ inv₁
    rw [h.callsFor_cons hm]
    refine ⟨_, buf₂, st₂, Runs.cons hcall hruns, by simp [hlen], ?_, ?_, hbuf₂, ?_⟩
    · rintro s (_ | ⟨_, hs⟩)
      · exact ⟨rfl, rfl⟩
      · exact hgo s hs
    · simpa [handedOut] using hout
    · simpa [handedOut] using inv₂

/-- **Header sync with an honest peer completes.**  If the chain is sent twice, every call is
successful, every call but the last one asks for more, and the headers handed out are exactly the
chain. -/
theorem headersSync_complete (h : HonestChain cfg front last) :
    ∃ steps s, runSync cfg (new cfg) (callsFor (front ++ [last]) ++ callsFor (front ++ [last])) =
        steps ++ [s] ∧
      (steps ++ [s]).length = 2 * (front ++ [last]).length ∧
      (∀ t ∈ steps, t.result.success = true ∧ t.result.request_more = true) ∧
      s.result.success = true ∧ s.result.request_more = false ∧
      handedOut (steps ++ [s]) = front.flatten ++ last := by
  have hcalls : callsFor (front ++ [last]) =
      callsFor front ++ [(last, decide (last.length = headersMessageSize))] := by
    simp [callsFor]
  obtain ⟨steps₁, st₁, hruns₁, hlen₁, hgo₁, hout₁, inv₁⟩ :=
    h.presync_run (List.nil_append _).symm (presyncInv_new cfg)
  obtain ⟨st₂, inv₂, hcall₂⟩ := h.presync_last (decide (last.length = headersMessageSize)) inv₁
  obtain ⟨steps₃, buf, st₃, hruns₃, hlen₃, hgo₃, hout₃, hbuf, inv₃⟩ :=
    h.redownload_run (List.nil_append _).symm rfl (Nat.zero_le _) inv₂
  rw [List.nil_append] at hout₃ inv₃
  have hsize := h.payloadSize_buffer_append_le (List.append_nil _).symm ⟨_, hout₃.symm⟩ hbuf
    (List.mem_append_right _ List.mem_cons_self)
  obtain ⟨st₄, hcall₄⟩ :=
    h.redownload_last (decide (last.length = headersMessageSize)) hout₃ hsize inv₃
  have hall := ((hruns₁.append (Runs.cons hcall₂ (Runs.nil cfg st₂))).append
    (hruns₃.append (Runs.cons hcall₄ (Runs.nil cfg st₄)))) []
  rw [List.append_nil, runSync, List.append_nil, ← hcalls, ← List.append_assoc] at hall
  refine ⟨_, _, hall, ?_, ?_, rfl, rfl, ?_⟩
  · simp [hlen₁, hlen₃]
    omega
  · intro t ht
    simp only [List.mem_append, List.mem_singleton] at ht
    rcases ht with (ht | rfl) | ht
    · exact hgo₁ t ht
    · exact ⟨rfl, rfl⟩
    · exact hgo₃ t ht
  · rw [hout₃]
    simp only [handedOut_append_singleton]
    simp only [handedOut, List.flatMap_append] at hout₁ ⊢
    simp [hout₁]

/-- A sync on the main network from the genesis block, which asks for one header on top. -/
def mainSync : SyncConfig where
  hash256 := mainChainHash
  hasher h := UInt64.ofNat h.toNat
  params := mainParams
  chain_start := chainIndex mainChainHash mainGenesis []
  minimum_required_work := (chainIndex mainChainHash mainGenesis []).nChainWork + 1
  commit_offset := 1
  max_commitments := 1

/-- The header after the genesis block is at a commitment height, and comes out. -/
theorem headersSync_complete_main :
    commitmentBits mainSync 0 [mainHeader1] = [true] ∧
    ∃ steps s, runSync mainSync (new mainSync)
        (callsFor ([] ++ [[mainHeader1]]) ++ callsFor ([] ++ [[mainHeader1]])) = steps ++ [s] ∧
      (steps ++ [s]).length = 2 * ([] ++ [[mainHeader1]]).length ∧
      (∀ t ∈ steps, t.result.success = true ∧ t.result.request_more = true) ∧
      s.result.success = true ∧ s.result.request_more = false ∧
      handedOut (steps ++ [s]) = [].flatten ++ [mainHeader1] := by
  refine ⟨by decide +kernel, headersSync_complete ?_⟩
  constructor
  · decide +kernel
  · simp
  · simp only [List.nil_append, List.mem_singleton, forall_eq]
    exact ⟨by decide, by simp [mainHeader1]⟩
  · simp only [List.nil_append, List.mem_singleton, forall_eq]
    intro bytes hbytes
    cases hbytes
    decide
  · exact ⟨by decide +kernel, trivial⟩
  · exact ⟨(makeHeaderDifficultyState mainParams
      (chainIndex mainChainHash mainGenesis [])).advance mainHeader1, by
        unfold PassesDifficulty
        decide +kernel⟩
  · decide +kernel
  · rintro p hp
    obtain rfl := List.prefix_nil.mp hp
    decide +kernel
  · decide +kernel

end Run

end Qbit
