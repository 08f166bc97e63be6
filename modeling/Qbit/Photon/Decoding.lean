import Qbit.Photon.Fec

/-!
# Decoding what was encoded

A decoder that is fed chunks of the encoder, in any order and with any repetition, rejects none of
them, and once each group has got enough for its code the block comes out.

A group is `Pending` or `Done` after any arrivals (`GroupState.Fed.add`); `Completes` says of the
arrivals alone when the code has enough.  A decoder is fed when each of its groups is
(`Decoder.Fed.add`), and a complete decoder gives the block back (`Decoder.Fed.reconstruct`), the
padding of the last group cut off.
-/

open Bytes

namespace Qbit.Photon.Fec

/-! ## What the codes are trusted for -/

variable (c : Codec) (params : Parameters) (payload : List UInt8)

/-- The chunk of a group with some number. -/
def chunkOf (id : UInt8) : ChunkBytes :=
  (encodeChunk c params payload id).getD (.zero kFecChunkSize)

/-- A wirehair decoder after some chunks. -/
def wirehairState (w : c.WirehairDecoder) (ids : List UInt8) : c.WirehairDecoder :=
  ids.foldl (fun w id => (c.wirehairDecode w id (chunkOf c params payload id)).2) w

/-- What it says to one more chunk. -/
def wirehairAnswer (w : c.WirehairDecoder) (ids : List UInt8) (id : UInt8) : WirehairResult :=
  (c.wirehairDecode (wirehairState c params payload w ids) id (chunkOf c params payload id)).1

/-- The codes do their work on one group: chunks of the encoder are never malformed, and when a
decoder has enough of them it has the group. -/
structure CodecCorrect (c : Codec) (params : Parameters) (payload : List UInt8) : Prop where
  cm256 : params.useCm256 = true → ∀ ids : List UInt8, ids.Nodup →
    ids.length = params.data_chunks → (∀ id ∈ ids, id.toNat < FEC_TOTAL_CHUNKS) →
    ∃ blocks, c.cm256Decode params.data_chunks
        (ids.map fun id => (id, chunkOf c params payload id)) = some blocks ∧
      blocks.Perm ((List.range params.data_chunks).map fun i =>
        (UInt8.ofNat i, dataChunk payload i))
  create : params.useCm256 = false →
    (c.wirehairDecoderCreate params.groupPayloadBytes).isSome
  wirehair : params.useCm256 = false → ∀ w,
    c.wirehairDecoderCreate params.groupPayloadBytes = some w →
    ∀ (ids : List UInt8) (id : UInt8), (ids ++ [id]).Nodup →
    (∀ x ∈ ids ++ [id], x.toNat < FEC_TOTAL_CHUNKS) →
    (∀ before x, before ++ [x] <+: ids →
      wirehairAnswer c params payload w before x ≠ .success) →
    wirehairAnswer c params payload w ids id ≠ .error ∧
      (wirehairAnswer c params payload w ids id = .success →
        c.wirehairRecover (wirehairState c params payload w (ids ++ [id])) = some payload)

/-- The code has enough after these arrivals: the repeated ones left out, `cm256` needs as many
chunks as there are data chunks and `wirehair` says when. -/
def Completes (arrivals : List UInt8) : Prop :=
  if params.useCm256 then params.data_chunks ≤ arrivals.eraseDups.length
  else ∃ w before id, c.wirehairDecoderCreate params.groupPayloadBytes = some w ∧
    before ++ [id] <+: arrivals.eraseDups ∧
    wirehairAnswer c params payload w before id = .success

/-! ## Arrivals without repetition -/

variable {ids arrivals : List UInt8} {id : UInt8} {chunk : Chunk}

theorem eraseDups_concat_of_mem (h : id ∈ ids) : (ids ++ [id]).eraseDups = ids.eraseDups := by
  rw [List.eraseDups_append]
  simp [List.removeAll, h]

theorem eraseDups_concat_of_not_mem (h : id ∉ ids) :
    (ids ++ [id]).eraseDups = ids.eraseDups ++ [id] := by
  rw [List.eraseDups_append]
  simp [List.removeAll, h, List.eraseDups_cons]

theorem nodup_eraseDups (ids : List UInt8) : ids.eraseDups.Nodup := by
  induction ids using List.reverseRecOn with
  | nil => exact List.nodup_nil
  | append_singleton ids id ih =>
    by_cases h : id ∈ ids
    · rw [eraseDups_concat_of_mem h]
      exact ih
    rw [eraseDups_concat_of_not_mem h]
    refine List.nodup_append.mpr ⟨ih, List.nodup_singleton id, ?_⟩
    intro x hx y hy heq
    obtain rfl := List.mem_singleton.mp hy
    exact h (List.mem_eraseDups.mp (heq ▸ hx))

/-! ## One group -/

variable {c : Codec} {params : Parameters} {payload : List UInt8}

/-- The code waits for more of the group. -/
structure GroupState.Pending (params : Parameters) (payload : List UInt8) (arrivals : List UInt8)
    (group : GroupState c) : Prop where
  complete : group.complete = false
  seen : group.seen = arrivals.eraseDups
  small : ∀ id ∈ arrivals, id.toNat < FEC_TOTAL_CHUNKS
  cm256 : params.useCm256 = true →
    group.chunks = arrivals.eraseDups.map (fun id => (id, chunkOf c params payload id)) ∧
      arrivals.eraseDups.length < params.data_chunks
  wirehair : params.useCm256 = false → ∃ w,
    c.wirehairDecoderCreate params.groupPayloadBytes = some w ∧
      group.codec = some (wirehairState c params payload w arrivals.eraseDups) ∧
      ∀ before id, before ++ [id] <+: arrivals.eraseDups →
        wirehairAnswer c params payload w before id = .needMore

/-- The code has got the group. -/
structure GroupState.Done (params : Parameters) (payload : List UInt8) (group : GroupState c) :
    Prop where
  complete : group.complete = true
  recovered : group.recovered params = some payload

/-- A group after some arrivals. -/
def GroupState.Fed (params : Parameters) (payload : List UInt8) (arrivals : List UInt8)
    (group : GroupState c) : Prop :=
  group.Pending params payload arrivals ∨ group.Done params payload

theorem flatMap_dataChunk (h : payload.length = params.groupPayloadBytes) :
    (List.range params.data_chunks).flatMap (fun i => (dataChunk payload i).1) = payload := by
  have hpieces := flatMap_pieces kFecChunkSize params.data_chunks payload h.le
  have heq : (List.range params.data_chunks).flatMap (fun i => (dataChunk payload i).1) =
      (List.range params.data_chunks).flatMap
        (fun i => (payload.drop (i * kFecChunkSize)).take kFecChunkSize) := by
    refine List.flatMap_congr fun i hi => ?_
    have hlt := List.mem_range.mp hi
    have hle : kFecChunkSize ≤ (payload.drop (i * kFecChunkSize)).length := by
      rw [List.length_drop, h, Parameters.groupPayloadBytes, ← Nat.sub_mul]
      exact Nat.le_mul_of_pos_left _ (by omega)
    exact ByteArr.val_ofFront hle
  rw [heq, hpieces]

theorem toNat_ofNat_of_lt_data_chunks {i : Nat} (h : i < params.data_chunks) :
    (UInt8.ofNat i).toNat = i :=
  UInt8.toNat_ofNat_of_lt' (Nat.lt_trans (Nat.lt_trans h params.lt_total) (by decide))

theorem sortBlocks_eq {blocks : List (UInt8 × ChunkBytes)}
    (h : blocks.Perm ((List.range params.data_chunks).map fun i =>
      (UInt8.ofNat i, dataChunk payload i))) :
    sortBlocks blocks = (List.range params.data_chunks).map fun i =>
      (UInt8.ofNat i, dataChunk payload i) := by
  have hperm : (sortBlocks blocks).Perm _ := (List.perm_insertionSort _ blocks).trans h
  have hsorted := List.pairwise_insertionSort (fun a b : UInt8 × ChunkBytes => a.1 ≤ b.1) blocks
  refine hperm.eq_of_pairwise ?_ hsorted ?_
  · intro a b ha hb hab hba
    obtain ⟨i, hi, rfl⟩ := List.mem_map.mp (hperm.mem_iff.mp ha)
    obtain ⟨j, hj, rfl⟩ := List.mem_map.mp hb
    have hij := congrArg UInt8.toNat (UInt8.le_antisymm hab hba)
    rw [toNat_ofNat_of_lt_data_chunks (List.mem_range.mp hi),
      toNat_ofNat_of_lt_data_chunks (List.mem_range.mp hj)] at hij
    rw [hij]
  · rw [List.pairwise_map]
    refine List.pairwise_lt_range.imp_of_mem fun {i j} hi hj hij => ?_
    rw [UInt8.le_iff_toNat_le, toNat_ofNat_of_lt_data_chunks (List.mem_range.mp hi),
      toNat_ofNat_of_lt_data_chunks (List.mem_range.mp hj)]
    exact hij.le

theorem tryCompleteCm256Group_of_length_eq (group : GroupState c)
    (hcodec : CodecCorrect c params payload) (hlen : payload.length = params.groupPayloadBytes)
    (huse : params.useCm256 = true) (hcomplete : group.complete = false)
    (hchunks : group.chunks = ids.map fun id => (id, chunkOf c params payload id))
    (hnodup : ids.Nodup) (hids : ids.length = params.data_chunks)
    (hsmall : ∀ id ∈ ids, id.toNat < FEC_TOTAL_CHUNKS) :
    ∃ group', tryCompleteCm256Group params group = (true, group') ∧ group'.Done params payload := by
  obtain ⟨blocks, hdecode, hperm⟩ := hcodec.cm256 huse ids hnodup hids hsmall
  have hlength : group.chunks.length = params.data_chunks := by simp [hchunks, hids]
  have hwindows : List.range (group.chunks.length - params.data_chunks + 1) = [0] := by
    simp [hlength]
  have hwindow : (group.chunks.drop 0).take params.data_chunks =
      ids.map fun id => (id, chunkOf c params payload id) := by
    rw [List.drop_zero, ← hlength, List.take_length, hchunks]
  have hnumbers : (sortBlocks blocks).map (·.1.toNat) = List.range params.data_chunks := by
    rw [sortBlocks_eq hperm, List.map_map]
    refine (List.map_congr_left fun i hi => ?_).trans (List.map_id _)
    exact toNat_ofNat_of_lt_data_chunks (List.mem_range.mp hi)
  have hbytes : (sortBlocks blocks).flatMap (·.2.1) = payload := by
    rw [sortBlocks_eq hperm, List.flatMap_map]
    exact flatMap_dataChunk hlen
  have hstep : tryCompleteCm256Group params group = (true,
      { group with
        decoded_bytes := payload
        chunks := []
        complete := true }) := by
    rw [tryCompleteCm256Group, hcomplete, if_neg Bool.false_ne_true, if_neg (by omega), hwindows,
      tryWindows, hwindow, hdecode]
    simp [hnumbers, hbytes]
  refine ⟨_, hstep, rfl, ?_⟩
  simp [GroupState.recovered, huse, hlen]

variable {group : GroupState c} {decoder : Decoder c}

theorem GroupState.Pending.again (h : group.Pending params payload arrivals) (hmem : id ∈ arrivals)
    :
    group.addChunk params id (chunkOf c params payload id) = (true, group) ∧
      group.Pending params payload (arrivals ++ [id]) := by
  have hdups := eraseDups_concat_of_mem hmem
  have hseen : group.seen.contains id = true := by
    rw [h.seen]
    simpa using hmem
  refine ⟨?_, h.complete, ?_, ?_, ?_, ?_⟩
  · rw [addChunk, h.complete, if_neg Bool.false_ne_true, if_pos hseen]
  · rw [hdups]
    exact h.seen
  · intro x hx
    rcases List.mem_append.mp hx with hx | hx
    · exact h.small x hx
    · rw [List.mem_singleton.mp hx]
      exact h.small id hmem
  · rw [hdups]
    exact h.cm256
  · rw [hdups]
    exact h.wirehair

/-- A chunk that is new to a pending group passes the first two checks of `AddChunk`. -/
theorem GroupState.Pending.not_skipped (h : group.Pending params payload arrivals)
    (hnew : id ∉ arrivals) :
    ¬(group.complete = true) ∧ ¬(group.seen.contains id = true) := by
  refine ⟨by simp [h.complete], ?_⟩
  rw [h.seen]
  simpa using hnew

theorem forall_mem_concat_lt (h : ∀ x ∈ arrivals, x.toNat < FEC_TOTAL_CHUNKS)
    (hid : id.toNat < FEC_TOTAL_CHUNKS) :
    ∀ x ∈ arrivals ++ [id], x.toNat < FEC_TOTAL_CHUNKS := by
  intro x hx
  rcases List.mem_append.mp hx with hx | hx
  · exact h x hx
  simp [List.mem_singleton.mp hx, hid]

theorem GroupState.Pending.add_cm256 (hcodec : CodecCorrect c params payload)
    (hlen : payload.length = params.groupPayloadBytes) (huse : params.useCm256 = true)
    (h : group.Pending params payload arrivals) (hnew : id ∉ arrivals)
    (hid : id.toNat < FEC_TOTAL_CHUNKS) :
    ∃ group', group.addChunk params id (chunkOf c params payload id) = (true, group') ∧
      group'.Fed params payload (arrivals ++ [id]) := by
  obtain ⟨hchunks, hlt⟩ := h.cm256 huse
  have hdups := eraseDups_concat_of_not_mem hnew
  have hchunks' : group.chunks ++ [(id, chunkOf c params payload id)] =
      (arrivals ++ [id]).eraseDups.map fun id => (id, chunkOf c params payload id) := by
    simp [hchunks, hdups]
  have hlength : (arrivals ++ [id]).eraseDups.length = arrivals.eraseDups.length + 1 := by
    simp [hdups]
  have hsmall := forall_mem_concat_lt h.small hid
  obtain ⟨hopen, hunseen⟩ := h.not_skipped hnew
  rw [addChunk, if_neg hopen, if_neg hunseen, if_pos huse]
  by_cases henough :
      (group.chunks ++ [(id, chunkOf c params payload id)]).length ≥ params.data_chunks
  · rw [if_pos henough]
    rw [hchunks', List.length_map, hlength] at henough
    have hids : (arrivals ++ [id]).eraseDups.length = params.data_chunks := by omega
    obtain ⟨group', hstep, hdone⟩ := tryCompleteCm256Group_of_length_eq
      { group with
        seen := group.seen ++ [id]
        chunks := group.chunks ++ [(id, chunkOf c params payload id)] }
      hcodec hlen huse h.complete hchunks' (nodup_eraseDups _) hids
      fun x hx => hsmall x (List.mem_eraseDups.mp hx)
    exact ⟨group', hstep, .inr hdone⟩
  · rw [if_neg henough]
    rw [hchunks', List.length_map] at henough
    refine ⟨_, rfl, .inl ⟨h.complete, ?_, hsmall, fun _ => ⟨hchunks', by omega⟩, ?_⟩⟩
    · rw [h.seen, hdups]
    · intro hother
      cases huse.symm.trans hother

theorem wirehairState_concat (c : Codec) (params : Parameters) (payload : List UInt8)
    (w : c.WirehairDecoder) (ids : List UInt8) (id : UInt8) :
    wirehairState c params payload w (ids ++ [id]) =
      (c.wirehairDecode (wirehairState c params payload w ids) id
        (chunkOf c params payload id)).2 := by simp [wirehairState]

theorem GroupState.Pending.add_wirehair (hcodec : CodecCorrect c params payload)
    (huse : params.useCm256 = false) (h : group.Pending params payload arrivals)
    (hnew : id ∉ arrivals) (hid : id.toNat < FEC_TOTAL_CHUNKS) :
    ∃ group', group.addChunk params id (chunkOf c params payload id) = (true, group') ∧
      group'.Fed params payload (arrivals ++ [id]) := by
  obtain ⟨w, hw, hstate, hmore⟩ := h.wirehair huse
  have hdups := eraseDups_concat_of_not_mem hnew
  have hsmall := forall_mem_concat_lt h.small hid
  obtain ⟨hnoError, hsuccess⟩ := hcodec.wirehair huse w hw arrivals.eraseDups id
    (hdups ▸ nodup_eraseDups _)
    (fun x hx => hsmall x (List.mem_eraseDups.mp (hdups ▸ hx)))
    (fun before x hbefore => by rw [hmore before x hbefore]; decide)
  obtain ⟨hopen, hunseen⟩ := h.not_skipped hnew
  rw [addChunk, if_neg hopen, if_neg hunseen, huse, if_neg Bool.false_ne_true]
  rw [hstate]
  dsimp only
  cases hanswer : wirehairAnswer c params payload w arrivals.eraseDups id with
  | error => exact absurd hanswer hnoError
  | success =>
    have hresult := hanswer
    rw [wirehairAnswer] at hresult
    rw [hresult]
    refine ⟨_, rfl, .inr ⟨rfl, ?_⟩⟩
    rw [recovered, huse, if_neg Bool.false_ne_true, ← wirehairState_concat]
    exact hsuccess hanswer
  | needMore =>
    have hresult := hanswer
    rw [wirehairAnswer] at hresult
    rw [hresult]
    refine ⟨_, rfl, .inl ⟨h.complete, ?_, hsmall, ?_, fun _ => ⟨w, hw, ?_, ?_⟩⟩⟩
    · rw [h.seen, hdups]
    · intro hother
      cases huse.symm.trans hother
    · rw [hdups, wirehairState_concat]
    · intro before x hbefore
      rw [hdups] at hbefore
      rcases List.prefix_concat_iff.mp hbefore with heq | hbefore
      · obtain ⟨rfl, hx⟩ := List.append_inj' heq rfl
        obtain rfl := List.singleton_inj.mp hx
        exact hanswer
      · exact hmore before x hbefore

/-- **One more chunk of a group.**  It is never rejected, and the group is pending or done. -/
theorem GroupState.Fed.add (hcodec : CodecCorrect c params payload)
    (hlen : payload.length = params.groupPayloadBytes) (h : group.Fed params payload arrivals)
    (hid : id.toNat < FEC_TOTAL_CHUNKS) :
    ∃ group', group.addChunk params id (chunkOf c params payload id) = (true, group') ∧
      group'.Fed params payload (arrivals ++ [id]) := by
  rcases h with hpending | hdone
  · by_cases hmem : id ∈ arrivals
    · obtain ⟨hstep, hagain⟩ := hpending.again hmem
      exact ⟨group, hstep, .inl hagain⟩
    · cases huse : params.useCm256 with
      | true => exact hpending.add_cm256 hcodec hlen huse hmem hid
      | false => exact hpending.add_wirehair hcodec huse hmem hid
  · refine ⟨group, ?_, .inr hdone⟩
    rw [addChunk, if_pos hdone.complete]

theorem GroupState.Fed.done (h : group.Fed params payload arrivals)
    (hcompletes : Completes c params payload arrivals) :
    group.Done params payload := by
  refine h.resolve_left fun hpending => ?_
  cases huse : params.useCm256 with
  | true =>
    rw [Completes, if_pos huse] at hcompletes
    have hlt := (hpending.cm256 huse).2
    omega
  | false =>
    rw [Completes, huse, if_neg Bool.false_ne_true] at hcompletes
    obtain ⟨w, before, id, hw, hbefore, hsuccess⟩ := hcompletes
    obtain ⟨w', hw', -, hmore⟩ := hpending.wirehair huse
    obtain rfl := Option.some.inj (hw.symm.trans hw')
    rw [hmore before id hbefore] at hsuccess
    cases hsuccess

/-! ## All groups -/

section Groups

variable (params : Parameters) (block : List UInt8)

/-- The coding groups of a block. -/
def groupCount : Nat :=
  divCeil block.length params.groupPayloadBytes

/-- A coding group of a block. -/
def groupPayload (g : Nat) : List UInt8 :=
  buildGroupPayload block g params.groupPayloadBytes

theorem length_groupPayload (g : Nat) :
    (groupPayload params block g).length = params.groupPayloadBytes := (ByteArr.ofFront _ _).2

end Groups

/-- What arrived of a group. -/
def arrivalsOf (g : Nat) (arrivals : List (UInt16 × UInt8)) : List UInt8 :=
  (arrivals.filter (·.1.toNat == g)).map (·.2)

theorem arrivalsOf_concat_self (arrivals : List (UInt16 × UInt8)) (g : UInt16) (id : UInt8) :
    arrivalsOf g.toNat (arrivals ++ [(g, id)]) = arrivalsOf g.toNat arrivals ++ [id] := by
  simp [arrivalsOf]

theorem arrivalsOf_concat_ne {g : Nat} {h : UInt16} (hne : h.toNat ≠ g)
    (arrivals : List (UInt16 × UInt8)) (id : UInt8) :
    arrivalsOf g (arrivals ++ [(h, id)]) = arrivalsOf g arrivals := by
  simp [arrivalsOf, hne]

theorem groupPayloadBytes_lt (params : Parameters) : params.groupPayloadBytes < 2 ^ 63 := by
  have hlt := params.lt_total
  have hle : params.data_chunks * kFecChunkSize ≤ FEC_TOTAL_CHUNKS * kFecChunkSize :=
    Nat.mul_le_mul_right _ hlt.le
  exact Nat.lt_of_le_of_lt hle (by decide)

theorem length_le_groupCount_mul {block : List UInt8} (params : Parameters)
    (h : block.length < 2 ^ 63) :
    block.length ≤ groupCount params block * params.groupPayloadBytes := by
  have hpos := params.groupPayloadBytes_pos
  have hlt := groupPayloadBytes_lt params
  have hmod : (block.length + params.groupPayloadBytes - 1) % 2 ^ 64 =
      block.length + params.groupPayloadBytes - 1 := Nat.mod_eq_of_lt (by omega)
  rw [groupCount, divCeil, hmod]
  have hdiv := Nat.lt_div_mul_add hpos (a := block.length + params.groupPayloadBytes - 1)
  omega

/-- A decoder of a block after some arrivals. -/
structure Decoder.Fed (params : Parameters) (block : List UInt8) (arrivals : List (UInt16 × UInt8))
    (decoder : Decoder c) : Prop where
  params_eq : decoder.params = params
  size_eq : decoder.original_size = block.length
  count : decoder.groups.length = groupCount params block
  groups : ∀ (g : Nat) (group : GroupState c), decoder.groups[g]? = some group →
    group.Fed params (groupPayload params block g) (arrivalsOf g arrivals)

/-- The codes do their work on every group of a block. -/
def CodecCorrectOn (c : Codec) (params : Parameters) (block : List UInt8) : Prop :=
  ∀ g < groupCount params block, CodecCorrect c params (groupPayload params block g)

variable {block : List UInt8}

theorem GroupState.fed_nil (hcomplete : group.complete = false) (hseen : group.seen = [])
    (hchunks : group.chunks = [])
    (hcodec : params.useCm256 = false →
      ∃ w, c.wirehairDecoderCreate params.groupPayloadBytes = some w ∧ group.codec = some w) :
    group.Fed params payload [] := by
  refine .inl ⟨hcomplete, hseen, by simp, fun _ => ⟨hchunks, ?_⟩, fun huse => ?_⟩
  · exact Nat.lt_of_lt_of_le Nat.zero_lt_two params.two_le
  · obtain ⟨w, hw, hgroup⟩ := hcodec huse
    refine ⟨w, hw, hgroup, fun before id hbefore => ?_⟩
    simp at hbefore

theorem Decoder.exists_create (hcodec : CodecCorrectOn c params block) (hne : block ≠ [])
    (hpos : 0 < groupCount params block) (hcount : groupCount params block ≤ 0xffff) :
    ∃ decoder, Decoder.create c params block.length = some decoder ∧
      decoder.Fed params block [] := by
  have hsize : block.length ≠ 0 := fun h => hne (List.length_eq_zero_iff.mp h)
  have hmany : ¬(divCeil block.length params.groupPayloadBytes > 0xffff) := Nat.not_lt.mpr hcount
  rw [create, if_neg hsize]
  rw [if_neg hmany]
  cases huse : params.useCm256 with
  | true =>
    refine ⟨_, if_pos rfl, rfl, rfl, List.length_replicate, fun g group hg => ?_⟩
    obtain rfl := List.eq_of_mem_replicate (List.mem_of_getElem? hg)
    exact GroupState.fed_nil rfl rfl rfl fun hother => by cases huse.symm.trans hother
  | false =>
    obtain ⟨w, hw⟩ := Option.isSome_iff_exists.mp ((hcodec 0 hpos).create huse)
    rw [if_neg Bool.false_ne_true, hw]
    refine ⟨_, rfl, rfl, rfl, List.length_replicate, fun g group hg => ?_⟩
    obtain rfl := List.eq_of_mem_replicate (List.mem_of_getElem? hg)
    exact GroupState.fed_nil rfl rfl rfl fun _ => ⟨w, hw, rfl⟩

/-- A chunk of the encoder. -/
structure IsChunkOf (c : Codec) (params : Parameters) (block : List UInt8) (chunk : Chunk) :
    Prop where
  group : chunk.coding_group_id.toNat < groupCount params block
  id : chunk.chunk_id.toNat < FEC_TOTAL_CHUNKS
  bytes : chunk.bytes =
    chunkOf c params (groupPayload params block chunk.coding_group_id.toNat) chunk.chunk_id

theorem getElem?_of_mapM_eq_some {α : Type} {f : Nat → Option α} {n : Nat} {ys : List α}
    (h : (List.range n).mapM f = some ys) :
    ys.length = n ∧ ∀ i y, ys[i]? = some y → f i = some y := by
  induction n generalizing ys with
  | zero =>
    cases h
    simp
  | succ n ih =>
    simp only [List.range_succ, List.mapM_append, List.mapM_cons, List.mapM_nil,
      Option.bind_eq_bind, Option.bind_eq_some_iff] at h
    obtain ⟨front, hfront, last, ⟨y, hy, rest, hrest, hlast⟩, h⟩ := h
    cases hrest
    cases hlast
    cases h
    obtain ⟨rfl, hall⟩ := ih hfront
    refine ⟨List.length_append, fun i y' hi => ?_⟩
    rw [List.getElem?_append] at hi
    split_ifs at hi with hlt
    · exact hall i y' hi
    · rw [List.getElem?_singleton] at hi
      split_ifs at hi with hzero
      obtain rfl : i = front.length := by omega
      exact hi ▸ hy

theorem getElem?_groupChunks {group_id : UInt16} {chunks : List Chunk}
    (h : groupChunks c params group_id payload = some chunks) :
    chunks.length = FEC_TOTAL_CHUNKS ∧ ∀ (i : Nat) (chunk : Chunk), chunks[i]? = some chunk →
      chunk.coding_group_id = group_id ∧ chunk.chunk_id.toNat = i ∧
        chunk.bytes = chunkOf c params payload chunk.chunk_id := by
  obtain ⟨hlength, hall⟩ := getElem?_of_mapM_eq_some h
  refine ⟨hlength, fun i chunk hi => ?_⟩
  obtain ⟨bytes, hbytes, hmade⟩ := Option.bind_eq_some_iff.mp (hall i chunk hi)
  cases hmade
  have hlt : i < FEC_TOTAL_CHUNKS := hlength ▸ (List.getElem?_eq_some_iff.mp hi).1
  refine ⟨rfl, UInt8.toNat_ofNat_of_lt' (Nat.lt_trans hlt (by decide)), ?_⟩
  simp [chunkOf, hbytes]

theorem groups_of_encode {encoded : EncodedBlock} (h : encode c params block = some encoded) :
    ∃ groups : List (List Chunk), groups.length = groupCount params block ∧
      groups.length ≤ 0xffff ∧
      encoded = ⟨params, block.length, UInt16.ofNat groups.length, groups.flatten⟩ ∧
      ∀ (g : Nat) (chunks : List Chunk), groups[g]? = some chunks →
        groupChunks c params (UInt16.ofNat g) (groupPayload params block g) = some chunks := by
  rw [encode] at h
  split_ifs at h with hempty
  · obtain rfl := List.isEmpty_iff.mp hempty
    cases h
    have hzero : groupCount params [] = 0 := by
      have hpos := params.groupPayloadBytes_pos
      refine Nat.div_eq_of_lt (Nat.lt_of_le_of_lt (Nat.mod_le _ _) ?_)
      rw [List.length_nil]
      omega
    exact ⟨[], hzero.symm, Nat.zero_le _, rfl, by simp⟩
  dsimp only at h
  split_ifs at h with hmany
  obtain ⟨groups, hgroups, h⟩ := Option.bind_eq_some_iff.mp h
  cases h
  obtain ⟨hlength, hall⟩ := getElem?_of_mapM_eq_some hgroups
  rw [← hlength] at hmany ⊢
  exact ⟨groups, hlength, Nat.le_of_not_lt hmany, rfl, hall⟩

/-- **An encoded block**, which says of itself what the block was and holds chunks of it. -/
theorem encode_eq_some {encoded : EncodedBlock} (h : encode c params block = some encoded) :
    encoded.params = params ∧ encoded.original_size = block.length ∧
      encoded.coding_group_count = UInt16.ofNat (groupCount params block) ∧
      groupCount params block ≤ 0xffff ∧
      ∀ chunk ∈ encoded.chunks, IsChunkOf c params block chunk := by
  obtain ⟨groups, hlength, hcount, rfl, hall⟩ := groups_of_encode h
  rw [← hlength]
  refine ⟨rfl, rfl, rfl, hcount, fun chunk hchunk => ?_⟩
  obtain ⟨chunks, hchunks, hchunk⟩ := List.mem_flatten.mp hchunk
  obtain ⟨g, hg⟩ := List.mem_iff_getElem?.mp hchunks
  obtain ⟨i, hi⟩ := List.mem_iff_getElem?.mp hchunk
  obtain ⟨hmany, hmade⟩ := getElem?_groupChunks (hall g chunks hg)
  obtain ⟨hgroup, hid, hbytes⟩ := hmade i chunk hi
  have hlt : g < groups.length := (List.getElem?_eq_some_iff.mp hg).1
  have hnat : chunk.coding_group_id.toNat = g := by
    rw [hgroup]
    exact UInt16.toNat_ofNat_of_lt' (Nat.lt_of_lt_of_le hlt (hcount.trans (by decide)))
  refine ⟨by rwa [hnat, ← hlength], ?_, hnat.symm ▸ hbytes⟩
  rw [hid, ← hmany]
  exact (List.getElem?_eq_some_iff.mp hi).1

variable {arrivals : List (UInt16 × UInt8)}

/-- **One more chunk of a block.**  It is never rejected. -/
theorem Decoder.Fed.add (hcodec : CodecCorrectOn c params block)
    (h : decoder.Fed params block arrivals) (hchunk : IsChunkOf c params block chunk) :
    ∃ decoder', decoder.addChunk chunk = (true, decoder') ∧
      decoder'.Fed params block (arrivals ++ [(chunk.coding_group_id, chunk.chunk_id)]) := by
  have hlt : chunk.coding_group_id.toNat < decoder.groups.length := h.count ▸ hchunk.group
  have hgroup := List.getElem?_eq_getElem hlt
  obtain ⟨group', hstep, hfed⟩ := (h.groups _ _ hgroup).add
    (hcodec _ hchunk.group) (length_groupPayload params block _) hchunk.id
  have hsmall : ¬(FEC_TOTAL_CHUNKS ≤ chunk.chunk_id.toNat) := Nat.not_le.mpr hchunk.id
  rw [addChunk, hgroup]
  dsimp only
  rw [if_neg hsmall, h.params_eq, hchunk.bytes, hstep]
  refine ⟨_, rfl, rfl, h.size_eq, ?_, fun g group hg => ?_⟩
  · simp [h.count]
  · by_cases hsame : chunk.coding_group_id.toNat = g
    · subst hsame
      rw [List.getElem?_set_self hlt] at hg
      obtain rfl := Option.some.inj hg
      rw [arrivalsOf_concat_self]
      exact hfed
    · rw [List.getElem?_set_ne hsame] at hg
      rw [arrivalsOf_concat_ne hsame]
      exact h.groups g group hg

theorem Decoder.Fed.isComplete (h : decoder.Fed params block arrivals)
    (hcompletes : ∀ g < groupCount params block,
      Completes c params (groupPayload params block g) (arrivalsOf g arrivals)) :
    decoder.isComplete = true := by
  rw [Decoder.isComplete, List.all_eq_true]
  intro group hmem
  obtain ⟨g, hg⟩ := List.mem_iff_getElem?.mp hmem
  have hlt : g < groupCount params block := h.count ▸ (List.getElem?_eq_some_iff.mp hg).1
  exact ((h.groups g group hg).done (hcompletes g hlt)).complete

theorem take_groupPayload (params : Parameters) (block : List UInt8) (g : Nat) :
    (groupPayload params block g).take
        (min params.groupPayloadBytes (block.length - g * params.groupPayloadBytes)) =
      (block.drop (g * params.groupPayloadBytes)).take params.groupPayloadBytes := by
  have hlen : (block.drop (g * params.groupPayloadBytes)).length =
      block.length - g * params.groupPayloadBytes := List.length_drop
  have hdef : groupPayload params block g =
      (block.drop (g * params.groupPayloadBytes) ++
        List.replicate params.groupPayloadBytes 0).take params.groupPayloadBytes := rfl
  rw [hdef, List.take_take, ← hlen, Nat.min_eq_left (Nat.min_le_left _ _),
    List.take_append_of_le_length (Nat.min_le_right _ _), ← List.take_eq_take_min]

theorem gather_eq {groups : List (GroupState c)} {g left : Nat}
    (h : ∀ (i : Nat) (group : GroupState c), groups[i]? = some group →
      group.recovered params = some (groupPayload params block (g + i)))
    (hleft : left = block.length - g * params.groupPayloadBytes) :
    gather params groups left = some ((List.range groups.length).flatMap fun i =>
      (block.drop ((g + i) * params.groupPayloadBytes)).take params.groupPayloadBytes) := by
  induction groups generalizing g left with
  | nil => rfl
  | cons group groups ih =>
    have hnext : ∀ (i : Nat) (group' : GroupState c), groups[i]? = some group' →
        group'.recovered params = some (groupPayload params block (g + 1 + i)) := by
      intro i group' hi
      rw [Nat.add_assoc, Nat.add_comm 1 i]
      exact h (i + 1) group' hi
    have hless : left - params.groupPayloadBytes =
        block.length - (g + 1) * params.groupPayloadBytes := by
      rw [hleft, Nat.succ_mul, Nat.sub_add_eq]
    rw [gather, h 0 group rfl, ih hnext hless, Nat.add_zero]
    simp only [Option.bind_eq_bind, Option.bind_some]
    rw [hleft, take_groupPayload, List.length_cons, List.range_succ_eq_map, List.flatMap_cons,
      List.flatMap_map]
    simp only [Nat.add_assoc, Nat.add_comm 1]
    rfl

/-- **A complete decoder gives the block back.** -/
theorem Decoder.Fed.reconstruct (h : decoder.Fed params block arrivals)
    (hsize : block.length < 2 ^ 63) (hcomplete : decoder.isComplete = true) :
    decoder.reconstruct = some block := by
  have hdone : ∀ (i : Nat) (group : GroupState c), decoder.groups[i]? = some group →
      group.recovered params = some (groupPayload params block (0 + i)) := by
    intro i group hi
    have hgroup := List.all_eq_true.mp hcomplete group (List.mem_of_getElem? hi)
    rw [Nat.zero_add]
    rcases h.groups i group hi with hpending | hdone
    · cases hpending.complete.symm.trans hgroup
    · exact hdone.recovered
  rw [Decoder.reconstruct, hcomplete, Bool.not_true, if_neg Bool.false_ne_true, h.params_eq,
    h.size_eq, gather_eq hdone (by rw [Nat.zero_mul, Nat.sub_zero]), h.count]
  simp [flatMap_pieces _ _ _ (length_le_groupCount_mul params hsize)]

end Qbit.Photon.Fec
