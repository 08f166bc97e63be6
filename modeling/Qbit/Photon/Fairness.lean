import Qbit.Lib.RoundRobin
import Qbit.Photon.Decoding
import Qbit.Photon.Scheduler

/-!
# The schedule is fair

What the encoder makes of a block are coding groups of 255 chunks (`codingGroups`).
`FlattenGroups` finds these groups again, and the two loops of the constructor are round robins over
them, one over the data chunks and one over the parity chunks.  So `Next` returns every chunk once,
the data chunks first, and all groups fill up together (`schedule_fair`).
-/

namespace Qbit.Photon

open Fec GroupData RoundRobin

/-! ## What is sent, and from where -/

/-- What some calls of `Next` return. -/
def ChunkScheduler.nextChunks : Nat → ChunkScheduler → List ScheduledChunk
  | 0, _ => []
  | n + 1, scheduler =>
    match scheduler.next with
    | none => []
    | some (chunk, scheduler) => chunk :: scheduler.nextChunks n

/-- The chunks of a coding group. -/
def codingGroup (c : Codec) (params : Parameters) (block : List UInt8) (g : Nat) : List Chunk :=
  (groupChunks c params (UInt16.ofNat g) (groupPayload params block g)).getD []

/-- The coding groups of some blocks, each with its number of data chunks. -/
def codingGroups (c : Codec) (blocks : List (Parameters × List UInt8)) : List (Nat × List Chunk) :=
  blocks.flatMap fun b => (List.range (groupCount b.1 b.2)).map fun g =>
    (b.1.data_chunks, codingGroup c b.1 b.2 g)

/-- The chunks of some groups, each with the number of its group: first the data chunks, then the
parity chunks, and in both parts groups with the same parameters take turns. -/
structure FairOrder (groups : List (Nat × List Chunk)) (data parity : List (Nat × Chunk)) :
    Prop where
  perm : (data ++ parity).Perm (groups.zipIdx.flatMap fun x => x.1.2.map (x.2, ·))
  data_chunk : ∀ x ∈ data, ∀ group, groups[x.1]? = some group → x.2.chunk_id.toNat < group.1
  parity_chunk : ∀ x ∈ parity, ∀ group, groups[x.1]? = some group → group.1 ≤ x.2.chunk_id.toNat
  balanced : ∀ part ∈ [data, parity], ∀ p, p <+: part → ∀ (i j : Nat) (a b : Nat × List Chunk),
    groups[i]? = some a → groups[j]? = some b → a.1 = b.1 →
      p.countP (·.1 = i) ≤ p.countP (·.1 = j) + 1

/-- A chunk with the label that the source gives it. -/
def scheduled (x : Nat × Chunk) : ScheduledChunk := ⟨UInt16.ofNat x.1, x.2⟩

theorem ChunkScheduler.nextChunks_eq (n : Nat) (scheduler : ChunkScheduler) :
    scheduler.nextChunks n = (scheduler.m_schedule.drop scheduler.m_cursor).take n := by
  induction n generalizing scheduler with
  | zero => rfl
  | succ n ih =>
    rw [nextChunks, next]
    cases h : scheduler.m_schedule[scheduler.m_cursor]? with
    | none => simp [List.drop_eq_nil_iff.mpr (List.getElem?_eq_none_iff.mp h)]
    | some chunk =>
      obtain ⟨hlt, rfl⟩ := List.getElem?_eq_some_iff.mp h
      rw [List.drop_eq_getElem_cons hlt, List.take_succ_cons]
      exact congrArg _ (ih _)

/-! ## The groups of a block -/

/-- A group with all its chunks. -/
def GroupData.full (group : Nat × List Chunk) : GroupData where
  data_chunks := group.1
  total_chunks := FEC_TOTAL_CHUNKS
  chunks_by_id := group.2.map some

/-- The chunks of a group stand under their numbers. -/
def Numbered (group : Nat × List Chunk) : Prop :=
  group.2.length = FEC_TOTAL_CHUNKS ∧ ∀ (i : Nat) (chunk : Chunk), group.2[i]? = some chunk →
    chunk.chunk_id.toNat = i

variable {c : Codec} {params : Parameters} {block : List UInt8} {encoded : EncodedBlock}

/-- A group while its first chunks are placed. -/
def GroupData.filled (params : Parameters) (chunks : List Chunk) : GroupData where
  data_chunks := params.data_chunks
  total_chunks := FEC_TOTAL_CHUNKS
  chunks_by_id := chunks.map some ++ List.replicate (FEC_TOTAL_CHUNKS - chunks.length) none

theorem foldl_placeChunk {groups : GroupsById} {g : UInt16} (hnew : groups[g]? = none)
    {chunks : List Chunk} (hlength : chunks.length ≤ FEC_TOTAL_CHUNKS)
    (hids : ∀ (i : Nat) (chunk : Chunk), chunks[i]? = some chunk →
      chunk.coding_group_id = g ∧ chunk.chunk_id.toNat = i) (id : UInt16) :
    (chunks.foldl (placeChunk params) groups)[id]? =
      if id = g ∧ chunks ≠ [] then some (.filled params chunks) else groups[id]? := by
  induction chunks using List.reverseRecOn generalizing id with
  | nil => simp
  | append_singleton chunks chunk ih =>
    rw [List.length_append, List.length_singleton] at hlength
    obtain ⟨hg, hid⟩ := hids chunks.length chunk (by simp)
    have hold := ih (by omega) fun i chunk hi => hids i chunk (by
      rw [List.getElem?_append_left (List.getElem?_eq_some_iff.mp hi).1, hi])
    have hfor : groupFor params (chunks.foldl (placeChunk params) groups) g =
        .filled params chunks := by
      rw [groupFor, hold]
      rcases chunks with _ | ⟨first, chunks⟩
      · simp [hnew, filled, Parameters.total_chunks]
      · simp [filled]
    have hrest : FEC_TOTAL_CHUNKS - chunks.length =
        FEC_TOTAL_CHUNKS - (chunks.length + 1) + 1 := by omega
    have hplaced : (filled params chunks).chunks_by_id.set chunks.length (some chunk) =
        (filled params (chunks ++ [chunk])).chunks_by_id := by
      simp [filled, List.set_append_right, hrest, List.replicate_succ]
    rw [List.foldl_concat, placeChunk, if_neg (by rw [hid, Parameters.total_chunks]; omega), hg,
      hfor, hid]
    dsimp only
    rw [hplaced, Std.TreeMap.getElem?_insert, hold]
    by_cases h : id = g
    · simp [h, filled]
    · simp [h, Ne.symm h]

theorem foldl_placeChunk_flatten {groups : List (List Chunk)} (hcount : groups.length ≤ 0xffff)
    (hgroups : ∀ (g : Nat) (chunks : List Chunk), groups[g]? = some chunks →
      chunks.length = FEC_TOTAL_CHUNKS ∧ ∀ (i : Nat) (chunk : Chunk), chunks[i]? = some chunk →
        chunk.coding_group_id = UInt16.ofNat g ∧ chunk.chunk_id.toNat = i) (id : UInt16) :
    (groups.flatten.foldl (placeChunk params) ∅)[id]? =
      groups[id.toNat]?.map fun chunks => .full (params.data_chunks, chunks) := by
  induction groups using List.reverseRecOn generalizing id with
  | nil => simp
  | append_singleton groups chunks ih =>
    rw [List.length_append, List.length_singleton] at hcount
    have hnat : (UInt16.ofNat groups.length).toNat = groups.length :=
      UInt16.toNat_ofNat_of_lt' (Nat.lt_of_lt_of_le hcount (by decide))
    obtain ⟨hlength, hids⟩ := hgroups groups.length chunks (by simp)
    have hold := ih (by omega) fun g chunks hg => hgroups g chunks (by
      rw [List.getElem?_append_left (List.getElem?_eq_some_iff.mp hg).1, hg])
    have hne : chunks ≠ [] := by
      rintro rfl
      cases hlength
    rw [List.flatten_concat, List.foldl_append,
      foldl_placeChunk (by rw [hold, hnat]; simp) hlength.le hids, hold]
    by_cases h : id = UInt16.ofNat groups.length
    · simp [h, hne, hnat, filled, full, hlength]
    · have hid : id.toNat ≠ groups.length := fun heq => h (UInt16.toNat_inj.mp (heq.trans hnat.symm))
      rw [if_neg fun hboth => h hboth.1]
      rcases Nat.lt_or_gt_of_ne hid with hlt | hgt
      · rw [List.getElem?_append_left hlt]
      · rw [List.getElem?_eq_none (Nat.le_of_lt hgt),
          List.getElem?_eq_none (by rw [List.length_append]; exact hgt)]

/-- **`FlattenGroups` finds the groups of the encoder.** -/
theorem flattenGroups_encode (h : encode c params block = some encoded) :
    (∀ group ∈ codingGroups c [(params, block)], Numbered group) ∧
      encoded.chunks = (codingGroups c [(params, block)]).flatMap Prod.snd ∧
      flattenGroups [encoded] = (codingGroups c [(params, block)]).map full := by
  obtain ⟨groups, hlength, hcount, rfl, hall⟩ := groups_of_encode h
  have hgroups (g : Nat) (chunks : List Chunk) (hg : groups[g]? = some chunks) :
      chunks.length = FEC_TOTAL_CHUNKS ∧ ∀ (i : Nat) (chunk : Chunk), chunks[i]? = some chunk →
        chunk.coding_group_id = UInt16.ofNat g ∧ chunk.chunk_id.toNat = i := by
    obtain ⟨hmany, hids⟩ := getElem?_groupChunks (hall g chunks hg)
    exact ⟨hmany, fun i chunk hi => ⟨(hids i chunk hi).1, (hids i chunk hi).2.1⟩⟩
  have hget (g : Nat) (hg : g < groups.length) :
      groups[g]? = some (codingGroup c params block g) := by
    have hsome := List.getElem?_eq_getElem hg
    rw [codingGroup, hall g _ hsome, hsome, Option.getD_some]
  have hnat (g : Nat) (hg : g < groups.length) : (UInt16.ofNat g).toNat = g :=
    UInt16.toNat_ofNat_of_lt' (Nat.lt_of_lt_of_le hg (hcount.trans (by decide)))
  have hpos : params.total_chunks ≠ 0 := Nat.succ_ne_zero 254
  rw [codingGroups, List.flatMap_singleton, ← hlength, flattenGroups, List.flatMap_singleton]
  dsimp only
  rw [if_neg hpos, List.map_map]
  refine ⟨?_, ?_, ?_⟩
  · intro group hgroup
    obtain ⟨g, hg, rfl⟩ := List.mem_map.mp hgroup
    obtain ⟨hmany, hids⟩ := hgroups g _ (hget g (List.mem_range.mp hg))
    exact ⟨hmany, fun i chunk hi => (hids i chunk hi).2⟩
  · have heq : groups = (List.range groups.length).map (codingGroup c params block) := by
      refine List.ext_getElem (by simp) fun g hg _ => ?_
      simpa [hg] using hget g hg
    rw [List.flatMap_map, List.flatMap_def, ← heq]
  · -- both lists are sorted by the number of the group
    let made (g : Nat) : UInt16 × GroupData :=
      (UInt16.ofNat g, .full (params.data_chunks, codingGroup c params block g))
    have hsorted : ((List.range groups.length).map made).Pairwise
        fun a b => compare a.1 b.1 = .lt := by
      rw [List.pairwise_map]
      refine List.pairwise_lt_range.imp_of_mem fun ha hb hlt => Std.compare_eq_lt.mpr ?_
      rwa [UInt16.lt_iff_toNat_lt, hnat _ (List.mem_range.mp ha), hnat _ (List.mem_range.mp hb)]
    have hirrefl {a b : UInt16 × GroupData} (h : compare a.1 b.1 = .lt) : a ≠ b := by
      rintro rfl
      simp at h
    have heq : (groups.flatten.foldl (placeChunk params) ∅).toList =
        (List.range groups.length).map made := by
      refine List.Perm.eq_of_pairwise (fun a b _ _ hab hba => ?_) Std.TreeMap.ordered_keys_toList
        hsorted ((List.perm_ext_iff_of_nodup (Std.TreeMap.ordered_keys_toList.imp hirrefl)
          (hsorted.imp hirrefl)).mpr ?_)
      · cases (Std.OrientedCmp.gt_of_lt hab).symm.trans hba
      rintro ⟨id, group⟩
      rw [Std.TreeMap.mem_toList_iff_getElem?_eq_some, foldl_placeChunk_flatten hcount hgroups]
      simp only [Option.map_eq_some_iff, List.mem_map, List.mem_range, Prod.mk.injEq, made]
      constructor
      · rintro ⟨chunks, hchunks, rfl⟩
        have hlt := (List.getElem?_eq_some_iff.mp hchunks).1
        rw [hget _ hlt] at hchunks
        exact ⟨id.toNat, hlt, UInt16.ofNat_toNat, by rw [Option.some.inj hchunks]⟩
      · rintro ⟨g, hg, rfl, rfl⟩
        exact ⟨_, by rw [hnat g hg, hget g hg], rfl⟩
    rw [heq, List.map_map]
    rfl

variable {blocks : List (Parameters × List UInt8)} {encodeds : List EncodedBlock}

theorem flattenGroups_eq
    (h : List.Forall₂ (fun b encoded => encode c b.1 b.2 = some encoded) blocks encodeds) :
    (∀ group ∈ codingGroups c blocks, Numbered group) ∧
      flattenGroups encodeds = (codingGroups c blocks).map full := by
  induction h with
  | nil => exact ⟨nofun, rfl⟩
  | cons hfirst _ ih =>
    obtain ⟨hnumbered, -, heq⟩ := flattenGroups_encode hfirst
    simp only [codingGroups, flattenGroups, List.flatMap_cons, List.flatMap_nil,
      List.append_nil] at hnumbered heq ih ⊢
    exact ⟨List.forall_mem_append.mpr ⟨hnumbered, ih.1⟩, by rw [heq, ih.2, List.map_append]⟩

/-! ## The rounds -/

theorem sendRound_full {groups : List (Nat × List Chunk)} {part : Nat × List Chunk → List Chunk}
    {pick : GroupData → Option Chunk} {r : Nat}
    (hpick : ∀ group ∈ groups, pick (.full group) = (part group)[r]?) :
    sendRound (groups.map full) pick = (RoundRobin.round (groups.map part) r).map scheduled := by
  rw [sendRound, RoundRobin.round, List.mapIdx_eq_zipIdx_map, List.zipIdx_map, List.zipIdx_map,
    List.filterMap_map, List.filterMap_map, List.filterMap_map, List.map_filterMap]
  refine List.filterMap_congr fun x hx => ?_
  simp [hpick x.1 (List.fst_mem_of_mem_zipIdx hx), scheduled, Function.comp_def]

theorem dataAt_full (group : Nat × List Chunk) (r : Nat) :
    (full group).dataAt r = (group.2.take group.1)[r]? := by
  rw [dataAt, List.getElem?_take]
  by_cases hdata : r < group.1
  · by_cases hlt : r < group.2.length <;> simp [full, hdata, hlt]
  · simp [full, hdata]

theorem Numbered.parityAt_full {group : Nat × List Chunk} (h : Numbered group) (r : Nat) :
    (full group).parityAt r = (group.2.drop group.1)[r]? := by
  rw [parityAt, List.getElem?_drop]
  by_cases hlt : group.1 + r < FEC_TOTAL_CHUNKS <;> simp [full, h.1, hlt]

/-- **The round robins over the data chunks and over the parity chunks are fair.** -/
theorem fairOrder_rounds {groups : List (Nat × List Chunk)} (h : ∀ group ∈ groups, Numbered group)
    {n m : Nat} (hn : ∀ group ∈ groups, group.1 ≤ n)
    (hm : ∀ group ∈ groups, FEC_TOTAL_CHUNKS - group.1 ≤ m) :
    FairOrder groups (rounds n (groups.map fun group => group.2.take group.1))
      (rounds m (groups.map fun group => group.2.drop group.1)) where
  perm := by
    refine ((perm_rounds ?_).append (perm_rounds ?_)).trans ?_
    · rintro _ hl
      obtain ⟨group, hgroup, rfl⟩ := List.mem_map.mp hl
      exact (List.length_take_le _ _).trans (hn group hgroup)
    · rintro _ hl
      obtain ⟨group, hgroup, rfl⟩ := List.mem_map.mp hl
      rw [List.length_drop, (h group hgroup).1]
      exact hm group hgroup
    · rw [List.zipIdx_map, List.zipIdx_map, List.flatMap_map, List.flatMap_map]
      refine (List.flatMap_append_perm _ _ _).trans (.of_eq (List.flatMap_congr fun x _ => ?_))
      simp
  data_chunk := by
    intro x hx group hgroup
    obtain ⟨l, hl, i, hi⟩ := getElem?_of_mem_rounds hx
    rw [List.getElem?_map, hgroup] at hl
    cases hl
    rw [List.getElem?_take] at hi
    split_ifs at hi with hlt
    rwa [(h group (List.mem_of_getElem? hgroup)).2 i _ hi]
  parity_chunk := by
    intro x hx group hgroup
    obtain ⟨l, hl, i, hi⟩ := getElem?_of_mem_rounds hx
    rw [List.getElem?_map, hgroup] at hl
    cases hl
    rw [List.getElem?_drop] at hi
    rw [(h group (List.mem_of_getElem? hgroup)).2 _ _ hi]
    exact Nat.le_add_right _ _
  balanced := by
    have hlength (i : Nat) (a : Nat × List Chunk) (ha : groups[i]? = some a) :
        a.2.length = FEC_TOTAL_CHUNKS := (h a (List.mem_of_getElem? ha)).1
    refine List.forall_mem_cons.mpr ⟨?_, List.forall_mem_singleton.mpr ?_⟩ <;>
      intro p hp i j a b ha hb hab <;>
      exact balanced_of_prefix hp
        (by simp [ha, hb, hab, hlength i a ha, hlength j b hb])

theorem le_maxOver {f : GroupData → Nat} {groups : List GroupData} {group : GroupData}
    (h : group ∈ groups) :
    f group ≤ maxOver f groups := by
  induction groups using List.reverseRecOn with
  | nil => cases h
  | append_singleton groups last ih =>
    rw [maxOver, List.foldl_concat]
    rcases List.mem_append.mp h with h | h
    · exact (ih h).trans (Nat.le_max_left _ _)
    simp [List.mem_singleton.mp h]

/-- The schedule is made of two round robins. -/
theorem exists_fairOrder
    (h : List.Forall₂ (fun b encoded => encode c b.1 b.2 = some encoded) blocks encodeds) :
    ∃ data parity, FairOrder (codingGroups c blocks) data parity ∧
      (ChunkScheduler.create encodeds).m_schedule = (data ++ parity).map scheduled := by
  obtain ⟨hnumbered, hflat⟩ := flattenGroups_eq h
  refine ⟨_, _, fairOrder_rounds hnumbered
    (fun _ hgroup => le_maxOver (f := (·.data_chunks)) (List.mem_map_of_mem (f := .full) hgroup))
    (fun _ hgroup => le_maxOver (f := fun group => group.total_chunks - group.data_chunks)
      (List.mem_map_of_mem (f := .full) hgroup)), ?_⟩
  rw [ChunkScheduler.create, hflat, List.map_append, rounds, rounds,
    List.map_flatMap, List.map_flatMap]
  dsimp only
  congr 1
  · exact List.flatMap_congr fun r _ => sendRound_full fun group _ => dataAt_full group r
  · exact List.flatMap_congr fun r _ =>
      sendRound_full fun group hgroup => (hnumbered group hgroup).parityAt_full r

/-- What the encoder made is scheduled, and nothing else. -/
theorem mem_schedule_iff (h : encode c params block = some encoded) {chunk : Chunk} :
    (∃ s ∈ (ChunkScheduler.create [encoded]).m_schedule, s.chunk = chunk) ↔
      chunk ∈ encoded.chunks := by
  have hblocks : List.Forall₂ (fun b encoded => encode c b.1 b.2 = some encoded) [(params, block)]
      [encoded] := .cons h .nil
  obtain ⟨data, parity, hfair, hschedule⟩ := exists_fairOrder hblocks
  rw [hschedule, (flattenGroups_encode h).2.1, List.mem_flatMap]
  simp only [List.mem_map, exists_exists_and_eq_and, hfair.perm.mem_iff, List.mem_flatMap, scheduled]
  constructor
  · rintro ⟨x, ⟨y, hy, z, hz, rfl⟩, rfl⟩
    exact ⟨y.1, List.fst_mem_of_mem_zipIdx hy, hz⟩
  · rintro ⟨group, hgroup, hchunk⟩
    obtain ⟨i, hi⟩ := List.mem_iff_getElem?.mp hgroup
    exact ⟨(i, chunk), ⟨(group, i), List.mem_zipIdx_iff_getElem?.mpr hi, chunk, hchunk, rfl⟩, rfl⟩

/-- **The schedule is fair.**  For blocks that the encoder made, repeated `Next` returns every chunk
of every coding group once, first the data chunks and then the parity chunks; and at every moment of
either part two groups with the same parameters have sent the same number of chunks, or one of them
one more. -/
theorem schedule_fair
    (h : List.Forall₂ (fun b encoded => encode c b.1 b.2 = some encoded) blocks encodeds) :
    ∃ data parity, FairOrder (codingGroups c blocks) data parity ∧
      ∀ n, (ChunkScheduler.create encodeds).nextChunks n =
        ((data ++ parity).take n).map scheduled := by
  obtain ⟨data, parity, hfair, hschedule⟩ := exists_fairOrder h
  refine ⟨data, parity, hfair, fun n => ?_⟩
  rw [ChunkScheduler.nextChunks_eq, hschedule, List.map_take]
  rfl

/-- A code for groups whose second data chunk is empty: every other chunk is a copy of the first. -/
def copyCodec : Codec where
  WirehairDecoder := Unit
  cm256EncodeBlock _ originals _ := originals.headD (.zero kFecChunkSize)
  cm256Decode _ chunks :=
    (chunks.find? (·.1 != 1)).map fun chunk => [(0, chunk.2), (1, .zero kFecChunkSize)]
  wirehairEncode _ _ := none
  wirehairDecoderCreate _ := none
  wirehairDecode w _ _ := (.error, w)
  wirehairRecover _ := none

def twoChunks : Parameters := ⟨2, Nat.le_refl 2, by decide⟩

theorem schedule_fair_two :
    ∃ encoded data parity, encode copyCodec twoChunks [7] = some encoded ∧
      FairOrder (codingGroups copyCodec [(twoChunks, [7]), (twoChunks, [7])]) data parity ∧
      ∀ n, (ChunkScheduler.create [encoded, encoded]).nextChunks n =
        ((data ++ parity).take n).map scheduled := by
  have hsome : (encode copyCodec twoChunks [7]).isSome = true := by decide +kernel
  obtain ⟨encoded, h⟩ := Option.isSome_iff_exists.mp hsome
  have hblocks : List.Forall₂ (fun b encoded => encode copyCodec b.1 b.2 = some encoded)
      [(twoChunks, [7]), (twoChunks, [7])] [encoded, encoded] := .cons h (.cons h .nil)
  obtain ⟨data, parity, hfair⟩ := schedule_fair hblocks
  exact ⟨encoded, data, parity, h, hfair⟩

end Qbit.Photon
