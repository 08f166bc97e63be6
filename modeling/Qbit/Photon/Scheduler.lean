import Qbit.Photon.Fec

/-!
# The order in which chunks are sent

`contrib/photon/src/scheduler.cpp`: the chunks are sorted into their groups and then sent round by
round, the data chunks of all groups before the parity chunks, so that all groups fill up together.
-/

namespace Qbit.Photon

open Fec

structure ScheduledChunk where
  group_idx : UInt16
  chunk : Chunk
  deriving DecidableEq

/-! ## Sorting the chunks into groups -/

structure GroupData where
  data_chunks : Nat := 0
  total_chunks : Nat := 0
  chunks_by_id : List (Option Chunk) := []

/-- `groups_by_id` -/
abbrev GroupsById := Std.TreeMap UInt16 GroupData

/-- The group of a chunk, made when its first chunk comes. -/
def groupFor (params : Parameters) (groups_by_id : GroupsById) (coding_group_id : UInt16) :
    GroupData :=
  let group := groups_by_id[coding_group_id]?.getD {}
  if group.chunks_by_id.isEmpty then
    { data_chunks := params.data_chunks
      total_chunks := params.total_chunks
      chunks_by_id := List.replicate params.total_chunks none }
  else group

/-- The body of the loop of `FlattenGroups` over the chunks of a block. -/
def placeChunk (params : Parameters) (groups_by_id : GroupsById) (chunk : Chunk) : GroupsById :=
  if params.total_chunks ≤ chunk.chunk_id.toNat then groups_by_id
  else
    let group := groupFor params groups_by_id chunk.coding_group_id
    groups_by_id.insert chunk.coding_group_id
      { group with chunks_by_id := group.chunks_by_id.set chunk.chunk_id.toNat (some chunk) }

/-- `FlattenGroups` -/
def flattenGroups (encoded_blocks : List EncodedBlock) : List GroupData :=
  encoded_blocks.flatMap fun encoded =>
    if encoded.params.total_chunks = 0 then []
    else (encoded.chunks.foldl (placeChunk encoded.params) ∅).toList.map (·.2)

/-! ## The schedule -/

/-- The data chunk of a group in a round. -/
def GroupData.dataAt (data_idx : Nat) (group : GroupData) : Option Chunk :=
  if group.data_chunks ≤ data_idx ∨ group.chunks_by_id.length ≤ data_idx then none
  else group.chunks_by_id[data_idx]?.join

/-- The parity chunk of a group in a round. -/
def GroupData.parityAt (parity_idx : Nat) (group : GroupData) : Option Chunk :=
  let chunk_id := group.data_chunks + parity_idx
  if group.total_chunks ≤ chunk_id ∨ group.chunks_by_id.length ≤ chunk_id then none
  else group.chunks_by_id[chunk_id]?.join

/-- One round over all groups. -/
def sendRound (groups : List GroupData) (pick : GroupData → Option Chunk) : List ScheduledChunk :=
  (groups.mapIdx fun group_idx group =>
    (pick group).map fun chunk => ScheduledChunk.mk (UInt16.ofNat group_idx) chunk).filterMap id

/-- The largest value over the groups. -/
def maxOver (f : GroupData → Nat) (groups : List GroupData) : Nat :=
  groups.foldl (fun largest group => max largest (f group)) 0

structure ChunkScheduler where
  m_schedule : List ScheduledChunk := []
  m_cursor : Nat := 0
  deriving DecidableEq

namespace ChunkScheduler

/-- The constructor.  Where a group has fewer chunks than data chunks it counts for no parity round,
as the difference of naturals does. -/
def create (groups : List EncodedBlock) : ChunkScheduler :=
  let flattened_groups := flattenGroups groups
  let max_data_chunks := maxOver (·.data_chunks) flattened_groups
  let max_parity_chunks := maxOver (fun group => group.total_chunks - group.data_chunks)
    flattened_groups
  { m_schedule :=
      (List.range max_data_chunks).flatMap
          (fun data_idx => sendRound flattened_groups (·.dataAt data_idx)) ++
        (List.range max_parity_chunks).flatMap
          (fun parity_idx => sendRound flattened_groups (·.parityAt parity_idx)) }

/-- `Next` -/
def next (scheduler : ChunkScheduler) : Option (ScheduledChunk × ChunkScheduler) :=
  match scheduler.m_schedule[scheduler.m_cursor]? with
  | none => none
  | some chunk => some (chunk, { scheduler with m_cursor := scheduler.m_cursor + 1 })

end ChunkScheduler

end Qbit.Photon
