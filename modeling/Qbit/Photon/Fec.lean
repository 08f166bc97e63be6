import Qbit.Photon.Protocol
import Mathlib.Data.List.Sort
import Mathlib.Data.List.Induction

/-!
# Forward error correction

`contrib/photon/src/fec.cpp`: a block is cut into coding groups, each group is padded with zeros and
becomes 255 chunks, and the decoder rebuilds a group from some of its chunks.

The two erasure codes (`cm256` for up to 27 data chunks, `wirehair` above) are parameters, a
`Codec`.  What they are trusted for is `CodecCorrect`, and it is only asked for the groups of one
block.
-/

open Bytes

namespace Qbit.Photon.Fec

def FEC_TOTAL_CHUNKS : Nat := 255

def CM256_MAX_DATA_CHUNKS : Nat := 27

/-- The bytes of a chunk. -/
abbrev ChunkBytes := ByteArr kFecChunkSize

/-- `Parameters`, which the source validates wherever they are made. -/
structure Parameters where
  data_chunks : Nat
  two_le : 2 ≤ data_chunks
  lt_total : data_chunks < FEC_TOTAL_CHUNKS
  deriving DecidableEq

namespace Parameters

/-- `Parameters::FromDataChunkCount` -/
def fromDataChunkCount (data_chunks : UInt16) : Option Parameters :=
  if h : 2 ≤ data_chunks.toNat ∧ data_chunks.toNat < FEC_TOTAL_CHUNKS then
    some ⟨data_chunks.toNat, h.1, h.2⟩
  else none

/-- `total_chunks`, which is the same for all parameters. -/
def total_chunks (_ : Parameters) : Nat := FEC_TOTAL_CHUNKS

variable (params : Parameters)

def parity_chunks : Nat := params.total_chunks - params.data_chunks

/-- The bytes of one coding group. -/
def groupPayloadBytes : Nat := params.data_chunks * kFecChunkSize

def useCm256 : Bool := params.data_chunks ≤ CM256_MAX_DATA_CHUNKS

theorem groupPayloadBytes_pos : 0 < params.groupPayloadBytes :=
  Nat.mul_pos (Nat.lt_of_lt_of_le Nat.zero_lt_two params.two_le) (by decide)

theorem fromDataChunkCount_ofNat :
    fromDataChunkCount (UInt16.ofNat params.data_chunks) = some params := by
  have hlt : params.data_chunks < 2 ^ 16 := Nat.lt_trans params.lt_total (by decide)
  have hnat : (UInt16.ofNat params.data_chunks).toNat = params.data_chunks :=
    UInt16.toNat_ofNat_of_lt' hlt
  simp [fromDataChunkCount, hnat, params.two_le, params.lt_total]

end Parameters

@[ext]
structure Chunk where
  coding_group_id : UInt16
  chunk_id : UInt8
  bytes : ChunkBytes
  deriving DecidableEq

inductive WirehairResult where
  | success
  | needMore
  | error
  deriving DecidableEq, Repr

/-- The erasure codes.  A wirehair decoder is a state of its own; an encoder is only ever asked for
the chunks of one payload. -/
structure Codec where
  WirehairDecoder : Type
  cm256EncodeBlock : Nat → List ChunkBytes → UInt8 → ChunkBytes
  cm256Decode : Nat → List (UInt8 × ChunkBytes) → Option (List (UInt8 × ChunkBytes))
  wirehairEncode : List UInt8 → UInt8 → Option (List UInt8)
  wirehairDecoderCreate : Nat → Option WirehairDecoder
  wirehairDecode : WirehairDecoder → UInt8 → ChunkBytes → WirehairResult × WirehairDecoder
  wirehairRecover : WirehairDecoder → Option (List UInt8)

/-- `DivCeil` on `size_t` -/
def divCeil (numerator denominator : Nat) : Nat :=
  ((numerator + denominator - 1) % 2 ^ 64) / denominator

/-- A buffer in memory: none is larger than `PTRDIFF_MAX`. -/
abbrev Buffer := { bs : List UInt8 // bs.length < 2 ^ 63 }

/-! ## The encoder -/

structure EncodedBlock where
  params : Parameters
  original_size : Nat
  coding_group_count : UInt16
  chunks : List Chunk

/-- `BuildGroupPayload` -/
def buildGroupPayload (block : List UInt8) (group_index group_payload_bytes : Nat) : List UInt8 :=
  (ByteArr.ofFront group_payload_bytes (block.drop (group_index * group_payload_bytes))).1

/-- The bytes of a group that the chunk with a number below `data_chunks` carries. -/
def dataChunk (group_payload : List UInt8) (i : Nat) : ChunkBytes :=
  .ofFront kFecChunkSize (group_payload.drop (i * kFecChunkSize))

/-- `originals`, the data chunks of a group. -/
def originals (data_chunks : Nat) (group_payload : List UInt8) : List ChunkBytes :=
  (List.range data_chunks).map (dataChunk group_payload)

/-- A chunk of a group under `cm256`. -/
def cm256Chunk (c : Codec) (data_chunks : Nat) (group_payload : List UInt8) (chunk_id : UInt8) :
    ChunkBytes :=
  if chunk_id.toNat < data_chunks then dataChunk group_payload chunk_id.toNat
  else c.cm256EncodeBlock data_chunks (originals data_chunks group_payload) chunk_id

/-- A chunk of a group under `wirehair`, if the code gives one. -/
def wirehairChunk (c : Codec) (group_payload : List UInt8) (chunk_id : UInt8) : Option ChunkBytes :=
  (c.wirehairEncode group_payload chunk_id).map (ByteArr.ofFront kFecChunkSize)

variable (c : Codec) (params : Parameters)

/-- A chunk of a group. -/
def encodeChunk (group_payload : List UInt8) (chunk_id : UInt8) : Option ChunkBytes :=
  if params.useCm256 then some (cm256Chunk c params.data_chunks group_payload chunk_id)
  else wirehairChunk c group_payload chunk_id

/-- `AppendCm256Chunks` and `AppendWirehairChunks`: the chunks of one group. -/
def groupChunks (group_id : UInt16) (group_payload : List UInt8) : Option (List Chunk) :=
  (List.range FEC_TOTAL_CHUNKS).mapM fun chunk_id => do
    let bytes ← encodeChunk c params group_payload (UInt8.ofNat chunk_id)
    return { coding_group_id := group_id, chunk_id := UInt8.ofNat chunk_id, bytes := bytes }

/-- `Encoder::Encode`; nothing where the source throws. -/
def encode (block : List UInt8) : Option EncodedBlock :=
  if block.isEmpty then
    some { params := params, original_size := 0, coding_group_count := 0, chunks := [] }
  else
    let group_payload_bytes := params.groupPayloadBytes
    let group_count := divCeil block.length group_payload_bytes
    if group_count > 0xffff then none
    else do
      let chunks ← (List.range group_count).mapM fun group_index =>
        groupChunks c params (UInt16.ofNat group_index)
          (buildGroupPayload block group_index group_payload_bytes)
      return { params := params
               original_size := block.length
               coding_group_count := UInt16.ofNat group_count
               chunks := chunks.flatten }

/-! ## The decoder -/

/-- `GroupState`, with the bytes of a chunk beside its id. -/
structure GroupState (c : Codec) where
  seen : List UInt8 := []
  chunks : List (UInt8 × ChunkBytes) := []
  decoded_bytes : List UInt8 := []
  complete : Bool := false
  codec : Option c.WirehairDecoder := none

structure Decoder (c : Codec) where
  params : Parameters
  original_size : Nat
  groups : List (GroupState c)

variable {c : Codec}

/-- The constructor of a decoder; nothing where the source throws. -/
def Decoder.create (c : Codec) (params : Parameters) (original_size : Nat) : Option (Decoder c) :=
  if original_size = 0 then
    some { params := params, original_size := original_size, groups := [] }
  else
    let group_count := divCeil original_size params.groupPayloadBytes
    if group_count > 0xffff then none
    else if params.useCm256 then
      some { params := params
             original_size := original_size
             groups := List.replicate group_count {} }
    else do
      let codec ← c.wirehairDecoderCreate params.groupPayloadBytes
      return { params := params
               original_size := original_size
               groups := List.replicate group_count { codec := some codec } }

/-- The blocks of a decoded window, in the order of their numbers. -/
def sortBlocks (blocks : List (UInt8 × ChunkBytes)) : List (UInt8 × ChunkBytes) :=
  blocks.insertionSort fun left right => left.1 ≤ right.1

/-- The loop of `TryCompleteCm256Group` over the windows that are left. -/
def tryWindows (params : Parameters) (group : GroupState c) : List Nat → Bool × GroupState c
  | [] => (false, group)
  | window_start :: windows =>
    match c.cm256Decode params.data_chunks
        ((group.chunks.drop window_start).take params.data_chunks) with
    | none => tryWindows params group windows
    | some blocks =>
      let sorted := sortBlocks blocks
      if sorted.map (·.1.toNat) ≠ List.range params.data_chunks then (false, group)
      else
        (true,
          { group with
            decoded_bytes := sorted.flatMap (·.2.1)
            chunks := []
            complete := true })

/-- `TryCompleteCm256Group` -/
def tryCompleteCm256Group (params : Parameters) (group : GroupState c) : Bool × GroupState c :=
  if group.complete then (true, group)
  else if group.chunks.length < params.data_chunks then (true, group)
  else
    tryWindows params group (List.range (group.chunks.length - params.data_chunks + 1))

/-- `AddChunk`, in the group of the chunk. -/
def GroupState.addChunk (params : Parameters) (group : GroupState c) (chunk_id : UInt8)
    (bytes : ChunkBytes) : Bool × GroupState c :=
  if group.complete then (true, group)
  else if group.seen.contains chunk_id then (true, group)
  else
    let group := { group with seen := group.seen ++ [chunk_id] }
    if params.useCm256 then
      let group := { group with chunks := group.chunks ++ [(chunk_id, bytes)] }
      if group.chunks.length ≥ params.data_chunks then tryCompleteCm256Group params group
      else (true, group)
    else
      match group.codec with
      | none => (false, group)
      | some codec =>
        let (result, codec) := c.wirehairDecode codec chunk_id bytes
        let group := { group with codec := some codec }
        match result with
        | .success => (true, { group with complete := true })
        | .needMore => (true, group)
        | .error => (false, group)

variable (decoder : Decoder c)

/-- `AddChunk` -/
def Decoder.addChunk (chunk : Chunk) : Bool × Decoder c :=
  match decoder.groups[chunk.coding_group_id.toNat]? with
  | none => (false, decoder)
  | some group =>
    if FEC_TOTAL_CHUNKS ≤ chunk.chunk_id.toNat then (false, decoder)
    else
      let (ok, group) := group.addChunk decoder.params chunk.chunk_id chunk.bytes
      (ok, { decoder with groups := decoder.groups.set chunk.coding_group_id.toNat group })

/-- `IsComplete` -/
def Decoder.isComplete : Bool := decoder.groups.all (·.complete)

/-- The bytes of a complete group. -/
def GroupState.recovered (params : Parameters) (group : GroupState c) : Option (List UInt8) :=
  if params.useCm256 then
    if group.decoded_bytes.length ≠ params.groupPayloadBytes then none
    else some group.decoded_bytes
  else group.codec.bind c.wirehairRecover

/-- The loop of `Reconstruct` over the groups that are left, with the bytes that are left. -/
def gather (params : Parameters) : List (GroupState c) → Nat → Option (List UInt8)
  | [], _ => some []
  | group :: groups, left => do
    let source ← group.recovered params
    let rest ← gather params groups (left - params.groupPayloadBytes)
    return source.take (min params.groupPayloadBytes left) ++ rest

/-- `Reconstruct` -/
def Decoder.reconstruct : Option (List UInt8) :=
  if !decoder.isComplete then none
  else gather decoder.params decoder.groups decoder.original_size

end Qbit.Photon.Fec
