import AiArtifactStore.Wire.LayoutJson

/-!
# Fields of JSON objects

What it means that a member of an object is present and reads as a value of its
type and range, whichever way a decoder checks it.
-/

namespace AiArtifactStore.Wire

open AiArtifactStore.Foundation
open AiArtifactStore.Foundation.Json
open AiArtifactStore.Identity
open AiArtifactStore.Metadata

def asContentId? (value : Json) : Option ContentId := value.asString?.bind ContentId.ofHex?

def asUuid? (value : Json) : Option UuidV7 :=
  value.asString?.bind fun text => (UuidV7.parse text).toOption

def asPort? (value : Json) : Option Nat :=
  (extractPositiveUint64 value).filter fun port => port ≤ 65535

def asFactor? (value : Json) : Option Nat :=
  (extractPositiveUint64 value).filter fun factor => factor ≤ 8

def Reads {α : Type} (members : Members) (key : String) (as? : Json → Option α) (value : α) :
    Prop :=
  (members.lookup key).bind as? = some value

/-- The field is an array whose elements read as the values. -/
def ReadsEach {α : Type} (members : Members) (key : String) (read : Json → α → Prop)
    (values : List α) : Prop :=
  ∃ entries, Reads members key asArray? entries ∧ List.Forall₂ read entries values

def ReadsEndpoint (entry : Json) (endpoint : NodeEndpoint) : Prop :=
  ∃ members, entry.asObject? = some members ∧ Reads members "node_id" asString? endpoint.nodeId ∧
    Reads members "address" asString? endpoint.address ∧
    Reads members "port" asPort? endpoint.port

def ReadsText (entry : Json) (text : String) : Prop := entry.asString? = some text

def ReadsChunkRef (entry : Json) (chunk : ChunkRef) : Prop :=
  ∃ members, entry.asObject? = some members ∧
    Reads members "chunk_id" asContentId? chunk.chunkId ∧
    Reads members "offset" extractNonnegativeUint64 chunk.offset ∧
    Reads members "size_bytes" extractPositiveUint64 chunk.size

def ReadsStats (members : Members) (stats : ReplicationStats) : Prop :=
  Reads members "chunks_scanned" extractNonnegativeUint64 stats.chunksScanned ∧
    Reads members "chunks_under_replicated" extractNonnegativeUint64
      stats.chunksUnderReplicated ∧
    Reads members "replicas_verified" extractNonnegativeUint64 stats.replicasVerified ∧
    Reads members "replicas_written" extractNonnegativeUint64 stats.replicasWritten ∧
    Reads members "bytes_copied" extractNonnegativeUint64 stats.bytesCopied ∧
    Reads members "source_failovers" extractNonnegativeUint64 stats.sourceFailovers

theorem Reads.unique {α : Type} {members : Members} {key : String} {as? : Json → Option α}
    {value value' : α} (h : Reads members key as? value) (h' : Reads members key as? value') :
    value = value' :=
  Option.some.inj (h.symm.trans h')

theorem reads_iff {α β : Type} {members : Members} {key : String} {as? : Json → Option α}
    {make? : α → Option β} {value : β} :
    Reads members key (fun json => (as? json).bind make?) value ↔
      ∃ raw, Reads members key as? raw ∧ make? raw = some value := by
  simp only [Reads, ← Option.bind_assoc, Option.bind_eq_some_iff (f := make?)]

theorem reads_filter_iff {α : Type} {members : Members} {key : String} {as? : Json → Option α}
    {valid : α → Bool} {value : α} :
    Reads members key (fun json => (as? json).filter valid) value ↔
      Reads members key as? value ∧ valid value = true := by
  rw [Reads, Reads]
  cases members.lookup key with
  | none => simp
  | some raw => simp [Option.filter_eq_some_iff]

theorem reads_some {α : Type} {members : Members} {key : String} {as? : Json → Option α}
    {raw : Json} {value : α} (hraw : Reads members key some raw)
    (hvalue : Reads members key as? value) : as? raw = some value := by
  rw [Reads, Option.bind_fun_some] at hraw
  rwa [Reads, hraw, Option.bind_some] at hvalue

end AiArtifactStore.Wire
