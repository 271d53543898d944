import AiArtifactStore.Foundation.PrefixCode
import AiArtifactStore.Metadata.Histories
import AiArtifactStore.Metadata.LayoutArithmetic

/-!
# Canonical encodings

The byte strings that are hashed into version, manifest and layout ids determine
the kind of the value and every field of its identity.
-/

namespace AiArtifactStore.Metadata

open AiArtifactStore.Foundation
open AiArtifactStore.Identity

/-! ## Codes of the parts -/

def FitsU64 (n : Nat) : Prop := n < 256 ^ 8

theorem prefixCode_u64 : PrefixCode FitsU64 (bigEndian 8) := prefixCode_bigEndian 8

theorem prefixCode_contentId : PrefixCode (fun _ : ContentId => True) ContentId.bytes := by
  have hlt : ∀ id : ContentId, id.digest.toNat < 256 ^ 32 := fun id => id.digest.isLt
  exact (prefixCode_bigEndian 32).comap (fun id _ => hlt id) fun _ _ _ _ h => ContentId.ext_toNat h

theorem prefixCode_uuid : PrefixCode (fun _ : UuidV7 => True) UuidV7.bytes := by
  have hlt : ∀ id : UuidV7, id.bits.toNat < 256 ^ 16 := fun id => id.bits.isLt
  refine (prefixCode_bigEndian 16).comap (fun id _ => hlt id) fun a b _ _ h => ?_
  cases a
  cases b
  obtain rfl := BitVec.eq_of_toNat_eq h
  rfl

theorem prefixCode_string : PrefixCode (fun s : String => FitsU64 s.utf8ByteSize) stringBytes := by
  have hcode := (prefixCode_bytes 8).comap (f := fun s : String => s.toUTF8.toList)
    (R := fun s => FitsU64 s.utf8ByteSize) (fun s hs => by rw [length_toUTF8]; exact hs)
    fun _ _ _ _ h => toUTF8_injective h
  intro s t hs ht rest rest' heq
  refine hcode s t hs ht rest rest' ?_
  simpa only [stringBytes, length_toUTF8] using heq

/-! ## Versions -/

def MetadataFits (entries : List (String × String)) : Prop :=
  FitsU64 entries.length ∧
    ∀ entry ∈ entries, FitsU64 entry.1.utf8ByteSize ∧ FitsU64 entry.2.utf8ByteSize

theorem prefixCode_metadata :
    PrefixCode MetadataFits fun entries : List (String × String) =>
      bigEndian 8 entries.length ++
        entries.flatMap fun entry => stringBytes entry.1 ++ stringBytes entry.2 :=
  prefixCode_u64.counted (prefixCode_string.pair prefixCode_string)

theorem prefixCode_parent :
    PrefixCode (fun _ : Option ContentId => True) ArtifactVersion.serializeParent := by
  intro a b _ _ rest rest' heq
  cases a with
  | none =>
      cases b with
      | none => exact ⟨rfl, List.append_cancel_left heq⟩
      | some parent => simp [ArtifactVersion.serializeParent] at heq
  | some parent =>
      cases b with
      | none => simp [ArtifactVersion.serializeParent] at heq
      | some parent' =>
          simp only [ArtifactVersion.serializeParent, List.cons_append, List.cons.injEq, true_and]
            at heq
          obtain ⟨rfl, hrest⟩ := prefixCode_contentId parent parent' trivial trivial _ _ heq
          exact ⟨rfl, hrest⟩

theorem ImmutableMetadata.ext_entries {a b : ImmutableMetadata} (h : a.map.entries = b.map.entries) :
    a = b := by
  obtain ⟨⟨entries, _⟩, _⟩ := a
  obtain ⟨⟨entries', _⟩, _⟩ := b
  obtain rfl : entries = entries' := h
  rfl

def ArtifactVersion.SameIdentity (v w : ArtifactVersion) : Prop :=
  v.artifactId = w.artifactId ∧ v.rootObjectId = w.rootObjectId ∧
    v.parentVersionId = w.parentVersionId ∧ v.immutableMetadata = w.immutableMetadata

theorem ArtifactVersion.sameIdentity_of_canonicalBytes {v w : ArtifactVersion}
    (hv : MetadataFits v.immutableMetadata.map.entries)
    (hw : MetadataFits w.immutableMetadata.map.entries)
    (h : v.canonicalBytes = w.canonicalBytes) : v.SameIdentity w := by
  simp only [canonicalBytes, List.append_assoc] at h
  have h := List.append_cancel_left (List.append_cancel_left h)
  obtain ⟨hartifact, h⟩ := prefixCode_uuid _ _ trivial trivial _ _ h
  obtain ⟨hroot, h⟩ := prefixCode_contentId _ _ trivial trivial _ _ h
  obtain ⟨hparent, h⟩ := prefixCode_parent _ _ trivial trivial _ _ h
  have hmetadata := prefixCode_metadata.injective hv hw h
  exact ⟨hartifact, hroot, hparent, ImmutableMetadata.ext_entries hmetadata⟩

/-! ## Manifests -/

def ManifestFits (entries : List (String × ContentId)) : Prop :=
  FitsU64 entries.length ∧ ∀ entry ∈ entries, FitsU64 entry.1.utf8ByteSize ∧ True

theorem prefixCode_manifestEntries :
    PrefixCode ManifestFits fun entries : List (String × ContentId) =>
      bigEndian 8 entries.length ++
        entries.flatMap fun entry => stringBytes entry.1 ++ entry.2.bytes :=
  prefixCode_u64.counted (prefixCode_string.pair prefixCode_contentId)

theorem Manifest.eq_of_canonicalBytes {m n : Manifest} (hm : ManifestFits m.entries.entries)
    (hn : ManifestFits n.entries.entries) (h : m.canonicalBytes = n.canonicalBytes) : m = n := by
  simp only [canonicalBytes, List.append_assoc] at h
  have h := List.append_cancel_left (List.append_cancel_left h)
  have hentries := prefixCode_manifestEntries.injective hm hn h
  obtain ⟨⟨entries, _⟩, _⟩ := m
  obtain ⟨⟨entries', _⟩, _⟩ := n
  obtain rfl : entries = entries' := hentries
  rfl

/-! ## Layouts -/

theorem fitsU64_of_le {n : Nat} (h : n ≤ uint64Max) : FitsU64 n := by
  have hmax : uint64Max < 256 ^ 8 := by decide
  exact Nat.lt_of_le_of_lt h hmax

def ChunkFits (chunk : ChunkRef) : Prop := FitsU64 chunk.offset ∧ FitsU64 chunk.size

theorem prefixCode_chunk : PrefixCode ChunkFits ObjectLayoutDescriptor.serializeChunk := by
  intro a b ha hb rest rest' heq
  simp only [ObjectLayoutDescriptor.serializeChunk, List.append_assoc] at heq
  obtain ⟨hid, heq⟩ := prefixCode_contentId _ _ trivial trivial _ _ heq
  obtain ⟨hoffset, heq⟩ := prefixCode_u64 _ _ ha.1 hb.1 _ _ heq
  obtain ⟨hsize, hend⟩ := prefixCode_u64 _ _ ha.2 hb.2 _ _ heq
  refine ⟨?_, hend⟩
  cases a
  cases b
  simp only at hid hoffset hsize
  rw [hid, hoffset, hsize]

theorem prefixCode_chunking :
    PrefixCode (fun c : LayoutChunking => c.validate = .ok ()) fun c =>
      [UInt8.ofNat c.strategy.code] ++
        ObjectLayoutDescriptor.serializeParameters c.fastCdcParameters := by
  have hfits : ∀ p : FastCdcParameters, validateFastCdcParameters p = .ok () →
      FitsU64 p.minChunkSizeBytes ∧ FitsU64 p.avgChunkSizeBytes ∧ FitsU64 p.maxChunkSizeBytes := by
    intro p hp
    have hvalid := validateFastCdcParameters_ok.mp hp
    unfold FitsU64
    omega
  have hcode : UInt8.ofNat ChunkingStrategy.fixedSize.code ≠
      UInt8.ofNat ChunkingStrategy.fastCdc.code := by decide
  intro a b ha hb rest rest' heq
  cases a with
  | fixedSize =>
      cases b with
      | fixedSize => exact ⟨rfl, List.append_cancel_left heq⟩
      | fastCdc q => exact absurd (List.cons.inj heq).1 hcode
  | fastCdc p =>
      cases b with
      | fixedSize => exact absurd (List.cons.inj heq).1.symm hcode
      | fastCdc q =>
          obtain ⟨h1, h2, h3⟩ := hfits p ha
          obtain ⟨h1', h2', h3'⟩ := hfits q hb
          simp only [LayoutChunking.strategy, LayoutChunking.fastCdcParameters,
            ObjectLayoutDescriptor.serializeParameters, List.append_assoc] at heq
          have heq := List.append_cancel_left heq
          obtain ⟨hmin, heq⟩ := prefixCode_u64 _ _ h1 h1' _ _ heq
          obtain ⟨havg, heq⟩ := prefixCode_u64 _ _ h2 h2' _ _ heq
          obtain ⟨hmax, hend⟩ := prefixCode_u64 _ _ h3 h3' _ _ heq
          refine ⟨?_, hend⟩
          cases p
          cases q
          simp only at hmin havg hmax
          rw [hmin, havg, hmax]

theorem ObjectLayoutDescriptor.eq_of_canonicalBytes {d e : ObjectLayoutDescriptor}
    (h : d.canonicalBytes = e.canonicalBytes) : d = e := by
  have hchunks : ∀ l : ObjectLayout, FitsU64 l.chunks.length ∧ ∀ c ∈ l.chunks, ChunkFits c := by
    intro l
    have htotal := l.totalSize_le
    refine ⟨fitsU64_of_le (l.length_le_totalSize.trans htotal), fun c hc => ?_⟩
    have hend := ObjectLayout.end_le_totalSize hc
    exact ⟨fitsU64_of_le (by omega), fitsU64_of_le (by omega)⟩
  have htotal : ∀ d : ObjectLayoutDescriptor, FitsU64 d.object.totalSize := fun d =>
    fitsU64_of_le (d.sizeMatches ▸ d.layout.totalSize_le)
  simp only [canonicalBytes, List.append_assoc] at h
  have h := List.append_cancel_left (List.append_cancel_left h)
  obtain ⟨hobject, h⟩ := prefixCode_contentId _ _ trivial trivial _ _ h
  obtain ⟨hchunking, h⟩ := prefixCode_chunking d.chunking e.chunking d.chunkingValid e.chunkingValid
    _ _ (by simpa only [List.append_assoc, chunkingStrategy] using h)
  obtain ⟨hsize, h⟩ := prefixCode_u64 _ _ (htotal d) (htotal e) _ _ h
  have hlayout := (prefixCode_u64.counted prefixCode_chunk).injective (hchunks d.layout)
    (hchunks e.layout) h
  obtain ⟨⟨objectId, totalSize⟩, chunking, ⟨chunks, _⟩, _, _⟩ := d
  obtain ⟨⟨objectId', totalSize'⟩, chunking', ⟨chunks', _⟩, _, _⟩ := e
  obtain rfl : objectId = objectId' := hobject
  obtain rfl : totalSize = totalSize' := hsize
  obtain rfl : chunking = chunking' := hchunking
  obtain rfl : chunks = chunks' := hlayout
  rfl

/-! ## All kinds -/

/-- A value whose canonical bytes are hashed into its id. -/
inductive CanonicalValue where
  | version (version : ArtifactVersion)
  | manifest (manifest : Manifest)
  | layout (descriptor : ObjectLayoutDescriptor)

namespace CanonicalValue

def canonicalBytes : CanonicalValue → List UInt8
  | .version v => v.canonicalBytes
  | .manifest m => m.canonicalBytes
  | .layout d => d.canonicalBytes

def contentId (env : Environment) (value : CanonicalValue) : ContentId :=
  env.contentId value.canonicalBytes

def Constructible : CanonicalValue → Prop
  | .version v => MetadataFits v.immutableMetadata.map.entries
  | .manifest m => ManifestFits m.entries.entries
  | .layout _ => True

def SameIdentity : CanonicalValue → CanonicalValue → Prop
  | .version v, .version w => v.SameIdentity w
  | .manifest m, .manifest n => m.entries = n.entries
  | .layout d, .layout e =>
      d.object = e.object ∧ d.chunking = e.chunking ∧ d.layout.chunks = e.layout.chunks
  | _, _ => False

/-- The character after `AISTORE_`. -/
def kindByte : CanonicalValue → UInt8
  | .version _ => 86
  | .manifest _ => 77
  | .layout _ => 76

theorem getElem?_canonicalBytes (value : CanonicalValue) :
    value.canonicalBytes[8]? = some value.kindByte := by
  cases value with
  | version v => rfl
  | manifest m => rfl
  | layout d => rfl

/-- Equal canonical bytes mean one kind and one identity, so two identities share an
id only through a collision. -/
theorem canonicalBytes_injective {env : Environment} {a b : CanonicalValue}
    (ha : a.Constructible) (hb : b.Constructible) :
    (a.canonicalBytes = b.canonicalBytes → a.SameIdentity b) ∧
      (a.contentId env = b.contentId env → ¬a.SameIdentity b →
        a.canonicalBytes ≠ b.canonicalBytes ∧
          env.sha256 a.canonicalBytes = env.sha256 b.canonicalBytes) := by
  have hinjective : a.canonicalBytes = b.canonicalBytes → a.SameIdentity b := by
    intro h
    have hkind : a.kindByte = b.kindByte := by
      have := congrArg (fun bytes => bytes[8]?) h
      simpa only [getElem?_canonicalBytes, Option.some.injEq] using this
    cases a with
    | version v =>
        cases b with
        | version w => exact ArtifactVersion.sameIdentity_of_canonicalBytes ha hb h
        | manifest n => exact absurd hkind (by simp [kindByte])
        | layout e => exact absurd hkind (by simp [kindByte])
    | manifest m =>
        cases b with
        | version w => exact absurd hkind (by simp [kindByte])
        | manifest n => exact congrArg _ (Manifest.eq_of_canonicalBytes ha hb h)
        | layout e => exact absurd hkind (by simp [kindByte])
    | layout d =>
        cases b with
        | version w => exact absurd hkind (by simp [kindByte])
        | manifest n => exact absurd hkind (by simp [kindByte])
        | layout e =>
            obtain rfl := ObjectLayoutDescriptor.eq_of_canonicalBytes h
            exact ⟨rfl, rfl, rfl⟩
  exact ⟨hinjective, fun hid hdiffer =>
    ⟨fun hbytes => hdiffer (hinjective hbytes), congrArg ContentId.digest hid⟩⟩

theorem canonicalBytes_injective_sample :
    let a := CanonicalValue.version Sample.version
    let b := CanonicalValue.version { Sample.version with parentVersionId := some Sample.versionId }
    (a.canonicalBytes = b.canonicalBytes → a.SameIdentity b) ∧
      (a.contentId Sample.env = b.contentId Sample.env → ¬a.SameIdentity b →
        a.canonicalBytes ≠ b.canonicalBytes ∧
          Sample.env.sha256 a.canonicalBytes = Sample.env.sha256 b.canonicalBytes) :=
  have hfits : MetadataFits Sample.version.immutableMetadata.map.entries :=
    ⟨(by decide : 0 < 256 ^ 8), fun _ h => nomatch h⟩
  canonicalBytes_injective hfits hfits

end CanonicalValue

end AiArtifactStore.Metadata
