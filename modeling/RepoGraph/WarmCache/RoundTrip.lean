import RepoGraph.WarmCache.Layout

/-! What is read back from a cache file is what was written, under its own key only, and only from a
payload that its header describes. -/

namespace RepoGraph.WarmCache

open Lib Ir

structure HeaderMatches (sha256Hex : List UInt8 → String) (envelope : CacheFileEnvelope) (key : CacheKey) :
    Prop where
  magic : envelope.manifest.magic = magic
  schemaVersion : envelope.manifest.schemaVersion = schemaVersion
  key : envelope.manifest.key = key
  contentLength : envelope.manifest.contentLength = .ofNat envelope.payload.length
  checksum : envelope.manifest.checksum = sha256Hex envelope.payload

section Typed

variable {T : Type} {payloads : Bincode T} {files : Bincode CacheFileEnvelope}
variable {sha256Hex : List UInt8 → String}

lemma mapError_ok {ε ε' α : Type} {x : Except ε α} {f : ε → ε'} {a : α} :
    x.mapError f = .ok a ↔ x = .ok a := by
  cases x <;> simp [Except.mapError]

lemma check_ok {p : Prop} [Decidable p] {e : CacheError} {x : Except CacheError Unit} :
    (if p then .error e else x) = .ok () ↔ ¬ p ∧ x = .ok () := by
  by_cases hp : p <;> simp [hp]

lemma validateManifest_ok {envelope : CacheFileEnvelope} {key : CacheKey} :
    validateManifest sha256Hex envelope.manifest envelope.payload key = .ok () ↔
      HeaderMatches sha256Hex envelope key := by
  simp only [validateManifest, check_ok, ne_eq, not_not]
  constructor
  · rintro ⟨hmagic, hschema, hkey, hlength, hchecksum, -⟩
    exact ⟨hmagic, hschema, hkey, hlength, hchecksum⟩
  · rintro ⟨hmagic, hschema, hkey, hlength, hchecksum⟩
    exact ⟨hmagic, hschema, hkey, hlength, hchecksum, trivial⟩

lemma openEnvelope_ok {bytes : List UInt8} {key : CacheKey} {envelope : CacheFileEnvelope} :
    openEnvelope files sha256Hex bytes key = .ok envelope ↔
      files.deserialize bytes = .ok envelope ∧ HeaderMatches sha256Hex envelope key := by
  simp only [openEnvelope, bind_ok, mapError_ok]
  constructor
  · rintro ⟨envelope', hfile, ⟨⟩, hvalid, hpure⟩
    obtain rfl := Except.ok.inj hpure
    exact ⟨hfile, validateManifest_ok.mp hvalid⟩
  · rintro ⟨hfile, hmatches⟩
    exact ⟨envelope, hfile, (), validateManifest_ok.mpr hmatches, rfl⟩

lemma decodeTyped_ok {bytes : List UInt8} {key : CacheKey} {t : T} :
    decodeTyped payloads files sha256Hex bytes key = .ok t ↔ ∃ envelope,
      files.deserialize bytes = .ok envelope ∧ HeaderMatches sha256Hex envelope key ∧
        payloads.deserialize envelope.payload = .ok t := by
  simp only [decodeTyped, bind_ok, openEnvelope_ok, mapError_ok, and_assoc]

lemma sealPayload_matches (manifest : CacheManifest) (payload : List UInt8) :
    HeaderMatches sha256Hex (sealPayload sha256Hex manifest payload) manifest.key :=
  ⟨rfl, rfl, rfl, rfl, rfl⟩

lemma decodeTyped_encodeTyped {manifest : CacheManifest} {t : T} (hpayload : payloads.Undoes t)
    (hfile : files.Undoes (sealPayload sha256Hex manifest (payloads.serialize t))) :
    decodeTyped payloads files sha256Hex (encodeTyped payloads files sha256Hex manifest t) manifest.key =
      .ok t :=
  decodeTyped_ok.mpr ⟨_, hfile, sealPayload_matches manifest _, hpayload⟩

lemma decodeTyped_wrong_key {manifest : CacheManifest} {t : T} {key : CacheKey} (hkey : key ≠ manifest.key)
    (hfile : files.Undoes (sealPayload sha256Hex manifest (payloads.serialize t))) :
    decodeTyped payloads files sha256Hex (encodeTyped payloads files sha256Hex manifest t) key =
      .error .keyMismatch := by
  have hopen : openEnvelope files sha256Hex (encodeTyped payloads files sha256Hex manifest t) key =
      .error .keyMismatch := by
    rw [openEnvelope, encodeTyped, hfile]
    simp [validateManifest, sealPayload, Except.mapError, bind, Except.bind, hkey.symm]
  rw [decodeTyped, hopen]
  rfl

lemma peekManifest_encodeTyped {manifest : CacheManifest} {t : T}
    (hfile : files.Undoes (sealPayload sha256Hex manifest (payloads.serialize t))) :
    ∃ found, peekManifest files (encodeTyped payloads files sha256Hex manifest t) = .ok found ∧
      found.key = manifest.key := by
  refine ⟨(sealPayload sha256Hex manifest (payloads.serialize t)).manifest, ?_, rfl⟩
  rw [peekManifest, encodeTyped, hfile]
  rfl

end Typed

section Entries

variable (partitions : Bincode CachePartitionIrDto) (valueFacts : Bincode CacheValueFactsDto)
variable (files : Bincode CacheFileEnvelope) (sha256Hex : List UInt8 → String)

lemma decodePartition_ok {bytes : List UInt8} {key : CacheKey} {ir : PartitionIr} :
    decodePartition partitions files sha256Hex bytes key = .ok ir ↔ ∃ envelope dto,
      files.deserialize bytes = .ok envelope ∧ HeaderMatches sha256Hex envelope key ∧
        partitions.deserialize envelope.payload = .ok dto ∧ dto.intoIr = ir := by
  simp only [decodePartition, bind_ok, decodeTyped_ok, tryFrom, Except.ok.injEq]
  constructor
  · rintro ⟨dto, ⟨envelope, hfile, hmatches, hpayload⟩, hir⟩
    exact ⟨envelope, dto, hfile, hmatches, hpayload, hir⟩
  · rintro ⟨envelope, dto, hfile, hmatches, hpayload, hir⟩
    exact ⟨dto, ⟨envelope, hfile, hmatches, hpayload⟩, hir⟩

lemma decodePartition_encodePartition {ir : PartitionIr} {manifest : CacheManifest}
    (hpayload : partitions.Undoes (.fromIr ir))
    (hfile : files.Undoes (sealPayload sha256Hex manifest (partitions.serialize (.fromIr ir)))) :
    decodePartition partitions files sha256Hex (encodePartition partitions files sha256Hex ir manifest)
      manifest.key = .ok ir := by
  rw [decodePartition, encodePartition, decodeTyped_encodeTyped hpayload hfile, ok_bind, tryFrom,
    CachePartitionIrDto.intoIr_fromIr]

/-- A partition is read back as it was written where deserializing undoes what the file went through, under
any other key it is refused, and nothing is read from a file whose header does not describe its payload. -/
theorem cache_round_trip :
    (∀ ir manifest, partitions.Undoes (.fromIr ir) →
        files.Undoes (sealPayload sha256Hex manifest (partitions.serialize (.fromIr ir))) →
      decodePartition partitions files sha256Hex (encodePartition partitions files sha256Hex ir manifest)
          manifest.key = .ok ir ∧
        ∀ key, key ≠ manifest.key →
          decodePartition partitions files sha256Hex (encodePartition partitions files sha256Hex ir manifest)
            key = .error .keyMismatch) ∧
      ∀ bytes key ir, decodePartition partitions files sha256Hex bytes key = .ok ir → ∃ envelope dto,
        files.deserialize bytes = .ok envelope ∧ HeaderMatches sha256Hex envelope key ∧
          partitions.deserialize envelope.payload = .ok dto ∧ dto.intoIr = ir := by
  refine ⟨?_, fun bytes key ir => (decodePartition_ok partitions files sha256Hex).mp⟩
  intro ir manifest hpayload hfile
  refine ⟨decodePartition_encodePartition partitions files sha256Hex hpayload hfile, ?_⟩
  intro key hkey
  rw [decodePartition, encodePartition, decodeTyped_wrong_key hkey hfile]
  rfl

lemma decodeValueFacts_encodeValueFacts {facts : List CacheValueFactDto} {manifest : CacheManifest}
    (hpayload : valueFacts.Undoes ⟨facts⟩)
    (hfile : files.Undoes (sealPayload sha256Hex manifest (valueFacts.serialize ⟨facts⟩))) :
    decodeValueFacts valueFacts files sha256Hex (encodeValueFacts valueFacts files sha256Hex facts manifest)
      manifest.key = .ok facts := by
  rw [decodeValueFacts, encodeValueFacts, decodeTyped_encodeTyped hpayload hfile]
  rfl

end Entries

section Layouts

def partitionCodec : Bincode CachePartitionIrDto := .ofWire Layout.partitionIr

def fileCodec : Bincode CacheFileEnvelope := .ofWire Layout.fileEnvelope

lemma payload_length_le (envelope : CacheFileEnvelope) :
    envelope.payload.length ≤ (fileCodec.serialize envelope).length := by
  have hcount := Wire.byte.length_le_flatMap envelope.payload
  simp only [fileCodec, Bincode.ofWire, Layout.fileEnvelope, Wire.through, Wire.pair, Wire.list,
    List.length_append]
  omega

lemma layout_undoes {sha256Hex : List UInt8 → String} {ir : PartitionIr} {manifest : CacheManifest}
    (hsize : (encodePartition partitionCodec fileCodec sha256Hex ir manifest).length < 2 ^ 64) :
    partitionCodec.Undoes (.fromIr ir) ∧
      fileCodec.Undoes (sealPayload sha256Hex manifest (partitionCodec.serialize (.fromIr ir))) := by
  have hpayload := payload_length_le (sealPayload sha256Hex manifest (partitionCodec.serialize (.fromIr ir)))
  exact ⟨Bincode.ofWire_undoes (lt_of_le_of_lt hpayload hsize), Bincode.ofWire_undoes hsize⟩

theorem layout_round_trip (sha256Hex : List UInt8 → String) (ir : PartitionIr) (manifest : CacheManifest)
    (hsize : (encodePartition partitionCodec fileCodec sha256Hex ir manifest).length < 2 ^ 64) :
    decodePartition partitionCodec fileCodec sha256Hex
      (encodePartition partitionCodec fileCodec sha256Hex ir manifest) manifest.key = .ok ir := by
  obtain ⟨hpayload, hfile⟩ := layout_undoes hsize
  exact decodePartition_encodePartition partitionCodec fileCodec sha256Hex hpayload hfile

end Layouts

namespace Fixture

open Ir.Fixture

def key : CacheKey := ⟨"repo", "engine", "h", ⟨"scip-typescript", "0.4.0"⟩, "0.1.0"⟩

def manifest : CacheManifest := ⟨0, 0, key, 1700000000, 0, ""⟩

def digest (_ : List UInt8) : String := "232cfaa10bb51276e186d8c743d20d345e77a8fc624b7cbc54c0c4819e00eef0"

end Fixture

open Fixture Ir.Fixture in
theorem cache_round_trip_engine :
    decodePartition partitionCodec fileCodec digest
      (encodePartition partitionCodec fileCodec digest engine manifest) key = .ok engine := by
  have hsize : (encodePartition partitionCodec fileCodec digest engine manifest).length < 2 ^ 64 := by
    decide +kernel
  obtain ⟨hpayload, hfile⟩ := layout_undoes hsize
  exact ((cache_round_trip partitionCodec fileCodec digest).1 engine manifest hpayload hfile).1

end RepoGraph.WarmCache
