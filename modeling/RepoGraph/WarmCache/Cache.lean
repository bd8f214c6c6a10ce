import RepoGraph.Lib.Exec
import RepoGraph.WarmCache.Dto

/-! Cache files: a manifest over an opaque payload, written and validated around `bincode` and SHA-256. -/

namespace RepoGraph.WarmCache

open Lib Ir

def magic : UInt32 := 0x52475743

def schemaVersion : UInt32 := 7

inductive CacheError
  | io (message : String)
  | decode (message : String)
  | convert (message : String)
  | magicMismatch (expected found : UInt32)
  | schemaMismatch (expected found : UInt32)
  | keyMismatch
  | checksumMismatch
  | truncated
  deriving DecidableEq, Repr

structure ProducerFingerprint where
  name : String
  version : String
  deriving DecidableEq, Repr

structure CacheKey where
  repoUid : String
  partitionId : String
  sourceInputsHash : String
  producerFingerprint : ProducerFingerprint
  repoGraphVersion : String
  deriving DecidableEq, Repr

structure CacheManifest where
  magic : UInt32
  schemaVersion : UInt32
  key : CacheKey
  createdAt : UInt64
  contentLength : UInt64
  checksum : String
  deriving DecidableEq, Repr

structure CacheFileEnvelope where
  manifest : CacheManifest
  payload : List UInt8
  deriving DecidableEq, Repr

/-- `bincode::serialize` and `bincode::deserialize` at one type. -/
structure Bincode (T : Type) where
  serialize : T → List UInt8
  deserialize : List UInt8 → Except String T

def Bincode.Undoes {T : Type} (codec : Bincode T) (t : T) : Prop :=
  codec.deserialize (codec.serialize t) = .ok t

section Files

variable {T : Type} (payloads : Bincode T) (files : Bincode CacheFileEnvelope)
variable (sha256Hex : List UInt8 → String)

def validateManifest (manifest : CacheManifest) (payload : List UInt8) (expectedKey : CacheKey) :
    Except CacheError Unit :=
  if manifest.magic ≠ magic then .error (.magicMismatch magic manifest.magic)
  else if manifest.schemaVersion ≠ schemaVersion then
    .error (.schemaMismatch schemaVersion manifest.schemaVersion)
  else if manifest.key ≠ expectedKey then .error .keyMismatch
  else if manifest.contentLength ≠ .ofNat payload.length then .error .truncated
  else if manifest.checksum ≠ sha256Hex payload then .error .checksumMismatch
  else .ok ()

def sealPayload (manifest : CacheManifest) (payload : List UInt8) : CacheFileEnvelope where
  manifest := { manifest with
    magic := magic
    schemaVersion := schemaVersion
    contentLength := .ofNat payload.length
    checksum := sha256Hex payload }
  payload := payload

def encodeTyped (manifest : CacheManifest) (payloadValue : T) : List UInt8 :=
  files.serialize (sealPayload sha256Hex manifest (payloads.serialize payloadValue))

def openEnvelope (fileBytes : List UInt8) (expectedKey : CacheKey) : Except CacheError CacheFileEnvelope := do
  let envelope ← (files.deserialize fileBytes).mapError (fun _ => .truncated)
  validateManifest sha256Hex envelope.manifest envelope.payload expectedKey
  return envelope

def decodeTyped (fileBytes : List UInt8) (expectedKey : CacheKey) : Except CacheError T := do
  let envelope ← openEnvelope files sha256Hex fileBytes expectedKey
  (payloads.deserialize envelope.payload).mapError .decode

def readValidated (bytes : List UInt8) (expectedKey : CacheKey) : Except CacheError (List UInt8) := do
  let _ ← openEnvelope files sha256Hex bytes expectedKey
  return bytes

def peekManifest (bytes : List UInt8) : Except CacheError CacheManifest := do
  let envelope ← (files.deserialize bytes).mapError (fun _ => .truncated)
  if envelope.manifest.magic ≠ magic then throw (.magicMismatch magic envelope.manifest.magic)
  if envelope.manifest.schemaVersion ≠ schemaVersion then
    throw (.schemaMismatch schemaVersion envelope.manifest.schemaVersion)
  return envelope.manifest

end Files

def tryFrom (dto : CachePartitionIrDto) : Except CacheError PartitionIr := .ok dto.intoIr

section Entries

variable (partitions : Bincode CachePartitionIrDto) (valueFacts : Bincode CacheValueFactsDto)
variable (files : Bincode CacheFileEnvelope) (sha256Hex : List UInt8 → String)

def encodePartition (ir : PartitionIr) (manifest : CacheManifest) : List UInt8 :=
  encodeTyped partitions files sha256Hex manifest (.fromIr ir)

def decodePartition (bytes : List UInt8) (expectedKey : CacheKey) : Except CacheError PartitionIr := do
  let dto ← decodeTyped partitions files sha256Hex bytes expectedKey
  tryFrom dto

def encodeValueFacts (facts : List CacheValueFactDto) (manifest : CacheManifest) : List UInt8 :=
  encodeTyped valueFacts files sha256Hex manifest ⟨facts⟩

def decodeValueFacts (bytes : List UInt8) (expectedKey : CacheKey) :
    Except CacheError (List CacheValueFactDto) := do
  let dto ← decodeTyped valueFacts files sha256Hex bytes expectedKey
  return dto.facts

end Entries

end RepoGraph.WarmCache
