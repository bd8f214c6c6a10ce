import RepoGraph.Lib.Folds
import RepoGraph.TrustModel

/-! The coherence answer-wrapper and its two folds: the meet of the trust postures, capped by the meet
of the freshness states, and the union of the provenances. -/

namespace RepoGraph.Coherence

open Lib TrustModel

inductive Source
  | livegraph
  | sqlite
  | filesystem
  | declaration
  deriving DecidableEq, Repr

inductive CoherenceFallbackReason
  | liveGraphUnavailable
  | liveGraphPartial
  | liveGraphStale
  | liveGraphUnsupportedLanguage
  | liveGraphRenderUnsupported
  | liveGraphDisplayMetadataUnavailable
  | liveGraphError
  | liveGraphImportRegression
  | liveGraphImportUnknown
  | liveGraphCycleDivergence
  | liveGraphStatsDivergence
  | liveGraphComplexityDivergence
  | liveGraphCallgraphDivergence
  | liveGraphBoundedServeDeclined
  | liveGraphPartitionedViewUnsupported
  | partitionEvidenceUnreadable
  deriving DecidableEq, Repr

@[ext]
structure Provenance where
  source : Finset Source
  basis : List ProvenanceBasis
  missingPartitions : List String
  fallbackReason : Option CoherenceFallbackReason
  deriving DecidableEq

namespace Provenance

def single (source : Source) : Provenance := ⟨{source}, [], [], none⟩

def livegraph : Provenance := single .livegraph

def sqlite : Provenance := single .sqlite

def declaration : Provenance := single .declaration

def filesystem : Provenance := single .filesystem

def sqliteFallback (reason : CoherenceFallbackReason) : Provenance := ⟨{.sqlite}, [], [], some reason⟩

end Provenance

@[ext]
structure TrustPosture where
  answerClass : AnswerClass
  completeness : QueryCompleteness
  degradationReasons : List DegradationReason
  contributingLanguages : Finset LanguageSupport
  deriving DecidableEq

namespace TrustPosture

def fromAnswer {α : Type} (env : AnswerEnvelope α) : TrustPosture :=
  ⟨env.answerClass, env.completeness, env.degradationReasons, env.contributingLanguages⟩

def snapshotExact : TrustPosture := ⟨.exact, .complete, [], ∅⟩

def snapshotStale : TrustPosture := ⟨.stale, .degraded, [], ∅⟩

def resolutionOnly : TrustPosture := ⟨.incomplete, .complete, [], ∅⟩

end TrustPosture

def freshnessRank : FreshnessState → ℕ
  | .unavailable => 0
  | .refreshFailed => 1
  | .stale => 2
  | .precisionPending => 3
  | .fresh => 4

def classRank : AnswerClass → ℕ
  | .unavailable => 0
  | .stale => 1
  | .incomplete => 2
  | .exact => 3

def completenessRank : QueryCompleteness → ℕ
  | .unknown => 0
  | .degraded => 1
  | .complete => 2

def meetFreshness (states : List FreshnessState) : FreshnessState :=
  (minByKey freshnessRank states).getD .unavailable

def meetTrust (postures : List TrustPosture) : TrustPosture :=
  if postures.isEmpty then ⟨.unavailable, .unknown, [], ∅⟩
  else
    { answerClass := (minByKey classRank (postures.map TrustPosture.answerClass)).getD .unavailable
      completeness := (minByKey completenessRank (postures.map TrustPosture.completeness)).getD .unknown
      -- Sorted in the order of declaration, without repetitions.
      degradationReasons :=
        DegradationReason.all.filter (· ∈ postures.flatMap TrustPosture.degradationReasons)
      contributingLanguages := postures.foldl (fun acc p => acc ∪ p.contributingLanguages) ∅ }

def freshnessClassCeiling : FreshnessState → AnswerClass
  | .fresh => .exact
  | .precisionPending => .incomplete
  | .stale | .refreshFailed => .stale
  | .unavailable => .unavailable

def capClass (answerClass : AnswerClass) (freshness : FreshnessState) : AnswerClass :=
  if classRank answerClass > classRank (freshnessClassCeiling freshness) then freshnessClassCeiling freshness
  else answerClass

def capCompleteness (answerClass : AnswerClass) (completeness : QueryCompleteness) : QueryCompleteness :=
  match answerClass with
  | .exact => .complete
  | .incomplete | .stale =>
    if completenessRank completeness > completenessRank .degraded then .degraded else completeness
  | .unavailable => .unknown

def capPosture (posture : TrustPosture) (freshness : FreshnessState) : TrustPosture :=
  let answerClass := capClass posture.answerClass freshness
  { posture with
    answerClass := answerClass
    completeness := capCompleteness answerClass posture.completeness }

def addProvenance (acc p : Provenance) : Provenance where
  source := acc.source ∪ p.source
  basis := nubOnto acc.basis p.basis
  missingPartitions := nubOnto acc.missingPartitions p.missingPartitions
  fallbackReason := acc.fallbackReason.or p.fallbackReason

def unionProvenance (leaves : List Provenance) : Provenance :=
  let union := leaves.foldl addProvenance ⟨∅, [], [], none⟩
  { union with missingPartitions := sortBy compare union.missingPartitions }

structure CoherenceEnvelope (α : Type) where
  value : α
  provenance : Provenance
  trust : TrustPosture
  freshness : FreshnessState

namespace CoherenceEnvelope

variable {α β : Type}

def livegraphLeaf (value : α) (answer : AnswerEnvelope β) : CoherenceEnvelope α :=
  ⟨value, .livegraph, .fromAnswer answer, answer.freshness⟩

def snapshotLeaf (value : α) (provenance : Provenance) (stale : Bool) : CoherenceEnvelope α :=
  if stale then ⟨value, provenance, .snapshotStale, .stale⟩ else ⟨value, provenance, .snapshotExact, .fresh⟩

def sqliteFallbackLeaf (value : α) (reason : CoherenceFallbackReason) (stale : Bool) : CoherenceEnvelope α :=
  snapshotLeaf value (.sqliteFallback reason) stale

def sqliteLeaf (value : α) (stale : Bool) : CoherenceEnvelope α := snapshotLeaf value .sqlite stale

def declarationLeaf (value : α) (stale : Bool) : CoherenceEnvelope α := snapshotLeaf value .declaration stale

def filesystemLeaf (value : α) : CoherenceEnvelope α := ⟨value, .filesystem, .snapshotExact, .fresh⟩

def resolutionOnly (value : α) : CoherenceEnvelope α := ⟨value, .single .sqlite, .resolutionOnly, .fresh⟩

end CoherenceEnvelope

def foldParts {α : Type} (leaves : List (CoherenceEnvelope α)) : Provenance × TrustPosture × FreshnessState :=
  let freshness := meetFreshness (leaves.map CoherenceEnvelope.freshness)
  let trust := capPosture (meetTrust (leaves.map CoherenceEnvelope.trust)) freshness
  (unionProvenance (leaves.map CoherenceEnvelope.provenance), trust, freshness)

def foldRoot {α β : Type} (rootValue : β) (leaves : List (CoherenceEnvelope α)) : CoherenceEnvelope β :=
  let (provenance, trust, freshness) := foldParts leaves
  ⟨rootValue, provenance, trust, freshness⟩

end RepoGraph.Coherence
