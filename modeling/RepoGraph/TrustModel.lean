import RepoGraph.Lib.Exec
import RepoGraph.Lib.Containers

/-! Trust vocabulary: how complete and how fresh an answer is, and why it is not `Exact`. The
envelope constructors refuse every combination of labels that would not be justified. The class
`Partial` is called `incomplete` here. -/

namespace RepoGraph.TrustModel

inductive AnswerClass
  | exact
  | incomplete
  | unavailable
  | stale
  deriving DecidableEq, Repr

inductive Granularity
  | partitionSummary
  | callerDetail
  deriving DecidableEq, Repr

inductive FreshnessState
  | fresh
  | stale
  | precisionPending
  | refreshFailed
  | unavailable
  deriving DecidableEq, Repr

inductive IdentityBasis
  | astAdopted
  | scipSynthesized
  | astFileScope
  | declarationMapExact
  | nameExactUnique
  | rangeNameConfirmed
  | rawAnchored
  deriving DecidableEq, Repr

def IdentityBasis.isScipBacked : IdentityBasis → Bool
  | .astAdopted | .astFileScope => false
  | _ => true

inductive DegradationReason
  | anonymousStructuralMember
  | unreconciledExportSurface
  | ambiguousAlias
  | unresolvedAlias
  | rawAnchoredByFailedNameGuard
  | scipFallbackIdentity
  | unsupportedWorkspaceMode
  | definitionOutsideDocument
  | duplicateCanonicalized
  | producerUnavailable
  | structuralNodeNoCallGraphContent
  deriving DecidableEq, Repr

namespace DegradationReason

def all : List DegradationReason :=
  [.anonymousStructuralMember, .unreconciledExportSurface, .ambiguousAlias, .unresolvedAlias,
    .rawAnchoredByFailedNameGuard, .scipFallbackIdentity, .unsupportedWorkspaceMode,
    .definitionOutsideDocument, .duplicateCanonicalized, .producerUnavailable,
    .structuralNodeNoCallGraphContent]

lemma mem_all (r : DegradationReason) : r ∈ all := by cases r <;> decide

end DegradationReason

inductive LanguageSupport
  | typeScriptPrimary
  | cppGuarded
  | rustPartialBeta
  deriving DecidableEq, Repr

def LanguageSupport.all : List LanguageSupport := [.typeScriptPrimary, .cppGuarded, .rustPartialBeta]

structure ProvenanceBasis where
  packageName : String
  packageVersion : String
  exportPath : Option String
  declarationFile : Option String
  declarationMap : Option String
  sourceFile : Option String
  basis : IdentityBasis
  deriving DecidableEq, Repr

inductive QueryCompleteness
  | complete
  | degraded
  | unknown
  deriving DecidableEq, Repr

inductive QueryGranularity
  | fileReference
  | callGraph
  | symbolOwnership
  | rawObservation
  | referenceIdentity
  | governanceStableIdentity
  deriving DecidableEq, Repr

def basisCompleteFor : IdentityBasis → QueryGranularity → Bool
  | .astAdopted, _ => true
  | .declarationMapExact, .callGraph | .nameExactUnique, .callGraph => true
  | .declarationMapExact, .symbolOwnership | .nameExactUnique, .symbolOwnership => true
  | .declarationMapExact, .referenceIdentity | .nameExactUnique, .referenceIdentity => true
  | .declarationMapExact, .governanceStableIdentity | .nameExactUnique, .governanceStableIdentity => true
  | .rangeNameConfirmed, .callGraph => true
  | .rangeNameConfirmed, .symbolOwnership => true
  | .rangeNameConfirmed, .referenceIdentity => true
  | .astFileScope, .fileReference => true
  | .scipSynthesized, .referenceIdentity => true
  | .rawAnchored, .rawObservation | .rawAnchored, .referenceIdentity => true
  | _, _ => false

structure CompletenessInput where
  granularity : QueryGranularity
  bases : List IdentityBasis
  freshness : FreshnessState
  degradationReasons : List DegradationReason
  language : LanguageSupport

def classifyAnswer (input : CompletenessInput) : AnswerClass × QueryCompleteness :=
  if input.bases.isEmpty ∨ input.freshness = .unavailable then (.unavailable, .unknown)
  else
    let complete := (input.bases.all (basisCompleteFor · input.granularity)) &&
      input.degradationReasons.isEmpty
    match input.freshness with
    | .unavailable => (.unavailable, .unknown)
    | .stale | .refreshFailed => (.stale, .degraded)
    | .precisionPending =>
      let scipDependent := input.bases.any IdentityBasis.isScipBacked
      if complete && !scipDependent then (.exact, .complete) else (.incomplete, .degraded)
    | .fresh => if complete then (.exact, .complete) else (.incomplete, .degraded)

structure NotScipDependent where
  bases : List IdentityBasis
  nonempty : bases ≠ []
  astOnly : ∀ b ∈ bases, b.isScipBacked = false

def NotScipDependent.prove (bases : List IdentityBasis) : Option NotScipDependent :=
  if h : bases ≠ [] ∧ ∀ b ∈ bases, b.isScipBacked = false then some ⟨bases, h.1, h.2⟩ else none

inductive TrustError
  | exactRequiresFresh
  | exactRequiresComplete
  | partialRequiresReasons
  | staleMustNotBeFresh
  | missingContributingLanguages
  deriving DecidableEq, Repr

def Justified (answerClass : AnswerClass) (freshness : FreshnessState)
    (completeness : QueryCompleteness) (hasData : Bool) (reasons : List DegradationReason)
    (missing : List String) (languages : Finset LanguageSupport) : Prop :=
  match answerClass with
  | .exact => (freshness = .fresh ∨ freshness = .precisionPending) ∧ completeness = .complete ∧
      hasData = true ∧ reasons = [] ∧ missing = [] ∧ languages.Nonempty
  | .incomplete => ¬ (freshness = .fresh ∧ reasons = [] ∧ missing = []) ∧ completeness = .degraded ∧
      languages.Nonempty
  | .unavailable => completeness = .unknown ∧ hasData = false ∧ reasons ≠ []
  | .stale => freshness ≠ .fresh ∧ completeness = .degraded ∧ hasData = true ∧ languages.Nonempty

structure AnswerEnvelope (α : Type) where
  answerClass : AnswerClass
  freshness : FreshnessState
  completeness : QueryCompleteness
  data : Option α
  degradationReasons : List DegradationReason
  missingPartitions : List String
  provenance : List ProvenanceBasis
  contributingLanguages : Finset LanguageSupport
  justified : Justified answerClass freshness completeness data.isSome degradationReasons
    missingPartitions contributingLanguages

namespace AnswerEnvelope

variable {α : Type}

def exact (data : α) (completeness : QueryCompleteness) (freshness : FreshnessState)
    (provenance : List ProvenanceBasis) (languages : Finset LanguageSupport) :
    Except TrustError (AnswerEnvelope α) :=
  if hf : freshness ≠ .fresh then .error .exactRequiresFresh
  else if hc : completeness ≠ .complete then .error .exactRequiresComplete
  else if hl : languages = ∅ then .error .missingContributingLanguages
  else .ok ⟨.exact, freshness, completeness, some data, [], [], provenance, languages,
    ⟨Or.inl (not_not.mp hf), not_not.mp hc, rfl, rfl, rfl, Finset.nonempty_iff_ne_empty.mpr hl⟩⟩

def exactPrecisionPending (data : α) (completeness : QueryCompleteness) (_proof : NotScipDependent)
    (provenance : List ProvenanceBasis) (languages : Finset LanguageSupport) :
    Except TrustError (AnswerEnvelope α) :=
  if hc : completeness ≠ .complete then .error .exactRequiresComplete
  else if hl : languages = ∅ then .error .missingContributingLanguages
  else .ok ⟨.exact, .precisionPending, completeness, some data, [], [], provenance, languages,
    ⟨Or.inr rfl, not_not.mp hc, rfl, rfl, rfl, Finset.nonempty_iff_ne_empty.mpr hl⟩⟩

def incomplete (data : Option α) (reasons : List DegradationReason) (missing : List String)
    (freshness : FreshnessState) (provenance : List ProvenanceBasis)
    (languages : Finset LanguageSupport) : Except TrustError (AnswerEnvelope α) :=
  if hj : freshness = .fresh ∧ reasons = [] ∧ missing = [] then .error .partialRequiresReasons
  else if hl : languages = ∅ then .error .missingContributingLanguages
  else .ok ⟨.incomplete, freshness, .degraded, data, reasons, missing, provenance, languages,
    ⟨hj, rfl, Finset.nonempty_iff_ne_empty.mpr hl⟩⟩

def unavailable (reason : DegradationReason) (freshness : FreshnessState)
    (languages : Finset LanguageSupport) : AnswerEnvelope α :=
  ⟨.unavailable, freshness, .unknown, none, [reason], [], [], languages, ⟨rfl, rfl, by simp⟩⟩

def stale (lastGoodData : α) (freshness : FreshnessState) (reasons : List DegradationReason)
    (missing : List String) (provenance : List ProvenanceBasis)
    (languages : Finset LanguageSupport) : Except TrustError (AnswerEnvelope α) :=
  if hf : freshness = .fresh then .error .staleMustNotBeFresh
  else if hl : languages = ∅ then .error .missingContributingLanguages
  else .ok ⟨.stale, freshness, .degraded, some lastGoodData, reasons, missing, provenance, languages,
    ⟨hf, rfl, rfl, Finset.nonempty_iff_ne_empty.mpr hl⟩⟩

end AnswerEnvelope

end RepoGraph.TrustModel
