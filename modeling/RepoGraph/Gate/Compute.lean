import RepoGraph.Indexer.Types
import RepoGraph.Lib.IterMap

/-! The gate: obligations judged on evidence that was fetched for them, waivers laid over the verdicts, and
the reduction of all verdicts to one outcome. -/

namespace RepoGraph.Gate

open Lib
open Indexer (Json)

/-- The numbers of the gate: the arithmetic and the comparisons of `f64`, and their JSON form. -/
class GateNumber (φ : Type) where
  asF64 : String → φ
  asI64 : String → Option ℤ
  toJson : φ → Json
  zero : φ
  negInfinity : φ
  sum : List φ → φ
  divBy : φ → ℕ → φ
  roundToFour : φ → φ
  max : φ → φ → φ
  ge : φ → φ → Bool
  gt : φ → φ → Bool
  le : φ → φ → Bool
  lt : φ → φ → Bool
  near : φ → φ → Bool

inductive GateMethod
  | archViolations
  | coverageThreshold
  | complexityThreshold
  | hotspotThreshold
  | moduleViolations
  | unsupported
  deriving DecidableEq, Repr

def GateMethod.ofStr : String → GateMethod
  | "arch_violations" => .archViolations
  | "coverage_threshold" => .coverageThreshold
  | "complexity_threshold" => .complexityThreshold
  | "hotspot_threshold" => .hotspotThreshold
  | "module_violations" => .moduleViolations
  | _ => .unsupported

structure GateObligation (φ : Type) where
  obligationId : String
  obligation : String
  method : String
  target : Option String
  threshold : Option φ
  operator : Option String

structure GateRequirement (φ : Type) where
  reqId : String
  version : ℤ
  obligations : List (GateObligation φ)

structure GateBoundaryDeclaration where
  boundaryModule : String
  forbids : String
  reason : Option String

structure GateImportEdge where
  sourceFile : String
  targetFile : String

structure GateNotJudgedRelation where
  sourceModule : String
  targetModule : String
  importCount : ℕ

structure GateModuleViolationEvidence where
  violationsCount : ℕ
  staleDeclarationsCount : ℕ
  inferredNotJudged : List GateNotJudgedRelation

structure GateWaiver where
  waiverUid : String
  reason : String
  createdAt : String
  createdBy : Option String
  expiresAt : Option String
  rationaleCategory : Option String
  policyBasis : Option String

structure InferredImportsNotJudged where
  count : ℕ
  files : List String

structure PolicyMeasurement (φ : Type) where
  targetStableKey : String
  value : φ

inductive MethodEvidence (φ : Type)
  | archViolations (target : String) (perBoundaryCounts : List (String × ℕ)) (hasAnyBoundaryForTarget : Bool)
      (perBoundaryInferred : List (String × InferredImportsNotJudged))
  | coverageThreshold (target : String) (matchingMeasurements : List (PolicyMeasurement φ))
  | complexityThreshold (target : String) (matchingMeasurements : List (PolicyMeasurement φ))
  | hotspotThreshold (target : Option String) (matchingInferences : List (PolicyMeasurement φ))
  | moduleViolations (evidence : GateModuleViolationEvidence)
  | targetMissing
  | thresholdMissing
  | unsupportedMethod

structure ObligationKey where
  reqId : String
  reqVersion : ℤ
  obligationId : String
  deriving DecidableEq, Repr

inductive Verdict
  | pass
  | fail
  | missingEvidence
  | unsupported
  deriving DecidableEq, Repr

inductive EffectiveVerdict
  | pass
  | fail
  | missingEvidence
  | unsupported
  | waived
  deriving DecidableEq, Repr

def Verdict.effective : Verdict → EffectiveVerdict
  | .pass => .pass
  | .fail => .fail
  | .missingEvidence => .missingEvidence
  | .unsupported => .unsupported

inductive GateMode
  | default
  | strict
  | advisory
  deriving DecidableEq, Repr

def GateMode.asStr : GateMode → String
  | .default => "default"
  | .strict => "strict"
  | .advisory => "advisory"

inductive GateAssessmentState
  | present
  | missing
  deriving DecidableEq, Repr

def GateAssessmentState.asStr : GateAssessmentState → String
  | .present => "present"
  | .missing => "missing"

inductive GateQualityPolicyKind
  | absoluteMax
  | absoluteMin
  | noNew
  | noWorsened
  deriving DecidableEq, Repr

def GateQualityPolicyKind.asStr : GateQualityPolicyKind → String
  | .absoluteMax => "absolute_max"
  | .absoluteMin => "absolute_min"
  | .noNew => "no_new"
  | .noWorsened => "no_worsened"

def GateQualityPolicyKind.isComparative : GateQualityPolicyKind → Bool
  | .noNew | .noWorsened => true
  | .absoluteMax | .absoluteMin => false

inductive GateQualityPolicySeverity
  | fail
  | advisory
  deriving DecidableEq, Repr

def GateQualityPolicySeverity.asStr : GateQualityPolicySeverity → String
  | .fail => "fail"
  | .advisory => "advisory"

inductive GateAssessmentVerdict
  | pass
  | fail
  | notApplicable
  | notComparable
  deriving DecidableEq, Repr

def GateAssessmentVerdict.asStr : GateAssessmentVerdict → String
  | .pass => "PASS"
  | .fail => "FAIL"
  | .notApplicable => "NOT_APPLICABLE"
  | .notComparable => "NOT_COMPARABLE"

structure GateQualityAssessmentFact where
  policyId : String
  policyVersion : ℤ
  policyKind : GateQualityPolicyKind
  severity : GateQualityPolicySeverity
  assessmentState : GateAssessmentState
  computedVerdict : Option GateAssessmentVerdict
  violationsCount : Option ℕ

structure GateQualityAssessmentEvaluation where
  policyId : String
  policyVersion : ℤ
  policyKind : String
  severity : String
  assessmentState : String
  computedVerdict : Option String
  isComparative : Bool
  violationsCount : Option ℕ

def GateQualityAssessmentFact.evaluation (fact : GateQualityAssessmentFact) : GateQualityAssessmentEvaluation :=
  { policyId := fact.policyId, policyVersion := fact.policyVersion, policyKind := fact.policyKind.asStr,
    severity := fact.severity.asStr, assessmentState := fact.assessmentState.asStr,
    computedVerdict := fact.computedVerdict.map (·.asStr), isComparative := fact.policyKind.isComparative,
    violationsCount := fact.violationsCount }

structure ObligationEvaluation (φ : Type) where
  reqId : String
  reqVersion : ℤ
  obligationId : String
  obligation : String
  method : String
  target : Option String
  threshold : Option φ
  operator : Option String
  computedVerdict : Verdict
  effectiveVerdict : EffectiveVerdict
  evidence : Json
  waiverBasis : Option GateWaiver

structure GateCounts where
  total : ℕ
  pass : ℕ
  fail : ℕ
  waived : ℕ
  missingEvidence : ℕ
  unsupported : ℕ
  deriving DecidableEq, Repr

structure GateQualityCounts where
  total : ℕ
  pass : ℕ
  fail : ℕ
  advisoryFail : ℕ
  missing : ℕ
  notComparable : ℕ
  notApplicable : ℕ
  deriving DecidableEq, Repr

structure GateOutcome where
  outcome : String
  exitCode : ℕ
  mode : String
  counts : GateCounts
  qualityCounts : GateQualityCounts
  deriving DecidableEq, Repr

structure GateReport (φ : Type) where
  obligations : List (ObligationEvaluation φ)
  qualityAssessments : List GateQualityAssessmentEvaluation
  outcome : GateOutcome
  armed : Bool

structure GateInput (φ : Type) where
  requirements : List (GateRequirement φ)
  mode : GateMode
  methodEvidence : IterMap ObligationKey (MethodEvidence φ)
  matchingWaivers : IterMap ObligationKey (List GateWaiver)
  qualityAssessmentFacts : List GateQualityAssessmentFact

section Evaluate

variable {φ : Type} [GateNumber φ]

def count (n : ℕ) : Json := .number (toString n)

def reason (text : String) : Json := .object [("reason", .string text)]

def reasonForMissingParams (method : String) : String :=
  match GateMethod.ofStr method with
  | .hotspotThreshold => "threshold not specified"
  | _ => "target or threshold not specified"

/-- `==` is nearness within the epsilon; an operator that is not known never holds. -/
def compareValues (value : φ) (op : String) (threshold : φ) : Bool :=
  match op with
  | ">=" => GateNumber.ge value threshold
  | ">" => GateNumber.gt value threshold
  | "<=" => GateNumber.le value threshold
  | "<" => GateNumber.lt value threshold
  | "==" => GateNumber.near value threshold
  | _ => false

def passOrFail (pass : Bool) : Verdict := if pass then .pass else .fail

def sortedDistinct (l : List String) : List String := (l.dedup).mergeSort (fun a b => decide (a ≤ b))

def notJudgedFiles (n : ℕ) (files : List String) : Json :=
  .object [("count", count n), ("files", Json.strings files)]

def evaluateArchViolations (perBoundaryCounts : List (String × ℕ)) (hasAnyBoundaryForTarget : Bool)
    (perBoundaryInferred : List (String × InferredImportsNotJudged)) : Verdict × Json :=
  if hasAnyBoundaryForTarget then
    let totalViolations := (perBoundaryCounts.map Prod.snd).sum
    let notJudged := (perBoundaryInferred.map fun p => p.2.count).sum
    let files := sortedDistinct (perBoundaryInferred.flatMap fun p => p.2.files)
    (passOrFail (totalViolations = 0),
      .object [("violation_count", count totalViolations),
        ("inferred_imports_not_judged", notJudgedFiles notJudged files)])
  else
    (.missingEvidence, .object [("reason", .string "no boundary declarations for target"),
      ("inferred_imports_not_judged", notJudgedFiles 0 [])])

def evaluateCoverageThreshold (rows : List (PolicyMeasurement φ)) (op : String) (threshold : φ) : Verdict × Json :=
  if rows.isEmpty then (.missingEvidence, reason "no coverage data for target path")
  else
    let avg := GateNumber.divBy (GateNumber.sum (rows.map (·.value))) rows.length
    (passOrFail (compareValues avg op threshold),
      .object [("avg_coverage", GateNumber.toJson (GateNumber.roundToFour avg)),
        ("threshold", GateNumber.toJson threshold), ("operator", .string op),
          ("files_measured", count rows.length)])

def maxValue (rows : List (PolicyMeasurement φ)) : φ :=
  (rows.map (·.value)).foldl GateNumber.max GateNumber.negInfinity

def evaluateComplexityThreshold (rows : List (PolicyMeasurement φ)) (op : String) (threshold : φ) :
    Verdict × Json :=
  if rows.isEmpty then (.missingEvidence, reason "no complexity data for target path")
  else
    (passOrFail (compareValues (maxValue rows) op threshold),
      .object [("max_complexity", GateNumber.toJson (maxValue rows)), ("threshold", GateNumber.toJson threshold),
        ("operator", .string op), ("functions_measured", count rows.length)])

def evaluateHotspotThreshold (rows : List (PolicyMeasurement φ)) (op : String) (threshold : φ)
    (hasTarget : Bool) : Verdict × Json :=
  if rows.isEmpty then
    (.missingEvidence, reason (if hasTarget then "no hotspot data for target path" else "no hotspot data"))
  else
    (passOrFail (compareValues (maxValue rows) op threshold),
      .object [("max_hotspot_score", GateNumber.toJson (maxValue rows)),
        ("threshold", GateNumber.toJson threshold)])

def evaluateModuleViolations (e : GateModuleViolationEvidence) : Verdict × Json :=
  let relations := e.inferredNotJudged.map fun r =>
    .object [("source", .string r.sourceModule), ("target", .string r.targetModule),
      ("import_count", count r.importCount)]
  (passOrFail (e.violationsCount = 0),
    .object [("violations_count", count e.violationsCount),
      ("stale_declarations_count", count e.staleDeclarationsCount),
      ("inferred_imports_not_judged", .object [("count", count (e.inferredNotJudged.map (·.importCount)).sum),
        ("relations", .array relations)])])

def orInsert (key : String) (value : Json) : Json → Json
  | .object fields => if fields.any (·.1 = key) then .object fields else .object (fields ++ [(key, value)])
  | json => json

def stateNothingJudgedWhenAbsent (method : String) (evidence : Json) : Json :=
  match GateMethod.ofStr method with
  | .archViolations => orInsert "inferred_imports_not_judged" (notJudgedFiles 0 []) evidence
  | .moduleViolations =>
    orInsert "inferred_imports_not_judged" (.object [("count", count 0), ("relations", .array [])]) evidence
  | _ => evidence

def judge (obl : GateObligation φ) : MethodEvidence φ → Verdict × Json
  | .targetMissing | .thresholdMissing => (.missingEvidence, reason (reasonForMissingParams obl.method))
  | .unsupportedMethod => (.unsupported, reason s!"method \"{obl.method}\" not yet supported")
  | .archViolations _ perBoundaryCounts hasAnyBoundaryForTarget perBoundaryInferred =>
    evaluateArchViolations perBoundaryCounts hasAnyBoundaryForTarget perBoundaryInferred
  | .coverageThreshold _ rows =>
    evaluateCoverageThreshold rows (obl.operator.getD ">=") (obl.threshold.getD GateNumber.zero)
  | .complexityThreshold _ rows =>
    evaluateComplexityThreshold rows (obl.operator.getD "<=") (obl.threshold.getD GateNumber.zero)
  | .hotspotThreshold target rows =>
    evaluateHotspotThreshold rows (obl.operator.getD "<=") (obl.threshold.getD GateNumber.zero) target.isSome
  | .moduleViolations e => evaluateModuleViolations e

def evaluateObligation (req : GateRequirement φ) (obl : GateObligation φ) (evidence : MethodEvidence φ) :
    ObligationEvaluation φ :=
  let judged := judge obl evidence
  { reqId := req.reqId, reqVersion := req.version, obligationId := obl.obligationId, obligation := obl.obligation,
    method := obl.method, target := obl.target, threshold := obl.threshold, operator := obl.operator,
    computedVerdict := judged.1, effectiveVerdict := judged.1.effective,
    evidence := stateNothingJudgedWhenAbsent obl.method judged.2, waiverBasis := none }

def applyWaiverOverlay (eval : ObligationEvaluation φ) (waivers : List GateWaiver) : ObligationEvaluation φ :=
  if eval.computedVerdict = .pass then eval
  else
    match waivers with
    | w :: _ => { eval with effectiveVerdict := .waived, waiverBasis := some w }
    | [] => eval

def countEffective (evals : List (ObligationEvaluation φ)) (v : EffectiveVerdict) : ℕ :=
  evals.countP (·.effectiveVerdict = v)

def gateCounts (evals : List (ObligationEvaluation φ)) : GateCounts :=
  { total := evals.length, pass := countEffective evals .pass, fail := countEffective evals .fail,
    waived := countEffective evals .waived, missingEvidence := countEffective evals .missingEvidence,
    unsupported := countEffective evals .unsupported }

/-- A present assessment without a verdict counts as missing. -/
def qualityCounts (facts : List GateQualityAssessmentFact) : GateQualityCounts :=
  facts.foldl (fun c fact =>
    match fact.assessmentState, fact.computedVerdict, fact.severity with
    | .missing, _, _ => { c with missing := c.missing + 1 }
    | .present, some .pass, _ => { c with pass := c.pass + 1 }
    | .present, some .fail, .fail => { c with fail := c.fail + 1 }
    | .present, some .fail, .advisory => { c with advisoryFail := c.advisoryFail + 1 }
    | .present, some .notApplicable, _ => { c with notApplicable := c.notApplicable + 1 }
    | .present, some .notComparable, _ => { c with notComparable := c.notComparable + 1 }
    | .present, none, _ => { c with missing := c.missing + 1 })
    { total := facts.length, pass := 0, fail := 0, advisoryFail := 0, missing := 0, notComparable := 0,
      notApplicable := 0 }

def reduceOutcome (evals : List (ObligationEvaluation φ)) (facts : List GateQualityAssessmentFact)
    (mode : GateMode) : GateOutcome :=
  let counts := gateCounts evals
  let quality := qualityCounts facts
  let hasFail := decide (counts.fail > 0) || decide (quality.fail > 0)
  let hasIncomplete := decide (counts.missingEvidence > 0 ∨ counts.unsupported > 0) ||
    decide (quality.missing > 0 ∨ quality.notComparable > 0)
  let (outcome, exitCode) := match mode with
    | .default => if hasFail then ("fail", 1) else if hasIncomplete then ("incomplete", 2) else ("pass", 0)
    | .strict => if hasFail || hasIncomplete then ("fail", 1) else ("pass", 0)
    | .advisory => if hasFail then ("fail", 1) else ("pass", 0)
  { outcome, exitCode, mode := mode.asStr, counts, qualityCounts := quality }

def obligationsOf (requirements : List (GateRequirement φ)) : List (GateRequirement φ × GateObligation φ) :=
  requirements.flatMap fun req => req.obligations.map (req, ·)

def keyOf (pair : GateRequirement φ × GateObligation φ) : ObligationKey :=
  ⟨pair.1.reqId, pair.1.version, pair.2.obligationId⟩

def compute (input : GateInput φ) : GateReport φ :=
  let evaluations := (obligationsOf input.requirements).map fun pair =>
    let evidence := (input.methodEvidence.lookup (keyOf pair)).getD .unsupportedMethod
    let waivers := (input.matchingWaivers.lookup (keyOf pair)).getD []
    applyWaiverOverlay (evaluateObligation pair.1 pair.2 evidence) waivers
  { obligations := evaluations
    qualityAssessments := input.qualityAssessmentFacts.map (·.evaluation)
    outcome := reduceOutcome evaluations input.qualityAssessmentFacts input.mode
    armed := !input.requirements.isEmpty || !input.qualityAssessmentFacts.isEmpty }

end Evaluate

end RepoGraph.Gate
