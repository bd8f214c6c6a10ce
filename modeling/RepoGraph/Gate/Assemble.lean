import RepoGraph.Gate.Compute
import RepoGraph.Lib.Exec

/-! Assembly of the gate: the evidence of each obligation is read through the storage port, with shared reads
kept for the obligations that follow, and handed to the computation by the obligation's key. -/

namespace RepoGraph.Gate

open Lib
open Indexer (Json)

/-- The text of a JSON column, as the JSON reader finds it. -/
abbrev JsonText := Except String Json

structure GateMeasurement where
  targetStableKey : String
  valueJson : JsonText

structure GateInference where
  targetStableKey : String
  valueJson : JsonText

structure GateStorageError where
  operation : String
  message : String
  deriving DecidableEq, Repr

inductive GateError
  | storage (e : GateStorageError)
  | malformedEvidence (operation reason : String)
  deriving DecidableEq, Repr

structure GateStorage (φ : Type) where
  getActiveRequirements : String → Except GateStorageError (List (GateRequirement φ))
  getBoundaryDeclarations : String → Except GateStorageError (List GateBoundaryDeclaration)
  findBoundaryImports : String → String → String → Except GateStorageError (List GateImportEdge)
  findInferredBoundaryImports : String → String → String → Except GateStorageError (List GateImportEdge)
  getCoverageMeasurements : String → Except GateStorageError (List GateMeasurement)
  getComplexityMeasurements : String → Except GateStorageError (List GateMeasurement)
  getHotspotInferences : String → Except GateStorageError (List GateInference)
  findWaivers : String → String → ℤ → String → String → Except GateStorageError (List GateWaiver)
  evaluateModuleViolations : String → String → Except GateStorageError GateModuleViolationEvidence
  getQualityAssessmentFactsForGate : String → String → Except GateStorageError (List GateQualityAssessmentFact)

inductive MeasurementKind
  | coverage
  | complexity
  deriving DecidableEq, Repr

def MeasurementKind.noun : MeasurementKind → String
  | .coverage => "coverage measurement"
  | .complexity => "complexity measurement"

def MeasurementKind.operation : MeasurementKind → String
  | .coverage => "coverage_threshold"
  | .complexity => "complexity_threshold"

section Parse

variable {φ : Type} [GateNumber φ]

def stringField (field : String) (json : Json) : Option String := (json.get field).bind Json.asStr

def numericField (field : String) (json : Json) : Option φ :=
  match json.get field with
  | some (.number text) => some (GateNumber.asF64 text)
  | _ => none

def parseRow (operation noun field targetStableKey : String) (valueJson : JsonText) :
    Except GateError (PolicyMeasurement φ) :=
  match valueJson with
  | .error e => .error (.malformedEvidence operation s!"malformed {noun} for {targetStableKey}: {e}")
  | .ok json =>
    match numericField field json with
    | some value => .ok { targetStableKey, value }
    | none => .error (.malformedEvidence operation
      s!"{noun} for {targetStableKey} missing numeric \"{field}\" field")

def parseMeasurements (kind : MeasurementKind) (rows : List GateMeasurement) :
    Except GateError (List (PolicyMeasurement φ)) :=
  rows.mapM fun row => parseRow kind.operation kind.noun "value" row.targetStableKey row.valueJson

def parseInferences (rows : List GateInference) : Except GateError (List (PolicyMeasurement φ)) :=
  rows.mapM fun row =>
    parseRow "hotspot_threshold" "hotspot inference" "normalized_score" row.targetStableKey row.valueJson

structure MalformedRequirement where
  declarationUid : String
  reason : String
  deriving DecidableEq, Repr

def orMalformed {α : Type} (declarationUid reason : String) (found : Option α) : Except MalformedRequirement α :=
  match found with
  | some a => .ok a
  | none => .error { declarationUid, reason }

def verificationObligation (declarationUid : String) (i : ℕ) (json : Json) :
    Except MalformedRequirement (GateObligation φ) := do
  let obligationId ← orMalformed declarationUid s!"obligation {i} missing obligation_id"
    (stringField "obligation_id" json)
  let obligation ← orMalformed declarationUid s!"obligation {i} missing obligation text"
    (stringField "obligation" json)
  let method ← orMalformed declarationUid s!"obligation {i} missing method" (stringField "method" json)
  pure { obligationId, obligation, method, target := stringField "target" json,
         threshold := numericField "threshold" json, operator := stringField "operator" json }

/-- A declaration without verification entries is passed over. -/
def requirementDeclaration (declarationUid : String) (valueJson : JsonText) :
    Except MalformedRequirement (Option (GateRequirement φ)) := do
  let parsed ← valueJson.mapError fun e => ⟨declarationUid, s!"malformed value_json: {e}"⟩
  let reqId ← orMalformed declarationUid "missing req_id" (stringField "req_id" parsed)
  let version := match parsed.get "version" with
    | some (.number text) => (GateNumber.asI64 φ text).getD 1
    | _ => 1
  match (parsed.get "verification").bind Json.asArray with
  | none | some [] => pure none
  | some verification =>
    let obligations ← verification.zipIdx.mapM fun p => verificationObligation declarationUid p.2 p.1
    pure (some { reqId, version, obligations })

def getActiveRequirementDeclarations (rows : List (String × JsonText)) :
    Except MalformedRequirement (List (GateRequirement φ)) := do
  let found ← rows.mapM fun row => requirementDeclaration row.1 row.2
  pure (found.filterMap id)

end Parse

structure Caches where
  boundaries : Option (List GateBoundaryDeclaration)
  coverage : Option (List GateMeasurement)
  complexity : Option (List GateMeasurement)
  hotspots : Option (List GateInference)

def Caches.empty : Caches := { boundaries := none, coverage := none, complexity := none, hotspots := none }

section Assemble

variable {φ : Type} [GateNumber φ] (storage : GateStorage φ) (repoUid snapshotUid now : String)

def ofStorage {α : Type} (read : Except GateStorageError α) : Except GateError α := read.mapError .storage

/-- A read through its cache; the caches change only when the store was asked and has answered. -/
def cached {α : Type} (cache : Option α) (read : Except GateStorageError α) (keep : α → Caches) (caches : Caches) :
    Except GateError (α × Caches) :=
  match cache with
  | some v => .ok (v, caches)
  | none => (ofStorage read).map fun v => (v, keep v)

def targetPrefix (target : String) : String := repoUid ++ ":" ++ target ++ "/"

/-- The imports across one boundary: those that are judged, and those that are only counted. -/
def boundaryEvidence (target : String) (b : GateBoundaryDeclaration) :
    Except GateError ((String × ℕ) × (String × InferredImportsNotJudged)) := do
  let edges ← ofStorage (storage.findBoundaryImports snapshotUid target b.forbids)
  let inferred ← ofStorage (storage.findInferredBoundaryImports snapshotUid target b.forbids)
  pure ((b.forbids, edges.length),
    (b.forbids, { count := inferred.length, files := sortedDistinct (inferred.map (·.sourceFile)) }))

def archEvidence (target : String) (boundaries : List GateBoundaryDeclaration) :
    Except GateError (MethodEvidence φ) := do
  let forTarget := boundaries.filter (·.boundaryModule = target)
  if forTarget.isEmpty then
    pure (.archViolations target [] false [])
  else
    let perBoundary ← forTarget.mapM (boundaryEvidence storage snapshotUid target)
    pure (.archViolations target (perBoundary.map Prod.fst) true (perBoundary.map Prod.snd))

def measurementEvidence (kind : MeasurementKind) (target : String) (rows : List GateMeasurement) :
    Except GateError (List (PolicyMeasurement φ)) :=
  parseMeasurements kind (rows.filter fun r => Text.startsWith r.targetStableKey (targetPrefix repoUid target))

def hotspotEvidence (target : Option String) (rows : List GateInference) :
    Except GateError (List (PolicyMeasurement φ)) :=
  match target with
  | some t => parseInferences (rows.filter fun r => Text.startsWith r.targetStableKey (targetPrefix repoUid t))
  | none => parseInferences rows

def fetchEvidence (obl : GateObligation φ) (caches : Caches) : Except GateError (MethodEvidence φ × Caches) :=
  match GateMethod.ofStr obl.method with
  | .archViolations =>
    match obl.target with
    | none => .ok (.targetMissing, caches)
    | some target => do
      let (boundaries, caches) ← cached caches.boundaries (storage.getBoundaryDeclarations repoUid)
        (fun v => { caches with boundaries := some v }) caches
      let evidence ← archEvidence storage snapshotUid target boundaries
      pure (evidence, caches)
  | .coverageThreshold =>
    match obl.target, obl.threshold with
    | none, _ => .ok (.targetMissing, caches)
    | some _, none => .ok (.thresholdMissing, caches)
    | some target, some _ => do
      let (rows, caches) ← cached caches.coverage (storage.getCoverageMeasurements snapshotUid)
        (fun v => { caches with coverage := some v }) caches
      let evidence ← measurementEvidence repoUid .coverage target rows
      pure (.coverageThreshold target evidence, caches)
  | .complexityThreshold =>
    match obl.target, obl.threshold with
    | none, _ => .ok (.targetMissing, caches)
    | some _, none => .ok (.thresholdMissing, caches)
    | some target, some _ => do
      let (rows, caches) ← cached caches.complexity (storage.getComplexityMeasurements snapshotUid)
        (fun v => { caches with complexity := some v }) caches
      let evidence ← measurementEvidence repoUid .complexity target rows
      pure (.complexityThreshold target evidence, caches)
  | .hotspotThreshold =>
    match obl.threshold with
    | none => .ok (.thresholdMissing, caches)
    | some _ => do
      let (rows, caches) ← cached caches.hotspots (storage.getHotspotInferences snapshotUid)
        (fun v => { caches with hotspots := some v }) caches
      let evidence ← hotspotEvidence repoUid obl.target rows
      pure (.hotspotThreshold obl.target evidence, caches)
  | .moduleViolations => do
    let evidence ← ofStorage (storage.evaluateModuleViolations repoUid snapshotUid)
    pure (.moduleViolations evidence, caches)
  | .unsupported => .ok (.unsupportedMethod, caches)

def pendingEvidence : List (GateRequirement φ × GateObligation φ) → Caches →
    Except GateError (List (ObligationKey × MethodEvidence φ))
  | [], _ => .ok []
  | pair :: rest, caches => do
    let (evidence, caches) ← fetchEvidence storage repoUid snapshotUid pair.2 caches
    let more ← pendingEvidence rest caches
    pure ((keyOf pair, evidence) :: more)

def pendingWaivers (pairs : List (GateRequirement φ × GateObligation φ)) :
    Except GateError (List (ObligationKey × List GateWaiver)) :=
  pairs.mapM fun pair => do
    let waivers ← ofStorage (storage.findWaivers repoUid pair.1.reqId pair.1.version pair.2.obligationId now)
    pure (keyOf pair, waivers)

/-- Evidence and waivers are inserted in the order they were read, a later one over an earlier one. -/
def assembleFromRequirements (mode : GateMode) (requirements : List (GateRequirement φ)) :
    Except GateError (GateReport φ) := do
  let facts ← ofStorage (storage.getQualityAssessmentFactsForGate repoUid snapshotUid)
  let evidence ← pendingEvidence storage repoUid snapshotUid (obligationsOf requirements) .empty
  let waivers ← pendingWaivers storage repoUid now (obligationsOf requirements)
  pure (compute { requirements, mode, methodEvidence := .ofPairs evidence, matchingWaivers := .ofPairs waivers,
                  qualityAssessmentFacts := facts })

def assemble (mode : GateMode) : Except GateError (GateReport φ) := do
  let requirements ← ofStorage (storage.getActiveRequirements repoUid)
  assembleFromRequirements storage repoUid snapshotUid now mode requirements

end Assemble

end RepoGraph.Gate
