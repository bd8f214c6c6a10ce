import RepoGraph.Lib.Exec
import RepoGraph.Lib.IterMap
import RepoGraph.Lib.Text

/-! Assessment of quality policies: the in-scope measurements of the current snapshot against a
threshold, alone or beside the measurements of a baseline snapshot. -/

namespace RepoGraph.QualityPolicy

open Lib

/-- The values of `f64` as its comparisons see them: no comparison with a NaN holds. -/
inductive F64
  | nan
  | num (x : WithBot (WithTop ℚ))
  deriving DecidableEq

namespace F64

def gt : F64 → F64 → Bool
  | .num x, .num y => decide (y < x)
  | _, _ => false

def lt (x y : F64) : Bool := y.gt x

def ge : F64 → F64 → Bool
  | .num x, .num y => decide (y ≤ x)
  | _, _ => false

lemma ge_of_not_gt {x y t : F64} (hx : x.gt t) (hy : y.gt t) (h : ¬ x.gt y) : y.ge x := by
  cases x with
  | nan => simp [gt] at hx
  | num x =>
    cases y with
    | nan => simp [gt] at hy
    | num y => simpa [gt, ge] using h

lemma not_gt_of_ge {x y : F64} (h : y.ge x) : ¬ x.gt y := by
  cases x with
  | nan => simp [gt]
  | num x =>
    cases y with
    | nan => simp [gt]
    | num y => simpa [gt, ge] using h

lemma gt_trans {x y z : F64} (hxy : x.gt y) (hyz : y.gt z) : x.gt z := by
  cases x with
  | nan => simp [gt] at hxy
  | num x =>
    cases y with
    | nan => simp [gt] at hxy
    | num y =>
      cases z with
      | nan => simp [gt] at hyz
      | num z =>
        simp only [gt, decide_eq_true_eq] at hxy hyz ⊢
        exact hyz.trans hxy

end F64

inductive SupportedMeasurementKind
  | cyclomaticComplexity
  | cognitiveComplexity
  | functionLength
  | parameterCount
  | maxNestingDepth
  | lineCoverage
  deriving DecidableEq, Repr

def SupportedMeasurementKind.parse : String → Option SupportedMeasurementKind
  | "cyclomatic_complexity" => some .cyclomaticComplexity
  | "cognitive_complexity" => some .cognitiveComplexity
  | "function_length" => some .functionLength
  | "parameter_count" => some .parameterCount
  | "max_nesting_depth" => some .maxNestingDepth
  | "line_coverage" => some .lineCoverage
  | _ => none

inductive QualityPolicyKind
  | absoluteMax
  | absoluteMin
  | noNew
  | noWorsened
  deriving DecidableEq, Repr

def QualityPolicyKind.requiresBaseline : QualityPolicyKind → Bool
  | .noNew | .noWorsened => true
  | _ => false

inductive ScopeClauseKind
  | module
  | file
  | symbolKind
  deriving DecidableEq, Repr

structure ScopeClause where
  clauseKind : ScopeClauseKind
  selector : String
  deriving DecidableEq, Repr

structure QualityPolicyPayload where
  policyId : String
  version : ℤ
  scopeClauses : List ScopeClause
  measurementKind : String
  policyKind : QualityPolicyKind
  threshold : F64

structure MeasurementFact where
  targetStableKey : String
  measurementKind : SupportedMeasurementKind
  value : F64
  filePath : Option String
  symbolKind : Option String

structure PolicyDefinition where
  policyUid : String
  payload : QualityPolicyPayload

structure PolicyEvaluationBatch where
  policies : List PolicyDefinition
  currentFacts : List MeasurementFact
  baselineFacts : Option (List MeasurementFact)
  snapshotUid : String
  baselineSnapshotUid : Option String

inductive AssessmentVerdict
  | pass
  | fail
  | notApplicable
  | notComparable
  deriving DecidableEq, Repr

structure AssessmentViolation where
  targetStableKey : String
  measurementValue : F64
  threshold : F64
  baselineValue : Option F64

structure PolicyAssessment where
  assessmentUid : String
  policyUid : String
  policyId : String
  policyVersion : ℤ
  computedVerdict : AssessmentVerdict
  violations : List AssessmentViolation
  scopeMatchCount : ℕ
  measurementsEvaluated : ℕ
  snapshotUid : String
  baselineSnapshotUid : Option String

/-- The glob library: a selector compiles to a matcher of whole paths, or is no pattern. -/
abbrev Glob := String → Option (String → Bool)

section Scope

def moduleScopeMatches (filePath selector : String) : Bool :=
  filePath == selector ||
    Text.startsWith filePath (if Text.endsWith selector "/" then selector else selector ++ "/")

variable (glob : Glob)

def fileScopeMatches (filePath selector : String) : Bool :=
  match glob selector with
  | some isMatch => isMatch filePath
  | none => filePath == selector

def clauseMatches (fact : MeasurementFact) (clause : ScopeClause) : Bool :=
  match clause.clauseKind with
  | .module => fact.filePath.any (moduleScopeMatches · clause.selector)
  | .file => fact.filePath.any (fileScopeMatches glob · clause.selector)
  | .symbolKind => fact.symbolKind.any (· == clause.selector)

def factMatchesScope (fact : MeasurementFact) (payload : QualityPolicyPayload) : Bool :=
  payload.scopeClauses.all (clauseMatches glob fact)

def scopeMatchingFacts (kind : SupportedMeasurementKind) (payload : QualityPolicyPayload)
    (facts : List MeasurementFact) : List MeasurementFact :=
  (facts.filter (·.measurementKind == kind)).filter (factMatchesScope glob · payload)

end Scope

section Evaluators

abbrev BaselineLookup := IterMap (String × SupportedMeasurementKind) F64

def MeasurementFact.target (fact : MeasurementFact) : String × SupportedMeasurementKind :=
  (fact.targetStableKey, fact.measurementKind)

def baselineLookup (facts : List MeasurementFact) : BaselineLookup :=
  .ofPairs (facts.map fun f => (f.target, f.value))

def buildAssessmentUid (snapshotUid policyUid : String) : Option String → String
  | some baseline => s!"{snapshotUid}-qpa-{policyUid}-vs-{baseline}"
  | none => s!"{snapshotUid}-qpa-{policyUid}"

def PolicyDefinition.assessment (definition : PolicyDefinition) (snapshotUid : String)
    (uidBaseline baselineSnapshotUid : Option String) (verdict : AssessmentVerdict)
    (violations : List AssessmentViolation) (scopeMatchCount measurementsEvaluated : ℕ) : PolicyAssessment :=
  { assessmentUid := buildAssessmentUid snapshotUid definition.policyUid uidBaseline
    policyUid := definition.policyUid
    policyId := definition.payload.policyId
    policyVersion := definition.payload.version
    computedVerdict := verdict
    violations
    scopeMatchCount
    measurementsEvaluated
    snapshotUid
    baselineSnapshotUid }

def verdictOf (violations : List AssessmentViolation) : AssessmentVerdict :=
  if violations.isEmpty then .pass else .fail

def MeasurementFact.violation (fact : MeasurementFact) (threshold : F64) (baselineValue : Option F64) :
    AssessmentViolation :=
  { targetStableKey := fact.targetStableKey, measurementValue := fact.value, threshold, baselineValue }

variable (facts : List MeasurementFact) (definition : PolicyDefinition) (snapshotUid : String)

def evaluateAbsolute (violates : F64 → F64 → Bool) : PolicyAssessment :=
  let threshold := definition.payload.threshold
  if facts.isEmpty then definition.assessment snapshotUid none none .notApplicable [] 0 0
  else
    let violations := (facts.filter fun f => violates f.value threshold).map (·.violation threshold none)
    definition.assessment snapshotUid none none (verdictOf violations) violations facts.length facts.length

def evaluateAbsoluteMax : PolicyAssessment := evaluateAbsolute facts definition snapshotUid F64.gt

def evaluateAbsoluteMin : PolicyAssessment := evaluateAbsolute facts definition snapshotUid F64.lt

variable (lookup : BaselineLookup) (baselineSnapshotUid : String)

def evaluateNoNew : PolicyAssessment :=
  let threshold := definition.payload.threshold
  let baseline := some baselineSnapshotUid
  if facts.isEmpty then definition.assessment snapshotUid baseline baseline .notApplicable [] 0 0
  else
    let newFacts := facts.filter fun f => (lookup.lookup f.target).isNone
    let violations := (newFacts.filter fun f => f.value.gt threshold).map (·.violation threshold none)
    definition.assessment snapshotUid baseline baseline (verdictOf violations) violations facts.length
      newFacts.length

def worsenedStep (threshold : F64) (acc : List AssessmentViolation × ℕ) (fact : MeasurementFact) :
    List AssessmentViolation × ℕ :=
  match lookup.lookup fact.target with
  | some baselineValue =>
    if baselineValue.gt threshold then
      (if fact.value.gt baselineValue then acc.1 ++ [fact.violation threshold (some baselineValue)] else acc.1,
        acc.2 + 1)
    else acc
  | none => acc

def evaluateNoWorsened : PolicyAssessment :=
  let threshold := definition.payload.threshold
  let baseline := some baselineSnapshotUid
  if facts.isEmpty then definition.assessment snapshotUid baseline baseline .notApplicable [] 0 0
  else
    let (violations, measurementsEvaluated) := facts.foldl (worsenedStep lookup threshold) ([], 0)
    definition.assessment snapshotUid baseline baseline (verdictOf violations) violations facts.length
      measurementsEvaluated

end Evaluators

def evaluatePolicy (glob : Glob) (definition : PolicyDefinition) (currentFacts : List MeasurementFact)
    (lookup : Option BaselineLookup) (snapshotUid : String) (baselineSnapshotUid : Option String) :
    Exec PolicyAssessment :=
  let payload := definition.payload
  match SupportedMeasurementKind.parse payload.measurementKind with
  | none => .ok (definition.assessment snapshotUid baselineSnapshotUid baselineSnapshotUid .notApplicable [] 0 0)
  | some kind =>
    let facts := scopeMatchingFacts glob kind payload currentFacts
    if payload.policyKind.requiresBaseline && lookup.isNone then
      .ok (definition.assessment snapshotUid baselineSnapshotUid none .notComparable [] facts.length 0)
    else
      match payload.policyKind with
      | .absoluteMax => .ok (evaluateAbsoluteMax facts definition snapshotUid)
      | .absoluteMin => .ok (evaluateAbsoluteMin facts definition snapshotUid)
      | .noNew => do
        let lookup ← expect "called `Option::unwrap()` on a `None` value" lookup
        let baseline ← expect "called `Option::unwrap()` on a `None` value" baselineSnapshotUid
        .ok (evaluateNoNew facts definition snapshotUid lookup baseline)
      | .noWorsened => do
        let lookup ← expect "called `Option::unwrap()` on a `None` value" lookup
        let baseline ← expect "called `Option::unwrap()` on a `None` value" baselineSnapshotUid
        .ok (evaluateNoWorsened facts definition snapshotUid lookup baseline)

def evaluatePolicies (glob : Glob) (batch : PolicyEvaluationBatch) : Exec (List PolicyAssessment) :=
  batch.policies.mapM fun definition =>
    evaluatePolicy glob definition batch.currentFacts (batch.baselineFacts.map baselineLookup) batch.snapshotUid
      batch.baselineSnapshotUid

section Ratchet

variable {facts : List MeasurementFact} {definition : PolicyDefinition} {snapshotUid baselineSnapshotUid : String}
  {lookup : BaselineLookup}

lemma verdictOf_eq_pass {violations : List AssessmentViolation} :
    verdictOf violations = .pass ↔ violations = [] := by
  cases violations with
  | nil => simp [verdictOf]
  | cons v violations => simp [verdictOf]

lemma evaluateNoNew_pass_iff :
    (evaluateNoNew facts definition snapshotUid lookup baselineSnapshotUid).computedVerdict = .pass ↔
      facts ≠ [] ∧ ∀ f ∈ facts, f.value.gt definition.payload.threshold → (lookup.lookup f.target).isSome := by
  rw [evaluateNoNew]
  by_cases hnil : facts = []
  · simp [hnil, PolicyDefinition.assessment]
  · simp only [List.isEmpty_iff, hnil, if_false, PolicyDefinition.assessment, verdictOf_eq_pass,
      List.map_eq_nil_iff, List.filter_eq_nil_iff, List.mem_filter]
    constructor
    · intro h
      refine ⟨hnil, fun f hf hgt => ?_⟩
      by_contra hnew
      exact h f ⟨hf, by simpa using hnew⟩ hgt
    · rintro ⟨-, h⟩ f ⟨hf, hnew⟩ hgt
      have hold := h f hf hgt
      simp [Option.isNone_iff_eq_none.mp hnew] at hold

lemma worsened_fold_eq_nil (threshold : F64) (facts : List MeasurementFact) (acc : List AssessmentViolation × ℕ) :
    (facts.foldl (worsenedStep lookup threshold) acc).1 = [] ↔
      acc.1 = [] ∧ ∀ f ∈ facts, ∀ b ∈ lookup.lookup f.target, b.gt threshold → ¬ f.value.gt b := by
  induction facts generalizing acc with
  | nil => simp
  | cons f facts ih =>
    have hstep : (worsenedStep lookup threshold acc f).1 = [] ↔
        acc.1 = [] ∧ ∀ b ∈ lookup.lookup f.target, b.gt threshold → ¬ f.value.gt b := by
      rw [worsenedStep]
      cases hb : lookup.lookup f.target with
      | none => simp
      | some b =>
        by_cases hover : b.gt threshold
        · by_cases hworse : f.value.gt b
          · simp [hover, hworse]
          · simp [hover, hworse]
        · simp [hover]
    rw [List.foldl_cons, ih, hstep, List.forall_mem_cons, and_assoc]

lemma evaluateNoWorsened_pass_iff :
    (evaluateNoWorsened facts definition snapshotUid lookup baselineSnapshotUid).computedVerdict = .pass ↔
      facts ≠ [] ∧ ∀ f ∈ facts, ∀ b ∈ lookup.lookup f.target,
        b.gt definition.payload.threshold → ¬ f.value.gt b := by
  rw [evaluateNoWorsened]
  by_cases hnil : facts = []
  · simp [hnil, PolicyDefinition.assessment]
  · simp [hnil, PolicyDefinition.assessment, verdictOf_eq_pass, worsened_fold_eq_nil]

def InScope (glob : Glob) (payload : QualityPolicyPayload) (fact : MeasurementFact) : Prop :=
  SupportedMeasurementKind.parse payload.measurementKind = some fact.measurementKind ∧
    factMatchesScope glob fact payload

def baselineValue (baseline : List MeasurementFact) (fact : MeasurementFact) : Option F64 :=
  (baseline.reverse.find? (·.target = fact.target)).map (·.value)

lemma lookup_baselineLookup (baseline : List MeasurementFact) (fact : MeasurementFact) :
    (baselineLookup baseline).lookup fact.target = baselineValue baseline fact := by
  rw [baselineLookup, IterMap.lookup_ofPairs, ← List.map_reverse, List.find?_map, Option.map_map]
  rfl

variable {glob : Glob} {payload : QualityPolicyPayload} {kind : SupportedMeasurementKind}

lemma mem_scopeMatchingFacts (hkind : SupportedMeasurementKind.parse payload.measurementKind = some kind)
    {f : MeasurementFact} : f ∈ scopeMatchingFacts glob kind payload facts ↔ f ∈ facts ∧
    InScope glob payload f := by
  simp only [scopeMatchingFacts, List.mem_filter, beq_iff_eq, InScope, hkind, Option.some.injEq, and_assoc,
    eq_comm (a := kind)]

lemma evaluatePolicy_comparative {current : List MeasurementFact} {baseline : Option (List MeasurementFact)}
    {baselineUid : Option String} {a : PolicyAssessment}
    (h : evaluatePolicy glob definition current (baseline.map baselineLookup) snapshotUid baselineUid = .ok a)
    (hcmp : definition.payload.policyKind.requiresBaseline) :
    SupportedMeasurementKind.parse definition.payload.measurementKind = none ∧
        a.computedVerdict = .notApplicable ∨
      baseline = none ∧ a.computedVerdict = .notComparable ∨
      ∃ kind old uid, SupportedMeasurementKind.parse definition.payload.measurementKind = some kind ∧
        baseline = some old ∧
        a = (if definition.payload.policyKind = .noNew then evaluateNoNew else evaluateNoWorsened)
          (scopeMatchingFacts glob kind definition.payload current) definition snapshotUid (baselineLookup old)
          uid := by
  rw [evaluatePolicy] at h
  cases hkind : SupportedMeasurementKind.parse definition.payload.measurementKind with
  | none =>
    simp only [hkind] at h
    obtain rfl := Except.ok.inj h
    exact Or.inl ⟨rfl, rfl⟩
  | some kind =>
    cases baseline with
    | none =>
      simp only [hkind, hcmp] at h
      obtain rfl := Except.ok.inj h
      exact Or.inr (Or.inl ⟨rfl, rfl⟩)
    | some old =>
      refine Or.inr (Or.inr ⟨kind, old, ?_⟩)
      cases hpolicy : definition.payload.policyKind with
      | absoluteMax => simp [hpolicy, QualityPolicyKind.requiresBaseline] at hcmp
      | absoluteMin => simp [hpolicy, QualityPolicyKind.requiresBaseline] at hcmp
      | noNew =>
        simp only [hkind, hpolicy, Option.map_some, Option.isNone_some, Bool.and_false, expect_some, ok_bind] at h
        obtain ⟨uid, -, h⟩ := bind_ok.mp h
        exact ⟨uid, rfl, rfl, (Except.ok.inj h).symm⟩
      | noWorsened =>
        simp only [hkind, hpolicy, Option.map_some, Option.isNone_some, Bool.and_false, expect_some, ok_bind] at h
        obtain ⟨uid, -, h⟩ := bind_ok.mp h
        exact ⟨uid, rfl, rfl, (Except.ok.inj h).symm⟩

/-- The pair of policies that together hold a line: one for new targets, one for old violators. -/
structure Ratchet (payload partner : QualityPolicyPayload) : Prop where
  noNew : payload.policyKind = .noNew
  noWorsened : partner.policyKind = .noWorsened
  threshold : partner.threshold = payload.threshold
  scope : partner.scopeClauses = payload.scopeClauses
  measurement : partner.measurementKind = payload.measurementKind

lemma Ratchet.inScope_iff {partner : QualityPolicyPayload} (h : Ratchet payload partner) (f : MeasurementFact) :
    InScope glob partner f ↔ InScope glob payload f := by
  rw [InScope, InScope, factMatchesScope, factMatchesScope, h.measurement, h.scope]

/-- Every violation of today was in the baseline, and no better there if it was one already. -/
def Held (glob : Glob) (payload : QualityPolicyPayload) (current baseline : List MeasurementFact) : Prop :=
  ∀ f ∈ current, InScope glob payload f → f.value.gt payload.threshold →
    ∃ b, baselineValue baseline f = some b ∧ (b.gt payload.threshold → b.ge f.value)

lemma held_iff {current baseline : List MeasurementFact} : Held glob payload current baseline ↔
    (∀ f ∈ current, InScope glob payload f → f.value.gt payload.threshold → (baselineValue baseline f).isSome) ∧
      ∀ f ∈ current, InScope glob payload f → ∀ b ∈ baselineValue baseline f,
        b.gt payload.threshold → ¬ f.value.gt b := by
  constructor
  · intro h
    constructor
    · intro f hf hin hgt
      obtain ⟨b, hb, -⟩ := h f hf hin hgt
      simp [hb]
    · intro f hf hin b hb hover hworse
      obtain ⟨b', hb', hge⟩ := h f hf hin (F64.gt_trans hworse hover)
      obtain rfl : b' = b := Option.some.inj (hb'.symm.trans hb)
      exact F64.not_gt_of_ge (hge hover) hworse
  · rintro ⟨hold, hkept⟩ f hf hin hgt
    obtain ⟨b, hb⟩ := Option.isSome_iff_exists.mp (hold f hf hin hgt)
    exact ⟨b, hb, fun hover => F64.ge_of_not_gt hgt hover (hkept f hf hin b hb hover)⟩

lemma comparative_pass_iff {current : List MeasurementFact} {baseline : Option (List MeasurementFact)}
    {baselineUid : Option String} {a : PolicyAssessment}
    (h : evaluatePolicy glob definition current (baseline.map baselineLookup) snapshotUid baselineUid = .ok a)
    (hcmp : definition.payload.policyKind.requiresBaseline) {Q : List MeasurementFact → MeasurementFact → Prop}
    (hQ : ∀ facts old uid, ((if definition.payload.policyKind = .noNew then evaluateNoNew else evaluateNoWorsened)
      facts definition snapshotUid (baselineLookup old) uid).computedVerdict = .pass ↔
        facts ≠ [] ∧ ∀ f ∈ facts, Q old f) :
    a.computedVerdict = .pass ↔ (∃ f ∈ current, InScope glob definition.payload f) ∧
      ∃ old, baseline = some old ∧ ∀ f ∈ current, InScope glob definition.payload f → Q old f := by
  rcases evaluatePolicy_comparative h hcmp with ⟨hkind, hv⟩ | ⟨hbase, hv⟩ | ⟨kind, old, uid, hkind, hbase, rfl⟩
  · simp [hv, InScope, hkind]
  · simp [hv, hbase]
  · rw [hQ, ← List.isEmpty_eq_false_iff, List.isEmpty_eq_false_iff_exists_mem]
    simp only [mem_scopeMatchingFacts hkind, hbase, Option.some.injEq, exists_eq_left', and_imp]

/-- Both policies pass exactly when something is in scope and the line is held: a target that was within
the threshold in the baseline is neither new nor an old violator, and may cross it. -/
theorem ratchet_pass_iff {batch : PolicyEvaluationBatch} {assessments : List PolicyAssessment}
    (h : evaluatePolicies glob batch = .ok assessments) {i j : ℕ} {noNew noWorsened : PolicyDefinition}
    (hi : batch.policies[i]? = some noNew) (hj : batch.policies[j]? = some noWorsened)
    (hr : Ratchet noNew.payload noWorsened.payload) :
    (assessments[i]?.map (·.computedVerdict) = some .pass ∧ assessments[j]?.map (·.computedVerdict) = some .pass) ↔
      (∃ f ∈ batch.currentFacts, InScope glob noNew.payload f) ∧
        ∃ baseline, batch.baselineFacts = some baseline ∧
          Held glob noNew.payload batch.currentFacts baseline := by
  obtain ⟨a, ha, hai⟩ := mapM_getElem? h hi
  obtain ⟨b, hb, hbj⟩ := mapM_getElem? h hj
  have hnew := comparative_pass_iff ha (by simp [hr.noNew, QualityPolicyKind.requiresBaseline])
    (Q := fun old f => f.value.gt noNew.payload.threshold → (baselineValue old f).isSome) (by
      intro facts old uid
      rw [if_pos hr.noNew, evaluateNoNew_pass_iff]
      simp only [lookup_baselineLookup])
  have hworse := comparative_pass_iff hb (by simp [hr.noWorsened, QualityPolicyKind.requiresBaseline])
    (Q := fun old f => ∀ b ∈ baselineValue old f, b.gt noNew.payload.threshold → ¬ f.value.gt b) (by
      intro facts old uid
      rw [if_neg (by simp [hr.noWorsened]), evaluateNoWorsened_pass_iff, hr.threshold]
      simp only [lookup_baselineLookup])
  simp only [hr.inScope_iff] at hworse
  simp only [hai, hbj, Option.map_some, Option.some.injEq, hnew, hworse, held_iff]
  constructor
  · rintro ⟨⟨hin, old, hold, h₁⟩, -, old', hold', h₂⟩
    obtain rfl : old = old' := Option.some.inj (hold.symm.trans hold')
    exact ⟨hin, old, hold, h₁, h₂⟩
  · rintro ⟨hin, old, hold, h₁, h₂⟩
    exact ⟨⟨hin, old, hold, h₁⟩, hin, old, hold, h₂⟩

namespace Fixture

def literalGlob : Glob := fun selector => some (· == selector)

def measured (value : ℚ) : MeasurementFact :=
  ⟨"engine.foo", .cyclomaticComplexity, .num ((value : WithTop ℚ) : WithBot (WithTop ℚ)),
    some "src/engine.ts", some "FUNCTION"⟩

def policy (kind : QualityPolicyKind) : PolicyDefinition :=
  ⟨"decl", ⟨"QP-001", 1, [⟨.file, "src/engine.ts"⟩], "cyclomatic_complexity", kind,
    .num (((10 : ℚ) : WithTop ℚ) : WithBot (WithTop ℚ))⟩⟩

def batch (baseline current : ℚ) : PolicyEvaluationBatch :=
  ⟨[policy .noNew, policy .noWorsened], [measured current], some [measured baseline], "s2", some "s1"⟩

lemma policy_ratchet : Ratchet (policy .noNew).payload (policy .noWorsened).payload := ⟨rfl, rfl, rfl, rfl, rfl⟩

end Fixture

/-- An old violator that went from 15 to 12 passes both policies. -/
theorem improved_violator_held : Held Fixture.literalGlob (Fixture.policy .noNew).payload
    [Fixture.measured 12] [Fixture.measured 15] := by
  have h : ∃ assessments, evaluatePolicies Fixture.literalGlob (Fixture.batch 15 12) = .ok assessments ∧
      assessments.map (·.computedVerdict) = [.pass, .pass] := ⟨_, rfl, by decide⟩
  obtain ⟨assessments, hok, hpass⟩ := h
  obtain ⟨-, baseline, hbase, hheld⟩ := (ratchet_pass_iff hok (i := 0) (j := 1) rfl rfl Fixture.policy_ratchet).mp
    (by simp [← List.getElem?_map, hpass])
  obtain rfl := Option.some.inj hbase
  exact hheld

/-- A target of 5 in the baseline rose to 15 over the threshold 10, and both policies pass. -/
theorem crossing_unnoticed :
    ∃ assessments, evaluatePolicies Fixture.literalGlob (Fixture.batch 5 15) = .ok assessments ∧
      assessments.map (·.computedVerdict) = [.pass, .pass] ∧
      ¬ ∀ f ∈ (Fixture.batch 5 15).currentFacts, InScope Fixture.literalGlob (Fixture.policy .noNew).payload f →
        f.value.gt (Fixture.policy .noNew).payload.threshold →
          ∃ b, baselineValue [Fixture.measured 5] f = some b ∧
            b.gt (Fixture.policy .noNew).payload.threshold ∧ b.ge f.value := by
  refine ⟨_, rfl, by decide, ?_⟩
  intro h
  obtain ⟨b, hb, hgt, -⟩ := h (Fixture.measured 15) (by simp [Fixture.batch]) ⟨by decide, by decide⟩ (by decide)
  have hvalue : baselineValue [Fixture.measured 5] (Fixture.measured 15) = some (Fixture.measured 5).value := by
    decide
  obtain rfl := Option.some.inj (hb.symm.trans hvalue)
  revert hgt
  decide

end Ratchet

end RepoGraph.QualityPolicy
