import RepoGraph.Gate.Assemble

/-! Which evidence an obligation is judged on: what the last obligation of its key has asked for. It is its own
for every content of the store exactly when obligations of one key ask for the same evidence. -/

namespace RepoGraph.Gate

open Lib
open Indexer (Json)

inductive EvidenceRequest
  | archViolations (target : String)
  | coverage (target : String)
  | complexity (target : String)
  | hotspot (target : Option String)
  | moduleViolations
  | missingParams
  | unsupported
  deriving DecidableEq, Repr

def GateObligation.request {φ : Type} (obl : GateObligation φ) : EvidenceRequest :=
  match GateMethod.ofStr obl.method with
  | .archViolations =>
    match obl.target with
    | none => .missingParams
    | some target => .archViolations target
  | .coverageThreshold =>
    match obl.target, obl.threshold with
    | some target, some _ => .coverage target
    | _, _ => .missingParams
  | .complexityThreshold =>
    match obl.target, obl.threshold with
    | some target, some _ => .complexity target
    | _, _ => .missingParams
  | .hotspotThreshold =>
    match obl.threshold with
    | some _ => .hotspot obl.target
    | none => .missingParams
  | .moduleViolations => .moduleViolations
  | .unsupported => .unsupported

section Fetch

variable {φ : Type} [GateNumber φ] (storage : GateStorage φ) (repoUid snapshotUid now : String)

def evidenceFor : EvidenceRequest → Except GateError (MethodEvidence φ)
  | .archViolations target => do
    let boundaries ← ofStorage (storage.getBoundaryDeclarations repoUid)
    archEvidence storage snapshotUid target boundaries
  | .coverage target => do
    let rows ← ofStorage (storage.getCoverageMeasurements snapshotUid)
    let evidence ← measurementEvidence repoUid .coverage target rows
    pure (.coverageThreshold target evidence)
  | .complexity target => do
    let rows ← ofStorage (storage.getComplexityMeasurements snapshotUid)
    let evidence ← measurementEvidence repoUid .complexity target rows
    pure (.complexityThreshold target evidence)
  | .hotspot target => do
    let rows ← ofStorage (storage.getHotspotInferences snapshotUid)
    let evidence ← hotspotEvidence repoUid target rows
    pure (.hotspotThreshold target evidence)
  | .moduleViolations => do
    let evidence ← ofStorage (storage.evaluateModuleViolations repoUid snapshotUid)
    pure (.moduleViolations evidence)
  | .missingParams => .ok .targetMissing
  | .unsupported => .ok .unsupportedMethod

/-- What the caches hold is what the store answers. -/
structure Coherent (caches : Caches) : Prop where
  boundaries : ∀ v, caches.boundaries = some v → storage.getBoundaryDeclarations repoUid = .ok v
  coverage : ∀ v, caches.coverage = some v → storage.getCoverageMeasurements snapshotUid = .ok v
  complexity : ∀ v, caches.complexity = some v → storage.getComplexityMeasurements snapshotUid = .ok v
  hotspots : ∀ v, caches.hotspots = some v → storage.getHotspotInferences snapshotUid = .ok v

variable {storage repoUid snapshotUid now}

omit [GateNumber φ] in
lemma coherent_empty : Coherent storage repoUid snapshotUid .empty :=
  ⟨fun _ h => by simp [Caches.empty] at h, fun _ h => by simp [Caches.empty] at h,
    fun _ h => by simp [Caches.empty] at h, fun _ h => by simp [Caches.empty] at h⟩

def Alike (e e' : MethodEvidence φ) : Prop := ∀ obl : GateObligation φ, judge obl e = judge obl e'

lemma Alike.refl (e : MethodEvidence φ) : Alike e e := fun _ => rfl

variable (storage repoUid snapshotUid) in
def Agrees (fetched : Except GateError (MethodEvidence φ × Caches))
    (direct : Except GateError (MethodEvidence φ)) :
    Prop :=
  (∃ e, fetched = .error e ∧ direct = .error e) ∨
    ∃ evidence caches e, fetched = .ok (evidence, caches) ∧ direct = .ok e ∧ Alike evidence e ∧
      Coherent storage repoUid snapshotUid caches

lemma agrees_cached {α β : Type} {cache : Option α} {read : Except GateStorageError α} {keep : α → Caches}
    {caches : Caches} (parse : α → Except GateError β) (wrap : β → MethodEvidence φ)
    (hcaches : Coherent storage repoUid snapshotUid caches) (hcache : ∀ v, cache = some v → read = .ok v)
    (hkeep : ∀ v, read = .ok v → Coherent storage repoUid snapshotUid (keep v)) :
    Agrees storage repoUid snapshotUid
      (do
        let (v, caches) ← cached cache read keep caches
        let evidence ← parse v
        pure (wrap evidence, caches))
      (do
        let v ← ofStorage read
        let evidence ← parse v
        pure (wrap evidence)) := by
  have hfound : ∀ v caches', Coherent storage repoUid snapshotUid caches' →
      Agrees storage repoUid snapshotUid (parse v >>= fun evidence => pure (wrap evidence, caches'))
        (parse v >>= fun evidence => pure (wrap evidence)) := by
    intro v caches' hcoherent
    cases hparse : parse v with
    | error e => exact .inl ⟨e, rfl, rfl⟩
    | ok b => exact .inr ⟨wrap b, caches', wrap b, rfl, rfl, .refl _, hcoherent⟩
  cases cache with
  | some v =>
    rw [hcache v rfl]
    exact hfound v caches hcaches
  | none =>
    cases hread : read with
    | error e => exact .inl ⟨.storage e, rfl, rfl⟩
    | ok v => exact hfound v (keep v) (hkeep v hread)

lemma agrees_fetch (obl : GateObligation φ) {caches : Caches}
    (hcaches : Coherent storage repoUid snapshotUid caches) :
    Agrees storage repoUid snapshotUid (fetchEvidence storage repoUid snapshotUid obl caches)
      (evidenceFor storage repoUid snapshotUid obl.request) := by
  have hmissing : ∀ e, Alike e .targetMissing → Agrees storage repoUid snapshotUid (.ok (e, caches))
      (evidenceFor storage repoUid snapshotUid .missingParams) := fun e he =>
    .inr ⟨e, caches, .targetMissing, rfl, rfl, he, hcaches⟩
  have hthreshold : Alike (.thresholdMissing : MethodEvidence φ) .targetMissing := fun _ => rfl
  rw [fetchEvidence, GateObligation.request]
  cases GateMethod.ofStr obl.method with
  | archViolations =>
    cases obl.target with
    | none => exact hmissing _ (.refl _)
    | some target =>
      have hkeep : ∀ v, storage.getBoundaryDeclarations repoUid = .ok v →
          Coherent storage repoUid snapshotUid { caches with boundaries := some v } :=
        fun v hv => { hcaches with boundaries := fun w hw => by rw [← Option.some.inj hw]; exact hv }
      have hagrees := agrees_cached (archEvidence storage snapshotUid target) id hcaches hcaches.boundaries hkeep
      simp only [id, bind_pure] at hagrees
      exact hagrees
  | coverageThreshold =>
    cases obl.target with
    | none => exact hmissing _ (.refl _)
    | some target =>
      cases obl.threshold with
      | none => exact hmissing _ hthreshold
      | some _ =>
        exact agrees_cached (measurementEvidence repoUid .coverage target) (.coverageThreshold target) hcaches
          hcaches.coverage
          fun v hv => { hcaches with coverage := fun w hw => by rw [← Option.some.inj hw]; exact hv }
  | complexityThreshold =>
    cases obl.target with
    | none => exact hmissing _ (.refl _)
    | some target =>
      cases obl.threshold with
      | none => exact hmissing _ hthreshold
      | some _ =>
        exact agrees_cached (measurementEvidence repoUid .complexity target) (.complexityThreshold target) hcaches
          hcaches.complexity
          fun v hv => { hcaches with complexity := fun w hw => by rw [← Option.some.inj hw]; exact hv }
  | hotspotThreshold =>
    cases obl.threshold with
    | none => exact hmissing _ hthreshold
    | some _ =>
      exact agrees_cached (hotspotEvidence repoUid obl.target) (.hotspotThreshold obl.target) hcaches
        hcaches.hotspots
        fun v hv => { hcaches with hotspots := fun w hw => by rw [← Option.some.inj hw]; exact hv }
  | moduleViolations =>
    cases hread : storage.evaluateModuleViolations repoUid snapshotUid with
    | error e => exact .inl ⟨.storage e, rfl, by rw [evidenceFor, hread]; rfl⟩
    | ok evidence =>
      exact .inr ⟨.moduleViolations evidence, caches, .moduleViolations evidence, rfl,
        by rw [evidenceFor, hread]; rfl, .refl _, hcaches⟩
  | unsupported => exact .inr ⟨.unsupportedMethod, caches, .unsupportedMethod, rfl, rfl, .refl _, hcaches⟩

lemma pendingEvidence_ok {pairs : List (GateRequirement φ × GateObligation φ)} {caches : Caches}
    {out : List (ObligationKey × MethodEvidence φ)} (hcaches : Coherent storage repoUid snapshotUid caches)
    (h : pendingEvidence storage repoUid snapshotUid pairs caches = .ok out) :
    List.Forall₂ (fun pair entry => entry.1 = keyOf pair ∧
      ∃ e, evidenceFor storage repoUid snapshotUid pair.2.request = .ok e ∧ Alike entry.2 e) pairs out := by
  induction pairs generalizing caches out with
  | nil =>
    obtain rfl := Except.ok.inj h
    exact .nil
  | cons pair rest ih =>
    rw [pendingEvidence] at h
    obtain ⟨⟨evidence, caches'⟩, hfetch, h⟩ := bind_ok.mp h
    obtain ⟨more, hmore, h⟩ := bind_ok.mp h
    obtain rfl := Except.ok.inj h
    rcases agrees_fetch pair.2 hcaches with ⟨e, herr, -⟩ | ⟨evidence', caches'', e, hok,
      hdirect, halike, hcoherent⟩
    · rw [hfetch] at herr
      exact absurd herr (by simp)
    · rw [hfetch] at hok
      obtain ⟨rfl, rfl⟩ := Prod.mk.inj (Except.ok.inj hok)
      exact .cons ⟨rfl, e, hdirect, halike⟩ (ih hcoherent hmore)

lemma exists_pendingEvidence {pairs : List (GateRequirement φ × GateObligation φ)} {caches : Caches}
    (hcaches : Coherent storage repoUid snapshotUid caches)
    (h : ∀ pair ∈ pairs, ∃ e, evidenceFor storage repoUid snapshotUid pair.2.request = .ok e) :
    ∃ out, pendingEvidence storage repoUid snapshotUid pairs caches = .ok out := by
  induction pairs generalizing caches with
  | nil => exact ⟨[], rfl⟩
  | cons pair rest ih =>
    obtain ⟨e, he⟩ := h pair (by simp)
    rcases agrees_fetch pair.2 hcaches with ⟨e', -, herr⟩ | ⟨evidence, caches', -, hok, -, -, hcoherent⟩
    · rw [he] at herr
      exact absurd herr (by simp)
    · obtain ⟨more, hmore⟩ := ih hcoherent fun pair hpair => h pair (List.mem_cons_of_mem _ hpair)
      refine ⟨(keyOf pair, evidence) :: more, ?_⟩
      rw [pendingEvidence, hok, ok_bind]
      simp only [hmore]
      rfl

end Fetch

/-! Which kind of verdict a piece of evidence gives, whoever is judged on it. -/

inductive VerdictKind
  | judged
  | missing
  | unsupported
  deriving DecidableEq, Repr

def Verdict.kind : Verdict → VerdictKind
  | .pass | .fail => .judged
  | .missingEvidence => .missing
  | .unsupported => .unsupported

section Kinds

variable {φ : Type} [GateNumber φ]

def MethodEvidence.kind : MethodEvidence φ → VerdictKind
  | .archViolations _ _ hasAnyBoundaryForTarget _ => if hasAnyBoundaryForTarget then .judged else .missing
  | .coverageThreshold _ rows | .complexityThreshold _ rows | .hotspotThreshold _ rows =>
    if rows.isEmpty then .missing else .judged
  | .moduleViolations _ => .judged
  | .targetMissing | .thresholdMissing => .missing
  | .unsupportedMethod => .unsupported

lemma kind_passOrFail (pass : Bool) : (passOrFail pass).kind = .judged := by
  cases pass <;> rfl

lemma kind_judge (obl : GateObligation φ) (e : MethodEvidence φ) : (judge obl e).1.kind = e.kind := by
  cases e with
  | archViolations target counts hasAny inferred =>
    cases hasAny with
    | false => rfl
    | true => exact kind_passOrFail _
  | coverageThreshold target rows =>
    rw [judge, evaluateCoverageThreshold, MethodEvidence.kind]
    split
    · rfl
    · exact kind_passOrFail _
  | complexityThreshold target rows =>
    rw [judge, evaluateComplexityThreshold, MethodEvidence.kind]
    split
    · rfl
    · exact kind_passOrFail _
  | hotspotThreshold target rows =>
    rw [judge, evaluateHotspotThreshold, MethodEvidence.kind]
    split
    · rfl
    · exact kind_passOrFail _
  | moduleViolations e => exact kind_passOrFail _
  | targetMissing => rfl
  | thresholdMissing => rfl
  | unsupportedMethod => rfl

def measurementRow (key : String) : GateMeasurement := ⟨key, .ok (.object [("value", .number "1")])⟩

def inferenceRow (key : String) : GateInference := ⟨key, .ok (.object [("normalized_score", .number "1")])⟩

/-- A store whose reads all succeed: these requirements, boundaries that no import crosses, and rows of these
keys. -/
def quietStorage (requirements : List (GateRequirement φ))
    (boundaries coverage complexity hotspots : List String) : GateStorage φ where
  getActiveRequirements _ := .ok requirements
  getBoundaryDeclarations _ := .ok (boundaries.map fun m => ⟨m, "", none⟩)
  findBoundaryImports _ _ _ := .ok []
  findInferredBoundaryImports _ _ _ := .ok []
  getCoverageMeasurements _ := .ok (coverage.map measurementRow)
  getComplexityMeasurements _ := .ok (complexity.map measurementRow)
  getHotspotInferences _ := .ok (hotspots.map inferenceRow)
  findWaivers _ _ _ _ _ := .ok []
  evaluateModuleViolations _ _ := .ok ⟨0, 0, []⟩
  getQualityAssessmentFactsForGate _ _ := .ok []

def judgedIf (b : Bool) : VerdictKind := if b then .judged else .missing

def quietKind (repoUid : String) (boundaries coverage complexity hotspots : List String) :
    EvidenceRequest → VerdictKind
  | .archViolations target => judgedIf (boundaries.any (· = target))
  | .coverage target => judgedIf (coverage.any (Text.startsWith · (targetPrefix repoUid target)))
  | .complexity target => judgedIf (complexity.any (Text.startsWith · (targetPrefix repoUid target)))
  | .hotspot (some target) => judgedIf (hotspots.any (Text.startsWith · (targetPrefix repoUid target)))
  | .hotspot none => judgedIf !hotspots.isEmpty
  | .moduleViolations => .judged
  | .missingParams => .missing
  | .unsupported => .unsupported

variable (requirements : List (GateRequirement φ)) (repoUid snapshotUid : String)
  (boundaries coverage complexity hotspots : List String)

omit [GateNumber φ] in
lemma rows_quiet {ρ : Type} (row : String → ρ) (key : ρ → String) (hkey : ∀ k, key (row k) = k)
    (parse : ρ → Except GateError (PolicyMeasurement φ)) (found : String → PolicyMeasurement φ)
    (hparse : ∀ k, parse (row k) = .ok (found k)) (p : String → Bool) (keys : List String) :
    ∃ rows, ((keys.map row).filter fun r => p (key r)).mapM parse = .ok rows ∧ rows.isEmpty = !keys.any p := by
  have hrows : (keys.map row).filter (fun r => p (key r)) = (keys.filter p).map row := by
    rw [List.filter_map]
    simp only [Function.comp_def, hkey]
  refine ⟨(keys.filter p).map found, ?_, ?_⟩
  · rw [hrows, List.mapM_map]
    exact mapM_eq_map fun k _ => hparse k
  · cases hany : keys.any p with
    | true =>
      obtain ⟨k, hk, hpk⟩ := List.any_eq_true.mp hany
      have hmem : k ∈ keys.filter p := List.mem_filter.mpr ⟨hk, hpk⟩
      rw [Bool.not_true, List.isEmpty_eq_false_iff]
      exact List.ne_nil_of_mem (List.mem_map_of_mem hmem)
    | false =>
      have hnone : keys.filter p = [] := List.filter_eq_nil_iff.mpr fun k hk => by
        simpa using List.any_eq_false.mp hany k hk
      rw [hnone]
      rfl

omit [GateNumber φ] in
lemma archEvidence_quiet (target : String) :
    ∃ e : MethodEvidence φ, archEvidence (quietStorage requirements boundaries coverage complexity hotspots)
        snapshotUid target
        (boundaries.map fun m => ⟨m, "", none⟩) = .ok e ∧ e.kind = judgedIf (boundaries.any (· = target)) := by
  rw [archEvidence]
  have hfilter : (boundaries.map fun m => (⟨m, "", none⟩ : GateBoundaryDeclaration)).filter
      (·.boundaryModule = target) = (boundaries.filter (· = target)).map fun m => ⟨m, "", none⟩ := by
    rw [List.filter_map]
    rfl
  rw [hfilter]
  cases hany : boundaries.any (· = target) with
  | true =>
    obtain ⟨m, hm, hmt⟩ := List.any_eq_true.mp hany
    have hmem : m ∈ boundaries.filter (· = target) := List.mem_filter.mpr ⟨hm, hmt⟩
    have hne : ((boundaries.filter (· = target)).map fun m =>
        (⟨m, "", none⟩ : GateBoundaryDeclaration)).isEmpty = false :=
      List.isEmpty_eq_false_iff.mpr (List.ne_nil_of_mem (List.mem_map_of_mem hmem))
    have hcross : ∀ b ∈ (boundaries.filter (· = target)).map fun m => (⟨m, "", none⟩ : GateBoundaryDeclaration),
        boundaryEvidence (quietStorage requirements boundaries coverage complexity hotspots) snapshotUid target b =
          .ok ((b.forbids, 0), (b.forbids, ⟨0, sortedDistinct []⟩)) := fun b _ => rfl
    simp only [hne, Bool.false_eq_true, if_false, mapM_eq_map hcross, ok_bind]
    exact ⟨_, rfl, rfl⟩
  | false =>
    have hnone : boundaries.filter (· = target) = [] := List.filter_eq_nil_iff.mpr fun m hm => by
      simpa using List.any_eq_false.mp hany m hm
    rw [hnone]
    exact ⟨_, rfl, rfl⟩

lemma evidenceFor_quiet (r : EvidenceRequest) :
    ∃ e : MethodEvidence φ, evidenceFor (quietStorage requirements boundaries coverage complexity hotspots) repoUid
        snapshotUid r = .ok e ∧ e.kind = quietKind repoUid boundaries coverage complexity hotspots r := by
  have hjudged : ∀ (rows : List (PolicyMeasurement φ)) (b : Bool), rows.isEmpty = !b →
      (if rows.isEmpty then VerdictKind.missing else .judged) = judgedIf b := by
    intro rows b h
    rw [h]
    cases b <;> rfl
  cases r with
  | archViolations target =>
    exact archEvidence_quiet requirements snapshotUid boundaries coverage complexity hotspots target
  | coverage target =>
    obtain ⟨rows, hrows, hempty⟩ := rows_quiet measurementRow GateMeasurement.targetStableKey (fun _ => rfl)
      (fun row => parseRow "coverage_threshold" "coverage measurement" "value" row.targetStableKey row.valueJson)
      (fun k => (⟨k, GateNumber.asF64 "1"⟩ : PolicyMeasurement φ)) (fun _ => rfl)
      (Text.startsWith · (targetPrefix repoUid target)) coverage
    have hfetch : measurementEvidence repoUid .coverage target (coverage.map measurementRow) = .ok rows := hrows
    refine ⟨.coverageThreshold target rows, ?_, hjudged rows _ hempty⟩
    change (measurementEvidence repoUid .coverage target (coverage.map measurementRow) >>= _) = _
    rw [hfetch]
    rfl
  | complexity target =>
    obtain ⟨rows, hrows, hempty⟩ := rows_quiet measurementRow GateMeasurement.targetStableKey (fun _ => rfl)
      (fun row => parseRow "complexity_threshold" "complexity measurement" "value"
        row.targetStableKey row.valueJson)
      (fun k => (⟨k, GateNumber.asF64 "1"⟩ : PolicyMeasurement φ)) (fun _ => rfl)
      (Text.startsWith · (targetPrefix repoUid target)) complexity
    have hfetch : measurementEvidence repoUid .complexity target (complexity.map measurementRow) =
      .ok rows := hrows
    refine ⟨.complexityThreshold target rows, ?_, hjudged rows _ hempty⟩
    change (measurementEvidence repoUid .complexity target (complexity.map measurementRow) >>= _) = _
    rw [hfetch]
    rfl
  | hotspot target =>
    have hrows := fun p => rows_quiet inferenceRow GateInference.targetStableKey (fun _ => rfl)
      (fun row => parseRow "hotspot_threshold" "hotspot inference" "normalized_score"
        row.targetStableKey row.valueJson)
      (fun k => (⟨k, GateNumber.asF64 "1"⟩ : PolicyMeasurement φ)) (fun _ => rfl) p hotspots
    have hfetch : ∃ rows : List (PolicyMeasurement φ),
        hotspotEvidence repoUid target (hotspots.map inferenceRow) = .ok rows ∧
          (if rows.isEmpty then VerdictKind.missing else .judged) =
            quietKind repoUid boundaries coverage complexity hotspots (.hotspot target) := by
      cases target with
      | some t =>
        obtain ⟨rows, hrows, hempty⟩ := hrows (Text.startsWith · (targetPrefix repoUid t))
        exact ⟨rows, hrows, hjudged rows _ hempty⟩
      | none =>
        obtain ⟨rows, hrows, hempty⟩ := hrows fun _ => true
        rw [List.filter_true] at hrows
        refine ⟨rows, hrows, hjudged rows _ ?_⟩
        rw [hempty, Bool.not_not]
        cases hotspots <;> rfl
    obtain ⟨rows, hrows, hkind⟩ := hfetch
    refine ⟨.hotspotThreshold target rows, ?_, hkind⟩
    change (hotspotEvidence repoUid target (hotspots.map inferenceRow) >>= _) = _
    rw [hrows]
    rfl
  | moduleViolations => exact ⟨_, rfl, rfl⟩
  | missingParams => exact ⟨_, rfl, rfl⟩
  | unsupported => exact ⟨_, rfl, rfl⟩

end Kinds

/-! Two different requests are told apart by some content of the store. -/

def Separable (repoUid : String) (r r' : EvidenceRequest) : Prop :=
  ∃ boundaries coverage complexity hotspots, quietKind repoUid boundaries coverage complexity hotspots r ≠
    quietKind repoUid boundaries coverage complexity hotspots r'

variable {repoUid : String} {r r' : EvidenceRequest}

lemma Separable.symm (h : Separable repoUid r r') : Separable repoUid r' r := by
  obtain ⟨b, c, x, hs, hne⟩ := h
  exact ⟨b, c, x, hs, hne.symm⟩

lemma startsWith_self (s : String) : Text.startsWith s s = true := by
  rw [Text.startsWith, List.isPrefixOf_iff_prefix]

lemma exists_key (repoUid : String) {t t' : String} (h : t ≠ t') : ∃ key,
    Text.startsWith key (targetPrefix repoUid t) ≠ Text.startsWith key (targetPrefix repoUid t') := by
  have honly : ∀ t t' : String, t ≠ t' →
      (targetPrefix repoUid t).toList.length ≤ (targetPrefix repoUid t').toList.length →
      Text.startsWith (targetPrefix repoUid t) (targetPrefix repoUid t') = false := by
    intro t t' hne hle
    by_contra hstarts
    have hbegins := List.isPrefixOf_iff_prefix.mp (Bool.eq_true_of_not_eq_false hstarts)
    have heq := hbegins.eq_of_length_le hle
    simp only [targetPrefix, String.toList_append, List.append_cancel_right_eq, List.append_cancel_left_eq] at heq
    exact hne (String.toList_inj.mp heq).symm
  rcases le_total (targetPrefix repoUid t).toList.length (targetPrefix repoUid t').toList.length with hle | hle
  · refine ⟨targetPrefix repoUid t, ?_⟩
    rw [startsWith_self, honly t t' h hle]
    simp
  · refine ⟨targetPrefix repoUid t', ?_⟩
    rw [startsWith_self, honly t' t h.symm hle]
    simp

lemma not_startsWith_empty (t : String) : Text.startsWith "" (targetPrefix repoUid t) = false := by
  by_contra hstarts
  have hbegins := List.isPrefixOf_iff_prefix.mp (Bool.eq_true_of_not_eq_false hstarts)
  have hnil := List.prefix_nil.mp hbegins
  simp [targetPrefix, String.toList_append] at hnil

lemma judgedIf_ne {b b' : Bool} (h : b ≠ b') : judgedIf b ≠ judgedIf b' := by
  cases b <;> cases b' <;> simp_all [judgedIf]

@[simp] lemma quietKind_no_hotspots (boundaries coverage complexity : List String) (target : Option String) :
    quietKind repoUid boundaries coverage complexity [] (.hotspot target) = .missing := by
  cases target <;> rfl

lemma separable_probe {boundaries coverage complexity hotspots : List String}
    (hself : quietKind repoUid boundaries coverage complexity hotspots r = .judged)
    (hother : quietKind repoUid boundaries coverage complexity hotspots r' ≠ .judged) : Separable repoUid r r' :=
  ⟨boundaries, coverage, complexity, hotspots, by rw [hself]; exact hother.symm⟩

lemma separable_moduleViolations (h : r ≠ .moduleViolations) : Separable repoUid .moduleViolations r := by
  have hother : quietKind repoUid [] [] [] [] r ≠ .judged := by
    cases r with
    | moduleViolations => exact absurd rfl h
    | hotspot target => simp
    | _ => simp [quietKind, judgedIf]
  exact separable_probe rfl hother

lemma separable_unsupported (h : r ≠ .unsupported) : Separable repoUid .unsupported r := by
  have hother : quietKind repoUid [] [] [] [] r ≠ .unsupported := by
    cases r with
    | unsupported => exact absurd rfl h
    | hotspot target => simp
    | _ => simp [quietKind, judgedIf]
  exact ⟨[], [], [], [], hother.symm⟩

lemma separable_archViolations {t : String}
    (h : r ≠ .archViolations t) : Separable repoUid (.archViolations t) r := by
  have hself : quietKind repoUid [t] [] [] [] (.archViolations t) = .judged := by simp [quietKind, judgedIf]
  cases r with
  | archViolations t' =>
    refine separable_probe hself ?_
    have hne : t ≠ t' := fun heq => h (by rw [heq])
    simp [quietKind, judgedIf, hne]
  | moduleViolations => exact (separable_moduleViolations (by simp)).symm
  | hotspot target => exact separable_probe hself (by simp)
  | _ => exact separable_probe hself (by simp [quietKind, judgedIf])

lemma separable_coverage {t : String} (h : r ≠ .coverage t) : Separable repoUid (.coverage t) r := by
  have hself : quietKind repoUid [] [targetPrefix repoUid t] [] [] (.coverage t) = .judged := by
    simp [quietKind, judgedIf, startsWith_self]
  cases r with
  | coverage t' =>
    obtain ⟨key, hkey⟩ := exists_key repoUid (fun heq => h (by rw [heq]) : t ≠ t')
    exact ⟨[], [key], [], [], judgedIf_ne (by simpa using hkey)⟩
  | moduleViolations => exact (separable_moduleViolations (by simp)).symm
  | hotspot target => exact separable_probe hself (by simp)
  | _ => exact separable_probe hself (by simp [quietKind, judgedIf])

lemma separable_complexity {t : String} (h : r ≠ .complexity t) : Separable repoUid (.complexity t) r := by
  have hself : quietKind repoUid [] [] [targetPrefix repoUid t] [] (.complexity t) = .judged := by
    simp [quietKind, judgedIf, startsWith_self]
  cases r with
  | complexity t' =>
    obtain ⟨key, hkey⟩ := exists_key repoUid (fun heq => h (by rw [heq]) : t ≠ t')
    exact ⟨[], [], [key], [], judgedIf_ne (by simpa using hkey)⟩
  | moduleViolations => exact (separable_moduleViolations (by simp)).symm
  | hotspot target => exact separable_probe hself (by simp)
  | _ => exact separable_probe hself (by simp [quietKind, judgedIf])

lemma separable_hotspots {target target' : Option String} (h : target ≠ target') :
    Separable repoUid (.hotspot target) (.hotspot target') := by
  cases target with
  | none =>
    cases target' with
    | none => exact absurd rfl h
    | some t' => exact ⟨[], [], [], [""], judgedIf_ne (by simp [not_startsWith_empty])⟩
  | some t =>
    cases target' with
    | none => exact ⟨[], [], [], [""], judgedIf_ne (by simp [not_startsWith_empty])⟩
    | some t' =>
      obtain ⟨key, hkey⟩ := exists_key repoUid (fun heq => h (by rw [heq]) : t ≠ t')
      exact ⟨[], [], [], [key], judgedIf_ne (by simpa using hkey)⟩

lemma separable_hotspot_missing (target : Option String) : Separable repoUid (.hotspot target) .missingParams := by
  have hself : ∃ key, quietKind repoUid [] [] [] [key] (.hotspot target) = .judged := by
    cases target with
    | none => exact ⟨"", rfl⟩
    | some t => exact ⟨targetPrefix repoUid t, by simp [quietKind, judgedIf, startsWith_self]⟩
  obtain ⟨key, hkey⟩ := hself
  exact separable_probe hkey (by simp [quietKind])

lemma separable (repoUid : String) (h : r ≠ r') : Separable repoUid r r' := by
  cases r with
  | archViolations t => exact separable_archViolations h.symm
  | coverage t => exact separable_coverage h.symm
  | complexity t => exact separable_complexity h.symm
  | moduleViolations => exact separable_moduleViolations h.symm
  | unsupported => exact separable_unsupported h.symm
  | hotspot target =>
    cases r' with
    | hotspot target' => exact separable_hotspots fun heq => h (by rw [heq])
    | archViolations t => exact (separable_archViolations h).symm
    | coverage t => exact (separable_coverage h).symm
    | complexity t => exact (separable_complexity h).symm
    | moduleViolations => exact (separable_moduleViolations h).symm
    | unsupported => exact (separable_unsupported h).symm
    | missingParams => exact separable_hotspot_missing target
  | missingParams =>
    cases r' with
    | hotspot target => exact (separable_hotspot_missing target).symm
    | missingParams => exact absurd rfl h
    | archViolations t => exact (separable_archViolations h).symm
    | coverage t => exact (separable_coverage h).symm
    | complexity t => exact (separable_complexity h).symm
    | moduleViolations => exact (separable_moduleViolations h).symm
    | unsupported => exact (separable_unsupported h).symm

/-! The report, obligation by obligation. -/

section Report

variable {φ : Type} [GateNumber φ] {storage : GateStorage φ} {snapshotUid now : String} {mode : GateMode}
  {requirements : List (GateRequirement φ)}

abbrev Pair (φ : Type) := GateRequirement φ × GateObligation φ

/-- The last obligation of a key: its evidence is the one that stays. -/
def lastOf (pairs : List (Pair φ)) (key : ObligationKey) : Option (Pair φ) :=
  pairs.reverse.find? (fun p => keyOf p = key)

omit [GateNumber φ] in
lemma lastOf_of_mem {pairs : List (Pair φ)} {pair : Pair φ} (h : pair ∈ pairs) :
    ∃ last, lastOf pairs (keyOf pair) = some last ∧ last ∈ pairs ∧ keyOf last = keyOf pair := by
  cases hlast : lastOf pairs (keyOf pair) with
  | none =>
    have hnone := List.find?_eq_none.mp hlast pair (List.mem_reverse.mpr h)
    simp at hnone
  | some last =>
    exact ⟨last, rfl, List.mem_reverse.mp (List.mem_of_find?_eq_some hlast), by simpa using List.find?_some hlast⟩

omit [GateNumber φ] in
lemma lookup_evidence {pairs : List (Pair φ)} {out : List (ObligationKey × MethodEvidence φ)}
    {p : Pair φ → MethodEvidence φ → Prop}
    (hout : List.Forall₂ (fun pair entry => entry.1 = keyOf pair ∧ p pair entry.2) pairs out)
    {key : ObligationKey} {last : Pair φ} (hlast : lastOf pairs key = some last) :
    ∃ e, (IterMap.ofPairs out).lookup key = some e ∧ p last e := by
  have hrev := List.rel_reverse hout
  rw [lastOf] at hlast
  rw [IterMap.lookup_ofPairs]
  generalize pairs.reverse = l at hlast hrev
  generalize out.reverse = l' at hrev
  induction hrev with
  | nil => simp at hlast
  | @cons pair entry rest more hhead _ ih =>
    rw [List.find?_cons] at hlast ⊢
    by_cases hkey : keyOf pair = key
    · have hentry : entry.1 = key := hhead.1.trans hkey
      simp only [hkey, decide_true, Option.some.injEq] at hlast
      subst hlast
      simp only [hentry, decide_true]
      exact ⟨entry.2, rfl, hhead.2⟩
    · have hentry : entry.1 ≠ key := fun h => hkey (hhead.1.symm.trans h)
      simp only [hkey, decide_false] at hlast
      simp only [hentry, decide_false]
      exact ih hlast

lemma exists_of_forall₂ {α β : Type} {p : α → β → Prop} {l : List α} {l' : List β}
    (h : List.Forall₂ p l l') {a : α} (ha : a ∈ l) : ∃ b, p a b := by
  induction h with
  | nil => simp at ha
  | cons hab _ ih =>
    rcases List.mem_cons.mp ha with rfl | ha
    · exact ⟨_, hab⟩
    · exact ih ha

def JudgedOn (obl : GateObligation φ) (e : MethodEvidence φ) (eval : ObligationEvaluation φ) : Prop :=
  eval.computedVerdict = (judge obl e).1 ∧ eval.evidence = stateNothingJudgedWhenAbsent obl.method (judge obl e).2

lemma judgedOn_overlay (req : GateRequirement φ) (obl : GateObligation φ) (e : MethodEvidence φ)
    (waivers : List GateWaiver) : JudgedOn obl e (applyWaiverOverlay (evaluateObligation req obl e) waivers) := by
  simp only [applyWaiverOverlay]
  split
  · exact ⟨rfl, rfl⟩
  · split
    · exact ⟨rfl, rfl⟩
    · exact ⟨rfl, rfl⟩

lemma JudgedOn.congr {obl : GateObligation φ} {e e' : MethodEvidence φ} {eval : ObligationEvaluation φ}
    (h : JudgedOn obl e eval) (halike : Alike e e') : JudgedOn obl e' eval := by
  rw [JudgedOn, ← halike obl]
  exact h

lemma ofStorage_ok {α : Type} {read : Except GateStorageError α} {a : α} : ofStorage read = .ok a ↔
    read = .ok a := by
  cases read with
  | error e => simp [ofStorage, Except.mapError]
  | ok b => simp [ofStorage, Except.mapError]

omit [GateNumber φ] in
lemma pendingWaivers_ok {pairs : List (Pair φ)} :
    (∃ out, pendingWaivers storage repoUid now pairs = .ok out) ↔ ∀ pair ∈ pairs,
      ∃ w, storage.findWaivers repoUid pair.1.reqId pair.1.version pair.2.obligationId now = .ok w := by
  constructor
  · rintro ⟨out, hout⟩ pair hpair
    obtain ⟨entry, hentry⟩ := of_mapM hout hpair
    obtain ⟨w, hw, -⟩ := bind_ok.mp hentry
    exact ⟨w, ofStorage_ok.mp hw⟩
  · intro h
    refine exists_mapM fun pair hpair => ?_
    obtain ⟨w, hw⟩ := h pair hpair
    exact ⟨(keyOf pair, w), by rw [ofStorage_ok.mpr hw]; rfl⟩

lemma assembleFromRequirements_ok {report : GateReport φ}
    (h : assembleFromRequirements storage repoUid snapshotUid now mode requirements = .ok report) :
    (∃ facts, storage.getQualityAssessmentFactsForGate repoUid snapshotUid = .ok facts) ∧
      (∀ pair ∈ obligationsOf requirements,
        (∃ e, evidenceFor storage repoUid snapshotUid pair.2.request = .ok e) ∧
          ∃ w, storage.findWaivers repoUid pair.1.reqId pair.1.version pair.2.obligationId now = .ok w) ∧
      ∃ evalOf : Pair φ → ObligationEvaluation φ, report.obligations = (obligationsOf requirements).map evalOf ∧
        ∀ pair last, lastOf (obligationsOf requirements) (keyOf pair) = some last →
          ∃ e, evidenceFor storage repoUid snapshotUid last.2.request = .ok e ∧
          JudgedOn pair.2 e (evalOf pair) := by
  obtain ⟨facts, hfacts, h⟩ := bind_ok.mp h
  obtain ⟨evidence, hevidence, h⟩ := bind_ok.mp h
  obtain ⟨waivers, hwaivers, h⟩ := bind_ok.mp h
  obtain rfl := Except.ok.inj h
  have hpending := pendingEvidence_ok coherent_empty hevidence
  refine ⟨⟨facts, ofStorage_ok.mp hfacts⟩, fun pair hpair =>
    ⟨?_, pendingWaivers_ok.mp ⟨waivers, hwaivers⟩ pair hpair⟩, ?_⟩
  · obtain ⟨entry, -, e, he, -⟩ := exists_of_forall₂ hpending hpair
    exact ⟨e, he⟩
  · refine ⟨_, rfl, ?_⟩
    intro pair last hlast
    obtain ⟨found, hfound, e, he, halike⟩ := lookup_evidence (p := fun pair found =>
      ∃ e, evidenceFor storage repoUid snapshotUid pair.2.request = .ok e ∧ Alike found e) hpending hlast
    refine ⟨e, he, ?_⟩
    simp only [hfound, Option.getD_some]
    exact (judgedOn_overlay ..).congr halike

lemma exists_report (hfacts : ∃ facts, storage.getQualityAssessmentFactsForGate repoUid snapshotUid = .ok facts)
    (h : ∀ pair ∈ obligationsOf requirements,
      (∃ e, evidenceFor storage repoUid snapshotUid pair.2.request = .ok e) ∧
        ∃ w, storage.findWaivers repoUid pair.1.reqId pair.1.version pair.2.obligationId now = .ok w) :
    ∃ report, assembleFromRequirements storage repoUid snapshotUid now mode requirements = .ok report := by
  obtain ⟨facts, hfacts⟩ := hfacts
  obtain ⟨evidence, hevidence⟩ := exists_pendingEvidence coherent_empty fun pair hpair => (h pair hpair).1
  obtain ⟨waivers, hwaivers⟩ := pendingWaivers_ok.mpr fun pair hpair => (h pair hpair).2
  rw [assembleFromRequirements, ofStorage_ok.mpr hfacts, ok_bind, hevidence, ok_bind, hwaivers, ok_bind]
  exact ⟨_, rfl⟩

def alone (pair : Pair φ) : List (GateRequirement φ) := [{ pair.1 with obligations := [pair.2] }]

/-- Whenever a report is given, each obligation has in it the verdict and the evidence that it has in the report
of itself alone. -/
def JudgedAsAlone (storage : GateStorage φ) (repoUid snapshotUid now : String) (mode : GateMode)
    (requirements : List (GateRequirement φ)) : Prop :=
  ∀ report, assemble storage repoUid snapshotUid now mode = .ok report →
    List.Forall₂ (fun pair eval => ∃ own ownEval,
        assembleFromRequirements storage repoUid snapshotUid now mode (alone pair) = .ok own ∧
          own.obligations = [ownEval] ∧ eval.computedVerdict = ownEval.computedVerdict ∧
          eval.evidence = ownEval.evidence)
      (obligationsOf requirements) report.obligations

variable (now mode) in
lemma alone_report {pair : Pair φ}
    (hfacts : ∃ facts, storage.getQualityAssessmentFactsForGate repoUid snapshotUid = .ok facts)
    (hpair : (∃ e, evidenceFor storage repoUid snapshotUid pair.2.request = .ok e) ∧
      ∃ w, storage.findWaivers repoUid pair.1.reqId pair.1.version pair.2.obligationId now = .ok w) :
    ∃ own ownEval e, assembleFromRequirements storage repoUid snapshotUid now mode (alone pair) = .ok own ∧
      own.obligations = [ownEval] ∧ evidenceFor storage repoUid snapshotUid pair.2.request = .ok e ∧
      JudgedOn pair.2 e ownEval := by
  have hpairs : obligationsOf (alone pair) = [({ pair.1 with obligations := [pair.2] }, pair.2)] := rfl
  have hgiven : ∃ own, assembleFromRequirements storage repoUid snapshotUid now mode (alone pair) = .ok own := by
    refine exists_report hfacts ?_
    rw [hpairs]
    simpa using hpair
  obtain ⟨own, hown⟩ := hgiven
  obtain ⟨-, -, evalOf, hevals, hjudged⟩ := assembleFromRequirements_ok hown
  obtain ⟨e, he, hjudged⟩ := hjudged ({ pair.1 with obligations := [pair.2] }, pair.2) _ (by
    rw [hpairs, lastOf]
    exact List.find?_cons_of_pos (by simp))
  exact ⟨own, _, e, hown, hevals, he, hjudged⟩

/-- Each obligation has its own evidence, whatever the store holds, exactly when obligations of one key ask for
the same: the same method and target, with the parameters that the method needs. -/
theorem judgedAsAlone_iff (repoUid snapshotUid now : String) (mode : GateMode)
    (requirements : List (GateRequirement φ)) :
    (∀ storage : GateStorage φ, storage.getActiveRequirements repoUid = .ok requirements →
      JudgedAsAlone storage repoUid snapshotUid now mode requirements) ↔
    ∀ pair ∈ obligationsOf requirements, ∀ pair' ∈ obligationsOf requirements, keyOf pair = keyOf pair' →
      pair.2.request = pair'.2.request := by
  constructor
  · intro h
    -- each obligation asks for what the last of its key asks for, as two different requests are told apart
    have hlast : ∀ pair ∈ obligationsOf requirements, ∀ last,
        lastOf (obligationsOf requirements) (keyOf pair) = some last → pair.2.request = last.2.request := by
      intro pair hpair last hlast
      by_contra hne
      obtain ⟨boundaries, coverage, complexity, hotspots, hkind⟩ := separable repoUid hne
      let storage : GateStorage φ := quietStorage requirements boundaries coverage complexity hotspots
      have hquiet := fun r => evidenceFor_quiet requirements repoUid snapshotUid boundaries
        coverage complexity hotspots r
      have hreads : ∀ pair ∈ obligationsOf requirements,
          (∃ e, evidenceFor storage repoUid snapshotUid pair.2.request = .ok e) ∧
            ∃ w, storage.findWaivers repoUid pair.1.reqId pair.1.version pair.2.obligationId now = .ok w := by
        intro pair _
        obtain ⟨e, he, -⟩ := hquiet pair.2.request
        exact ⟨⟨e, he⟩, [], rfl⟩
      have hgiven : ∃ report, assembleFromRequirements storage repoUid snapshotUid now mode requirements =
          .ok report :=
        exists_report ⟨[], rfl⟩ hreads
      obtain ⟨report, hreport⟩ := hgiven
      have hown := h storage rfl report hreport
      obtain ⟨-, -, evalOf, hevals, hjudged⟩ := assembleFromRequirements_ok hreport
      rw [hevals, List.forall₂_map_right_iff, List.forall₂_same] at hown
      obtain ⟨own, ownEval, hown, hobligations, hverdict, -⟩ := hown pair hpair
      obtain ⟨own', ownEval', e, hown', hobligations', he, halone⟩ :=
        alone_report now mode ⟨[], rfl⟩ (hreads pair hpair)
      obtain rfl : own = own' := by
        rw [hown] at hown'
        exact Except.ok.inj hown'
      obtain rfl : ownEval = ownEval' := by
        rw [hobligations] at hobligations'
        exact (List.cons.inj hobligations').1
      obtain ⟨e', he', hgiven⟩ := hjudged pair last hlast
      obtain ⟨q, hq, hqkind⟩ := hquiet pair.2.request
      obtain ⟨q', hq', hqkind'⟩ := hquiet last.2.request
      obtain rfl : e = q := by
        rw [he] at hq
        exact Except.ok.inj hq
      obtain rfl : e' = q' := by
        rw [he'] at hq'
        exact Except.ok.inj hq'
      refine hkind ?_
      rw [← hqkind, ← hqkind', ← kind_judge pair.2 e, ← kind_judge pair.2 e', ← halone.1, ← hgiven.1, hverdict]
    intro pair hpair pair' hpair' hkey
    obtain ⟨last, hsome, -, -⟩ := lastOf_of_mem hpair
    rw [hlast pair hpair last hsome, hlast pair' hpair' last (by rw [← hkey]; exact hsome)]
  · intro h storage hrequirements report hreport
    have hassembled : assembleFromRequirements storage repoUid snapshotUid now mode requirements = .ok report := by
      rw [assemble, ofStorage_ok.mpr hrequirements] at hreport
      exact hreport
    obtain ⟨hfacts, hreads, evalOf, hevals, hjudged⟩ := assembleFromRequirements_ok hassembled
    rw [hevals, List.forall₂_map_right_iff, List.forall₂_same]
    intro pair hpair
    obtain ⟨own, ownEval, e, hown, hobligations, he, halone⟩ := alone_report now mode hfacts (hreads pair hpair)
    obtain ⟨last, hsome, hmem, hkey⟩ := lastOf_of_mem hpair
    obtain ⟨e', he', hgiven⟩ := hjudged pair last hsome
    obtain rfl : e = e' := by
      rw [h pair hpair last hmem hkey.symm, he'] at he
      exact (Except.ok.inj he).symm
    refine ⟨own, ownEval, hown, hobligations, ?_, ?_⟩
    · rw [hgiven.1, halone.1]
    · rw [hgiven.2, halone.2]

end Report

section Sample

def digits (text : String) : ℤ := text.toList.foldl (fun n c => 10 * n + (c.toNat - '0'.toNat)) 0

instance integers : GateNumber ℤ where
  asF64 text := digits text
  asI64 text := some (digits text)
  toJson n := .number (toString n)
  zero := 0
  negInfinity := 0
  sum := List.sum
  divBy n k := n / k
  roundToFour := id
  max := Max.max
  ge a b := decide (a ≥ b)
  gt a b := decide (a > b)
  le a b := decide (a ≤ b)
  lt a b := decide (a < b)
  near a b := decide (a = b)

def repeatedDeclaration : List (String × JsonText) :=
  [("decl_1", .ok (.object [("req_id", .string "REQ-1"), ("version", .number "1"), ("verification", .array
    [.object [("obligation_id", .string "o1"), ("obligation", .string "the core imports no adapter"),
      ("method", .string "arch_violations"), ("target", .string "src/core")],
     .object [("obligation_id", .string "o1"), ("obligation", .string "the modules keep their boundaries"),
      ("method", .string "module_violations")]])]))]

def coreImportsAdapter : GateObligation ℤ :=
  { obligationId := "o1", obligation := "the core imports no adapter", method := "arch_violations",
    target := some "src/core", threshold := none, operator := none }

def modulesKeepBoundaries : GateObligation ℤ :=
  { obligationId := "o1", obligation := "the modules keep their boundaries", method := "module_violations",
    target := none, threshold := none, operator := none }

def repeatedRequirement : GateRequirement ℤ :=
  { reqId := "REQ-1", version := 1, obligations := [coreImportsAdapter, modulesKeepBoundaries] }

/-- The core imports an adapter; the discovered modules have no violation. -/
def violatedStorage : GateStorage ℤ :=
  { quietStorage [repeatedRequirement] [] [] [] [] with
    getBoundaryDeclarations := fun _ => .ok [⟨"src/core", "src/adapters", none⟩]
    findBoundaryImports := fun _ _ _ => .ok [⟨"src/core/run.rs", "src/adapters/db.rs"⟩] }

def verdictsOf (report : GateReport ℤ) : List Verdict × ℕ :=
  (report.obligations.map (·.computedVerdict), report.outcome.exitCode)

def gateOf (requirements : List (GateRequirement ℤ)) : Except GateError (GateReport ℤ) :=
  assembleFromRequirements violatedStorage "r1" "s1" "2026-01-01T00:00:00Z" .default requirements

lemma exists_of_verdicts {result : Except GateError (GateReport ℤ)} {verdicts : List Verdict × ℕ}
    (h : result.map verdictsOf = .ok verdicts) : ∃ report, result = .ok report ∧ verdictsOf report = verdicts := by
  cases result with
  | error e => simp [Except.map] at h
  | ok report => exact ⟨report, rfl, Except.ok.inj h⟩

/-- The violation of the first obligation is judged on the evidence of the second, and the gate passes. -/
theorem repeated_obligation_passes :
    getActiveRequirementDeclarations repeatedDeclaration = .ok [repeatedRequirement] ∧
    (assemble violatedStorage "r1" "s1" "2026-01-01T00:00:00Z" .default).map verdictsOf = .ok ([.pass, .pass], 0) ∧
    (gateOf (alone (repeatedRequirement, coreImportsAdapter))).map verdictsOf = .ok ([.fail], 1) ∧
    ¬ JudgedAsAlone violatedStorage "r1" "s1" "2026-01-01T00:00:00Z" .default [repeatedRequirement] := by
  have hboth : (assemble violatedStorage "r1" "s1" "2026-01-01T00:00:00Z" .default).map verdictsOf =
      .ok ([.pass, .pass], 0) := by decide
  have halone : (gateOf (alone (repeatedRequirement, coreImportsAdapter))).map verdictsOf = .ok ([.fail], 1) := by
    decide
  refine ⟨rfl, hboth, halone, fun h => ?_⟩
  obtain ⟨report, hreport, hverdicts⟩ := exists_of_verdicts hboth
  obtain ⟨own, hown, hfail⟩ := exists_of_verdicts halone
  have hpairs : obligationsOf [repeatedRequirement] =
      [(repeatedRequirement, coreImportsAdapter), (repeatedRequirement, modulesKeepBoundaries)] := rfl
  have hjudged := h report hreport
  rw [hpairs, List.forall₂_cons_left_iff] at hjudged
  obtain ⟨eval, rest, ⟨own', ownEval, hown', hobligations, hverdict, -⟩, -, hevals⟩ := hjudged
  obtain rfl : own = own' := Except.ok.inj (hown.symm.trans hown')
  simp only [verdictsOf, hevals, List.map_cons, Prod.mk.injEq, List.cons.injEq] at hverdicts
  simp only [verdictsOf, hobligations, List.map_cons, Prod.mk.injEq, List.cons.injEq] at hfail
  rw [hverdicts.1.1, hfail.1.1] at hverdict
  exact absurd hverdict (by decide)

end Sample

end RepoGraph.Gate
