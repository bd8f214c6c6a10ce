import RepoGraph.Gate.Compute

/-! The reduction of a gate: an outcome is read off the signals of its obligations and quality facts, whatever
their order and number. -/

namespace RepoGraph.Gate

open Lib

inductive Signal
  | clear
  | fails
  | incomplete
  deriving DecidableEq, Repr

def EffectiveVerdict.signal : EffectiveVerdict → Signal
  | .pass | .waived => .clear
  | .fail => .fails
  | .missingEvidence | .unsupported => .incomplete

lemma EffectiveVerdict.signal_eq_clear_iff (v : EffectiveVerdict) : v.signal = .clear ↔
    v = .pass ∨ v = .waived := by
  cases v <;> simp [EffectiveVerdict.signal]

def GateQualityAssessmentFact.signal (fact : GateQualityAssessmentFact) : Signal :=
  match fact.assessmentState, fact.computedVerdict, fact.severity with
  | .missing, _, _ | .present, none, _ | .present, some .notComparable, _ => .incomplete
  | .present, some .fail, .fail => .fails
  | .present, some .pass, _ | .present, some .fail, .advisory | .present, some .notApplicable, _ => .clear

def settle (mode : GateMode) (signals : List Signal) : String × ℕ :=
  if .fails ∈ signals then ("fail", 1)
  else if .incomplete ∈ signals then
    match mode with
    | .default => ("incomplete", 2)
    | .strict => ("fail", 1)
    | .advisory => ("pass", 0)
  else ("pass", 0)

section Settle

variable {mode : GateMode} {signals signals' : List Signal} {s : Signal}

lemma settle_congr (h : ∀ s, s ∈ signals ↔ s ∈ signals') : settle mode signals = settle mode signals' := by
  simp only [settle, h]

lemma settle_fail_iff : (settle mode signals).1 = "fail" ↔
    .fails ∈ signals ∨ mode = .strict ∧ .incomplete ∈ signals := by
  unfold settle
  by_cases hfails : Signal.fails ∈ signals
  · simp [hfails]
  · by_cases hincomplete : Signal.incomplete ∈ signals
    · cases mode <;> simp [hfails, hincomplete]
    · simp [hfails, hincomplete]

lemma settle_pass_iff : (settle mode signals).1 = "pass" ↔
    .fails ∉ signals ∧ (mode = .advisory ∨ .incomplete ∉ signals) := by
  unfold settle
  by_cases hfails : Signal.fails ∈ signals
  · simp [hfails]
  · by_cases hincomplete : Signal.incomplete ∈ signals
    · cases mode <;> simp [hfails, hincomplete]
    · simp [hfails, hincomplete]

lemma settle_exit : (settle mode signals).2 = 1 ↔ (settle mode signals).1 = "fail" := by
  unfold settle
  by_cases hfails : Signal.fails ∈ signals
  · simp [hfails]
  · by_cases hincomplete : Signal.incomplete ∈ signals
    · cases mode <;> simp [hfails, hincomplete]
    · simp [hfails, hincomplete]

lemma settle_fail_cons (h : (settle mode signals).1 = "fail") : (settle mode (s :: signals)).1 = "fail" := by
  rw [settle_fail_iff] at h ⊢
  rcases h with hfails | ⟨hmode, hincomplete⟩
  · exact .inl (List.mem_cons_of_mem _ hfails)
  · exact .inr ⟨hmode, List.mem_cons_of_mem _ hincomplete⟩

lemma settle_clear_cons : settle mode (.clear :: signals) = settle mode signals := by
  simp [settle]

lemma settle_strict_cons (h : (settle .strict signals).1 = "pass") :
    (settle .strict (s :: signals)).1 = "pass" ↔ s = .clear := by
  rw [settle_pass_iff] at h ⊢
  cases s <;> simp_all

end Settle

section Counts

variable {φ : Type}

lemma counts_sum (evals : List (ObligationEvaluation φ)) :
    let counts := gateCounts evals
    counts.pass + counts.fail + counts.waived + counts.missingEvidence + counts.unsupported = counts.total := by
  induction evals with
  | nil => rfl
  | cons eval evals ih =>
    simp only [gateCounts, countEffective, List.countP_cons, List.length_cons] at ih ⊢
    cases eval.effectiveVerdict <;> simp <;> omega

lemma countEffective_pos (evals : List (ObligationEvaluation φ)) (v : EffectiveVerdict) :
    0 < countEffective evals v ↔ v ∈ evals.map (·.effectiveVerdict) := by
  rw [countEffective, List.countP_pos_iff, List.mem_map]
  simp only [decide_eq_true_eq]

def GateQualityAssessmentFact.addsTo (fact : GateQualityAssessmentFact)
    (c : GateQualityCounts) : GateQualityCounts :=
  match fact.assessmentState, fact.computedVerdict, fact.severity with
  | .missing, _, _ => { c with missing := c.missing + 1 }
  | .present, some .pass, _ => { c with pass := c.pass + 1 }
  | .present, some .fail, .fail => { c with fail := c.fail + 1 }
  | .present, some .fail, .advisory => { c with advisoryFail := c.advisoryFail + 1 }
  | .present, some .notApplicable, _ => { c with notApplicable := c.notApplicable + 1 }
  | .present, some .notComparable, _ => { c with notComparable := c.notComparable + 1 }
  | .present, none, _ => { c with missing := c.missing + 1 }

def GateQualityCounts.judged (c : GateQualityCounts) : ℕ :=
  c.pass + c.fail + c.advisoryFail + c.missing + c.notComparable + c.notApplicable

variable {facts : List GateQualityAssessmentFact} {fact : GateQualityAssessmentFact} {c : GateQualityCounts}

lemma qualityCounts_eq (facts : List GateQualityAssessmentFact) :
    qualityCounts facts = facts.foldl (fun c fact => fact.addsTo c)
      { total := facts.length, pass := 0, fail := 0, advisoryFail := 0, missing := 0, notComparable := 0,
        notApplicable := 0 } := rfl

lemma addsTo_spec (fact : GateQualityAssessmentFact) (c : GateQualityCounts) :
    (fact.addsTo c).total = c.total ∧ (fact.addsTo c).judged = c.judged + 1 ∧
      (fact.addsTo c).fail = c.fail + (if fact.signal = .fails then 1 else 0) ∧
      (fact.addsTo c).missing + (fact.addsTo c).notComparable =
        c.missing + c.notComparable + (if fact.signal = .incomplete then 1 else 0) := by
  obtain ⟨policyId, policyVersion, policyKind, severity, assessmentState, computedVerdict, violationsCount⟩ := fact
  unfold GateQualityAssessmentFact.addsTo GateQualityAssessmentFact.signal GateQualityCounts.judged
  cases assessmentState with
  | missing => refine ⟨rfl, ?_, ?_, ?_⟩ <;> simp <;> omega
  | present =>
    cases computedVerdict with
    | none => refine ⟨rfl, ?_, ?_, ?_⟩ <;> simp <;> omega
    | some verdict =>
      cases verdict <;> cases severity <;> refine ⟨rfl, ?_, ?_, ?_⟩ <;> simp <;> omega

lemma foldl_addsTo (facts : List GateQualityAssessmentFact) (c : GateQualityCounts) :
    let counts := facts.foldl (fun c fact => fact.addsTo c) c
    counts.total = c.total ∧ counts.judged = c.judged + facts.length ∧
      counts.fail = c.fail + (facts.map (·.signal)).count .fails ∧
      counts.missing + counts.notComparable =
        c.missing + c.notComparable + (facts.map (·.signal)).count .incomplete := by
  induction facts generalizing c with
  | nil => exact ⟨rfl, rfl, rfl, rfl⟩
  | cons fact facts ih =>
    obtain ⟨htotal, hjudged, hfail, hincomplete⟩ := ih (fact.addsTo c)
    obtain ⟨htotal', hjudged', hfail', hincomplete'⟩ := addsTo_spec fact c
    simp only [List.foldl_cons, List.map_cons, List.count_cons, List.length_cons, beq_iff_eq]
    refine ⟨htotal.trans htotal', ?_, ?_, ?_⟩ <;> omega

lemma qualityCounts_spec (facts : List GateQualityAssessmentFact) :
    (qualityCounts facts).judged = (qualityCounts facts).total ∧ (qualityCounts facts).total = facts.length ∧
      (0 < (qualityCounts facts).fail ↔ .fails ∈ facts.map (·.signal)) ∧
      (0 < (qualityCounts facts).missing ∨ 0 < (qualityCounts facts).notComparable ↔
        .incomplete ∈ facts.map (·.signal)) := by
  rw [qualityCounts_eq]
  obtain ⟨htotal, hjudged, hfail, hincomplete⟩ := foldl_addsTo facts
    { total := facts.length, pass := 0, fail := 0, advisoryFail := 0, missing := 0, notComparable := 0,
      notApplicable := 0 }
  simp only [zero_add] at hfail hincomplete
  refine ⟨?_, htotal, ?_, ?_⟩
  · rw [hjudged, htotal]
    exact zero_add _
  · rw [hfail, List.count_pos_iff]
  · rw [← List.count_pos_iff, ← hincomplete]
    omega

lemma signal_mem_iff (evals : List (ObligationEvaluation φ)) :
    (.fails ∈ evals.map (·.effectiveVerdict.signal) ↔ 0 < countEffective evals .fail) ∧
      (.incomplete ∈ evals.map (·.effectiveVerdict.signal) ↔
        0 < countEffective evals .missingEvidence ∨ 0 < countEffective evals .unsupported) := by
  simp only [countEffective_pos, List.mem_map]
  constructor
  · constructor
    · rintro ⟨eval, heval, hsignal⟩
      refine ⟨eval, heval, ?_⟩
      cases hverdict : eval.effectiveVerdict <;> simp_all [EffectiveVerdict.signal]
    · rintro ⟨eval, heval, hverdict⟩
      exact ⟨eval, heval, by rw [hverdict]; rfl⟩
  · constructor
    · rintro ⟨eval, heval, hsignal⟩
      cases hverdict : eval.effectiveVerdict with
      | missingEvidence => exact .inl ⟨eval, heval, hverdict⟩
      | unsupported => exact .inr ⟨eval, heval, hverdict⟩
      | pass => simp [hverdict, EffectiveVerdict.signal] at hsignal
      | fail => simp [hverdict, EffectiveVerdict.signal] at hsignal
      | waived => simp [hverdict, EffectiveVerdict.signal] at hsignal
    · rintro (⟨eval, heval, hverdict⟩ | ⟨eval, heval, hverdict⟩)
      · exact ⟨eval, heval, by rw [hverdict]; rfl⟩
      · exact ⟨eval, heval, by rw [hverdict]; rfl⟩

end Counts

section Compute

variable {φ : Type} [GateNumber φ] {input input' : GateInput φ}

def evaluationOf (input : GateInput φ) (pair : GateRequirement φ × GateObligation φ) : ObligationEvaluation φ :=
  applyWaiverOverlay (evaluateObligation pair.1 pair.2
    ((input.methodEvidence.lookup (keyOf pair)).getD .unsupportedMethod))
    ((input.matchingWaivers.lookup (keyOf pair)).getD [])

lemma compute_obligations (input : GateInput φ) :
    (compute input).obligations = (obligationsOf input.requirements).map (evaluationOf input) := rfl

def signals (input : GateInput φ) : List Signal :=
  (obligationsOf input.requirements).map (fun pair => (evaluationOf input pair).effectiveVerdict.signal) ++
    input.qualityAssessmentFacts.map (·.signal)

lemma outcome_eq (input : GateInput φ) :
    ((compute input).outcome.outcome, (compute input).outcome.exitCode) = settle input.mode (signals input) := by
  obtain ⟨hfails, hincomplete⟩ := signal_mem_iff (compute input).obligations
  obtain ⟨-, -, hfails', hincomplete'⟩ := qualityCounts_spec input.qualityAssessmentFacts
  have hsignals : signals input = (compute input).obligations.map (·.effectiveVerdict.signal) ++
      input.qualityAssessmentFacts.map (·.signal) := by
    rw [compute_obligations, List.map_map]
    rfl
  have hfail : (0 < (gateCounts (compute input).obligations).fail ∨
      0 < (qualityCounts input.qualityAssessmentFacts).fail) ↔ .fails ∈ signals input := by
    rw [hsignals, List.mem_append, hfails, ← hfails']
    rfl
  have hmissing : ((0 < (gateCounts (compute input).obligations).missingEvidence ∨
      0 < (gateCounts (compute input).obligations).unsupported) ∨
      0 < (qualityCounts input.qualityAssessmentFacts).missing ∨
      0 < (qualityCounts input.qualityAssessmentFacts).notComparable) ↔ .incomplete ∈ signals input := by
    rw [hsignals, List.mem_append, hincomplete, ← hincomplete']
    rfl
  change ((reduceOutcome (compute input).obligations input.qualityAssessmentFacts input.mode).outcome,
    (reduceOutcome (compute input).obligations input.qualityAssessmentFacts input.mode).exitCode) = _
  unfold reduceOutcome settle
  simp only [← Bool.decide_or, hfail, hmissing, gt_iff_lt]
  by_cases hf : Signal.fails ∈ signals input
  · cases input.mode <;> simp [hf]
  · by_cases hi : Signal.incomplete ∈ signals input
    · cases input.mode <;> simp [hf, hi]
    · cases input.mode <;> simp [hf, hi]

omit [GateNumber φ] in
lemma computed_of_overlay (eval : ObligationEvaluation φ) (waivers : List GateWaiver) :
    (applyWaiverOverlay eval waivers).computedVerdict = eval.computedVerdict := by
  unfold applyWaiverOverlay
  split
  · rfl
  · cases waivers <;> rfl

lemma effective_of_pass {pair : GateRequirement φ × GateObligation φ}
    (h : (evaluationOf input pair).computedVerdict = .pass) :
      (evaluationOf input pair).effectiveVerdict = .pass := by
  rw [evaluationOf, computed_of_overlay] at h
  unfold evaluationOf applyWaiverOverlay
  rw [if_pos h]
  change Verdict.effective _ = _
  rw [show (judge pair.2 ((input.methodEvidence.lookup (keyOf pair)).getD .unsupportedMethod)).1 = .pass from h]
  rfl

inductive Addition (φ : Type)
  | obligation (pair : GateRequirement φ × GateObligation φ)
  | quality (fact : GateQualityAssessmentFact)

/-- The second input has the addition in some place, and what the first one has is judged on the same evidence and
under the same waivers. -/
def Addition.Leads (input input' : GateInput φ) : Addition φ → Prop
  | .obligation pair =>
    (obligationsOf input'.requirements).Perm (pair :: obligationsOf input.requirements) ∧
      (∀ old ∈ obligationsOf input.requirements,
        input'.methodEvidence.lookup (keyOf old) = input.methodEvidence.lookup (keyOf old) ∧
          input'.matchingWaivers.lookup (keyOf old) = input.matchingWaivers.lookup (keyOf old)) ∧
      input'.qualityAssessmentFacts = input.qualityAssessmentFacts
  | .quality fact =>
    input'.requirements = input.requirements ∧ input'.methodEvidence = input.methodEvidence ∧
      input'.matchingWaivers = input.matchingWaivers ∧
      input'.qualityAssessmentFacts.Perm (fact :: input.qualityAssessmentFacts)

/-- A pass, a waived verdict, an advisory failure or an assessment that does not apply. -/
def Addition.NonBlocking (input : GateInput φ) : Addition φ → Prop
  | .obligation pair =>
    (evaluationOf input pair).effectiveVerdict = .pass ∨ (evaluationOf input pair).effectiveVerdict = .waived
  | .quality fact => fact.assessmentState = .present ∧
      (fact.computedVerdict = some .pass ∨ fact.computedVerdict = some .fail ∧ fact.severity = .advisory ∨
        fact.computedVerdict = some .notApplicable)

def Addition.signal (input : GateInput φ) : Addition φ → Signal
  | .obligation pair => (evaluationOf input pair).effectiveVerdict.signal
  | .quality fact => fact.signal

lemma nonBlocking_iff (addition : Addition φ) : addition.NonBlocking input ↔ addition.signal input = .clear := by
  cases addition with
  | obligation pair => exact (EffectiveVerdict.signal_eq_clear_iff _).symm
  | quality fact =>
    obtain ⟨policyId, policyVersion, policyKind, severity, assessmentState,
      computedVerdict, violationsCount⟩ := fact
    unfold Addition.NonBlocking Addition.signal GateQualityAssessmentFact.signal
    cases assessmentState with
    | missing => simp
    | present =>
      cases computedVerdict with
      | none => simp
      | some verdict => cases verdict <;> cases severity <;> simp

lemma evaluationOf_congr {pair : GateRequirement φ × GateObligation φ}
    (h : input'.methodEvidence.lookup (keyOf pair) = input.methodEvidence.lookup (keyOf pair) ∧
      input'.matchingWaivers.lookup (keyOf pair) = input.matchingWaivers.lookup (keyOf pair)) :
    evaluationOf input' pair = evaluationOf input pair := by
  rw [evaluationOf, evaluationOf, h.1, h.2]

lemma mem_signals_of_leads {addition : Addition φ} (h : addition.Leads input input') (s : Signal) :
    s ∈ signals input' ↔ s ∈ addition.signal input' :: signals input := by
  cases addition with
  | obligation pair =>
    obtain ⟨hperm, hlookup, hfacts⟩ := h
    have hold : (obligationsOf input.requirements).map (fun pair =>
        (evaluationOf input' pair).effectiveVerdict.signal) =
        (obligationsOf input.requirements).map fun pair => (evaluationOf input pair).effectiveVerdict.signal := by
      apply List.map_congr_left
      intro old hold
      rw [evaluationOf_congr (hlookup old hold)]
    have hmem := ((hperm.map fun pair => (evaluationOf input' pair).effectiveVerdict.signal).mem_iff (a := s))
    rw [List.map_cons, hold] at hmem
    rw [signals, List.mem_append, hmem, hfacts, ← List.mem_append]
    rfl
  | quality fact =>
    obtain ⟨hrequirements, hevidence, hwaivers, hfacts⟩ := h
    have hold : evaluationOf input' = evaluationOf input := by
      funext pair
      rw [evaluationOf, evaluationOf, hevidence, hwaivers]
    have hmem := ((hfacts.map (·.signal)).mem_iff (a := s))
    rw [signals, List.mem_append, hmem, hrequirements, hold, List.map_cons, List.mem_cons, List.mem_cons, signals,
      List.mem_append]
    exact or_left_comm

variable (input) in
def outcomeUnder (mode : GateMode) : GateOutcome := (compute { input with mode }).outcome

lemma outcomeUnder_eq (input : GateInput φ) (mode : GateMode) :
    ((outcomeUnder input mode).outcome, (outcomeUnder input mode).exitCode) = settle mode (signals input) :=
  outcome_eq { input with mode }

lemma outcomeUnder_outcome (input : GateInput φ) (mode : GateMode) :
    (outcomeUnder input mode).outcome = (settle mode (signals input)).1 := by
  rw [← outcomeUnder_eq]

lemma outcomeUnder_exitCode (input : GateInput φ) (mode : GateMode) :
    (outcomeUnder input mode).exitCode = (settle mode (signals input)).2 := by
  rw [← outcomeUnder_eq]

lemma settle_of_leads {addition : Addition φ} (h : addition.Leads input input') (mode : GateMode) :
    settle mode (signals input') = settle mode (addition.signal input' :: signals input) :=
  settle_congr (mem_signals_of_leads h)

lemma passes_all_iff (input : GateInput φ) :
    (∀ mode, (outcomeUnder input mode).outcome = "pass") ↔ (settle .strict (signals input)).1 = "pass" := by
  simp only [outcomeUnder_outcome]
  constructor
  · exact fun h => h .strict
  · intro h mode
    rw [settle_pass_iff] at h ⊢
    exact ⟨h.1, .inr (h.2.resolve_left (by decide))⟩

structure ReductionLaws (input : GateInput φ) : Prop where
  waivers_keep_computed : ∀ waivers, (compute { input with matchingWaivers := waivers }).obligations.map
    (·.computedVerdict) = (compute input).obligations.map (·.computedVerdict)
  pass_not_waived : ∀ eval ∈ (compute input).obligations, eval.computedVerdict = .pass →
    eval.effectiveVerdict ≠ .waived
  verdicts_sum : let counts := (compute input).outcome.counts
    counts.pass + counts.fail + counts.waived + counts.missingEvidence + counts.unsupported = counts.total
  quality_sum : let counts := (compute input).outcome.qualityCounts
    counts.pass + counts.fail + counts.advisoryFail + counts.missing +
      counts.notComparable + counts.notApplicable = counts.total
  strict_default : (outcomeUnder input .strict).outcome = "pass" → (outcomeUnder input .default).outcome = "pass"
  default_advisory : (outcomeUnder input .default).outcome = "pass" →
    (outcomeUnder input .advisory).outcome = "pass"
  advisory_fail_iff : (outcomeUnder input .advisory).outcome = "fail" ↔
    (outcomeUnder input .default).outcome = "fail" ∧ (outcomeUnder input .default).exitCode = 1
  fail_stays : ∀ (input' : GateInput φ) (addition : Addition φ), addition.Leads input input' → ∀ mode,
    (outcomeUnder input mode).outcome = "fail" → (outcomeUnder input' mode).outcome = "fail"
  clear_changes_nothing : ∀ (input' : GateInput φ) (addition : Addition φ), addition.Leads input input' →
    addition.NonBlocking input' → ∀ mode, (outcomeUnder input' mode).outcome = (outcomeUnder input mode).outcome ∧
      (outcomeUnder input' mode).exitCode = (outcomeUnder input mode).exitCode
  pass_stays_iff : ∀ (input' : GateInput φ) (addition : Addition φ), addition.Leads input input' →
    (∀ mode, (outcomeUnder input mode).outcome = "pass") →
      ((∀ mode, (outcomeUnder input' mode).outcome = "pass") ↔ addition.NonBlocking input')

theorem gate_reduction_laws (input : GateInput φ) : ReductionLaws input where
  waivers_keep_computed waivers := by
    rw [compute_obligations, compute_obligations, List.map_map, List.map_map]
    apply List.map_congr_left
    intro pair _
    simp only [Function.comp_apply, evaluationOf, computed_of_overlay]
  pass_not_waived eval heval hpass := by
    rw [compute_obligations] at heval
    obtain ⟨pair, -, rfl⟩ := List.mem_map.mp heval
    rw [effective_of_pass hpass]
    decide
  verdicts_sum := counts_sum (compute input).obligations
  quality_sum := (qualityCounts_spec input.qualityAssessmentFacts).1
  strict_default h := by
    rw [outcomeUnder_outcome, settle_pass_iff] at h ⊢
    exact ⟨h.1, .inr (h.2.resolve_left (by decide))⟩
  default_advisory h := by
    rw [outcomeUnder_outcome, settle_pass_iff] at h ⊢
    exact ⟨h.1, .inl rfl⟩
  advisory_fail_iff := by
    rw [outcomeUnder_outcome, outcomeUnder_outcome, outcomeUnder_exitCode, settle_exit, and_self, settle_fail_iff,
      settle_fail_iff]
    simp
  fail_stays input' addition h mode hfail := by
    rw [outcomeUnder_outcome] at hfail ⊢
    rw [settle_of_leads h]
    exact settle_fail_cons hfail
  clear_changes_nothing input' addition h hclear mode := by
    rw [nonBlocking_iff] at hclear
    rw [outcomeUnder_outcome, outcomeUnder_outcome, outcomeUnder_exitCode,
      outcomeUnder_exitCode, settle_of_leads h, hclear, settle_clear_cons]
    exact ⟨rfl, rfl⟩
  pass_stays_iff input' addition h hpass := by
    rw [passes_all_iff] at hpass ⊢
    rw [settle_of_leads h, settle_strict_cons hpass, nonBlocking_iff]

end Compute

end RepoGraph.Gate
