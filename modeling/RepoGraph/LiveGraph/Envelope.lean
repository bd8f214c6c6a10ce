import RepoGraph.LiveGraph.State

/-! The two ways an answer is labelled: `finalizeEnvelope` for a lookup across partitions, and
`captureEnvelope` for a fold over the whole captured graph. -/

namespace RepoGraph.LiveGraph

open Lib Ir TrustModel

variable {α : Type}

def classifyCrossPartition (bases : List IdentityBasis) (freshness : FreshnessState)
    (reasons : List DegradationReason) (languages : Finset LanguageSupport) : AnswerClass :=
  let representative := ((LanguageSupport.all.filter (· ∈ languages)).getLast?).getD .typeScriptPrimary
  (classifyAnswer ⟨.callGraph, bases, freshness, reasons, representative⟩).1

def finalizeEnvelope (data : α) (classC : AnswerClass) (freshness : FreshnessState)
    (reasons : List DegradationReason) (missing : List String) (languages : Finset LanguageSupport) :
    Exec (AnswerEnvelope α) :=
  let scipDependentRefresh := freshness = .precisionPending
  let residencyIncomplete := missing ≠ [] ∧ classC = .exact
  let finalClass := if scipDependentRefresh ∨ residencyIncomplete then .incomplete else classC
  match finalClass with
  | .unavailable => .ok (.unavailable .unresolvedAlias freshness languages)
  | .stale => unwrapOr "stale invariant holds"
      (AnswerEnvelope.stale data freshness reasons missing [] languages)
  | .incomplete => unwrapOr "partial invariant holds"
      (AnswerEnvelope.incomplete (some data) reasons missing freshness [] languages)
  | .exact => unwrapOr "exact invariant holds" (AnswerEnvelope.exact data .complete .fresh [] languages)

def captureEnvelope (data : α) (missing : List String) (worst : FreshnessState)
    (languages : Finset LanguageSupport) : Exec (AnswerEnvelope α) :=
  if missing = [] ∧ worst = .fresh then
    unwrapOr "captured-graph exact invariant holds"
      (AnswerEnvelope.exact data .complete .fresh [] languages)
  else if missing ≠ [] then
    unwrapOr "captured-graph partial invariant holds"
      (AnswerEnvelope.incomplete (some data) [] missing worst [] languages)
  else
    unwrapOr "captured-graph stale invariant holds" (AnswerEnvelope.stale data worst [] [] [] languages)

def identityReasons (bases : List IdentityBasis) : List DegradationReason :=
  (if .scipSynthesized ∈ bases then [.scipFallbackIdentity] else []) ++
    (if .astFileScope ∈ bases then [.structuralNodeNoCallGraphContent] else [])

structure Contributing where
  freshness : FreshnessState
  epochs : BTreeMap String ℕ
  languages : Finset LanguageSupport

def Contributing.none : Contributing := ⟨.fresh, ∅, ∅⟩

def Contributing.add (acc : Contributing) (id : String) (s : Slot) : Contributing where
  freshness := worse acc.freshness (statusFreshness s.status)
  epochs := acc.epochs.insert id s.epoch
  languages := insert s.language acc.languages

def addContributing (g : LiveGraph) (acc : Contributing) (id : String) : Contributing :=
  match g.slot id with
  | some s => acc.add id s
  | none => acc

def foldContributing (g : LiveGraph) (ids : List String) : Contributing :=
  ids.foldl g.addContributing .none

def orTypeScript (languages : Finset LanguageSupport) : Finset LanguageSupport :=
  if languages = ∅ then {.typeScriptPrimary} else languages

lemma orTypeScript_nonempty (languages : Finset LanguageSupport) : (orTypeScript languages).Nonempty := by
  rw [orTypeScript]
  split
  · exact Finset.singleton_nonempty _
  · rename_i h
    exact Finset.nonempty_iff_ne_empty.mpr h

section Folds

variable {g : LiveGraph} {ids : List String}

lemma foldContributing_fresh : (g.foldContributing ids).freshness = .fresh ↔
    ∀ id ∈ ids, ∀ s, g.slot id = some s → s.status = .current := by
  have hfold : ∀ (ids : List String) (acc : Contributing),
      (ids.foldl g.addContributing acc).freshness = .fresh ↔ acc.freshness = .fresh ∧
        ∀ id ∈ ids, ∀ s, g.slot id = some s → s.status = .current := by
    intro ids
    induction ids with
    | nil => simp
    | cons id ids ih =>
      intro acc
      rw [List.foldl_cons, ih, addContributing]
      cases hs : g.slot id with
      | none => simp [hs]
      | some s =>
        simp only [Contributing.add, worse_eq_fresh, statusFreshness_eq_fresh, List.forall_mem_cons, hs,
          Option.some.injEq, forall_eq', and_assoc]
  rw [foldContributing, hfold]
  simp [Contributing.none]

lemma foldContributing_ne_unavailable (g : LiveGraph) (ids : List String) :
    (g.foldContributing ids).freshness ≠ .unavailable := by
  have hfold : ∀ (ids : List String) (acc : Contributing), acc.freshness ≠ .unavailable →
      (ids.foldl g.addContributing acc).freshness ≠ .unavailable := by
    intro ids
    induction ids with
    | nil => exact fun _ h => h
    | cons id ids ih =>
      intro acc hacc
      refine ih _ ?_
      rw [addContributing]
      split
      · exact worse_ne_unavailable hacc (statusFreshness_ne_unavailable _)
      · exact hacc
  exact hfold ids .none (by decide)

lemma mem_foldContributing_epochs {id : String} :
    id ∈ (g.foldContributing ids).epochs ↔ id ∈ ids ∧ ∃ s, g.slot id = some s := by
  have hfold : ∀ (ids : List String) (acc : Contributing),
      id ∈ (ids.foldl g.addContributing acc).epochs ↔
        id ∈ acc.epochs ∨ id ∈ ids ∧ ∃ s, g.slot id = some s := by
    intro ids
    induction ids with
    | nil => simp
    | cons id' ids ih =>
      intro acc
      rw [List.foldl_cons, ih, addContributing]
      cases hs : g.slot id' with
      | none => grind
      | some s =>
        simp only [Contributing.add, Std.ExtTreeMap.mem_insert, Std.compare_eq_iff_eq]
        grind
  rw [foldContributing, hfold]
  simp [Contributing.none]

lemma foldContributing_languages {id : String} {s : Slot} (hid : id ∈ ids) (hs : g.slot id = some s) :
    (g.foldContributing ids).languages.Nonempty := by
  have hmono : ∀ (ids : List String) (acc : Contributing), acc.languages.Nonempty →
      (ids.foldl g.addContributing acc).languages.Nonempty := by
    intro ids
    induction ids with
    | nil => exact fun _ h => h
    | cons id ids ih =>
      intro acc hacc
      refine ih _ ?_
      rw [addContributing]
      split
      · exact Finset.insert_nonempty _ _
      · exact hacc
  obtain ⟨before, after, rfl⟩ := List.append_of_mem hid
  rw [foldContributing, List.foldl_append, List.foldl_cons]
  refine hmono _ _ ?_
  rw [addContributing, hs]
  exact Finset.insert_nonempty _ _

end Folds

section Constructors

variable {languages : Finset LanguageSupport} (message : String)

lemma unwrapOr_exact (data : α) (provenance : List ProvenanceBasis) (hl : languages.Nonempty) :
    ∃ env, unwrapOr message (AnswerEnvelope.exact data .complete .fresh provenance languages) = .ok env ∧
      env.answerClass = .exact ∧ env.data = some data ∧ env.degradationReasons = [] := by
  rw [AnswerEnvelope.exact, dif_neg (by simp), dif_neg (by simp),
    dif_neg (Finset.nonempty_iff_ne_empty.mp hl)]
  exact ⟨_, rfl, rfl, rfl, rfl⟩

lemma unwrapOr_exactPrecisionPending (data : α) (proof : NotScipDependent) (provenance : List ProvenanceBasis)
    (hl : languages.Nonempty) :
    ∃ env, unwrapOr message (AnswerEnvelope.exactPrecisionPending data .complete proof provenance languages)
        = .ok env ∧
      env.answerClass = .exact ∧ env.data = some data ∧ env.degradationReasons = [] := by
  rw [AnswerEnvelope.exactPrecisionPending, dif_neg (by simp),
    dif_neg (Finset.nonempty_iff_ne_empty.mp hl)]
  exact ⟨_, rfl, rfl, rfl, rfl⟩

lemma unwrapOr_incomplete (data : Option α) (reasons : List DegradationReason) (missing : List String)
    (freshness : FreshnessState) (provenance : List ProvenanceBasis) (hl : languages.Nonempty)
    (hj : ¬ (freshness = .fresh ∧ reasons = [] ∧ missing = [])) :
    ∃ env, unwrapOr message (AnswerEnvelope.incomplete data reasons missing freshness provenance languages)
        = .ok env ∧
      env.answerClass = .incomplete ∧ env.data = data ∧ env.degradationReasons = reasons := by
  rw [AnswerEnvelope.incomplete, dif_neg hj, dif_neg (Finset.nonempty_iff_ne_empty.mp hl)]
  exact ⟨_, rfl, rfl, rfl, rfl⟩

lemma unwrapOr_stale (data : α) (freshness : FreshnessState) (reasons : List DegradationReason)
    (missing : List String) (provenance : List ProvenanceBasis) (hl : languages.Nonempty)
    (hf : freshness ≠ .fresh) :
    ∃ env, unwrapOr message (AnswerEnvelope.stale data freshness reasons missing provenance languages)
        = .ok env ∧
      env.answerClass = .stale ∧ env.data = some data ∧ env.degradationReasons = reasons := by
  rw [AnswerEnvelope.stale, dif_neg hf, dif_neg (Finset.nonempty_iff_ne_empty.mp hl)]
  exact ⟨_, rfl, rfl, rfl, rfl⟩

end Constructors

lemma captureEnvelope_spec (data : α) (missing : List String) (worst : FreshnessState)
    {languages : Finset LanguageSupport} (hl : languages.Nonempty) :
    ∃ env, captureEnvelope data missing worst languages = .ok env ∧ env.data = some data ∧
      (env.answerClass = .exact ↔ missing = [] ∧ worst = .fresh) := by
  rw [captureEnvelope]
  by_cases hm : missing = []
  · by_cases hw : worst = .fresh
    · rw [if_pos ⟨hm, hw⟩]
      obtain ⟨env, he, hc, hd, -⟩ := unwrapOr_exact "captured-graph exact invariant holds" data [] hl
      exact ⟨env, he, hd, by simp [hc, hm, hw]⟩
    · rw [if_neg (by simp [hw]), if_neg (by simp [hm])]
      obtain ⟨env, he, hc, hd, -⟩ :=
        unwrapOr_stale "captured-graph stale invariant holds" data _ [] [] [] hl hw
      exact ⟨env, he, hd, by simp [hc, hw]⟩
  · rw [if_neg (by simp [hm]), if_pos hm]
    obtain ⟨env, he, hc, hd, -⟩ := unwrapOr_incomplete "captured-graph partial invariant holds" (some data) []
      missing worst [] hl (by simp [hm])
    exact ⟨env, he, hd, by simp [hc, hm]⟩

def FromNode (b : IdentityBasis) : Prop := ∃ src, b = basisOf src

lemma identityReasons_eq_nil {bases : List IdentityBasis} (h : ∀ b ∈ bases, FromNode b) :
    identityReasons bases = [] ↔ bases.all (basisCompleteFor · .callGraph) = true := by
  rw [List.all_eq_true]
  constructor
  · intro hr b hb
    obtain ⟨src, rfl⟩ := h b hb
    cases src with
    | astAdopted => rfl
    | scipSynthesizedFallback =>
      simp [identityReasons, show IdentityBasis.scipSynthesized ∈ bases from hb] at hr
    | astFileScope => simp [identityReasons, show IdentityBasis.astFileScope ∈ bases from hb] at hr
  · intro hc
    have hscip : IdentityBasis.scipSynthesized ∉ bases := fun hb => absurd (hc _ hb) (by decide)
    have hfile : IdentityBasis.astFileScope ∉ bases := fun hb => absurd (hc _ hb) (by decide)
    simp [identityReasons, hscip, hfile]

inductive Crossing (data : α) (bases : List IdentityBasis) (freshness : FreshnessState)
    (reasons : List DegradationReason) (missing : List String) (env : AnswerEnvelope α) : Prop
  | exact (hclass : env.answerClass = .exact) (hdata : env.data = some data)
      (hlisted : env.degradationReasons = []) (hfresh : freshness = .fresh) (hbases : bases ≠ [])
      (hreasons : reasons = []) (hmissing : missing = [])
  | unavailable (hclass : env.answerClass = .unavailable)
      (hlisted : env.degradationReasons = [.unresolvedAlias]) (hbases : bases = [])
      (hfresh : freshness ≠ .precisionPending)
  | degraded (hclass : env.answerClass = .incomplete ∨ env.answerClass = .stale)
      (hdata : env.data = some data) (hlisted : env.degradationReasons = reasons)
      (hsome : bases ≠ [] ∨ freshness = .precisionPending)

lemma classifyCrossPartition_nil (freshness : FreshnessState) (reasons : List DegradationReason)
    (languages : Finset LanguageSupport) :
    classifyCrossPartition [] freshness reasons languages = .unavailable := by
  simp [classifyCrossPartition, classifyAnswer]

lemma classifyCrossPartition_stale {bases : List IdentityBasis} {freshness : FreshnessState}
    (hb : bases ≠ []) (hf : freshness = .stale ∨ freshness = .refreshFailed)
    (reasons : List DegradationReason) (languages : Finset LanguageSupport) :
    classifyCrossPartition bases freshness reasons languages = .stale := by
  rcases hf with rfl | rfl
  · simp [classifyCrossPartition, classifyAnswer, hb]
  · simp [classifyCrossPartition, classifyAnswer, hb]

lemma classifyCrossPartition_fresh {bases : List IdentityBasis} (hb : bases ≠ [])
    (reasons : List DegradationReason) (languages : Finset LanguageSupport) :
    classifyCrossPartition bases .fresh reasons languages =
      if bases.all (basisCompleteFor · .callGraph) = true ∧ reasons = [] then .exact else .incomplete := by
  by_cases hc : bases.all (basisCompleteFor · .callGraph) = true ∧ reasons = []
  · simp only [classifyCrossPartition, classifyAnswer, hc]
    simp [hb]
  · rw [if_neg hc]
    simp only [classifyCrossPartition, classifyAnswer]
    rw [if_neg (by simp [hb]), if_neg (by simpa [List.isEmpty_iff] using hc)]

lemma finalizeEnvelope_spec (data : α) {bases : List IdentityBasis} {freshness : FreshnessState}
    (reasons : List DegradationReason) (missing : List String) {languages : Finset LanguageSupport}
    (hl : languages.Nonempty) (hb : ∀ b ∈ bases, FromNode b) (hf : freshness ≠ .unavailable)
    (hr : ∀ r ∈ identityReasons bases, r ∈ reasons) :
    ∃ env, finalizeEnvelope data (classifyCrossPartition bases freshness reasons languages) freshness
        reasons missing languages = .ok env ∧ Crossing data bases freshness reasons missing env := by
  have hincomplete : ∀ classC, freshness = .precisionPending ∨ classC = .incomplete ∨
      (missing ≠ [] ∧ classC = .exact) → ¬ (freshness = .fresh ∧ reasons = [] ∧ missing = []) →
      bases ≠ [] ∨ freshness = .precisionPending →
      ∃ env, finalizeEnvelope data classC freshness reasons missing languages = .ok env ∧
        Crossing data bases freshness reasons missing env := by
    intro classC hclass hj hsome
    obtain ⟨env, he, hc, hd, hlist⟩ := unwrapOr_incomplete "partial invariant holds" (some data) _ _ _ []
      hl hj
    refine ⟨env, ?_, .degraded (Or.inl hc) hd hlist hsome⟩
    have hfinal : (if freshness = .precisionPending ∨ (missing ≠ [] ∧ classC = .exact) then .incomplete
        else classC) = AnswerClass.incomplete := by
      split
      · rfl
      · tauto
    simp only [finalizeEnvelope, hfinal]
    exact he
  by_cases hpp : freshness = .precisionPending
  · exact hincomplete _ (Or.inl hpp) (by simp [hpp]) (Or.inr hpp)
  by_cases hnil : bases = []
  · subst hnil
    refine ⟨.unavailable .unresolvedAlias freshness languages, ?_, .unavailable rfl rfl rfl hpp⟩
    simp [finalizeEnvelope, classifyCrossPartition_nil, hpp]
  by_cases hfresh : freshness = .fresh
  · subst hfresh
    rw [classifyCrossPartition_fresh hnil]
    by_cases hc : bases.all (basisCompleteFor · .callGraph) = true ∧ reasons = []
    · rw [if_pos hc]
      by_cases hm : missing = []
      · obtain ⟨env, he, hclass, hd, hlist⟩ := unwrapOr_exact "exact invariant holds" data [] hl
        exact ⟨env, by simpa [finalizeEnvelope, hm] using he, .exact hclass hd hlist rfl hnil hc.2 hm⟩
      · exact hincomplete _ (Or.inr (Or.inr ⟨hm, rfl⟩)) (by simp [hm]) (Or.inl hnil)
    · rw [if_neg hc]
      -- Every incomplete identity of a node has pushed its reason.
      have hreasons : reasons ≠ [] := by
        rintro rfl
        have hnone : identityReasons bases = [] := List.eq_nil_iff_forall_not_mem.mpr
          fun r hmem => List.not_mem_nil (hr r hmem)
        exact hc ⟨(identityReasons_eq_nil hb).mp hnone, rfl⟩
      exact hincomplete _ (Or.inr (Or.inl rfl)) (by simp [hreasons]) (Or.inl hnil)
  · have hstale : freshness = .stale ∨ freshness = .refreshFailed := by
      cases freshness <;> simp_all
    rw [classifyCrossPartition_stale hnil hstale]
    obtain ⟨env, he, hc, hd, hlist⟩ := unwrapOr_stale "stale invariant holds" data _ reasons missing []
      hl hfresh
    exact ⟨env, by simpa [finalizeEnvelope, hpp] using he, .degraded (Or.inr hc) hd hlist (Or.inl hnil)⟩

end RepoGraph.LiveGraph
