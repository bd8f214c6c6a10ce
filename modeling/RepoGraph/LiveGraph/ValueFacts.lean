import RepoGraph.LiveGraph.Callees

/-! The value facts of a symbol. The measured value is true whatever its basis; only the ownership
claim is labelled, and freshness comes before ownership. -/

namespace RepoGraph.LiveGraph

open Lib Ir TrustModel

structure ValueFactsAnswer where
  facts : List ValueFact
  contributingEpochs : BTreeMap String ℕ

def ValueFact.isAbout (symbol : String) (f : ValueFact) : Bool :=
  match f.subject with
  | .symbol k => k.asStr = symbol
  | .rawAnchor _ => false

def Slot.factsAbout (s : Slot) (symbol : String) : List ValueFact := s.valueFacts.filter (·.isAbout symbol)

def Slot.factsFreshness (s : Slot) : FreshnessState :=
  let base := statusFreshness s.status
  let epochMismatch := s.valueFactsEpoch ≠ some s.epoch
  if epochMismatch ∧ freshnessRank base < freshnessRank .stale then .stale else base

def ownsSymbol (basis : IdentityBasis) (language : LanguageSupport) : Bool :=
  (classifyAnswer ⟨.symbolOwnership, [basis], .fresh, [], language⟩).1 = .exact

def valueFactsReasons (g : LiveGraph) (defPart : String) (owned : Bool) : List DegradationReason :=
  mergePartitionReasons (if owned then [] else [.scipFallbackIdentity]) (g.partitionReasons defPart)

def labelValueFacts (g : LiveGraph) (defPart : String) (slot : Slot) (basis : IdentityBasis)
    (data : ValueFactsAnswer) : Exec (AnswerEnvelope ValueFactsAnswer) :=
  let languages := {slot.language}
  let owned := ownsSymbol basis slot.language
  let reasons := g.valueFactsReasons defPart owned
  match slot.factsFreshness with
  | .fresh =>
    if owned then unwrapOr "exact invariant holds" (AnswerEnvelope.exact data .complete .fresh [] languages)
    else
      unwrapOr "partial with reason is valid"
        (AnswerEnvelope.incomplete (some data) reasons [] .fresh [] languages)
  | .precisionPending =>
    match owned, NotScipDependent.prove [basis] with
    | true, some proof =>
      unwrapOr "exact_precision_pending invariant holds"
        (AnswerEnvelope.exactPrecisionPending data .complete proof [] languages)
    | _, _ =>
      unwrapOr "partial precision-pending is valid"
        (AnswerEnvelope.incomplete (some data) reasons [] .precisionPending [] languages)
  | freshness =>
    unwrapOr "stale invariant holds" (AnswerEnvelope.stale data freshness reasons [] [] languages)

def valueFacts (g : LiveGraph) (symbol : String) : Exec (AnswerEnvelope ValueFactsAnswer) :=
  match g.defining symbol with
  | none => .ok (.unavailable .unresolvedAlias .unavailable ∅)
  | some (defPart, _) => do
    let slot ← expect "defining slot exists" (g.slot defPart)
    match slot.factsAbout symbol with
    | [] => .ok (.unavailable .unresolvedAlias .unavailable {slot.language})
    | fact :: facts =>
      let data := ⟨fact :: facts, (∅ : BTreeMap String ℕ).insert defPart slot.epoch⟩
      if slot.ir.isNone then
        unwrapOr "partial with missing partition is valid"
          (AnswerEnvelope.incomplete (some data) [] [defPart] (statusFreshness slot.status) [] {slot.language})
      else g.labelValueFacts defPart slot fact.basis data

variable {g : LiveGraph} {symbol : String}

def Slot.ServesExact (s : Slot) (basis : IdentityBasis) : Prop :=
  ownsSymbol basis s.language = true ∧
    (s.factsFreshness = .fresh ∨ s.factsFreshness = .precisionPending ∧ basis.isScipBacked = false)

inductive ValueFactsOutcome (g : LiveGraph) (symbol : String) (env : AnswerEnvelope ValueFactsAnswer) : Prop
  | unknown (hd : g.defining symbol = none) (hclass : env.answerClass = .unavailable)
      (hlisted : env.degradationReasons = [.unresolvedAlias])
  | noFacts {defPart : String} {b : IdentityBasis} {s : Slot} (hd : g.defining symbol = some (defPart, b))
      (hs : g.slot defPart = some s) (hfacts : s.factsAbout symbol = [])
      (hclass : env.answerClass = .unavailable) (hlisted : env.degradationReasons = [.unresolvedAlias])
  | missing {defPart : String} {b : IdentityBasis} {s : Slot} (hd : g.defining symbol = some (defPart, b))
      (hs : g.slot defPart = some s) (hfacts : s.factsAbout symbol ≠ []) (hir : s.ir = none)
      (hclass : env.answerClass = .incomplete) (hlisted : env.degradationReasons = [])
  | exact {defPart : String} {b : IdentityBasis} {s : Slot} {fact : ValueFact} {facts : List ValueFact}
      (hd : g.defining symbol = some (defPart, b)) (hs : g.slot defPart = some s)
      (hfacts : s.factsAbout symbol = fact :: facts) (hir : s.ir ≠ none) (hserves : s.ServesExact fact.basis)
      (hclass : env.answerClass = .exact)
      (hdata : ∃ data, env.data = some data ∧ data.facts = s.factsAbout symbol)
      (hlisted : env.degradationReasons = [])
  | degraded {defPart : String} {b : IdentityBasis} {s : Slot} {fact : ValueFact} {facts : List ValueFact}
      (hd : g.defining symbol = some (defPart, b)) (hs : g.slot defPart = some s)
      (hfacts : s.factsAbout symbol = fact :: facts) (hir : s.ir ≠ none)
      (hserves : ¬ s.ServesExact fact.basis)
      (hclass : env.answerClass = .incomplete ∨ env.answerClass = .stale)
      (hlisted : env.degradationReasons =
        g.valueFactsReasons defPart (ownsSymbol fact.basis s.language))

lemma factsFreshness_ne_unavailable (s : Slot) : s.factsFreshness ≠ .unavailable := by
  simp only [Slot.factsFreshness]
  split
  · decide
  · exact statusFreshness_ne_unavailable s.status

lemma prove_singleton (b : IdentityBasis) :
    (∃ proof, NotScipDependent.prove [b] = some proof) ↔ b.isScipBacked = false := by
  simp [NotScipDependent.prove]

lemma labelValueFacts_spec (g : LiveGraph) (defPart : String) (s : Slot) (basis : IdentityBasis)
    (data : ValueFactsAnswer) :
    ∃ env, g.labelValueFacts defPart s basis data = .ok env ∧
      (s.ServesExact basis ∧ env.answerClass = .exact ∧ env.data = some data ∧ env.degradationReasons = [] ∨
        ¬ s.ServesExact basis ∧ (env.answerClass = .incomplete ∨ env.answerClass = .stale) ∧
          env.degradationReasons = g.valueFactsReasons defPart (ownsSymbol basis s.language)) := by
  have hl : ({s.language} : Finset LanguageSupport).Nonempty := Finset.singleton_nonempty _
  have hlisted : ownsSymbol basis s.language = false →
      g.valueFactsReasons defPart (ownsSymbol basis s.language) ≠ [] := by
    intro howned
    refine List.ne_nil_of_mem (a := .scipFallbackIdentity) (mem_mergePartitionReasons.mpr (Or.inl ?_))
    simp [howned]
  simp only [labelValueFacts]
  cases hf : s.factsFreshness with
  | unavailable => exact (factsFreshness_ne_unavailable s hf).elim
  | fresh =>
    cases howned : ownsSymbol basis s.language with
    | true =>
      obtain ⟨env, he, hc, hd, hr⟩ := unwrapOr_exact "exact invariant holds" data [] hl
      exact ⟨env, by simpa using he, Or.inl ⟨⟨howned, Or.inl hf⟩, hc, hd, hr⟩⟩
    | false =>
      obtain ⟨env, he, hc, -, hr⟩ := unwrapOr_incomplete "partial with reason is valid" (some data)
        (g.valueFactsReasons defPart false) [] .fresh [] hl (by simpa [howned] using hlisted)
      exact ⟨env, by simpa using he, Or.inr ⟨by simp [Slot.ServesExact, howned], Or.inl hc, hr⟩⟩
  | precisionPending =>
    by_cases hserves : ownsSymbol basis s.language = true ∧ basis.isScipBacked = false
    · obtain ⟨proof, hproof⟩ := (prove_singleton basis).mpr hserves.2
      obtain ⟨env, he, hc, hd, hr⟩ := unwrapOr_exactPrecisionPending
        "exact_precision_pending invariant holds" data proof [] hl
      refine ⟨env, ?_, Or.inl ⟨⟨hserves.1, Or.inr ⟨hf, hserves.2⟩⟩, hc, hd, hr⟩⟩
      simpa [hserves.1, hproof] using he
    · obtain ⟨env, he, hc, -, hr⟩ := unwrapOr_incomplete "partial precision-pending is valid" (some data)
        (g.valueFactsReasons defPart (ownsSymbol basis s.language)) [] .precisionPending [] hl (by simp)
      refine ⟨env, ?_, Or.inr ⟨by simpa [Slot.ServesExact, hf] using hserves, Or.inl hc, hr⟩⟩
      simp only
      split
      · rename_i howned hproof
        exact (hserves ⟨howned, (prove_singleton basis).mp ⟨_, hproof⟩⟩).elim
      · exact he
  | stale | refreshFailed =>
    obtain ⟨env, he, hc, -, hr⟩ := unwrapOr_stale "stale invariant holds" data s.factsFreshness
      (g.valueFactsReasons defPart (ownsSymbol basis s.language)) [] [] hl (by simp [hf])
    exact ⟨env, by simpa [hf] using he, Or.inr ⟨by simp [Slot.ServesExact, hf], Or.inr hc, hr⟩⟩

lemma valueFacts_spec (g : LiveGraph) (symbol : String) :
    ∃ env, g.valueFacts symbol = .ok env ∧ ValueFactsOutcome g symbol env := by
  rw [valueFacts]
  cases hd : g.defining symbol with
  | none => exact ⟨_, rfl, .unknown hd rfl rfl⟩
  | some d =>
    obtain ⟨defPart, b⟩ := d
    obtain ⟨s, hs, -⟩ := slot_of_defining hd
    simp only [hs, expect_some, ok_bind]
    cases hfacts : s.factsAbout symbol with
    | nil => exact ⟨_, rfl, .noFacts hd hs hfacts rfl rfl⟩
    | cons fact facts =>
      let data : ValueFactsAnswer := ⟨fact :: facts, (∅ : BTreeMap String ℕ).insert defPart s.epoch⟩
      cases hir : s.ir with
      | none =>
        obtain ⟨env, he, hclass, -, hlisted⟩ := unwrapOr_incomplete "partial with missing partition is valid"
          (some data) [] [defPart] (statusFreshness s.status) [] (Finset.singleton_nonempty s.language)
          (by simp)
        exact ⟨env, he, .missing hd hs (by simp [hfacts]) hir hclass hlisted⟩
      | some ir =>
        have hres : s.ir ≠ none := by simp [hir]
        obtain ⟨env, he, ⟨hserves, hclass, hdata, hlisted⟩ | ⟨hserves, hclass, hlisted⟩⟩ :=
          labelValueFacts_spec g defPart s fact.basis data
        · exact ⟨env, he, .exact hd hs hfacts hres hserves hclass ⟨data, hdata, hfacts.symm⟩ hlisted⟩
        · exact ⟨env, he, .degraded hd hs hfacts hres hserves hclass hlisted⟩

end RepoGraph.LiveGraph
