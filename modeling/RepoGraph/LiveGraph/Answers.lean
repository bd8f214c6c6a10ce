import RepoGraph.LiveGraph.PathTrust

/-! Two results about whole runs: no query ever panics, and where facts of a superseded epoch show up
in an exact answer. -/

namespace RepoGraph.LiveGraph

open Lib Ir TrustModel GraphAlgorithms

/-- Whatever the graph has been through, every query returns an envelope: none of the constructors
refuses its labels, and no search runs out of its bound. -/
theorem queries_return (ms : List Mutation) :
    (∀ target detail, ∃ env, (after ms).callers target detail = .ok env) ∧
      (∀ target detail, ∃ env, (after ms).callees target detail = .ok env) ∧
      (∀ symbol, ∃ env, (after ms).valueFacts symbol = .ok env) ∧
      (∀ source target, ∃ env, (after ms).path source target = .ok env) ∧
      (∀ source target cancel, ∃ r, (after ms).pathCancellable source target cancel = .ok r) ∧
      (∃ env, (after ms).fileImportCycles = .ok env) ∧
      (∃ env, (after ms).moduleImportCycles = .ok env) ∧
      (∃ env, (after ms).moduleStats = .ok env) ∧
      (∀ threshold, ∃ env, (after ms).highComplexity threshold = .ok env) ∧
      ∃ env, (after ms).structuralFileInventory = .ok env := by
  have hg := after_wellFormed ms
  refine ⟨?_, ?_, ?_, ?_, ?_, fileImportCycles_returns _, moduleImportCycles_returns _, ?_, ?_, ?_⟩
  · intro target detail
    obtain ⟨env, he, -⟩ := callers_spec hg target detail
    exact ⟨env, he⟩
  · intro target detail
    obtain ⟨env, he, -⟩ := callees_spec hg target detail
    exact ⟨env, he⟩
  · intro symbol
    obtain ⟨env, he, -⟩ := valueFacts_spec (after ms) symbol
    exact ⟨env, he⟩
  · intro source target
    obtain ⟨env, he, -⟩ := path_spec (after ms) source target
    exact ⟨env, he⟩
  · intro source target cancel
    rcases pathEvery_spec pathCancelCheckInterval (after ms) source target cancel with ⟨-, he⟩ | ⟨env, he, -⟩
    · exact ⟨_, he⟩
    · exact ⟨_, he⟩
  · obtain ⟨env, he, -⟩ := capture_spec (after ms) _
    exact ⟨env, he⟩
  · intro threshold
    obtain ⟨env, he, -⟩ := capture_spec (after ms) _
    exact ⟨env, he⟩
  · obtain ⟨env, he, -⟩ := capture_spec (after ms) _
    exact ⟨env, he⟩

def ValueFactsCurrent (ms : List Mutation) (symbol : String) : Prop :=
  ∃ env, (after ms).valueFacts symbol = .ok env ∧
    (env.answerClass = .exact → ∃ data id b p, env.data = some data ∧
      (after ms).defining symbol = some (id, b) ∧ past ms id = some p ∧
      data.facts = p.facts.filter (·.isAbout symbol) ∧ p.factsSince = true)

def HighComplexityCurrent (ms : List Mutation) (threshold : UInt32) : Prop :=
  ∃ env, (after ms).highComplexity threshold = .ok env ∧
    (env.answerClass = .exact → ∃ data, env.data = some data ∧
      ∀ id p f h, past ms id = some p → f ∈ p.facts → highComplexityFact threshold f = some h →
        h ∈ data.symbols → p.factsSince = true)

lemma factsFreshness_of_mismatch {s : Slot} (h : s.valueFactsEpoch ≠ some s.epoch) :
    s.factsFreshness = .stale ∨ s.factsFreshness = .refreshFailed := by
  simp only [Slot.factsFreshness]
  cases hst : s.status <;> simp [statusFreshness, freshnessRank, h]

lemma factsSince_of_servesExact {p : Past} {s : Slot} (hr : Represents p s) {b : IdentityBasis}
    (h : s.ServesExact b) : p.factsSince = true := by
  rw [hr.factsSince]
  by_contra hne
  rcases factsFreshness_of_mismatch hne with hf | hf
  · simp [Slot.ServesExact, hf] at h
  · simp [Slot.ServesExact, hf] at h

lemma valueFacts_current (ms : List Mutation) (symbol : String) : ValueFactsCurrent ms symbol := by
  obtain ⟨env, he, hout⟩ := valueFacts_spec (after ms) symbol
  refine ⟨env, he, ?_⟩
  intro hexact
  cases hout with
  | unknown _ hclass => simp [hexact] at hclass
  | noFacts _ _ _ hclass => simp [hexact] at hclass
  | missing _ _ _ _ hclass => simp [hexact] at hclass
  | degraded _ _ _ _ _ hclass => simp [hexact] at hclass
  | exact hd hs _ _ hserves _ hdata =>
    obtain ⟨p, hp, hr⟩ := past_of_slot hs
    obtain ⟨data, hdata, hfacts⟩ := hdata
    refine ⟨data, _, _, p, hdata, hd, hp, ?_, factsSince_of_servesExact hr hserves⟩
    rw [hfacts, Slot.factsAbout, hr.facts]

def SupersededAbove (ms : List Mutation) (threshold : UInt32) : Prop :=
  ∃ id p f h, past ms id = some p ∧ p.factsSince = false ∧ f ∈ p.facts ∧
    highComplexityFact threshold f = some h

def AllCurrent (ms : List Mutation) : Prop :=
  ∀ id p, past ms id = some p →
    p.resident = true ∧ p.status = .current ∧ p.language = .typeScriptPrimary

lemma wholeGraphComplete_iff (ms : List Mutation) : (after ms).WholeGraphComplete ↔ AllCurrent ms := by
  constructor
  · intro h id p hp
    obtain ⟨s, hs, hr⟩ := slot_of_past hp
    obtain ⟨⟨hir, hstatus⟩, hlang⟩ := h id s hs
    refine ⟨?_, hr.status ▸ hstatus, hr.language ▸ hlang⟩
    rw [hr.ir] at hir
    by_contra hres
    simp [hres] at hir
  · intro h id s hs
    obtain ⟨p, hp, hr⟩ := past_of_slot hs
    obtain ⟨hres, hstatus, hlang⟩ := h id p hp
    exact ⟨⟨by simp [hr.ir, hres], hr.status.trans hstatus⟩, hr.language.trans hlang⟩

lemma mem_highComplexity {g : LiveGraph} {threshold : UInt32} {h : HighComplexityFact}
    {cmp : HighComplexityFact → HighComplexityFact → Ordering} {id : String} {s : Slot} {f : ValueFact}
    (hs : g.slot id = some s) (hir : s.ir.isSome) (hf : f ∈ s.valueFacts)
    (hh : highComplexityFact threshold f = some h) :
    h ∈ sortBy cmp (g.slots.entries.flatMap fun e => e.2.highComplexityFacts threshold) := by
  rw [(sortBy_perm _ _).mem_iff, List.mem_flatMap]
  refine ⟨⟨id, s⟩, IterMap.mem_entries.mpr hs, ?_⟩
  have hnone : s.ir.isNone = false := by simpa [Option.isNone_eq_false_iff] using hir
  simp only [Slot.highComplexityFacts, hnone, Bool.false_eq_true, if_false]
  exact List.mem_filterMap.mpr ⟨f, hf, hh⟩

lemma highComplexity_current_iff (ms : List Mutation) (threshold : UInt32) :
    HighComplexityCurrent ms threshold ↔ ¬ (AllCurrent ms ∧ SupersededAbove ms threshold) := by
  obtain ⟨env, he, hdata, hclass⟩ := capture_spec (after ms)
    (⟨sortBy (fun a b => (compare a.symbol b.symbol).then (compare a.complexity b.complexity))
        ((after ms).slots.entries.flatMap fun e => e.2.highComplexityFacts threshold),
      (after ms).wholeGraphCompleteness.epochs⟩ : HighComplexityAnswer)
  rw [wholeGraphComplete_iff] at hclass
  constructor
  · rintro ⟨env', he', hcurrent⟩ ⟨hall, id, p, f, h, hp, hsince, hf, hh⟩
    obtain rfl : env = env' := Except.ok.inj (he.symm.trans he')
    obtain ⟨data, hdata', hfresh⟩ := hcurrent (hclass.mpr hall)
    obtain rfl := Option.some.inj (hdata.symm.trans hdata')
    obtain ⟨s, hs, hr⟩ := slot_of_past hp
    have hres := (hall id p hp).1
    have hmem := hfresh id p f h hp hf hh (mem_highComplexity hs (by simp [hr.ir, hres]) (hr.facts ▸ hf) hh)
    simp [hsince] at hmem
  · intro hnot
    refine ⟨env, he, fun hexact => ⟨_, hdata, ?_⟩⟩
    intro id p f h hp hf hh _
    by_contra hsince
    exact hnot ⟨hclass.mp hexact, id, p, f, h, hp, by simpa using hsince, hf, hh⟩

/-- The lookup of one symbol never serves superseded facts as exact; the answer over all slots does
exactly when everything is resident, up to date and TypeScript, and a superseded fact is above the
threshold. -/
theorem superseded_facts_exact_iff (ms : List Mutation) (threshold : UInt32) :
    ((∀ symbol, ValueFactsCurrent ms symbol) ∧ HighComplexityCurrent ms threshold) ↔
      ¬ (AllCurrent ms ∧ SupersededAbove ms threshold) := by
  rw [highComplexity_current_iff]
  exact and_iff_right (valueFacts_current ms)

namespace Fixture

def complexityFact (key : String) (value : UInt32) (basis : IdentityBasis) : ValueFact :=
  ⟨.symbol (.fromExisting key), .cyclomaticComplexity, value, basis, none, Ir.Fixture.prov⟩

def swapped : List Mutation :=
  [load "engine" Ir.Fixture.engine, .loadValueFacts "engine" [complexityFact "engine.foo" 20 .astAdopted],
    .swapPartition (.asInserted String Slot) "engine" Ir.Fixture.engine]

end Fixture

theorem superseded_fact_served_exact :
    ¬ HighComplexityCurrent Fixture.swapped 10 := by
  rintro ⟨env, he, hcurrent⟩
  have hanswer : ((after Fixture.swapped).highComplexity 10).map
      (fun env => (env.answerClass, env.data.map HighComplexityAnswer.symbols)) =
        .ok (.exact, some [⟨"engine.foo", 20, none⟩]) := by decide
  rw [he] at hanswer
  obtain ⟨hclass, hsymbols⟩ := Prod.mk.inj (Except.ok.inj hanswer)
  obtain ⟨data, hdata, hfresh⟩ := hcurrent hclass
  rw [hdata] at hsymbols
  have hmem : (⟨"engine.foo", 20, none⟩ : HighComplexityFact) ∈ data.symbols := by
    simp [Option.some.inj hsymbols]
  have hsince := hfresh "engine"
    ⟨Ir.Fixture.engine, .typeScriptPrimary, true, .current, ∅,
      [Fixture.complexityFact "engine.foo" 20 .astAdopted], false⟩
    (Fixture.complexityFact "engine.foo" 20 .astAdopted) _ rfl (List.mem_singleton.mpr rfl) (by decide) hmem
  simp at hsince

end RepoGraph.LiveGraph
