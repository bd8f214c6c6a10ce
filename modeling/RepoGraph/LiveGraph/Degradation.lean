import RepoGraph.LiveGraph.Answers

/-! Where the degradation reasons of a partition reach the answers, and where they get lost. -/

namespace RepoGraph.LiveGraph

open Lib Ir TrustModel

variable {α : Type} {g : LiveGraph} {target symbol : String} {detail : Granularity}

def Carries (g : LiveGraph) (id : String) (r : DegradationReason) : Prop :=
  ∃ s, g.slot id = some s ∧ r ∈ s.partitionDegradationReasons

def Defines (g : LiveGraph) (id key : String) : Prop := ∃ s, g.slot id = some s ∧ key ∈ s.defines

def References (g : LiveGraph) (id key : String) : Prop := ∃ s, g.slot id = some s ∧ key ∈ s.refCounts

def Surfaces (answer : Exec (AnswerEnvelope α)) (r : DegradationReason) : Prop :=
  ∃ env, answer = .ok env ∧ env.answerClass ≠ .exact ∧ r ∈ env.degradationReasons

def NamedBy (r : DegradationReason) (b : IdentityBasis) : Prop :=
  b = .scipSynthesized ∧ r = .scipFallbackIdentity ∨ b = .astFileScope ∧ r = .structuralNodeNoCallGraphContent

lemma mem_identityReasons {bases : List IdentityBasis} {r : DegradationReason} :
    r ∈ identityReasons bases ↔ ∃ b ∈ bases, NamedBy r b := by
  simp only [identityReasons, NamedBy, List.mem_append]
  constructor
  · rintro (h | h)
    · split at h
      · exact ⟨_, ‹_›, Or.inl ⟨rfl, List.mem_singleton.mp h⟩⟩
      · simp at h
    · split at h
      · exact ⟨_, ‹_›, Or.inr ⟨rfl, List.mem_singleton.mp h⟩⟩
      · simp at h
  · rintro ⟨b, hb, ⟨rfl, rfl⟩ | ⟨rfl, rfl⟩⟩
    · simp [hb]
    · simp [hb]

lemma mem_partitionReasons {id : String} {r : DegradationReason} :
    r ∈ g.partitionReasons id ↔ g.Carries id r := by
  rw [partitionReasons, Carries]
  cases hs : g.slot id with
  | none => simp
  | some s => simp [Slot.reasons, DegradationReason.mem_all]

lemma surfaces_ok_iff {answer : Exec (AnswerEnvelope α)} {env : AnswerEnvelope α} (he : answer = .ok env)
    (r : DegradationReason) :
    Surfaces answer r ↔ env.answerClass ≠ .exact ∧ r ∈ env.degradationReasons := by
  constructor
  · rintro ⟨env', he', h⟩
    obtain rfl := Except.ok.inj (he.symm.trans he')
    exact h
  · exact fun h => ⟨env, he, h⟩

lemma Crossing.surfaces_iff {data : α} {bases : List IdentityBasis} {freshness : FreshnessState}
    {reasons : List DegradationReason} {missing : List String} {env : AnswerEnvelope α}
    {answer : Exec (AnswerEnvelope α)} (he : answer = .ok env)
    (h : Crossing data bases freshness reasons missing env) (r : DegradationReason) :
    Surfaces answer r ↔
      if bases = [] ∧ freshness ≠ .precisionPending then r = .unresolvedAlias else r ∈ reasons := by
  rw [surfaces_ok_iff he]
  cases h with
  | exact hclass _ _ _ hbases hreasons => simp [hclass, hbases, hreasons]
  | unavailable hclass hlisted hbases hfresh => simp [hclass, hlisted, hbases, hfresh]
  | degraded hclass _ hlisted hsome =>
    have hcond : ¬ (bases = [] ∧ freshness ≠ .precisionPending) := by tauto
    rw [if_neg hcond, hlisted]
    rcases hclass with hclass | hclass
    · simp [hclass]
    · simp [hclass]

def Pending (g : LiveGraph) (contributes : String → Prop) : Prop :=
  (∃ id s, contributes id ∧ g.slot id = some s ∧ s.status = .refreshing) ∧
    ∀ id s, contributes id → g.slot id = some s → s.status = .current ∨ s.status = .refreshing

lemma worse_eq_precisionPending {a b : FreshnessState} : worse a b = .precisionPending ↔
    (a = .fresh ∨ a = .precisionPending) ∧ (b = .fresh ∨ b = .precisionPending) ∧
      (a = .precisionPending ∨ b = .precisionPending) := by
  cases a <;> cases b <;> decide

lemma statusFreshness_eq_precisionPending {st : RefreshStatus} :
    statusFreshness st = .precisionPending ↔ st = .refreshing := by
  cases st <;> decide

lemma foldContributing_pending {ids : List String} :
    (g.foldContributing ids).freshness = .precisionPending ↔ g.Pending (· ∈ ids) := by
  have hfold : ∀ (ids : List String) (acc : Contributing),
      (ids.foldl g.addContributing acc).freshness = .precisionPending ↔
        (acc.freshness = .fresh ∨ acc.freshness = .precisionPending) ∧
          (∀ id s, id ∈ ids → g.slot id = some s → s.status = .current ∨ s.status = .refreshing) ∧
          (acc.freshness = .precisionPending ∨
            ∃ id s, id ∈ ids ∧ g.slot id = some s ∧ s.status = .refreshing) := by
    intro ids
    induction ids with
    | nil =>
      intro acc
      simp only [List.foldl_nil, List.not_mem_nil, false_implies, implies_true, false_and, exists_false,
        or_false, true_and]
      tauto
    | cons id ids ih =>
      intro acc
      rw [List.foldl_cons, ih, addContributing]
      cases hs : g.slot id with
      | none => grind
      | some s =>
        simp only [Contributing.add, worse_eq_fresh, worse_eq_precisionPending, statusFreshness_eq_fresh,
          statusFreshness_eq_precisionPending]
        grind
  rw [foldContributing, hfold, Pending]
  simp only [Contributing.none, true_or, true_and, reduceCtorEq, false_or]
  tauto

section Callers

def CallerContributes (g : LiveGraph) (target id : String) : Prop :=
  g.References id target ∨ ∃ b, g.defining target = some (id, b)

def CallerBasis (g : LiveGraph) (target : String) (detail : Granularity) (b : IdentityBasis) : Prop :=
  (∃ id, g.defining target = some (id, b)) ∨
    detail = .callerDetail ∧ ∃ id ir, g.References id target ∧ g.residentIr id = some ir ∧
      b ∈ callerBases target ir

def CallersSurface (g : LiveGraph) (target : String) (detail : Granularity) : Prop :=
  ∀ id r, g.Carries id r → g.Defines id target ∨ g.References id target →
    Surfaces (g.callers target detail) r

def CallersSilent (g : LiveGraph) (target : String) (detail : Granularity) : Prop :=
  (∀ b, ¬ g.CallerBasis target detail b) ∧ ¬ g.Pending (g.CallerContributes target)

/-- Each reason is one that a contributing slot carries or an identity gives. -/
def CallersGather (g : LiveGraph) (target : String) (detail : Granularity) : Prop :=
  ∀ id r, g.Carries id r → g.Defines id target ∨ g.References id target →
    (g.CallersSilent target detail → r = .unresolvedAlias) ∧
      (¬ g.CallersSilent target detail →
        (∃ id', g.CallerContributes target id' ∧ g.Carries id' r) ∨
          ∃ b, g.CallerBasis target detail b ∧ NamedBy r b)

lemma mem_contributing_iff {id : String} :
    id ∈ (g.contributingToCallers target).toList ↔ g.CallerContributes target id := by
  rw [mem_contributingToCallers, mem_referencing]
  rfl

lemma exists_defining {id key : String} (h : g.Defines id key) : ∃ id' b, g.defining key = some (id', b) := by
  obtain ⟨s, hs, hk⟩ := h
  cases hd : g.defining key with
  | some d => exact ⟨d.1, d.2, rfl⟩
  | none =>
    rw [Std.ExtTreeMap.mem_iff_isSome_getElem?, defining_eq_none.mp hd id s hs] at hk
    simp at hk

lemma mem_callerScan_bases {b : IdentityBasis} :
    b ∈ (g.callerScan target detail).bases ↔ g.CallerBasis target detail b := by
  have hdef : b ∈ ((g.defining target).map Prod.snd).toList ↔ ∃ id, g.defining target = some (id, b) := by
    rw [Option.mem_toList, Option.map_eq_some_iff]
    constructor
    · rintro ⟨⟨id, b'⟩, hd, rfl⟩
      exact ⟨id, hd⟩
    · rintro ⟨id, hd⟩
      exact ⟨(id, b), hd, rfl⟩
  rw [callerScan, CallerBasis]
  split
  · rename_i hdetail
    rw [foldl_scanReferencing, List.mem_append, hdef, List.mem_flatMap]
    refine or_congr_right ?_
    simp only [hdetail, true_and, Std.ExtTreeMap.mem_keys, mem_referencing]
    constructor
    · rintro ⟨id, href, hb⟩
      cases hir : g.residentIr id with
      | none => simp [hir] at hb
      | some ir => exact ⟨id, ir, href, hir, by simpa [hir] using hb⟩
    · rintro ⟨id, ir, href, hir, hb⟩
      exact ⟨id, href, by simpa [hir] using hb⟩
  · rename_i hdetail
    rw [hdef]
    simp [hdetail]

lemma mem_callersReasons {r : DegradationReason} : r ∈ g.callersReasons target detail ↔
    (∃ id, g.CallerContributes target id ∧ g.Carries id r) ∨
      ∃ b, g.CallerBasis target detail b ∧ NamedBy r b := by
  rw [callersReasons, mem_mergePartitionReasons, mem_identityReasons, List.mem_flatMap, or_comm]
  simp only [mem_contributing_iff, mem_partitionReasons, mem_callerScan_bases]

lemma callersSilent_iff : ((g.callerScan target detail).bases = [] ∧
    (g.foldContributing (g.contributingToCallers target).toList).freshness ≠ .precisionPending) ↔
      g.CallersSilent target detail := by
  rw [CallersSilent, List.eq_nil_iff_forall_not_mem, Ne, foldContributing_pending]
  simp only [mem_callerScan_bases, mem_contributing_iff]

lemma callersSurface_iff (hg : g.WellFormed) (target : String) (detail : Granularity) :
    g.CallersSurface target detail ↔ g.CallersGather target detail := by
  obtain ⟨env, he, hcase⟩ := callers_spec hg target detail
  refine forall₄_congr ?_
  intro id r _ hcontrib
  have hsome : (g.contributingToCallers target).toList ≠ [] := by
    rcases hcontrib with hdef | href
    · obtain ⟨id', b, hd⟩ := exists_defining hdef
      exact List.ne_nil_of_mem (mem_contributing_iff.mpr (Or.inr ⟨b, hd⟩))
    · exact List.ne_nil_of_mem (mem_contributing_iff.mpr (Or.inl href))
  rcases hcase with ⟨hnil, -⟩ | hcross
  · exact (hsome hnil).elim
  rw [hcross.surfaces_iff he]
  split
  · rename_i hsilent
    have h := callersSilent_iff.mp hsilent
    simp [h]
  · rename_i hsilent
    have h : ¬ g.CallersSilent target detail := fun h => hsilent (callersSilent_iff.mpr h)
    simp [h, mem_callersReasons]

end Callers

section Callees

def CalleeEdge (g : LiveGraph) (target : String) (e : IrEdge) : Prop :=
  ∃ defPart b ir, g.defining target = some (defPart, b) ∧ g.residentIr defPart = some ir ∧ e ∈ ir.edges ∧
    e.src.asStr = target

def CalleeContributes (g : LiveGraph) (target id : String) (b : IdentityBasis) : Prop :=
  g.defining target = some (id, b) ∨ ∃ e, g.CalleeEdge target e ∧ g.defining e.dst.asStr = some (id, b)

def OwnsCallee (g : LiveGraph) (target id : String) : Prop :=
  ∃ e, g.CalleeEdge target e ∧ g.Defines id e.dst.asStr

def CalleesSurface (g : LiveGraph) (target : String) (detail : Granularity) : Prop :=
  ∀ id r, g.Carries id r → g.Defines id target ∨ g.OwnsCallee target id →
    Surfaces (g.callees target detail) r

/-- The defining partition is resident, and each reason is one that a slot resolved to carries, an
identity gives, or an unresolved callee gives. -/
def CalleesGather (g : LiveGraph) (target : String) : Prop :=
  ∀ id r, g.Carries id r → g.Defines id target ∨ g.OwnsCallee target id →
    (∃ defPart b ir, g.defining target = some (defPart, b) ∧ g.residentIr defPart = some ir) ∧
      ((∃ id' b, g.CalleeContributes target id' b ∧ (g.Carries id' r ∨ NamedBy r b)) ∨
        r = .unresolvedAlias ∧ ∃ e, g.CalleeEdge target e ∧ g.defining e.dst.asStr = none)

variable {defPart : String} {defBasis : IdentityBasis} {ir : PartitionIr}

lemma calleeEdge_iff (hd : g.defining target = some (defPart, defBasis))
    (hir : g.residentIr defPart = some ir) {e : IrEdge} :
    g.CalleeEdge target e ↔ e ∈ ir.edges ∧ e.src.asStr = target := by
  constructor
  · rintro ⟨defPart', b, ir', hd', hir', he⟩
    obtain ⟨rfl, rfl⟩ := Prod.mk.inj (Option.some.inj (hd.symm.trans hd'))
    obtain rfl := Option.some.inj (hir.symm.trans hir')
    exact he
  · intro he
    exact ⟨defPart, defBasis, ir, hd, hir, he⟩

lemma mem_calleeScan_bases (hd : g.defining target = some (defPart, defBasis))
    (hir : g.residentIr defPart = some ir) {b : IdentityBasis} :
    b ∈ (g.calleeScan target detail defPart defBasis ir).bases ↔ ∃ id, g.CalleeContributes target id b := by
  simp only [calleeScan, foldl_scanCallee_bases, CalleeContributes, calleeEdge_iff hd hir, List.mem_append,
    List.mem_singleton, List.mem_filterMap, List.mem_filter, decide_eq_true_eq, Option.map_eq_some_iff, hd,
    Option.some.injEq, Prod.mk.injEq]
  constructor
  · rintro (rfl | ⟨e, he, ⟨id, b'⟩, hd', rfl⟩)
    · exact ⟨defPart, Or.inl ⟨rfl, rfl⟩⟩
    · exact ⟨id, Or.inr ⟨e, he, hd'⟩⟩
  · rintro ⟨id, ⟨-, rfl⟩ | ⟨e, he, hd'⟩⟩
    · exact Or.inl rfl
    · exact Or.inr ⟨e, he, (id, b), hd', rfl⟩

lemma mem_calleeScan_contributing_iff (hd : g.defining target = some (defPart, defBasis))
    (hir : g.residentIr defPart = some ir) {id : String} :
    id ∈ (g.calleeScan target detail defPart defBasis ir).contributing.toList ↔
      ∃ b, g.CalleeContributes target id b := by
  rw [mem_calleeScan_contributing]
  simp only [CalleeContributes, calleeEdge_iff hd hir, hd, Option.some.injEq, Prod.mk.injEq]
  constructor
  · rintro (rfl | ⟨e, he, hsrc, b, hd'⟩)
    · exact ⟨defBasis, Or.inl ⟨rfl, rfl⟩⟩
    · exact ⟨b, Or.inr ⟨e, ⟨he, hsrc⟩, hd'⟩⟩
  · rintro ⟨b, ⟨rfl, -⟩ | ⟨e, ⟨he, hsrc⟩, hd'⟩⟩
    · exact Or.inl rfl
    · exact Or.inr ⟨e, he, hsrc, b, hd'⟩

lemma calleeScan_unresolved_iff (hd : g.defining target = some (defPart, defBasis))
    (hir : g.residentIr defPart = some ir) :
    (g.calleeScan target detail defPart defBasis ir).hasUnresolved = true ↔
      ∃ e, g.CalleeEdge target e ∧ g.defining e.dst.asStr = none := by
  rw [calleeScan, foldl_scanCallee_unresolved]
  simp only [calleeEdge_iff hd hir, Bool.false_eq_true, false_or, and_assoc]

lemma mem_calleesReasons (hd : g.defining target = some (defPart, defBasis))
    (hir : g.residentIr defPart = some ir) {r : DegradationReason} :
    r ∈ g.calleesReasons (g.calleeScan target detail defPart defBasis ir) ↔
      (∃ id b, g.CalleeContributes target id b ∧ (g.Carries id r ∨ NamedBy r b)) ∨
        r = .unresolvedAlias ∧ ∃ e, g.CalleeEdge target e ∧ g.defining e.dst.asStr = none := by
  have hunresolved : r ∈ (if (g.calleeScan target detail defPart defBasis ir).hasUnresolved then
      [DegradationReason.unresolvedAlias] else []) ↔
        r = .unresolvedAlias ∧ ∃ e, g.CalleeEdge target e ∧ g.defining e.dst.asStr = none := by
    have hscan : (g.calleeScan target detail defPart defBasis ir).hasUnresolved = true ↔
        ∃ e, g.CalleeEdge target e ∧ g.defining e.dst.asStr = none := calleeScan_unresolved_iff hd hir
    rw [← hscan]
    split
    · simp [*]
    · simp [*]
  rw [calleesReasons, mem_mergePartitionReasons, List.mem_append, hunresolved, mem_identityReasons,
    List.mem_flatMap]
  simp only [mem_calleeScan_bases hd hir, mem_calleeScan_contributing_iff hd hir, mem_partitionReasons]
  grind

lemma calleesSurface_iff (hg : g.WellFormed) (target : String) (detail : Granularity) :
    g.CalleesSurface target detail ↔ g.CalleesGather target := by
  obtain ⟨env, he, hout⟩ := callees_spec hg target detail
  refine forall₄_congr ?_
  intro id r _ hcontrib
  cases hout with
  | unknown hd =>
    -- Nothing defines the key, so no slot contributes.
    rcases hcontrib with hdef | ⟨e, ⟨defPart, b, ir, hd', -⟩, -⟩
    · obtain ⟨id', b, hd'⟩ := exists_defining hdef
      simp [hd] at hd'
    · simp [hd] at hd'
  | missing hd hs hir _ hlisted =>
    rw [surfaces_ok_iff he, hlisted]
    constructor
    · simp
    · rintro ⟨⟨defPart', b', ir, hd', hres⟩, -⟩
      obtain ⟨rfl, -⟩ := Prod.mk.inj (Option.some.inj (hd.symm.trans hd'))
      simp [residentIr, hs, hir] at hres
  | @read defPart b s ir hd hs hir hcross =>
    have hres : g.residentIr defPart = some ir := by
      rw [residentIr, hs]
      exact hir
    rw [hcross.surfaces_iff he, if_neg (fun h => calleeScan_bases_ne_nil _ _ _ _ _ _ h.1),
      mem_calleesReasons hd hres]
    exact (and_iff_right ⟨_, _, _, hd, hres⟩).symm

end Callees

section ValueFacts

def ValueFactsSurface (g : LiveGraph) (symbol : String) : Prop :=
  ∀ id r, g.Carries id r → g.Defines id symbol → Surfaces (g.valueFacts symbol) r

/-- The slot that the symbol is resolved to is resident, does not serve its facts as exact, and gives
the reason; without facts only an unresolved alias is named. -/
def ValueFactsGather (g : LiveGraph) (symbol : String) : Prop :=
  ∀ id r, g.Carries id r → g.Defines id symbol →
    ∃ defPart b s, g.defining symbol = some (defPart, b) ∧ g.slot defPart = some s ∧
      (s.factsAbout symbol = [] ∧ r = .unresolvedAlias ∨
        ∃ fact facts, s.factsAbout symbol = fact :: facts ∧ s.ir ≠ none ∧ ¬ s.ServesExact fact.basis ∧
          (g.Carries defPart r ∨
            ownsSymbol fact.basis s.language = false ∧ r = .scipFallbackIdentity))

lemma mem_valueFactsReasons {defPart : String} {owned : Bool} {r : DegradationReason} :
    r ∈ g.valueFactsReasons defPart owned ↔
      g.Carries defPart r ∨ owned = false ∧ r = .scipFallbackIdentity := by
  rw [valueFactsReasons, mem_mergePartitionReasons, mem_partitionReasons, or_comm]
  cases owned with
  | true => simp
  | false => simp

lemma valueFactsSurface_iff (g : LiveGraph) (symbol : String) :
    g.ValueFactsSurface symbol ↔ g.ValueFactsGather symbol := by
  obtain ⟨env, he, hout⟩ := valueFacts_spec g symbol
  refine forall₄_congr ?_
  intro id r _ hdef
  rw [surfaces_ok_iff he]
  -- The definer is the one the lookup has found.
  have hunique : ∀ {defPart : String} {b : IdentityBasis} {s : Slot},
      g.defining symbol = some (defPart, b) → g.slot defPart = some s → ∀ {P : String → Slot → Prop},
        (∃ defPart' b' s', g.defining symbol = some (defPart', b') ∧ g.slot defPart' = some s' ∧ P defPart' s')
          ↔ P defPart s := by
    intro defPart b s hd hs P
    constructor
    · rintro ⟨defPart', b', s', hd', hs', h⟩
      obtain ⟨rfl, rfl⟩ := Prod.mk.inj (Option.some.inj (hd.symm.trans hd'))
      obtain rfl := Option.some.inj (hs.symm.trans hs')
      exact h
    · exact fun h => ⟨defPart, b, s, hd, hs, h⟩
  cases hout with
  | unknown hd =>
    obtain ⟨id', b, hd'⟩ := exists_defining hdef
    simp [hd] at hd'
  | noFacts hd hs hfacts hclass hlisted =>
    rw [hunique hd hs]
    simp [hclass, hlisted, hfacts]
  | missing hd hs hfacts hir _ hlisted =>
    rw [hunique hd hs]
    simp [hlisted, hfacts, hir]
  | exact hd hs hfacts hir hserves hclass =>
    rw [hunique hd hs]
    simp [hclass, hfacts, hserves]
  | degraded hd hs hfacts hir hserves hclass hlisted =>
    rw [hunique hd hs, hlisted, mem_valueFactsReasons]
    rcases hclass with hclass | hclass
    · simp [hclass, hfacts, hir, hserves]
    · simp [hclass, hfacts, hir, hserves]

end ValueFacts

section Path

def PathSurface (g : LiveGraph) (source target : String) : Prop :=
  ∀ env data, g.path source target = .ok env → env.data = some data →
    ∀ n ∈ data.nodes, ∀ id r, g.Carries id r → g.Defines id n → Surfaces (g.path source target) r

lemma pathSurface_iff (g : LiveGraph) :
    (∀ source target, g.PathSurface source target) ↔ ∀ id r, g.Carries id r → ∀ key, ¬ g.Defines id key := by
  constructor
  · intro h id r hcarries key hdef
    obtain ⟨s, hs, hk⟩ := hdef
    obtain ⟨id', s', hlast⟩ := exists_lastDefiner hs hk
    obtain ⟨env, he, ⟨data, hdata, hnodes, -⟩, -, hlisted⟩ := path_self hlast
    have hsurf := h key key env data he hdata key (by simp [hnodes]) id r hcarries ⟨s, hs, hk⟩
    rw [surfaces_ok_iff he, hlisted] at hsurf
    simp at hsurf
  · intro h source target env data _ _ n _ id r hcarries hdef
    exact (h id r hcarries n hdef).elim

end Path

/-- Which answers surface the reasons of the slots they touch. A slot carries the reasons added since
its last load or swap. -/
theorem degradation_surfaced_iff (ms : List Mutation) :
    (∀ id r, (after ms).Carries id r ↔ ∃ p, past ms id = some p ∧ r ∈ p.reasons) ∧
      (∀ target detail, (after ms).CallersSurface target detail ↔ (after ms).CallersGather target detail) ∧
      (∀ target detail, (after ms).CalleesSurface target detail ↔ (after ms).CalleesGather target) ∧
      (∀ symbol, (after ms).ValueFactsSurface symbol ↔ (after ms).ValueFactsGather symbol) ∧
      ((∀ source target, (after ms).PathSurface source target) ↔
        ∀ id r, (after ms).Carries id r → ∀ key, ¬ (after ms).Defines id key) := by
  refine ⟨?_, callersSurface_iff (after_wellFormed ms), calleesSurface_iff (after_wellFormed ms),
    valueFactsSurface_iff _, pathSurface_iff _⟩
  intro id r
  constructor
  · rintro ⟨s, hs, hr⟩
    obtain ⟨p, hp, hrep⟩ := past_of_slot hs
    exact ⟨p, hp, hrep.reasons ▸ hr⟩
  · rintro ⟨p, hp, hr⟩
    obtain ⟨s, hs, hrep⟩ := slot_of_past hp
    exact ⟨s, hs, hrep.reasons ▸ hr⟩

def Fixture.producerAbsent : List Mutation :=
  [load "engine" Ir.Fixture.engine, .loadValueFacts "engine" [complexityFact "engine.foo" 3 .astAdopted],
    .markStale "engine", .addPartitionDegradation "engine" .producerUnavailable, .beginRefresh "engine"]

/-- The facts of such a partition are served as exact, and a path through it lists no reason. -/
theorem degradation_lost_while_refreshing :
    ¬ (after Fixture.producerAbsent).ValueFactsSurface "engine.foo" ∧
      ¬ (after Fixture.producerAbsent).PathSurface "engine.bar" "engine.foo" := by
  have hpast : past Fixture.producerAbsent "engine" =
      some ⟨Ir.Fixture.engine, .typeScriptPrimary, true, .refreshing, {.producerUnavailable},
        [Fixture.complexityFact "engine.foo" 3 .astAdopted], true⟩ := rfl
  obtain ⟨s, hs, hr⟩ := slot_of_past hpast
  have hcarries : (after Fixture.producerAbsent).Carries "engine" .producerUnavailable :=
    ⟨s, hs, by simp [hr.reasons]⟩
  have hdef : (after Fixture.producerAbsent).Defines "engine" "engine.foo" :=
    ⟨s, hs, hr.defines ▸ (mem_defines _ _).mpr ⟨_, List.mem_cons_self .., rfl⟩⟩
  constructor
  · intro h
    obtain ⟨env, he, hclass, -⟩ := h "engine" .producerUnavailable hcarries hdef
    have hanswer : ((after Fixture.producerAbsent).valueFacts "engine.foo").map AnswerEnvelope.answerClass =
        .ok .exact := by decide
    rw [he] at hanswer
    exact hclass (Except.ok.inj hanswer)
  · intro h
    have hanswer : ((after Fixture.producerAbsent).path "engine.bar" "engine.foo").map
        (fun env => (env.degradationReasons, env.data.map PathAnswer.nodes)) =
          .ok ([], some ["engine.bar", "engine.foo"]) := by decide
    obtain ⟨env, he, -⟩ := path_spec (after Fixture.producerAbsent) "engine.bar" "engine.foo"
    rw [he] at hanswer
    obtain ⟨hlisted, hnodes⟩ := Prod.mk.inj (Except.ok.inj hanswer)
    obtain ⟨data, hdata, hnodes⟩ := Option.map_eq_some_iff.mp hnodes
    have hsurf := h env data he hdata "engine.foo" (by simp [hnodes]) "engine" _ hcarries hdef
    rw [surfaces_ok_iff he, hlisted] at hsurf
    simp at hsurf

end RepoGraph.LiveGraph
