import RepoGraph.Enrichment.Pipeline
import RepoGraph.Enrichment.PromotionFilter
import RepoGraph.Storage.AggregateParity

/-! The promoted edges of a snapshot and the results last persisted for its calls. -/

namespace RepoGraph.Enrichment

open Lib Storage Indexer

variable {ext : Externals} {snapshotUid : String}

/-! What a row's stored metadata carries of the result last persisted for it. -/

/-- A row that was never enriched has no enrichment. After a result its origin and flag are the result's, and
after a compiler's result so are the names of the type. -/
def Carries (stored : Option Json) : Option EnrichmentMetadata → Prop
  | none => stored.bind (·.get "enrichment") = none
  | some m =>
    storedField stored "origin" = some (.string m.origin.asStr) ∧
      storedField stored "isExternalType" = some (.bool m.isExternalType) ∧
        (m.origin = .compiler → m.receiverType.isSome ∧
          storedField stored "receiverType" = m.receiverType.map .string ∧
            storedField stored "typeDisplayName" = m.typeDisplayName.map .string)

/-- A compiler's result names its receiver type, and its display name when an earlier one is stored. -/
def resultFits (stored : Option Json) (m : EnrichmentMetadata) : Bool :=
  m.origin = .failed ||
    (m.receiverType.isSome && (m.typeDisplayName.isSome || (storedField stored "typeDisplayName").isNone))

lemma carries_merged {stored : Option Json} {m : EnrichmentMetadata} (hfits : resultFits stored m) :
    Carries (some (mergedMetadata stored m)) (some m) := by
  refine ⟨?_, ?_, fun horigin => ?_⟩
  · rw [storedField_merged, lookup_origin]
    rfl
  · rw [storedField_merged, lookup_isExternalType]
    rfl
  · obtain ⟨hreceiver, hdisplay⟩ : m.receiverType.isSome ∧
        (m.typeDisplayName.isSome ∨ storedField stored "typeDisplayName" = none) := by
      simpa [resultFits, horigin] using hfits
    refine ⟨hreceiver, ?_, ?_⟩
    · rw [storedField_merged, lookup_receiverType]
      obtain ⟨receiverType, h⟩ := Option.isSome_iff_exists.mp hreceiver
      rw [h]
      rfl
    · rw [storedField_merged, lookup_typeDisplayName]
      rcases hdisplay with hdisplay | hdisplay
      · obtain ⟨typeDisplayName, h⟩ := Option.isSome_iff_exists.mp hdisplay
        rw [h]
        rfl
      · rw [hdisplay, Option.or_none]

def clearReason (m : EnrichmentMetadata) : EnrichmentMetadata := { m with failureReason := none }

lemma metadataFromDbJson_carries {value : Json} {m : EnrichmentMetadata} (h : Carries (some value) (some m))
    (horigin : m.origin = .compiler) : (metadataFromDbJson value).map clearReason = some (clearReason m) := by
  obtain ⟨hstoredOrigin, hexternal, hnames⟩ := h
  obtain ⟨-, hreceiver, hdisplay⟩ := hnames horigin
  cases henrichment : value.get "enrichment" with
  | none =>
    rw [storedField, Option.bind_some, henrichment] at hstoredOrigin
    cases hstoredOrigin
  | some enrichment =>
    have hfield : ∀ key, storedField (some value) key = enrichment.get key := by
      intro key
      rw [storedField, Option.bind_some, henrichment, Option.bind_some]
    rw [hfield] at hstoredOrigin hexternal hreceiver hdisplay
    have hstr : ∀ o : Option String, (o.map Json.string).bind Json.asStr = o := by
      intro o
      cases o <;> rfl
    obtain ⟨receiverType, typeDisplayName, isExternalType, origin, failureReason⟩ := m
    obtain rfl : origin = .compiler := horigin
    simp [metadataFromDbJson, henrichment, hstoredOrigin, hexternal, hreceiver, hdisplay, hstr, Json.asStr, asBool,
      parseOrigin, ReceiverTypeOrigin.asStr, clearReason]

section Candidates

def clearCandidate (c : PromotionCandidate) : PromotionCandidate :=
  { c with enrichment := clearReason c.enrichment }

def latestCandidate (last : String → Option EnrichmentMetadata) (row : UnresolvedEdgeRow) :
    Option PromotionCandidate := do
  let m ← last row.edgeUid
  let category ← UnresolvedCategory.parse row.category
  some (EnrichmentTables.candidateOf row category m)

def isCompiled (c : PromotionCandidate) : Bool := c.enrichment.origin = .compiler

lemma loadCandidate_carries {last : String → Option EnrichmentMetadata} {row : UnresolvedEdgeRow}
    (h : Carries row.metadataJson (last row.edgeUid)) :
    (EnrichmentTables.loadCandidate row).map clearCandidate =
      ((latestCandidate last row).filter isCompiled).map clearCandidate := by
  cases hlast : last row.edgeUid with
  | none =>
    rw [hlast] at h
    have hfield : ∀ key, jsonExtract row.metadataJson key = none := by
      intro key
      rw [jsonExtract, storedField, show row.metadataJson.bind (·.get "enrichment") = none from h]
      rfl
    simp [EnrichmentTables.loadCandidate, latestCandidate, hlast, hfield]
  | some m =>
    rw [hlast] at h
    have horigin : jsonExtract row.metadataJson "origin" = some (.string m.origin.asStr) := by
      rw [jsonExtract, h.1]
    cases hm : m.origin with
    | failed =>
      have hnot : ¬ m.origin.asStr = "compiler" := by rw [hm]; decide
      have hload : EnrichmentTables.loadCandidate row = none := by
        rw [EnrichmentTables.loadCandidate, if_neg]
        rintro ⟨-, hcompiler⟩
        rw [horigin] at hcompiler
        exact hnot (Option.some.inj hcompiler)
      rw [hload, latestCandidate, hlast]
      cases UnresolvedCategory.parse row.category with
      | none => rfl
      | some category => simp [isCompiled, EnrichmentTables.candidateOf, hm]
    | compiler =>
      obtain ⟨hsome, hreceiver, hdisplay⟩ := h.2.2 hm
      have hselected : (jsonExtract row.metadataJson "receiverType").isSome ∧
          (jsonExtract row.metadataJson "origin").bind Json.asStr = some "compiler" := by
        refine ⟨?_, ?_⟩
        · obtain ⟨receiverType, hr⟩ := Option.isSome_iff_exists.mp hsome
          rw [jsonExtract, hreceiver, hr]
          rfl
        · rw [horigin, hm]
          rfl
      obtain ⟨value, hvalue⟩ : ∃ value, row.metadataJson = some value := by
        cases hjson : row.metadataJson with
        | none =>
          rw [hjson] at horigin
          cases horigin
        | some value => exact ⟨value, rfl⟩
      have hread := metadataFromDbJson_carries (hvalue ▸ h) hm
      obtain ⟨m', hm', hclear⟩ := Option.map_eq_some_iff.mp hread
      rw [EnrichmentTables.loadCandidate, if_pos hselected, latestCandidate, hlast, hvalue]
      cases UnresolvedCategory.parse row.category with
      | none => rfl
      | some category =>
        simp [hm', isCompiled, EnrichmentTables.candidateOf, hm, clearCandidate, hclear]

end Candidates

section Filter

lemma promoted?_of_not_compiled {ctx : PromotionContext} {c : PromotionCandidate} (h : isCompiled c = false) :
    promoted? ext ctx c = none := by
  have horigin : c.enrichment.origin ≠ .compiler := by simpa [isCompiled] using h
  have hcategory : c.category ∈ [UnresolvedCategory.callsObjMethodNeedsTypeInfo,
      .callsThisWildcardMethodNeedsTypeInfo] := by cases c.category <;> simp
  simp only [promoted?, evaluate, if_neg (not_not_intro hcategory), if_pos horigin]
  rfl

end Filter

section Latest

variable {t : EnrichmentTables} {last : String → Option EnrichmentMetadata}

def latestCandidates (t : EnrichmentTables) (snapshotUid : String) (last : String → Option EnrichmentMetadata) :
    List PromotionCandidate :=
  (t.unresolvedOf snapshotUid).filterMap (latestCandidate last)

/-- What the filter yields when every unresolved edge carries the result last persisted for it. -/
def promotedByLatest (ext : Externals) (t : EnrichmentTables) (snapshotUid : String)
    (last : String → Option EnrichmentMetadata) : List PromotedEdge :=
  let candidates := latestCandidates t snapshotUid last
  (promoteEdges ext candidates
    (promotionContext t snapshotUid (typeNames (candidates.filter isCompiled)))).promoted

def CarryLatest (t : UnresolvedTable) (snapshotUid : String) (last : String → Option EnrichmentMetadata) : Prop :=
  ∀ row ∈ t.rows, row.snapshotUid = snapshotUid → Carries row.metadataJson (last row.edgeUid)

lemma mem_unresolvedOf {row : UnresolvedEdgeRow} :
    row ∈ t.unresolvedOf snapshotUid ↔ row ∈ t.unresolved.rows ∧ row.snapshotUid = snapshotUid := by
  rw [EnrichmentTables.unresolvedOf, (sortBy_perm _ _).mem_iff, List.mem_filter, decide_eq_true_eq]

lemma loaded_eq_latest (h : CarryLatest t.unresolved snapshotUid last) :
    (t.loadPromotionCandidates snapshotUid none).map clearCandidate =
      ((latestCandidates t snapshotUid last).filter isCompiled).map clearCandidate := by
  rw [EnrichmentTables.loadPromotionCandidates, latestCandidates, List.filter_filterMap, List.map_filterMap,
    List.map_filterMap]
  refine List.filterMap_congr fun row hrow => ?_
  obtain ⟨hmem, hsnapshot⟩ := mem_unresolvedOf.mp hrow
  exact loadCandidate_carries (h row hmem hsnapshot)

lemma typeNames_clear (l : List PromotionCandidate) : typeNames (l.map clearCandidate) = typeNames l := by
  rw [typeNames, List.filterMap_map]
  rfl

lemma filterMap_promoted?_clear (ctx : PromotionContext) (l : List PromotionCandidate) :
    (l.map clearCandidate).filterMap (promoted? ext ctx) = l.filterMap (promoted? ext ctx) := by
  rw [List.filterMap_map]
  rfl

lemma promoted_loaded (ext : Externals) (h : CarryLatest t.unresolved snapshotUid last) :
    (promoteEdges ext (t.loadPromotionCandidates snapshotUid none)
      (promotionContext t snapshotUid (typeNames (t.loadPromotionCandidates snapshotUid none)))).promoted =
        promotedByLatest ext t snapshotUid last := by
  have hlists := loaded_eq_latest h
  have hnames : typeNames (t.loadPromotionCandidates snapshotUid none) =
      typeNames ((latestCandidates t snapshotUid last).filter isCompiled) := by
    rw [← typeNames_clear, hlists, typeNames_clear]
  rw [promotedByLatest, promoteEdges_promoted, promoteEdges_promoted, hnames, ← filterMap_promoted?_clear, hlists,
    filterMap_promoted?_clear, List.filterMap_filter]
  refine List.filterMap_congr fun c _ => ?_
  cases hc : isCompiled c with
  | true => rfl
  | false => exact (promoted?_of_not_compiled hc).symm

lemma mem_promotedByLatest {e : PromotedEdge} (h : e ∈ promotedByLatest ext t snapshotUid last) :
    e.snapshotUid = snapshotUid ∧ Text.startsWith e.edgeUid "promoted:" := by
  rw [promotedByLatest, promoteEdges_promoted] at h
  obtain ⟨c, hc, hpromoted⟩ := List.mem_filterMap.mp h
  obtain ⟨typeName, methodName, method, -, -, -, rfl⟩ := promoted?_eq_some.mp hpromoted
  obtain ⟨row, hrow, hcandidate⟩ := List.mem_filterMap.mp hc
  obtain ⟨-, hsnapshot⟩ := mem_unresolvedOf.mp hrow
  refine ⟨?_, ?_⟩
  · simp only [latestCandidate, Option.bind_eq_bind, Option.bind_eq_some_iff] at hcandidate
    obtain ⟨m, -, category, -, hcandidate⟩ := hcandidate
    obtain rfl := Option.some.inj hcandidate
    exact hsnapshot
  · rw [Text.startsWith, promotedEdge, String.toList_append]
    exact List.isPrefixOf_iff_prefix.mpr (List.prefix_append _ _)

lemma promotedByLatest_congr {t' : EnrichmentTables} (hnodes : t'.calls.nodes = t.calls.nodes)
    (hunresolved : t'.unresolved = t.unresolved) :
    promotedByLatest ext t' snapshotUid last = promotedByLatest ext t snapshotUid last := by
  have hsymbols : t'.loadSymbolsByNames = t.loadSymbolsByNames := by
    funext snapshotUid names
    rw [EnrichmentTables.loadSymbolsByNames, hnodes]
    rfl
  have hmethods : t'.loadClassMethods = t.loadClassMethods := by
    funext snapshotUid key
    rw [EnrichmentTables.loadClassMethods, hnodes]
    rfl
  simp only [promotedByLatest, latestCandidates, EnrichmentTables.unresolvedOf,
    promotionContext, hsymbols, hmethods, hunresolved]

end Latest

section Persist

variable {t : UnresolvedTable} {last : String → Option EnrichmentMetadata}

def record (last : String → Option EnrichmentMetadata) (updates : List (String × EnrichmentMetadata)) :
    String → Option EnrichmentMetadata :=
  updates.foldl (fun last u => Function.update last u.1 (some u.2)) last

def updateFits (t : UnresolvedTable) (snapshotUid : String) (u : String × EnrichmentMetadata) : Bool :=
  t.rows.all fun row => row.snapshotUid ≠ snapshotUid || row.edgeUid ≠ u.1 || resultFits row.metadataJson u.2

def updatesFit (t : UnresolvedTable) (snapshotUid : String) : List (String × EnrichmentMetadata) → Bool
  | [] => true
  | u :: rest => updateFits t snapshotUid u && updatesFit (t.persistEnrichment u) snapshotUid rest

lemma carryLatest_persistEnrichment (h : CarryLatest t snapshotUid last) {u : String × EnrichmentMetadata}
    (hfits : updateFits t snapshotUid u) :
    CarryLatest (t.persistEnrichment u) snapshotUid (Function.update last u.1 (some u.2)) := by
  intro row' hrow' hsnapshot
  obtain ⟨row, hrow, rfl⟩ := List.mem_map.mp hrow'
  by_cases huid : row.edgeUid = u.1
  · rw [if_pos huid] at hsnapshot ⊢
    have hresult : resultFits row.metadataJson u.2 := by
      have hsnapshot : row.snapshotUid = snapshotUid := hsnapshot
      have := List.all_eq_true.mp hfits row hrow
      simpa [hsnapshot, huid] using this
    change Carries _ (Function.update last u.1 (some u.2) row.edgeUid)
    rw [huid, Function.update_self]
    exact carries_merged hresult
  · rw [if_neg huid] at hsnapshot ⊢
    rw [Function.update_of_ne huid]
    exact h row hrow hsnapshot

lemma carryLatest_persist {updates : List (String × EnrichmentMetadata)} (h : CarryLatest t snapshotUid last)
    (hfits : updatesFit t snapshotUid updates) :
    CarryLatest (updates.foldl UnresolvedTable.persistEnrichment t) snapshotUid (record last updates) := by
  induction updates generalizing t last with
  | nil => exact h
  | cons u rest ih =>
    rw [updatesFit, Bool.and_eq_true] at hfits
    exact ih (carryLatest_persistEnrichment h hfits.1) hfits.2

end Persist

/-! Passes, with the results they persisted. -/

structure Passed where
  tables : EnrichmentTables
  last : String → Option EnrichmentMetadata

def passUpdates (snapshotUid : String) (t : EnrichmentTables) (p : Pass) : List (String × EnrichmentMetadata) :=
  if p.config.dryRun then []
  else (groupByLanguage p.order (eligibleEdges t snapshotUid p.config)).flatMap (batchUpdates p.registry)

def afterPass (ext : Externals) (snapshotUid : String) (s : Passed) (p : Pass) : Passed where
  tables := (runPass ext snapshotUid s.tables p).2
  last := record s.last (passUpdates snapshotUid s.tables p)

def afterPasses (ext : Externals) (snapshotUid : String) (t : EnrichmentTables) (passes : List Pass) : Passed :=
  run (afterPass ext snapshotUid) ⟨t, fun _ => none⟩ passes

def promotedRows (t : EnrichmentTables) (snapshotUid : String) : List LocatedEdge :=
  t.calls.edges.rows.filter fun e => e.snapshotUid = snapshotUid && Text.startsWith e.edgeUid "promoted:"

/-- The promoted rows are those that the results last persisted yield. -/
def FollowLatest (ext : Externals) (snapshotUid : String) (s : Passed) : Prop :=
  ∀ row, row ∈ promotedRows s.tables snapshotUid ↔
    ∃ e ∈ promotedByLatest ext s.tables snapshotUid s.last, row = CallTables.rowOfPromoted e

/-- A pass that ended with its promotion, no statement of it failing and no edge left out. -/
def noSqlError : Except CallTables.PromotionError (Option PromotionReport) → Bool
  | .error _ => false
  | .ok none => true
  | .ok (some report) => report.persistedCount.all (· = report.promoted)

/-- No result leaves a stale name behind, and every call with a promoted row passes the gates again. -/
structure PassFits (ext : Externals) (snapshotUid : String) (s : Passed) (p : Pass) : Prop where
  results : updatesFit s.tables.unresolved snapshotUid (passUpdates snapshotUid s.tables p)
  kept : ∀ row ∈ promotedRows s.tables snapshotUid, row.edgeUid ∈
    (promotedByLatest ext (s.tables.persistEnrichments (passUpdates snapshotUid s.tables p)) snapshotUid
      (record s.last (passUpdates snapshotUid s.tables p))).map (·.edgeUid)

section Step

variable {t : EnrichmentTables} {last : String → Option EnrichmentMetadata}

lemma persist_groups (registry : ResolverRegistry) (groups : List (EnrichmentLanguage × List EligibleEdge))
    (t : EnrichmentTables) :
    groups.foldl (fun t group => t.persistEnrichments (batchUpdates registry group)) t =
      t.persistEnrichments (groups.flatMap (batchUpdates registry)) := by
  induction groups generalizing t with
  | nil => rfl
  | cons group groups ih =>
    rw [List.foldl_cons, ih, List.flatMap_cons, EnrichmentTables.persistEnrichments,
      EnrichmentTables.persistEnrichments, EnrichmentTables.persistEnrichments, List.foldl_append]

lemma runPromotion_follows {faults : CallTables.Statement → Bool} {report : PromotionReport}
    {t' : EnrichmentTables} (hcarry : CarryLatest t.unresolved snapshotUid last)
    (hkept : ∀ row ∈ promotedRows t snapshotUid, row.edgeUid ∈
      (promotedByLatest ext t snapshotUid last).map (·.edgeUid))
    (hrun : runPromotion ext faults t snapshotUid = .ok (report, t'))
    (hok : report.persistedCount.all (· = report.promoted)) :
    t'.unresolved = t.unresolved ∧ FollowLatest ext snapshotUid ⟨t', last⟩ := by
  have hpromoted := promoted_loaded ext hcarry
  by_cases hempty : t.loadPromotionCandidates snapshotUid none = []
  · simp only [runPromotion, if_pos hempty] at hrun
    obtain ⟨rfl, rfl⟩ := Prod.mk.inj (Except.ok.inj hrun)
    refine ⟨rfl, fun row => ?_⟩
    have hnil : promotedByLatest ext t snapshotUid last = [] := by
      rw [← hpromoted, hempty]
      rfl
    rw [hnil] at hkept
    simp only [hnil, List.not_mem_nil, false_and, exists_false, iff_false]
    intro hrow
    simpa using hkept row hrow
  · simp only [runPromotion, if_neg hempty] at hrun
    rw [hpromoted] at hrun
    obtain ⟨⟨persisted, calls⟩, happly, hrun⟩ := bind_ok.mp hrun
    obtain ⟨rfl, rfl⟩ := Prod.mk.inj (Except.ok.inj hrun)
    have hnodes : calls.nodes = t.calls.nodes := by
      have h := CallTables.applyPromotion_kept faults t.calls snapshotUid
        (promotedByLatest ext t snapshotUid last)
      rw [happly] at h
      exact h.nodes
    have hrows : calls.edges.rows = (t.calls.edges.rows.filter fun e =>
        e.edgeUid ∉ (promotedByLatest ext t snapshotUid last).map (·.edgeUid)) ++
          (promotedByLatest ext t snapshotUid last).map CallTables.rowOfPromoted := by
      have h := CallTables.applyPromotion_rows faults t.calls snapshotUid
        (promotedByLatest ext t snapshotUid last)
      rw [happly] at h
      refine h ?_
      simpa [PromotionResult.toReport, hpromoted] using hok
    refine ⟨rfl, fun row => ?_⟩
    have hlatest : promotedByLatest ext { t with calls := calls } snapshotUid last =
        promotedByLatest ext t snapshotUid last := promotedByLatest_congr hnodes rfl
    change row ∈ calls.edges.rows.filter _ ↔ _
    rw [hlatest, hrows, List.mem_filter, List.mem_append]
    constructor
    · rintro ⟨hrow | hrow, hpromotedRow⟩
      · -- A promoted row that no promotion replaces would be one that the pass dropped.
        obtain ⟨hrow, huid⟩ := List.mem_filter.mp hrow
        have hin := hkept row (List.mem_filter.mpr ⟨hrow, hpromotedRow⟩)
        exact absurd hin (by simpa using huid)
      · obtain ⟨e, he, rfl⟩ := List.mem_map.mp hrow
        exact ⟨e, he, rfl⟩
    · rintro ⟨e, he, rfl⟩
      obtain ⟨hsnapshot, huid⟩ := mem_promotedByLatest he
      refine ⟨.inr (List.mem_map.mpr ⟨e, he, rfl⟩), ?_⟩
      rw [Bool.and_eq_true, decide_eq_true_eq]
      exact ⟨hsnapshot, huid⟩

end Step

structure Followed (ext : Externals) (snapshotUid : String) (s : Passed) : Prop where
  carry : CarryLatest s.tables.unresolved snapshotUid s.last
  follow : FollowLatest ext snapshotUid s

lemma followed_afterPass {s : Passed} {p : Pass} (hs : Followed ext snapshotUid s) (hpromote : p.config.promote)
    (hdry : p.config.dryRun = false) (hok : noSqlError (runPass ext snapshotUid s.tables p).1)
    (hfits : PassFits ext snapshotUid s p) : Followed ext snapshotUid (afterPass ext snapshotUid s p) := by
  have hupdates : passUpdates snapshotUid s.tables p =
      (groupByLanguage p.order (eligibleEdges s.tables snapshotUid p.config)).flatMap
        (batchUpdates p.registry) := by
    rw [passUpdates, hdry]
    rfl
  by_cases hedges : eligibleEdges s.tables snapshotUid p.config = []
  · have hnone : passUpdates snapshotUid s.tables p = [] := by
      rw [hupdates, hedges, groupByLanguage]
      simp
    have htables : (runPass ext snapshotUid s.tables p).2 = s.tables := by
      simp only [runPass, if_pos hedges]
    have hsame : afterPass ext snapshotUid s p = s := by
      rw [afterPass, htables, hnone]
      rfl
    rw [hsame]
    exact hs
  · have hcarry : CarryLatest (s.tables.persistEnrichments (passUpdates snapshotUid s.tables p)).unresolved
        snapshotUid (record s.last (passUpdates snapshotUid s.tables p)) :=
      carryLatest_persist hs.carry hfits.results
    have hrun : runPass ext snapshotUid s.tables p =
        endPass (s.tables.persistEnrichments (passUpdates snapshotUid s.tables p)) (runPromotion ext p.faults
          (s.tables.persistEnrichments (passUpdates snapshotUid s.tables p)) snapshotUid) := by
      simp only [runPass, if_neg hedges, hdry, persist_groups, ← hupdates, hpromote, Bool.false_eq_true, if_false,
        if_true]
    cases hpromotion : runPromotion ext p.faults
        (s.tables.persistEnrichments (passUpdates snapshotUid s.tables p)) snapshotUid with
    | error e =>
      rw [hrun, hpromotion] at hok
      cases hok
    | ok r =>
      obtain ⟨report, t'⟩ := r
      rw [hpromotion, endPass] at hrun
      rw [hrun] at hok
      have hok : report.persistedCount.all (· = report.promoted) := hok
      obtain ⟨hunresolved, hfollow⟩ := runPromotion_follows hcarry hfits.kept hpromotion hok
      have hafter : afterPass ext snapshotUid s p = ⟨t', record s.last (passUpdates snapshotUid s.tables p)⟩ := by
        rw [afterPass, hrun]
      rw [hafter]
      refine ⟨?_, hfollow⟩
      change CarryLatest t'.unresolved _ _
      rw [hunresolved]
      exact hcarry

/-- Over every run of passes that end with their promotion, and in which no result leaves a stale name behind and
no call with a promoted row fails the gates, the promoted rows are those that the latest results yield. -/
theorem promoted_rows_follow_latest (ext : Externals) (snapshotUid : String) (t : EnrichmentTables)
    (passes : List Pass)
    (hfresh : ∀ row ∈ t.unresolved.rows, row.snapshotUid = snapshotUid →
      row.metadataJson.bind (·.get "enrichment") = none)
    (hnone : promotedRows t snapshotUid = [])
    (hpasses : ∀ pre p, pre ++ [p] <+: passes → p.config.promote = true ∧ p.config.dryRun = false ∧
      noSqlError (runPass ext snapshotUid (afterPasses ext snapshotUid t pre).tables p).1)
    (hfits : ∀ pre p, pre ++ [p] <+: passes → PassFits ext snapshotUid (afterPasses ext snapshotUid t pre) p) :
    FollowLatest ext snapshotUid (afterPasses ext snapshotUid t passes) := by
  have hpre : ∀ pre, pre <+: passes → Followed ext snapshotUid (afterPasses ext snapshotUid t pre) := by
    intro pre
    induction pre using List.reverseRecOn with
    | nil =>
      intro _
      refine ⟨hfresh, fun row => ?_⟩
      have hlatest : promotedByLatest ext t snapshotUid (fun _ => none) = [] := by
        have hcandidates : latestCandidates t snapshotUid (fun _ => none) = [] := by
          rw [latestCandidates, List.filterMap_eq_nil_iff]
          exact fun _ _ => rfl
        rw [promotedByLatest, promoteEdges_promoted, hcandidates]
        rfl
      change row ∈ promotedRows t snapshotUid ↔ ∃ e ∈ promotedByLatest ext t snapshotUid (fun _ => none), _
      rw [hnone, hlatest]
      simp
    | append_singleton pre p ih =>
      intro hpre
      have hbefore := ih ((List.prefix_append pre [p]).trans hpre)
      obtain ⟨hpromote, hdry, hok⟩ := hpasses pre p hpre
      rw [afterPasses, run_snoc]
      exact followed_afterPass hbefore hpromote hdry hok (hfits pre p hpre)
  exact (hpre passes (List.prefix_refl passes)).follow

/-! A call whose receiver the first pass resolves and the second one, forced, does not. -/

def engineNode (uid name : String) (qualifiedName subtype : String) : LocatedNode where
  nodeUid := uid
  snapshotUid := "s1"
  kind := "SYMBOL"
  name := name
  qualifiedName := some qualifiedName
  fileUid := some "f1"
  stableKey := uid
  subtype := some subtype
  parentNodeUid := none
  lineStart := none
  lineEnd := none

def engineTables : EnrichmentTables where
  calls :=
    { repos := ["r1"]
      snapshots := Std.ExtTreeMap.ofList [("s1", ⟨none, none, none⟩)] compare
      files := [⟨"f1", "a.rs", .null⟩]
      nodes := [engineNode "n1" "main" "main" "FUNCTION", engineNode "n2" "Engine" "Engine" "CLASS",
        engineNode "n3" "run" "Engine.run" "METHOD", engineNode "n4" "Motor" "Motor" "CLASS",
        engineNode "n5" "run" "Motor.run" "METHOD"]
      edges := ⟨[], List.nodup_nil⟩
      symbolCallDegrees := ∅
      resolvedCallFilePairs := ∅
      declarations := []
      inferences := []
      nodeKeys := by decide }
  unresolved :=
    { rows :=
        [{ edgeUid := "e1", snapshotUid := "s1", repoUid := "r1", sourceNodeUid := "n1", targetKey := "engine.run",
           lineStart := some 3, colStart := none, lineEnd := none, colEnd := none,
           category := "calls_obj_method_needs_type_info", metadataJson := none }]
      keys := by decide }

def plainText : Externals := ⟨fun _ => none, fun _ => "", fun _ => false, fun _ => false⟩

def forcedPass (resolve : EligibleEdge → ReceiverTypeResult) : Pass where
  config := { limit := 10, promote := true, languages := [], force := true, dryRun := false }
  registry := fun _ => some fun edges => edges.map resolve
  order := [.rust]
  faults := fun _ => false

def foundAs (typeName : String) (e : EligibleEdge) : ReceiverTypeResult :=
  .success e.edgeUid typeName (some typeName) false

def lost (e : EligibleEdge) : ReceiverTypeResult := .failed e.edgeUid "timeout"

lemma engineTables_fresh : ∀ row ∈ engineTables.unresolved.rows, row.snapshotUid = "s1" →
    row.metadataJson.bind (·.get "enrichment") = none := by
  intro row hrow _
  rw [engineTables, List.mem_singleton] at hrow
  rw [hrow]
  rfl

/-- The second pass finds another class, and its promotion replaces the row of the first one. -/
theorem promoted_rows_follow_latest_found :
    FollowLatest plainText "s1"
      (afterPasses plainText "s1" engineTables [forcedPass (foundAs "Engine"), forcedPass (foundAs "Motor")]) := by
  have hfirst : PassFits plainText "s1" (afterPasses plainText "s1" engineTables [])
      (forcedPass (foundAs "Engine")) :=
    ⟨by decide +kernel, by decide +kernel⟩
  have hsecond : PassFits plainText "s1"
      (afterPasses plainText "s1" engineTables [forcedPass (foundAs "Engine")]) (forcedPass (foundAs "Motor")) :=
    ⟨by decide +kernel, by decide +kernel⟩
  refine promoted_rows_follow_latest plainText "s1" engineTables _ engineTables_fresh (by decide +kernel) ?_ ?_
  · rw [forall_prefix_snoc]
    decide +kernel
  · rw [forall_prefix_snoc]
    rintro (_ | _ | k) hk
    · exact hfirst
    · exact hsecond
    · simp at hk

example : (promotedRows (afterPasses plainText "s1" engineTables
    [forcedPass (foundAs "Engine"), forcedPass (foundAs "Motor")]).tables "s1").map (·.targetNodeUid) =
      ["n5"] := by
  decide +kernel

/-- The second pass leaves the promoted row of the first one. -/
theorem promoted_row_outlives_its_result :
    ¬ ∀ (ext : Externals) (snapshotUid : String) (t : EnrichmentTables) (passes : List Pass),
      (∀ row ∈ t.unresolved.rows, row.snapshotUid = snapshotUid →
        row.metadataJson.bind (·.get "enrichment") = none) →
      promotedRows t snapshotUid = [] →
      (∀ pre p, pre ++ [p] <+: passes → p.config.promote = true ∧ p.config.dryRun = false ∧
        noSqlError (runPass ext snapshotUid (afterPasses ext snapshotUid t pre).tables p).1) →
      FollowLatest ext snapshotUid (afterPasses ext snapshotUid t passes) := by
  intro h
  have hfollow := h plainText "s1" engineTables [forcedPass (foundAs "Engine"), forcedPass lost] engineTables_fresh
    (by decide +kernel) (by rw [forall_prefix_snoc]; decide +kernel)
  have hrows : (promotedRows
      (afterPasses plainText "s1" engineTables [forcedPass (foundAs "Engine"), forcedPass lost]).tables
      "s1").map (·.edgeUid) = ["promoted:e1"] := by decide +kernel
  have hlatest : promotedByLatest plainText
      (afterPasses plainText "s1" engineTables [forcedPass (foundAs "Engine"), forcedPass lost]).tables "s1"
      (afterPasses plainText "s1" engineTables [forcedPass (foundAs "Engine"), forcedPass lost]).last = [] :=
        by decide +kernel
  obtain ⟨row, hrow, -⟩ := List.mem_map.mp (hrows ▸ List.mem_singleton_self "promoted:e1")
  obtain ⟨e, he, -⟩ := (hfollow row).mp hrow
  rw [hlatest] at he
  cases he

end RepoGraph.Enrichment
