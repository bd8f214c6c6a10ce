import RepoGraph.LiveGraph.History

/-! The callers of a key: reference counts from the retained summaries, caller identities from the
resident IRs. -/

namespace RepoGraph.LiveGraph

open Lib Ir TrustModel

def defining (g : LiveGraph) (key : String) : Option (String × IdentityBasis) :=
  g.slots.first (fun s => s.defines[key]?)

def referencing (g : LiveGraph) (key : String) : BTreeMap String ℕ :=
  g.slots.collect (fun s => s.refCounts[key]?)

structure CallersAnswer where
  perPartitionCounts : BTreeMap String ℕ
  callerIdentities : List (String × String)
  contributingEpochs : BTreeMap String ℕ

structure CallerScan where
  callerIdentities : List (String × String)
  bases : List IdentityBasis
  missing : List String

def scanEdge (target id : String) (ir : PartitionIr) (acc : CallerScan) (e : IrEdge) : CallerScan :=
  if e.dst.asStr = target then
    { acc with
      callerIdentities := acc.callerIdentities ++ [(id, e.src.asStr)]
      bases := acc.bases ++ ((ir.nodes.find? (fun n => n.key.asStr = e.src.asStr)).map
        (fun n => basisOf n.identitySource)).toList }
  else acc

def scanReferencing (g : LiveGraph) (target : String) (acc : CallerScan) (id : String) : CallerScan :=
  match g.residentIr id with
  | some ir => ir.edges.foldl (scanEdge target id ir) acc
  | none => { acc with missing := acc.missing ++ [id] }

def callerScan (g : LiveGraph) (target : String) (detail : Granularity) : CallerScan :=
  let bases := ((g.defining target).map Prod.snd).toList
  if detail = .callerDetail then
    (g.referencing target).keys.foldl (g.scanReferencing target) ⟨[], bases, []⟩
  else ⟨[], bases, []⟩

def contributingToCallers (g : LiveGraph) (target : String) : BTreeSet String :=
  let contributing : BTreeSet String := .ofList (g.referencing target).keys
  match g.defining target with
  | some (id, _) => contributing.insert id
  | none => contributing

def callersReasons (g : LiveGraph) (target : String) (detail : Granularity) : List DegradationReason :=
  mergePartitionReasons (identityReasons (g.callerScan target detail).bases)
    ((g.contributingToCallers target).toList.flatMap g.partitionReasons)

def callers (g : LiveGraph) (target : String) (detail : Granularity) :
    Exec (AnswerEnvelope CallersAnswer) :=
  if (g.defining target).isNone ∧ (g.referencing target).isEmpty then
    .ok (.unavailable .unresolvedAlias .unavailable ∅)
  else
    let folded := g.foldContributing (g.contributingToCallers target).toList
    let scan := g.callerScan target detail
    let reasons := g.callersReasons target detail
    let data := ⟨g.referencing target, scan.callerIdentities, folded.epochs⟩
    let classC := classifyCrossPartition scan.bases folded.freshness reasons folded.languages
    finalizeEnvelope data classC folded.freshness reasons scan.missing folded.languages

variable {g : LiveGraph} {target : String} {detail : Granularity}

lemma slot_of_defining {key id : String} {b : IdentityBasis} (h : g.defining key = some (id, b)) :
    ∃ s, g.slot id = some s ∧ s.defines[key]? = some b :=
  IterMap.lookup_of_first h

lemma defining_eq_none {key : String} :
    g.defining key = none ↔ ∀ id s, g.slot id = some s → s.defines[key]? = none :=
  IterMap.first_eq_none

lemma getElem?_referencing (g : LiveGraph) (key id : String) :
    (g.referencing key)[id]? = (g.slot id).bind (fun s => s.refCounts[key]?) :=
  IterMap.getElem?_collect _ _ _

lemma mem_referencing {key id : String} :
    id ∈ g.referencing key ↔ ∃ s, g.slot id = some s ∧ key ∈ s.refCounts := by
  rw [Std.ExtTreeMap.mem_iff_isSome_getElem?, getElem?_referencing]
  cases g.slot id with
  | none => simp
  | some s => simp

lemma mem_contributingToCallers {id : String} :
    id ∈ (g.contributingToCallers target).toList ↔
      id ∈ g.referencing target ∨ ∃ b, g.defining target = some (id, b) := by
  rw [Std.ExtTreeSet.mem_toList, contributingToCallers]
  cases hd : g.defining target with
  | none => simp
  | some d =>
    obtain ⟨id', b⟩ := d
    simp only [Std.ExtTreeSet.mem_insert, Std.compare_eq_iff_eq, Std.ExtTreeSet.mem_ofList,
      List.contains_iff_mem, Std.ExtTreeMap.mem_keys, Option.some.injEq, Prod.mk.injEq]
    grind

lemma contributingToCallers_eq_nil : (g.contributingToCallers target).toList = [] ↔
    (g.defining target).isNone ∧ (g.referencing target).isEmpty := by
  rw [List.eq_nil_iff_forall_not_mem, Option.isNone_iff_eq_none, Option.eq_none_iff_forall_ne_some,
    Std.ExtTreeMap.isEmpty_iff, Std.ExtTreeMap.eq_empty_iff_forall_not_mem]
  simp only [mem_contributingToCallers, not_or, not_exists]
  constructor
  · intro h
    exact ⟨fun d hd => (h d.1).2 d.2 hd, fun id => (h id).1⟩
  · intro h id
    exact ⟨h.2 id, fun b => h.1 (id, b)⟩

lemma slot_of_contributing {id : String} (h : id ∈ (g.contributingToCallers target).toList) :
    ∃ s, g.slot id = some s := by
  rcases mem_contributingToCallers.mp h with hr | ⟨b, hd⟩
  · obtain ⟨s, hs, -⟩ := mem_referencing.mp hr
    exact ⟨s, hs⟩
  · obtain ⟨s, hs, -⟩ := slot_of_defining hd
    exact ⟨s, hs⟩

def callersIn (target id : String) (ir : PartitionIr) : List (String × String) :=
  (ir.edges.filter (fun e => e.dst.asStr = target)).map (fun e => (id, e.src.asStr))

def callerBases (target : String) (ir : PartitionIr) : List IdentityBasis :=
  (ir.edges.filter (fun e => e.dst.asStr = target)).flatMap fun e =>
    ((ir.nodes.find? (fun n => n.key.asStr = e.src.asStr)).map (fun n => basisOf n.identitySource)).toList

lemma foldl_scanEdge (target id : String) (ir : PartitionIr) (acc : CallerScan) :
    ir.edges.foldl (scanEdge target id ir) acc =
      { acc with
        callerIdentities := acc.callerIdentities ++ callersIn target id ir
        bases := acc.bases ++ callerBases target ir } := by
  have hfold : ∀ (es : List IrEdge) (acc : CallerScan), es.foldl (scanEdge target id ir) acc =
      { acc with
        callerIdentities := acc.callerIdentities ++
          (es.filter (fun e => e.dst.asStr = target)).map (fun e => (id, e.src.asStr))
        bases := acc.bases ++ (es.filter (fun e => e.dst.asStr = target)).flatMap fun e =>
          ((ir.nodes.find? (fun n => n.key.asStr = e.src.asStr)).map
            (fun n => basisOf n.identitySource)).toList } := by
    intro es
    induction es with
    | nil => simp
    | cons e es ih =>
      intro acc
      rw [List.foldl_cons, ih, scanEdge]
      by_cases he : e.dst.asStr = target
      · simp [he]
      · simp [he]
  exact hfold ir.edges acc

lemma foldl_scanReferencing (g : LiveGraph) (target : String) (ids : List String) (acc : CallerScan) :
    ids.foldl (g.scanReferencing target) acc =
      ⟨acc.callerIdentities ++ ids.flatMap
          (fun id => ((g.residentIr id).map (callersIn target id)).getD []),
        acc.bases ++ ids.flatMap (fun id => ((g.residentIr id).map (callerBases target)).getD []),
        acc.missing ++ ids.filter (fun id => (g.residentIr id).isNone)⟩ := by
  induction ids generalizing acc with
  | nil => simp
  | cons id ids ih =>
    rw [List.foldl_cons, ih, scanReferencing]
    cases hir : g.residentIr id with
    | none => simp [hir]
    | some ir => simp [hir, foldl_scanEdge]

lemma callerIdentities_detail (g : LiveGraph) (target : String) :
    (g.callerScan target .callerDetail).callerIdentities = (g.referencing target).keys.flatMap
      (fun id => ((g.residentIr id).map (callersIn target id)).getD []) := by
  rw [callerScan, if_pos rfl, foldl_scanReferencing, List.nil_append]

lemma missing_detail (g : LiveGraph) (target : String) :
    (g.callerScan target .callerDetail).missing =
      (g.referencing target).keys.filter (fun id => (g.residentIr id).isNone) := by
  rw [callerScan, if_pos rfl, foldl_scanReferencing]
  exact List.nil_append _

lemma callerBases_fromNode {target : String} {ir : PartitionIr} {b : IdentityBasis}
    (h : b ∈ callerBases target ir) : FromNode b := by
  obtain ⟨e, -, hb⟩ := List.mem_flatMap.mp h
  obtain ⟨n, -, rfl⟩ := Option.map_eq_some_iff.mp (Option.mem_toList.mp hb)
  exact ⟨_, rfl⟩

lemma callerScan_fromNode (hg : g.WellFormed) {b : IdentityBasis}
    (h : b ∈ (g.callerScan target detail).bases) : FromNode b := by
  have hdef : ∀ b ∈ ((g.defining target).map Prod.snd).toList, FromNode b := by
    intro b hb
    obtain ⟨⟨id, b'⟩, hd, rfl⟩ := Option.map_eq_some_iff.mp (Option.mem_toList.mp hb)
    obtain ⟨s, hs, hb'⟩ := slot_of_defining hd
    exact hg.fromNode hs hb'
  rw [callerScan] at h
  split at h
  · rw [foldl_scanReferencing] at h
    rcases List.mem_append.mp h with hb | hb
    · exact hdef b hb
    · obtain ⟨id, -, hb⟩ := List.mem_flatMap.mp hb
      cases hir : g.residentIr id with
      | none => simp [hir] at hb
      | some ir =>
        rw [hir] at hb
        exact callerBases_fromNode hb
  · exact hdef b h

lemma callers_spec (hg : g.WellFormed) (target : String) (detail : Granularity) :
    ∃ env, g.callers target detail = .ok env ∧
      ((g.contributingToCallers target).toList = [] ∧ env.answerClass = .unavailable ∧
          env.degradationReasons = [.unresolvedAlias] ∨
        Crossing
          ⟨g.referencing target, (g.callerScan target detail).callerIdentities,
            (g.foldContributing (g.contributingToCallers target).toList).epochs⟩
          (g.callerScan target detail).bases
          (g.foldContributing (g.contributingToCallers target).toList).freshness
          (g.callersReasons target detail) (g.callerScan target detail).missing env) := by
  rw [callers]
  by_cases hnil : (g.contributingToCallers target).toList = []
  · rw [if_pos (contributingToCallers_eq_nil.mp hnil)]
    exact ⟨_, rfl, Or.inl ⟨hnil, rfl, rfl⟩⟩
  · rw [if_neg (fun h => hnil (contributingToCallers_eq_nil.mpr h))]
    obtain ⟨id, hid⟩ := List.exists_mem_of_ne_nil _ hnil
    obtain ⟨s, hs⟩ := slot_of_contributing hid
    obtain ⟨env, he, hcross⟩ := finalizeEnvelope_spec
      (⟨g.referencing target, (g.callerScan target detail).callerIdentities,
        (g.foldContributing (g.contributingToCallers target).toList).epochs⟩ : CallersAnswer)
      (g.callersReasons target detail) (g.callerScan target detail).missing
      (foldContributing_languages hid hs) (fun b hb => callerScan_fromNode hg hb)
      (foldContributing_ne_unavailable g _)
      (fun r hr => mem_mergePartitionReasons.mpr (Or.inl hr))
    exact ⟨env, he, Or.inr hcross⟩

def edgesFromTo (ir : PartitionIr) (src target : String) : ℕ :=
  ir.edges.countP (fun e => e.src.asStr = src ∧ e.dst.asStr = target)

def edgesTo (ir : PartitionIr) (target : String) : ℕ := ir.edges.countP (fun e => e.dst.asStr = target)

lemma count_callersIn (target id src : String) (ir : PartitionIr) :
    (callersIn target id ir).count (id, src) = edgesFromTo ir src target := by
  rw [callersIn, List.count, List.countP_map, List.countP_filter, edgesFromTo]
  refine List.countP_congr ?_
  intro e _
  simp

lemma count_callersIn_of_ne {target id id' src : String} (h : id' ≠ id) (ir : PartitionIr) :
    (callersIn target id' ir).count (id, src) = 0 := by
  rw [List.count_eq_zero]
  intro hmem
  obtain ⟨e, -, he⟩ := List.mem_map.mp hmem
  exact h (Prod.mk.inj he).1

lemma count_flatMap_callersIn (irOf : String → Option PartitionIr) (target id src : String)
    {ids : List String} (hnodup : ids.Nodup) :
    (ids.flatMap (fun id => ((irOf id).map (callersIn target id)).getD [])).count (id, src) =
      if id ∈ ids then ((irOf id).map (edgesFromTo · src target)).getD 0 else 0 := by
  induction ids with
  | nil => simp
  | cons id' ids ih =>
    obtain ⟨hnot, hnodup⟩ := List.nodup_cons.mp hnodup
    rw [List.flatMap_cons, List.count_append, ih hnodup]
    by_cases hid : id' = id
    · subst hid
      cases irOf id' with
      | none => simp [hnot]
      | some ir => simp [hnot, count_callersIn]
    · cases irOf id' with
      | none => simp [Ne.symm hid]
      | some ir => simp [Ne.symm hid, count_callersIn_of_ne hid]

def countEdgesTo (target : String) (p : Past) : Option ℕ :=
  if edgesTo p.lastIr target = 0 then none else some (edgesTo p.lastIr target)

lemma referencing_after (ms : List Mutation) (target id : String) :
    ((after ms).referencing target)[id]? = (past ms id).bind (countEdgesTo target) := by
  have hrel := after_represents ms id
  rw [getElem?_referencing]
  cases hs : (after ms).slot id with
  | none =>
    rw [hs] at hrel
    cases hp : past ms id with
    | none => rfl
    | some p =>
      rw [hp] at hrel
      cases hrel
  | some s =>
    obtain ⟨p, hp, hr⟩ := past_of_slot hs
    simp only [hp, Option.bind_some, hr.refCounts, refCounts_eq, countEdgesTo, edgesTo,
      List.countP_eq_length_filter]

lemma mem_referencing_after {ms : List Mutation} {target id : String} :
    id ∈ (after ms).referencing target ↔ ∃ p, past ms id = some p ∧ edgesTo p.lastIr target ≠ 0 := by
  rw [Std.ExtTreeMap.mem_iff_isSome_getElem?, referencing_after]
  cases past ms id with
  | none => simp
  | some p => simp [countEdgesTo]

lemma edgesFromTo_eq_zero {ir : PartitionIr} {target : String} (h : edgesTo ir target = 0) (src : String) :
    edgesFromTo ir src target = 0 := by
  rw [edgesTo, List.countP_eq_zero] at h
  rw [edgesFromTo, List.countP_eq_zero]
  intro e he
  simpa using fun _ => by simpa using h e he

lemma resident_of_referencing {ms : List Mutation} {target : String}
    (hmissing : ((after ms).callerScan target .callerDetail).missing = [])
    (hfresh : ((after ms).foldContributing ((after ms).contributingToCallers target).toList).freshness = .fresh)
    {id : String} {p : Past} (hp : past ms id = some p) (hedge : edgesTo p.lastIr target ≠ 0) :
    ∃ s, (after ms).slot id = some s ∧ s.status = .current ∧ s.ir = some p.lastIr := by
  have hid := mem_referencing_after.mpr ⟨p, hp, hedge⟩
  obtain ⟨s, hs, hr⟩ := slot_of_past hp
  have hstatus := foldContributing_fresh.mp hfresh id (mem_contributingToCallers.mpr (Or.inl hid)) s hs
  rw [missing_detail, List.filter_eq_nil_iff] at hmissing
  have hsome := hmissing id (Std.ExtTreeMap.mem_keys.mpr hid)
  obtain ⟨ir, hir⟩ : ∃ ir, (after ms).residentIr id = some ir :=
    Option.ne_none_iff_exists'.mp (by simpa using hsome)
  have hsir : s.ir = some ir := by simpa [residentIr, hs] using hir
  exact ⟨s, hs, hstatus, hr.eq_lastIr hsir ▸ hsir⟩

/-- An exact answer misses no caller: whatever the graph has been through, it lists the edges into
the key of the last IR of every slot, and all those IRs are resident and fresh. -/
theorem callers_exact_complete (ms : List Mutation) (target : String) :
    ∃ env, (after ms).callers target .callerDetail = .ok env ∧
      (env.answerClass = .exact →
        (∀ id p, past ms id = some p → edgesTo p.lastIr target ≠ 0 →
          ∃ s, (after ms).slot id = some s ∧ s.ResidentFresh) ∧
        ∃ data, env.data = some data ∧
          (∀ id src, data.callerIdentities.count (id, src) =
            ((past ms id).map (fun p => edgesFromTo p.lastIr src target)).getD 0) ∧
          ∀ id, data.perPartitionCounts[id]? = (past ms id).bind (countEdgesTo target)) := by
  obtain ⟨env, he, hcase⟩ := callers_spec (after_wellFormed ms) target .callerDetail
  refine ⟨env, he, ?_⟩
  intro hexact
  rcases hcase with ⟨-, hclass, -⟩ | hcross
  · simp [hexact] at hclass
  cases hcross with
  | unavailable hclass => simp [hexact] at hclass
  | degraded hclass => simp [hexact] at hclass
  | exact _ hdata _ hfresh _ _ hmissing =>
    refine ⟨?_, _, hdata, ?_, referencing_after ms target⟩
    · intro id p hp hedge
      obtain ⟨s, hs, hstatus, hir⟩ := resident_of_referencing hmissing hfresh hp hedge
      exact ⟨s, hs, by simp [hir], hstatus⟩
    · intro id src
      change ((after ms).callerScan target .callerDetail).callerIdentities.count (id, src) = _
      rw [callerIdentities_detail, count_flatMap_callersIn _ _ _ _ Std.ExtTreeMap.nodup_keys]
      simp only [Std.ExtTreeMap.mem_keys, mem_referencing_after]
      cases hp : past ms id with
      | none => simp
      | some p =>
        by_cases hedge : edgesTo p.lastIr target = 0
        · simp [hedge, edgesFromTo_eq_zero hedge]
        · obtain ⟨s, hs, -, hir⟩ := resident_of_referencing hmissing hfresh hp hedge
          simp [hedge, residentIr, hs, hir]

theorem callers_exact_complete_both :
    ((after Fixture.both).callers "engine.foo" .callerDetail).map AnswerEnvelope.answerClass = .ok .exact ∧
      ∃ env data, (after Fixture.both).callers "engine.foo" .callerDetail = .ok env ∧ env.data = some data ∧
        data.callerIdentities.count ("api", "api.caller") = 1 ∧ data.perPartitionCounts["api"]? = some 1 := by
  have hclass : ((after Fixture.both).callers "engine.foo" .callerDetail).map AnswerEnvelope.answerClass =
      .ok .exact := by decide
  obtain ⟨env, he, hexact⟩ := callers_exact_complete Fixture.both "engine.foo"
  rw [he] at hclass
  obtain ⟨-, data, hdata, hcount, hpart⟩ := hexact (Except.ok.inj hclass)
  refine ⟨he ▸ hclass, env, data, he, hdata, ?_, ?_⟩
  · rw [hcount]
    decide
  · rw [hpart]
    decide

end RepoGraph.LiveGraph
