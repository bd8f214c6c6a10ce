import RepoGraph.LiveGraph.Callees

/-! Callers and callees are converse on a resident graph whose keys have one definer each: both count
the edges between the two keys in the IR of the slot that defines the caller. -/

namespace RepoGraph.LiveGraph

open Lib Ir TrustModel

def AllResident (g : LiveGraph) : Prop := ∀ id s, g.slot id = some s → s.ir ≠ none

def OneDefiner (g : LiveGraph) : Prop :=
  ∀ key id id' s s', g.slot id = some s → g.slot id' = some s' → key ∈ s.defines → key ∈ s'.defines → id = id'

def SourcesOwn (g : LiveGraph) : Prop :=
  ∀ id s ir, g.slot id = some s → s.ir = some ir → ∀ e ∈ ir.edges, e.src.asStr ∈ s.defines

def callerCount (env : AnswerEnvelope CallersAnswer) (caller : String × String) : ℕ :=
  ((env.data.map CallersAnswer.callerIdentities).getD []).count caller

def calleeCount (env : AnswerEnvelope CalleesAnswer) (callee : String) : ℕ :=
  ((env.data.map CalleesAnswer.calleeIdentities).getD []).countP (fun p => p.1 = callee)

variable {g : LiveGraph} {src target : String} {detail : Granularity}

lemma data_eq_none {α : Type} {env : AnswerEnvelope α} (h : env.answerClass = .unavailable) :
    env.data = none := by
  have hj := env.justified
  rw [h] at hj
  exact Option.isNone_iff_eq_none.mp (by simpa using hj.2.1)

lemma Represents.edgesTo_eq_zero {p : Past} {s : Slot} (hr : Represents p s)
    (h : target ∉ s.refCounts) : edgesTo p.lastIr target = 0 := by
  rw [hr.refCounts, Std.ExtTreeMap.mem_iff_isSome_getElem?, refCounts_eq] at h
  rw [edgesTo, List.countP_eq_length_filter]
  by_contra hne
  simp [hne] at h

def detailed (detail : Granularity) (n : ℕ) : ℕ := if detail = .callerDetail then n else 0

lemma callerIdentities_noDetail (hdetail : detail ≠ .callerDetail) :
    (g.callerScan target detail).callerIdentities = [] := by
  rw [callerScan, if_neg hdetail]

lemma count_callerIdentities (hg : g.WellFormed) {id : String} {s : Slot} {ir : PartitionIr}
    (hs : g.slot id = some s) (hir : s.ir = some ir) (src target : String) (detail : Granularity) :
    (g.callerScan target detail).callerIdentities.count (id, src) =
      detailed detail (edgesFromTo ir src target) := by
  by_cases hdetail : detail = .callerDetail
  · have hres : g.residentIr id = some ir := by simp [residentIr, hs, hir]
    rw [hdetail, detailed, if_pos rfl, callerIdentities_detail,
      count_flatMap_callersIn g.residentIr target id src Std.ExtTreeMap.nodup_keys]
    by_cases hid : id ∈ (g.referencing target).keys
    · simp [hid, hres]
    · obtain ⟨p, hr⟩ := hg id s hs
      have hnot : target ∉ s.refCounts := by
        intro h
        exact hid (Std.ExtTreeMap.mem_keys.mpr (mem_referencing.mpr ⟨s, hs, h⟩))
      rw [if_neg hid, hr.eq_lastIr hir, edgesFromTo_eq_zero (hr.edgesTo_eq_zero hnot)]
  · rw [callerIdentities_noDetail hdetail, detailed, if_neg hdetail]
    rfl

lemma count_callerIdentities_none {id : String} (hs : g.slot id = none) (src target : String)
    (detail : Granularity) : (g.callerScan target detail).callerIdentities.count (id, src) = 0 := by
  by_cases hdetail : detail = .callerDetail
  · have hres : g.residentIr id = none := by simp [residentIr, hs]
    rw [hdetail, callerIdentities_detail,
      count_flatMap_callersIn g.residentIr target id src Std.ExtTreeMap.nodup_keys]
    simp [hres]
  · rw [callerIdentities_noDetail hdetail]
    rfl

def calleesFrom (g : LiveGraph) (src : String) (es : List IrEdge) : List (String × Option String) :=
  (es.filter (fun e => e.src.asStr = src)).map fun e => (e.dst.asStr, (g.defining e.dst.asStr).map Prod.fst)

lemma foldl_scanCallee_identities (es : List IrEdge) (acc : CalleeScan) :
    (es.foldl (g.scanCallee src detail) acc).calleeIdentities =
      acc.calleeIdentities ++ if detail = .callerDetail then g.calleesFrom src es else [] := by
  induction es generalizing acc with
  | nil => simp [calleesFrom]
  | cons e es ih =>
    rw [List.foldl_cons, ih, scanCallee]
    by_cases he : e.src.asStr = src
    · rw [if_neg (not_not.mpr he)]
      by_cases hdetail : detail = .callerDetail
      · cases hd : g.defining e.dst.asStr with
        | none => simp [calleesFrom, he, hd, hdetail]
        | some d => simp [calleesFrom, he, hd, hdetail]
      · cases hd : g.defining e.dst.asStr with
        | none => simp [hd, hdetail]
        | some d => simp [hd, hdetail]
    · rw [if_pos he]
      simp [calleesFrom, he]

lemma countP_calleesFrom (g : LiveGraph) (src callee : String) (ir : PartitionIr) :
    (g.calleesFrom src ir.edges).countP (fun p => p.1 = callee) = edgesFromTo ir src callee := by
  rw [calleesFrom, List.countP_map, List.countP_filter, edgesFromTo]
  refine List.countP_congr ?_
  intro e _
  simp [and_comm]

lemma defining_of_mem (hone : g.OneDefiner) {key id : String} {s : Slot} (hs : g.slot id = some s)
    (hk : key ∈ s.defines) : ∃ b, g.defining key = some (id, b) := by
  cases hd : g.defining key with
  | none =>
    have := defining_eq_none.mp hd id s hs
    rw [Std.ExtTreeMap.mem_iff_isSome_getElem?, this] at hk
    simp at hk
  | some d =>
    obtain ⟨id', b⟩ := d
    obtain ⟨s', hs', hb⟩ := slot_of_defining hd
    have hk' : key ∈ s'.defines := by
      rw [Std.ExtTreeMap.mem_iff_isSome_getElem?, hb]
      rfl
    obtain rfl := hone key id id' s s' hs hs' hk hk'
    exact ⟨b, rfl⟩

lemma callerBases_ne_nil (hg : g.WellFormed) (hown : g.SourcesOwn) {id : String} {s : Slot} {ir : PartitionIr}
    (hs : g.slot id = some s) (hir : s.ir = some ir) (hedge : edgesFromTo ir src target ≠ 0) :
    (g.callerScan target .callerDetail).bases ≠ [] := by
  obtain ⟨e, he, hdst⟩ : ∃ e ∈ ir.edges, e.dst.asStr = target := by
    rw [edgesFromTo, Ne, List.countP_eq_zero] at hedge
    simp only [decide_eq_true_eq, not_forall, not_not] at hedge
    obtain ⟨e, he, -, hdst⟩ := hedge
    exact ⟨e, he, hdst⟩
  obtain ⟨p, hr⟩ := hg id s hs
  have hlast := hr.eq_lastIr hir
  have hdef := hown id s ir hs hir e he
  rw [hr.defines, mem_defines, ← hlast] at hdef
  obtain ⟨n, hn, hkey⟩ := hdef
  have hfind : (ir.nodes.find? (fun n => n.key.asStr = e.src.asStr)) ≠ none := by
    rw [Ne, List.find?_eq_none]
    push Not
    exact ⟨n, hn, by simpa using hkey⟩
  obtain ⟨n', hn'⟩ := Option.ne_none_iff_exists'.mp hfind
  have hbase : basisOf n'.identitySource ∈ callerBases target ir := by
    refine List.mem_flatMap.mpr ⟨e, List.mem_filter.mpr ⟨he, by simpa using hdst⟩, ?_⟩
    simp [hn']
  have href : id ∈ g.referencing target := by
    rw [mem_referencing]
    refine ⟨s, hs, ?_⟩
    by_contra hnot
    have hzero := hr.edgesTo_eq_zero hnot
    rw [← hlast, edgesTo, List.countP_eq_zero] at hzero
    exact hzero e he (by simpa using hdst)
  rw [callerScan, if_pos rfl, foldl_scanReferencing]
  have hres : g.residentIr id = some ir := by simp [residentIr, hs, hir]
  have hmem : basisOf n'.identitySource ∈ (g.referencing target).keys.flatMap
      (fun id => ((g.residentIr id).map (callerBases target)).getD []) :=
    List.mem_flatMap.mpr ⟨id, Std.ExtTreeMap.mem_keys.mpr href, by simpa [hres] using hbase⟩
  exact List.append_ne_nil_of_right_ne_nil _ (List.ne_nil_of_mem hmem)

lemma callerScan_bases_nil (hnil : (g.contributingToCallers target).toList = []) :
    (g.callerScan target .callerDetail).bases = [] := by
  have hnone := contributingToCallers_eq_nil.mp hnil
  have hkeys : (g.referencing target).keys = [] := by
    rw [Std.ExtTreeMap.isEmpty_iff.mp hnone.2]
    rfl
  rw [callerScan, if_pos rfl, foldl_scanReferencing, hkeys, Option.isNone_iff_eq_none.mp hnone.1]
  rfl

lemma callerCount_eq (hg : g.WellFormed) (hown : g.SourcesOwn) {env : AnswerEnvelope CallersAnswer}
    (henv : g.callers target detail = .ok env) {id : String} {s : Slot} {ir : PartitionIr}
    (hs : g.slot id = some s) (hir : s.ir = some ir) (src : String) :
    callerCount env (id, src) = detailed detail (edgesFromTo ir src target) := by
  have hcount := count_callerIdentities hg hs hir src target detail
  obtain ⟨env', he', hcase⟩ := callers_spec hg target detail
  obtain rfl := Except.ok.inj (henv.symm.trans he')
  have hnodata : env.data = none → (detail = .callerDetail → (g.callerScan target detail).bases = []) →
      callerCount env (id, src) = detailed detail (edgesFromTo ir src target) := by
    intro hdata hbases
    have hzero : detailed detail (edgesFromTo ir src target) = 0 := by
      by_cases hdetail : detail = .callerDetail
      · by_contra hne
        rw [detailed, if_pos hdetail] at hne
        exact callerBases_ne_nil hg hown hs hir hne (hdetail ▸ hbases hdetail)
      · rw [detailed, if_neg hdetail]
    simp [callerCount, hdata, hzero]
  rcases hcase with ⟨hnil, hclass, -⟩ | hcross
  · exact hnodata (data_eq_none hclass) (fun hdetail => hdetail ▸ callerScan_bases_nil hnil)
  · cases hcross with
    | exact _ hdata => simpa [callerCount, hdata] using hcount
    | unavailable hclass _ hbases => exact hnodata (data_eq_none hclass) (fun _ => hbases)
    | degraded _ hdata => simpa [callerCount, hdata] using hcount

lemma callerCount_eq_zero (hg : g.WellFormed) {env : AnswerEnvelope CallersAnswer}
    (henv : g.callers target detail = .ok env) {id : String} (hs : g.slot id = none) (src : String) :
    callerCount env (id, src) = 0 := by
  have hcount := count_callerIdentities_none hs src target detail
  obtain ⟨env', he', hcase⟩ := callers_spec hg target detail
  obtain rfl := Except.ok.inj (henv.symm.trans he')
  rcases hcase with ⟨-, hclass, -⟩ | hcross
  · simp [callerCount, data_eq_none hclass]
  · cases hcross with
    | exact _ hdata => simpa [callerCount, hdata] using hcount
    | unavailable hclass => simp [callerCount, data_eq_none hclass]
    | degraded _ hdata => simpa [callerCount, hdata] using hcount

lemma calleeCount_eq (hg : g.WellFormed) {env : AnswerEnvelope CalleesAnswer}
    (henv : g.callees src detail = .ok env) {id : String} {b : IdentityBasis} {s : Slot} {ir : PartitionIr}
    (hd : g.defining src = some (id, b)) (hs : g.slot id = some s) (hir : s.ir = some ir) (callee : String) :
    calleeCount env callee = detailed detail (edgesFromTo ir src callee) := by
  have hcount : (g.calleeScan src detail id b ir).calleeIdentities.countP (fun p => p.1 = callee) =
      detailed detail (edgesFromTo ir src callee) := by
    rw [calleeScan, foldl_scanCallee_identities, detailed, List.nil_append]
    split
    · exact countP_calleesFrom g src callee ir
    · rfl
  obtain ⟨env', he', hcase⟩ := callees_spec hg src detail
  obtain rfl := Except.ok.inj (henv.symm.trans he')
  cases hcase with
  | unknown hnone =>
    rw [hnone] at hd
    cases hd
  | missing hd' hs' hir' =>
    obtain ⟨rfl, rfl⟩ := Prod.mk.inj (Option.some.inj (hd.symm.trans hd'))
    obtain rfl := Option.some.inj (hs.symm.trans hs')
    rw [hir] at hir'
    cases hir'
  | read hd' hs' hir' hcross =>
    obtain ⟨rfl, rfl⟩ := Prod.mk.inj (Option.some.inj (hd.symm.trans hd'))
    obtain rfl := Option.some.inj (hs.symm.trans hs')
    obtain rfl := Option.some.inj (hir.symm.trans hir')
    cases hcross with
    | exact _ hdata => simpa [calleeCount, hdata] using hcount
    | unavailable _ _ hbases => exact absurd hbases (calleeScan_bases_ne_nil g src detail id b ir)
    | degraded _ hdata => simpa [calleeCount, hdata] using hcount

lemma calleeCount_eq_zero (hg : g.WellFormed) {env : AnswerEnvelope CalleesAnswer}
    (henv : g.callees src detail = .ok env) (hd : g.defining src = none) (callee : String) :
    calleeCount env callee = 0 := by
  obtain ⟨env', he', hcase⟩ := callees_spec hg src detail
  obtain rfl := Except.ok.inj (henv.symm.trans he')
  cases hcase with
  | unknown _ hclass => simp [calleeCount, data_eq_none hclass]
  | missing hd' =>
    rw [hd] at hd'
    cases hd'
  | read hd' =>
    rw [hd] at hd'
    cases hd'

lemma mem_defines_of_detailed (hown : g.SourcesOwn) {id : String} {s : Slot} {ir : PartitionIr}
    (hs : g.slot id = some s) (hir : s.ir = some ir) (h : detailed detail (edgesFromTo ir src target) ≠ 0) :
    src ∈ s.defines := by
  have hedge : edgesFromTo ir src target ≠ 0 := by
    intro hzero
    exact h (by simp [detailed, hzero])
  rw [edgesFromTo, Ne, List.countP_eq_zero] at hedge
  simp only [decide_eq_true_eq, not_forall, not_not] at hedge
  obtain ⟨e, he, hsrc, -⟩ := hedge
  exact hsrc ▸ hown id s ir hs hir e he

/-- Callers and callees agree on every pair of keys, edge by edge. -/
theorem callers_callees_converse (ms : List Mutation) (hresident : (after ms).AllResident)
    (hone : (after ms).OneDefiner) (hown : (after ms).SourcesOwn) (src target : String) (detail : Granularity) :
    ∃ callersEnv calleesEnv, (after ms).callers target detail = .ok callersEnv ∧
      (after ms).callees src detail = .ok calleesEnv ∧
      (∀ id s, (after ms).slot id = some s → src ∈ s.defines →
        callerCount callersEnv (id, src) = calleeCount calleesEnv target) ∧
      (∀ id, callerCount callersEnv (id, src) ≠ 0 → ∃ s, (after ms).slot id = some s ∧ src ∈ s.defines) ∧
      (calleeCount calleesEnv target ≠ 0 → ∃ id s, (after ms).slot id = some s ∧ src ∈ s.defines) := by
  have hg := after_wellFormed ms
  obtain ⟨callersEnv, hcallers, -⟩ := callers_spec hg target detail
  obtain ⟨calleesEnv, hcallees, -⟩ := callees_spec hg src detail
  refine ⟨callersEnv, calleesEnv, hcallers, hcallees, ?_, ?_, ?_⟩
  · intro id s hs hsrc
    obtain ⟨ir, hir⟩ := Option.ne_none_iff_exists'.mp (hresident id s hs)
    obtain ⟨b, hd⟩ := defining_of_mem hone hs hsrc
    rw [callerCount_eq hg hown hcallers hs hir, calleeCount_eq hg hcallees hd hs hir]
  · intro id hcount
    cases hs : (after ms).slot id with
    | none => exact absurd (callerCount_eq_zero hg hcallers hs src) hcount
    | some s =>
      obtain ⟨ir, hir⟩ := Option.ne_none_iff_exists'.mp (hresident id s hs)
      rw [callerCount_eq hg hown hcallers hs hir] at hcount
      exact ⟨s, rfl, mem_defines_of_detailed hown hs hir hcount⟩
  · intro hcount
    cases hd : (after ms).defining src with
    | none => exact absurd (calleeCount_eq_zero hg hcallees hd target) hcount
    | some d =>
      obtain ⟨s, hs, hb⟩ := slot_of_defining hd
      refine ⟨d.1, s, hs, ?_⟩
      rw [Std.ExtTreeMap.mem_iff_isSome_getElem?, hb]
      rfl

lemma fixture_slot {id : String} {s : Slot} (h : (after Fixture.both).slot id = some s) :
    (id = "engine" ∧ s = LiveGraph.new.loadedSlot "engine" Ir.Fixture.engine .typeScriptPrimary) ∨
      id = "api" ∧ s = LiveGraph.new.loadedSlot "api" Ir.Fixture.api .typeScriptPrimary := by
  have hentries : (after Fixture.both).slots.entries =
      [⟨"api", LiveGraph.new.loadedSlot "api" Ir.Fixture.api .typeScriptPrimary⟩,
        ⟨"engine", LiveGraph.new.loadedSlot "engine" Ir.Fixture.engine .typeScriptPrimary⟩] := rfl
  have hmem : (⟨id, s⟩ : Σ _ : String, Slot) ∈ (after Fixture.both).slots.entries := IterMap.mem_entries.mpr h
  rw [hentries] at hmem
  simpa [or_comm] using hmem

/-- The two loaded partitions of the fixture meet the three conditions, and the call from `api` to
`engine` is seen once from either side. -/
theorem fixture_converse :
    ∃ callersEnv calleesEnv, (after Fixture.both).callers "engine.foo" .callerDetail = .ok callersEnv ∧
      (after Fixture.both).callees "api.caller" .callerDetail = .ok calleesEnv ∧
      callerCount callersEnv ("api", "api.caller") = calleeCount calleesEnv "engine.foo" := by
  have hresident : (after Fixture.both).AllResident := by
    intro id s hs
    rcases fixture_slot hs with ⟨rfl, rfl⟩ | ⟨rfl, rfl⟩ <;> simp [loadedSlot]
  have hdefines : ∀ key id s, (after Fixture.both).slot id = some s → key ∈ s.defines →
      id = "engine" ∧ (key = "engine.foo" ∨ key = "engine.bar") ∨ id = "api" ∧ key = "api.caller" := by
    intro key id s hs hk
    rcases fixture_slot hs with ⟨rfl, rfl⟩ | ⟨rfl, rfl⟩
    · obtain ⟨n, hn, rfl⟩ := (mem_defines _ _).mp hk
      fin_cases hn <;> decide
    · obtain ⟨n, hn, rfl⟩ := (mem_defines _ _).mp hk
      fin_cases hn
      decide
  have hone : (after Fixture.both).OneDefiner := by
    intro key id id' s s' hs hs' hk hk'
    have := hdefines key id s hs hk
    have := hdefines key id' s' hs' hk'
    grind
  have hown : (after Fixture.both).SourcesOwn := by
    intro id s ir hs hir e he
    rcases fixture_slot hs with ⟨rfl, rfl⟩ | ⟨rfl, rfl⟩
    · obtain rfl := Option.some.inj hir
      fin_cases he
      decide
    · obtain rfl := Option.some.inj hir
      fin_cases he
      decide
  obtain ⟨callersEnv, calleesEnv, hcallers, hcallees, hconverse, -⟩ := callers_callees_converse Fixture.both
    hresident hone hown "api.caller" "engine.foo" .callerDetail
  exact ⟨callersEnv, calleesEnv, hcallers, hcallees, hconverse "api" _ rfl (by decide)⟩

end RepoGraph.LiveGraph
