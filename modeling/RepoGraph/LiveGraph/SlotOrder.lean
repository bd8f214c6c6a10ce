import RepoGraph.LiveGraph.Converse
import RepoGraph.LiveGraph.PathTrust

/-! How far the answers depend on the order in which the slot table is iterated. A key with one
definer is looked up the same way in every order; a key with two is not. -/

namespace RepoGraph.LiveGraph

open Lib Ir TrustModel GraphAlgorithms

def reorder (g : LiveGraph) (slots : IterMap String Slot) : LiveGraph := { g with slots := slots }

def SameAnswer {α : Type} (same : α → α → Prop) (o o' : Exec (AnswerEnvelope α)) : Prop :=
  ∃ env env', o = .ok env ∧ o' = .ok env' ∧ env.answerClass = env'.answerClass ∧
    env.completeness = env'.completeness ∧ env.freshness = env'.freshness ∧
    env.degradationReasons.Perm env'.degradationReasons ∧ Option.Rel same env.data env'.data

structure SameCallers (a b : CallersAnswer) : Prop where
  counts : a.perPartitionCounts = b.perPartitionCounts
  identities : a.callerIdentities.Perm b.callerIdentities
  epochs : a.contributingEpochs = b.contributingEpochs

structure SameCallees (a b : CalleesAnswer) : Prop where
  counts : a.perPartitionCounts = b.perPartitionCounts
  identities : a.calleeIdentities.Perm b.calleeIdentities
  epochs : a.contributingEpochs = b.contributingEpochs

structure SameFacts (a b : ValueFactsAnswer) : Prop where
  facts : a.facts.Perm b.facts
  epochs : a.contributingEpochs = b.contributingEpochs

structure SamePath (a b : PathAnswer) : Prop where
  nodes : a.nodes.Perm b.nodes
  edges : a.edges.Perm b.edges
  epochs : a.contributingEpochs = b.contributingEpochs

structure SameAnswers (g g' : LiveGraph) : Prop where
  callers : ∀ key detail, SameAnswer SameCallers (g.callers key detail) (g'.callers key detail)
  callees : ∀ key detail, SameAnswer SameCallees (g.callees key detail) (g'.callees key detail)
  valueFacts : ∀ key, SameAnswer SameFacts (g.valueFacts key) (g'.valueFacts key)
  path : ∀ source target, SameAnswer SamePath (g.path source target) (g'.path source target)

def OrderFree (g : LiveGraph) : Prop :=
  ∀ slots slots' : IterMap String Slot, slots.entries.Perm g.slots.entries →
    slots'.entries.Perm g.slots.entries → SameAnswers (g.reorder slots) (g.reorder slots')

def OneCaller (g : LiveGraph) : Prop := ∀ u v v' pid pid', g.Call pid u v → g.Call pid' u v' → pid = pid'

variable {g : LiveGraph}

lemma SourcesOwn.oneCaller (hown : g.SourcesOwn) (hone : g.OneDefiner) : g.OneCaller := by
  intro u v v' pid pid' hcall hcall'
  have hdefines : ∀ {pid v}, g.Call pid u v → ∃ s, g.slot pid = some s ∧ u ∈ s.defines := by
    rintro pid v ⟨ir, hir, e, he, -, rfl, -⟩
    obtain ⟨s, hs, hsir⟩ := Option.bind_eq_some_iff.mp hir
    exact ⟨s, hs, hown pid s ir hs hsir e he⟩
  obtain ⟨s, hs, hk⟩ := hdefines hcall
  obtain ⟨s', hs', hk'⟩ := hdefines hcall'
  exact hone u pid pid' s s' hs hs' hk hk'

def callsOf (u : String) (e : Σ _ : String, Slot) : List (String × String) :=
  (e.2.ir.map fun ir => (ir.edges.filter fun d => d.basis = .syntaxConfirmedCall ∧ d.src.asStr = u).map
    fun d => (d.dst.asStr, e.1)).getD []

lemma neighbors_eq (g : LiveGraph) (u : String) :
    g.callGraph.neighbors u = g.slots.entries.flatMap (callsOf u) := by
  have hfold : ∀ (ps : List (String × IrEdge)) (calls : CallGraph),
      (ps.foldl (fun calls p => addCall p.1 calls p.2) calls).neighbors u = calls.neighbors u ++
        (ps.filter fun p => p.2.basis = .syntaxConfirmedCall ∧ p.2.src.asStr = u).map
          fun p => (p.2.dst.asStr, p.1) := by
    intro ps
    induction ps with
    | nil => simp
    | cons p ps ih =>
      intro calls
      rw [List.foldl_cons, ih, addCall]
      by_cases hb : p.2.basis = .syntaxConfirmedCall
      · rw [if_pos hb]
        by_cases hu : p.2.src.asStr = u
        · simp [CallGraph.neighbors, hb, hu]
        · simp [CallGraph.neighbors, getElem?_insert_of_ne _ hu, hu]
      · simp [hb]
  rw [callGraph_eq, hfold, residentEdges, List.filter_flatMap, List.map_flatMap]
  have hempty : (⟨∅, .ofList g.owner.keys⟩ : CallGraph).neighbors u = [] := by simp [CallGraph.neighbors]
  rw [hempty, List.nil_append]
  congr 1
  funext e
  rw [callsOf]
  cases e.2.ir with
  | none => rfl
  | some ir => simp [List.filter_map, Function.comp_def]

lemma call_of_callsOf {u id : String} {s : Slot} (hs : g.slot id = some s) (h : callsOf u ⟨id, s⟩ ≠ []) :
    ∃ v, g.Call id u v := by
  cases hir : s.ir with
  | none => simp [callsOf, hir] at h
  | some ir =>
    obtain ⟨p, hp⟩ := List.exists_mem_of_ne_nil _ h
    simp only [callsOf, hir, Option.map_some, Option.getD_some] at hp
    obtain ⟨d, hd, rfl⟩ := List.mem_map.mp hp
    obtain ⟨hd, hcond⟩ := List.mem_filter.mp hd
    have hcond : d.basis = .syntaxConfirmedCall ∧ d.src.asStr = u := by simpa using hcond
    exact ⟨d.dst.asStr, ir, by simp [residentIr, hs, hir], d, hd, hcond.1, hcond.2, rfl⟩

section Reordered

variable {slots : IterMap String Slot} (hperm : slots.entries.Perm g.slots.entries)

include hperm

lemma reorder_slot : (g.reorder slots).slot = g.slot := by
  funext id
  exact AList.perm_lookup hperm

lemma reorder_residentIr : (g.reorder slots).residentIr = g.residentIr := by
  funext id
  rw [residentIr, residentIr, reorder_slot hperm]

lemma reorder_partitionReasons : (g.reorder slots).partitionReasons = g.partitionReasons := by
  funext id
  rw [partitionReasons, partitionReasons, reorder_slot hperm]

lemma reorder_foldContributing : (g.reorder slots).foldContributing = g.foldContributing := by
  have hadd : (g.reorder slots).addContributing = g.addContributing := by
    funext acc id
    rw [addContributing, addContributing, reorder_slot hperm]
  funext ids
  rw [foldContributing, foldContributing, hadd]

lemma reorder_referencing : (g.reorder slots).referencing = g.referencing := by
  funext key
  refine Std.ExtTreeMap.ext_getElem? fun id => ?_
  rw [getElem?_referencing, getElem?_referencing, reorder_slot hperm]

lemma OneDefiner.reorder (hone : g.OneDefiner) : (g.reorder slots).OneDefiner := by
  intro key id id' s s' hs hs'
  rw [reorder_slot hperm] at hs hs'
  exact hone key id id' s s' hs hs'

lemma reorder_defining (hone : g.OneDefiner) : (g.reorder slots).defining = g.defining := by
  have hiff : ∀ {g : LiveGraph}, g.OneDefiner → ∀ key id b, g.defining key = some (id, b) ↔
      ∃ s, g.slot id = some s ∧ s.defines[key]? = some b := by
    intro g hone key id b
    constructor
    · exact slot_of_defining
    · rintro ⟨s, hs, hb⟩
      have hk : key ∈ s.defines := by
        rw [Std.ExtTreeMap.mem_iff_isSome_getElem?, hb]
        rfl
      obtain ⟨b', hd⟩ := defining_of_mem hone hs hk
      obtain ⟨s', hs', hb'⟩ := slot_of_defining hd
      obtain rfl := Option.some.inj (hs.symm.trans hs')
      rw [hd, Option.some.inj (hb.symm.trans hb')]
  funext key
  apply Option.ext
  rintro ⟨id, b⟩
  rw [hiff (hone.reorder hperm), hiff hone, reorder_slot hperm]

lemma reorder_callers (hone : g.OneDefiner) : (g.reorder slots).callers = g.callers := by
  have hdefining := reorder_defining hperm hone
  have hreferencing := reorder_referencing hperm
  have hscan : (g.reorder slots).scanReferencing = g.scanReferencing := by
    funext target acc id
    rw [scanReferencing, scanReferencing, reorder_residentIr hperm]
  funext target detail
  simp only [callers, callersReasons, callerScan, contributingToCallers, hdefining, hreferencing, hscan,
    reorder_foldContributing hperm, reorder_partitionReasons hperm]

lemma reorder_callees (hone : g.OneDefiner) : (g.reorder slots).callees = g.callees := by
  have hdefining := reorder_defining hperm hone
  have hscan : (g.reorder slots).scanCallee = g.scanCallee := by
    funext target detail acc e
    rw [scanCallee, scanCallee, hdefining]
  have hcalleeScan : (g.reorder slots).calleeScan = g.calleeScan := by
    funext target detail defPart b ir
    rw [calleeScan, calleeScan, hscan]
  have hreasons : (g.reorder slots).calleesReasons = g.calleesReasons := by
    funext scan
    rw [calleesReasons, calleesReasons, reorder_partitionReasons hperm]
  funext target detail
  simp only [callees, hdefining, hcalleeScan, hreasons, reorder_slot hperm, reorder_foldContributing hperm]

lemma reorder_valueFacts (hone : g.OneDefiner) : (g.reorder slots).valueFacts = g.valueFacts := by
  funext symbol
  simp only [valueFacts, labelValueFacts, valueFactsReasons, reorder_defining hperm hone, reorder_slot hperm,
    reorder_partitionReasons hperm]

lemma reorder_owner (hone : g.OneDefiner) : (g.reorder slots).owner = g.owner := by
  have hiff : ∀ {g : LiveGraph}, g.OneDefiner → ∀ key id, g.owner[key]? = some id ↔
      ∃ s, g.slot id = some s ∧ key ∈ s.defines := by
    intro g hone key id
    rw [getElem?_owner]
    constructor
    · intro h
      obtain ⟨⟨id', s⟩, hlast, rfl⟩ := Option.map_eq_some_iff.mp h
      exact ⟨s, slot_of_lastDefiner hlast⟩
    · rintro ⟨s, hs, hk⟩
      obtain ⟨id', s', hlast⟩ := exists_lastDefiner hs hk
      obtain ⟨hs', hk'⟩ := slot_of_lastDefiner hlast
      rw [hlast, hone key id id' s s' hs hs' hk hk']
      rfl
  refine Std.ExtTreeMap.ext_getElem? fun key => ?_
  apply Option.ext
  intro id
  rw [hiff (hone.reorder hperm), hiff hone, reorder_slot hperm]

lemma reorder_call : (g.reorder slots).Call = g.Call := by
  funext pid u v
  rw [Call, Call, reorder_residentIr hperm]

lemma reorder_known : (g.reorder slots).callGraph.known = g.callGraph.known := by
  refine Std.ExtTreeSet.ext_mem fun key => ?_
  have hcalls : (g.reorder slots).Calls = g.Calls := by
    funext u v
    rw [Calls, Calls, reorder_call hperm]
  rw [mem_known, mem_known, reorder_slot hperm, hcalls]

lemma reorder_neighbors (hcaller : g.OneCaller) :
    (g.reorder slots).callGraph.neighbors = g.callGraph.neighbors := by
  funext u
  rw [neighbors_eq, neighbors_eq]
  refine (flatMap_perm_of_one hperm.symm ?_).symm
  rintro ⟨id, s⟩ hmem ⟨id', s'⟩ hmem' hne hne'
  have hs : g.slot id = some s := IterMap.mem_entries.mp hmem
  have hs' : g.slot id' = some s' := IterMap.mem_entries.mp hmem'
  obtain ⟨v, hcall⟩ := call_of_callsOf hs hne
  obtain ⟨v', hcall'⟩ := call_of_callsOf hs' hne'
  obtain rfl := hcaller u v v' id id' hcall hcall'
  rw [Option.some.inj (hs.symm.trans hs')]

lemma reorder_path (hone : g.OneDefiner) (hcaller : g.OneCaller) : (g.reorder slots).path = g.path := by
  have howner := reorder_owner hperm hone
  have hslot := reorder_slot hperm
  have hknown := reorder_known hperm
  have hneighbors := reorder_neighbors hperm hcaller
  have hfull : (g.reorder slots).fullyExpandable = g.fullyExpandable := by
    funext node
    rw [fullyExpandable, fullyExpandable, howner, hslot]
  have hexpand : (g.reorder slots).expand = g.expand := by
    funext n st
    rw [expand, expand, hfull, hneighbors]
  have hstep : ∀ interval cancel target, searchStep interval cancel (g.reorder slots) target =
      searchStep interval cancel g target := by
    intro interval cancel target
    funext st
    rw [searchStep, searchStep, hexpand]
  have haddOwner : (g.reorder slots).addOwner = g.addOwner := by
    funext node parts
    rw [addOwner, addOwner, howner]
  have htrace : (g.reorder slots).traceStep = g.traceStep := by
    funext parent source t
    simp only [traceStep, Trace.step, haddOwner]
  have hstart : Trace.start (g.reorder slots) = Trace.start g := by
    funext target
    rw [Trace.start, Trace.start, haddOwner]
  funext source target
  simp only [path, pathCancellable, pathEvery, pathFuel, foundEnvelope, noPathEnvelope, hknown, hstep, htrace,
    hstart, howner, hslot, reorder_foldContributing hperm]

end Reordered

lemma SameAnswer.of_eq {α : Type} {same : α → α → Prop} (hrefl : ∀ a, same a a) {o o' : Exec (AnswerEnvelope α)}
    (h : o' = o) (hok : ∃ env, o = .ok env) : SameAnswer same o o' := by
  obtain ⟨env, he⟩ := hok
  refine ⟨env, env, he, h.trans he, rfl, rfl, rfl, .refl _, ?_⟩
  cases env.data with
  | none => exact .none
  | some a => exact .some (hrefl a)

lemma OneDefiner.orderFree (hone : g.OneDefiner) (hcaller : g.OneCaller) (hg : g.WellFormed) : g.OrderFree := by
  intro slots slots' hperm hperm'
  refine ⟨?_, ?_, ?_, ?_⟩
  · intro key detail
    obtain ⟨env, he, -⟩ := callers_spec hg key detail
    rw [reorder_callers hperm hone, reorder_callers hperm' hone]
    exact .of_eq (fun a => ⟨rfl, .refl _, rfl⟩) rfl ⟨env, he⟩
  · intro key detail
    obtain ⟨env, he, -⟩ := callees_spec hg key detail
    rw [reorder_callees hperm hone, reorder_callees hperm' hone]
    exact .of_eq (fun a => ⟨rfl, .refl _, rfl⟩) rfl ⟨env, he⟩
  · intro key
    obtain ⟨env, he, -⟩ := valueFacts_spec g key
    rw [reorder_valueFacts hperm hone, reorder_valueFacts hperm' hone]
    exact .of_eq (fun a => ⟨.refl _, rfl⟩) rfl ⟨env, he⟩
  · intro source target
    obtain ⟨env, he, -⟩ := path_spec g source target
    rw [reorder_path hperm hone hcaller, reorder_path hperm' hone hcaller]
    exact .of_eq (fun a => ⟨.refl _, .refl _, rfl⟩) rfl ⟨env, he⟩

lemma lastDefiner_of_last {key id : String} {s : Slot} {front : List (Σ _ : String, Slot)}
    (h : g.slots.entries = front ++ [⟨id, s⟩]) (hk : key ∈ s.defines) : g.lastDefiner key = some ⟨id, s⟩ := by
  rw [lastDefiner, definers, h, List.filter_append]
  simp [hk]

lemma OrderFree.oneDefiner (h : g.OrderFree) : g.OneDefiner := by
  intro key id id' s s' hs hs' hk hk'
  obtain ⟨slots, hperm, front, hlast⟩ := g.slots.exists_last hs
  obtain ⟨slots', hperm', front', hlast'⟩ := g.slots.exists_last hs'
  obtain ⟨env, henv, ⟨data, hdata, -, hepochs⟩, -⟩ :=
    path_self (lastDefiner_of_last (g := g.reorder slots) hlast hk)
  obtain ⟨env', henv', ⟨data', hdata', -, hepochs'⟩, -⟩ :=
    path_self (lastDefiner_of_last (g := g.reorder slots') hlast' hk')
  obtain ⟨e, e', he, he', -, -, -, -, hrel⟩ := (h slots slots' hperm hperm').path key key
  obtain rfl := Except.ok.inj (henv.symm.trans he)
  obtain rfl := Except.ok.inj (henv'.symm.trans he')
  rw [hdata, hdata'] at hrel
  cases hrel with
  | some hsame =>
    have hmem := (hepochs id).mpr rfl
    rw [hsame.epochs] at hmem
    exact (hepochs' id).mp hmem

/-- The order of the slot table shows in the answers as soon as a key has two definers. It does not
when every key has one, provided the confirmed calls of a key lie in one slot, which they do when each
edge's source is defined in the edge's own slot. -/
theorem slot_order_free_iff (ms : List Mutation) :
    ((after ms).OneDefiner ∧ (after ms).OneCaller → (after ms).OrderFree) ∧
      ((after ms).OrderFree → (after ms).OneDefiner) ∧
      ((after ms).SourcesOwn → ((after ms).OrderFree ↔ (after ms).OneDefiner)) := by
  have hg := after_wellFormed ms
  refine ⟨fun h => h.1.orderFree h.2 hg, OrderFree.oneDefiner, fun hown => ⟨OrderFree.oneDefiner, ?_⟩⟩
  intro hone
  exact hone.orderFree (hown.oneCaller hone) hg

/-- The repository root and a nested package were both loaded, and the root went stale. -/
def Fixture.overlapping : List Mutation :=
  [load "." Ir.Fixture.engine, load "packages/engine" Ir.Fixture.engine, .markStale "."]

def Fixture.overlappingReversed : LiveGraph :=
  (after overlapping).reorder ⟨(after overlapping).slots.entries.reverse,
    (List.perm_nodupKeys (List.reverse_perm _)).mpr (after overlapping).slots.nodupKeys⟩

/-- With the package first the callees of a shared key are exact; with the root first they are stale. -/
theorem overlapping_order_shows : ¬ (after Fixture.overlapping).OrderFree := by
  intro h
  obtain ⟨env, env', he, he', hclass, -⟩ :=
    (h _ Fixture.overlappingReversed.slots (.refl _) (List.reverse_perm _)).callees "engine.bar" .callerDetail
  have hfirst : ((after Fixture.overlapping).callees "engine.bar" .callerDetail).map
      AnswerEnvelope.answerClass = .ok .exact := by decide
  have hsecond : (Fixture.overlappingReversed.callees "engine.bar" .callerDetail).map
      AnswerEnvelope.answerClass = .ok .stale := by decide
  have he : (after Fixture.overlapping).callees "engine.bar" .callerDetail = .ok env := he
  have he' : Fixture.overlappingReversed.callees "engine.bar" .callerDetail = .ok env' := he'
  rw [he] at hfirst
  rw [he'] at hsecond
  have hsame : AnswerClass.exact = .stale := by
    rw [← Except.ok.inj hfirst, ← Except.ok.inj hsecond, hclass]
  cases hsame

end RepoGraph.LiveGraph
