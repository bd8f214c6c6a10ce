import RepoGraph.GraphAlgorithms.SccCorrect
import RepoGraph.LiveGraph.ValueFacts

/-! The answers that fold the whole captured graph: import cycles of files and of modules, module
statistics, complexity and the file inventory. They share one completeness label. -/

namespace RepoGraph.LiveGraph

open Lib Ir TrustModel ImportResolver GraphAlgorithms

structure ImportCycleScope where
  capturedResolvedRelative : Bool
  intraPartition : Bool
  crossPartition : Bool
  xpartEdgeCount : ℕ
  deriving DecidableEq, Repr

def intraImportEdges (g : LiveGraph) : List (String × String) :=
  g.residentIrs.flatMap fun ir =>
    (ir.edges.filter (fun e => e.basis = .astImport)).map (fun e => (e.src.asStr, e.dst.asStr))

def fileImportEdges (g : LiveGraph) : List (String × String) × ImportCycleScope :=
  let intra := g.intraImportEdges
  let xpart := g.xpartOverlay.map (fun e => (e.srcFileKey, e.dstFileKey))
  (intra ++ xpart, ⟨true, intra.length > 0, xpart.length > 0, xpart.length⟩)

structure Completeness where
  missing : List String
  worst : FreshnessState
  languages : Finset LanguageSupport
  epochs : BTreeMap String ℕ

def Slot.outOfScope (s : Slot) : Bool := s.ir.isNone || s.language ≠ .typeScriptPrimary

def wholeGraphCompleteness (g : LiveGraph) : Completeness :=
  let folded := g.slots.entries.foldl (fun acc e => acc.add e.1 e.2) Contributing.none
  let missing := (g.slots.entries.filter (fun e => e.2.outOfScope)).map Sigma.fst
  ⟨sortBy compare missing, folded.freshness, orTypeScript folded.languages, folded.epochs⟩

def modulePathOf (fileKey : String) : Option String :=
  (fileKeyPath fileKey).bind fun path =>
    let dir := dirname path
    if dir = "" then none else some dir

def addModulePair (pairs : BTreeSet (String × String)) (edge : String × String) :
    BTreeSet (String × String) :=
  match modulePathOf edge.1, modulePathOf edge.2 with
  | some sm, some dm => if sm ≠ dm then pairs.insert (sm, dm) else pairs
  | _, _ => pairs

def moduleImportPairs (g : LiveGraph) : BTreeSet (String × String) × ImportCycleScope :=
  let (fileEdges, fileScope) := g.fileImportEdges
  (fileEdges.foldl addModulePair ∅, fileScope)

def toDirectedEdges (edges : List (String × String)) : List DirectedEdge :=
  edges.map (fun e => ⟨e.1, e.2⟩)

structure FileImportCycle where
  members : List String
  deriving DecidableEq, Repr

structure FileImportCyclesAnswer where
  cycles : List FileImportCycle
  scope : ImportCycleScope
  contributingEpochs : BTreeMap String ℕ

def fileImportCyclesCancellable (g : LiveGraph) (cancel : CancelCheck) :
    Exec (Except Cancelled (AnswerEnvelope FileImportCyclesAnswer)) := do
  let (fileEdges, scope) := g.fileImportEdges
  let c := g.wholeGraphCompleteness
  match ← findSccsCancellable (toDirectedEdges fileEdges) cancel with
  | .error e => .ok (.error e)
  | .ok r =>
    let data := ⟨r.cycles.map (fun c => ⟨c.members⟩), scope, c.epochs⟩
    .ok <$> captureEnvelope data c.missing c.worst c.languages

def fileImportCycles (g : LiveGraph) : Exec (AnswerEnvelope FileImportCyclesAnswer) := do
  unwrapOr "never-breaking checkpoint cannot cancel" (← g.fileImportCyclesCancellable (fun _ => .cont))

structure ModuleImportCycle where
  members : List String
  deriving DecidableEq, Repr

structure ModuleImportCycleScope where
  fileScope : ImportCycleScope
  moduleAggregated : Bool
  deriving DecidableEq, Repr

structure ModuleImportCyclesAnswer where
  cycles : List ModuleImportCycle
  scope : ModuleImportCycleScope
  contributingEpochs : BTreeMap String ℕ

def moduleImportCyclesCancellable (g : LiveGraph) (cancel : CancelCheck) :
    Exec (Except Cancelled (AnswerEnvelope ModuleImportCyclesAnswer)) := do
  let (modulePairs, fileScope) := g.moduleImportPairs
  let c := g.wholeGraphCompleteness
  match ← findSccsCancellable (toDirectedEdges modulePairs.toList) cancel with
  | .error e => .ok (.error e)
  | .ok r =>
    let data := ⟨r.cycles.map (fun c => ⟨c.members⟩), ⟨fileScope, true⟩, c.epochs⟩
    .ok <$> captureEnvelope data c.missing c.worst c.languages

def moduleImportCycles (g : LiveGraph) : Exec (AnswerEnvelope ModuleImportCyclesAnswer) := do
  unwrapOr "never-breaking checkpoint cannot cancel" (← g.moduleImportCyclesCancellable (fun _ => .cont))

def bump (m : BTreeMap String ℕ) (key : String) : BTreeMap String ℕ := m.insert key (m[key]?.getD 0 + 1)

def insertAt (m : BTreeMap String (BTreeSet String)) (key value : String) :
    BTreeMap String (BTreeSet String) :=
  m.insert key ((m[key]?.getD ∅).insert value)

structure ModuleStatRow where
  module : String
  fanIn : ℕ
  fanOut : ℕ
  fileCount : ℕ
  symbolCount : ℕ
  abstractCount : ℕ
  typeCount : ℕ
  deriving DecidableEq, Repr

structure ModuleStatsAnswer where
  modules : List ModuleStatRow
  scope : ModuleImportCycleScope
  contributingEpochs : BTreeMap String ℕ

structure ModuleCounts where
  filePaths : BTreeMap String (BTreeSet String)
  symbolCount : BTreeMap String ℕ
  abstractCount : BTreeMap String ℕ
  typeCount : BTreeMap String ℕ

def countTypes (acc : ModuleCounts) (module kind : String) : ModuleCounts :=
  { acc with
    abstractCount := if kind ∈ ["INTERFACE", "TYPE_ALIAS"] then bump acc.abstractCount module
      else acc.abstractCount
    typeCount := if kind ∈ ["INTERFACE", "TYPE_ALIAS", "CLASS", "ENUM"] then bump acc.typeCount module
      else acc.typeCount }

def countSymbol (acc : ModuleCounts) (module : String) (attrs : SymbolAttributes) : ModuleCounts :=
  let acc := if attrs.visibility = some .isExport then
    { acc with symbolCount := bump acc.symbolCount module } else acc
  match attrs.isTopLevel, attrs.symbolKind with
  | true, some kind => countTypes acc module kind
  | _, _ => acc

def countNode (acc : ModuleCounts) (n : IrNode) : ModuleCounts :=
  match n.identitySource with
  | .astFileScope =>
    match fileKeyPath n.key.asStr with
    | some path =>
      let module := dirname path
      if module ≠ "" then { acc with filePaths := insertAt acc.filePaths module path } else acc
    | none => acc
  | .astAdopted =>
    match n.attributes, n.range with
    | some attrs, some range =>
      let module := dirname range.file
      if module = "" then acc else countSymbol acc module attrs
    | _, _ => acc
  -- No producer node: unknown, not zero.
  | .scipSynthesizedFallback => acc

def moduleStats (g : LiveGraph) : Exec (AnswerEnvelope ModuleStatsAnswer) :=
  let (modulePairs, fileScope) := g.moduleImportPairs
  let fanOut := modulePairs.toList.foldl (fun m p => insertAt m p.1 p.2) ∅
  let fanIn := modulePairs.toList.foldl (fun m p => insertAt m p.2 p.1) ∅
  let counts := g.residentIrs.foldl (fun acc ir => ir.nodes.foldl countNode acc) ⟨∅, ∅, ∅, ∅⟩
  let modules := (counts.filePaths.toList.filter (fun e => !e.2.isEmpty)).map fun e =>
    { module := e.1
      fanIn := (fanIn[e.1]?.map Std.ExtTreeSet.size).getD 0
      fanOut := (fanOut[e.1]?.map Std.ExtTreeSet.size).getD 0
      fileCount := e.2.size
      symbolCount := counts.symbolCount[e.1]?.getD 0
      abstractCount := counts.abstractCount[e.1]?.getD 0
      typeCount := counts.typeCount[e.1]?.getD 0 }
  let c := g.wholeGraphCompleteness
  captureEnvelope ⟨modules, ⟨fileScope, true⟩, c.epochs⟩ c.missing c.worst c.languages

structure HighComplexityFact where
  symbol : String
  complexity : UInt32
  file : Option String
  deriving DecidableEq, Repr

structure HighComplexityAnswer where
  symbols : List HighComplexityFact
  contributingEpochs : BTreeMap String ℕ

def highComplexityFact (threshold : UInt32) (f : ValueFact) : Option HighComplexityFact :=
  if f.kind ≠ .cyclomaticComplexity ∨ f.value < threshold then none
  else
    match f.subject with
    | .symbol k => some ⟨k.asStr, f.value, f.sourceRange.map SourceRange.file⟩
    | .rawAnchor _ => none

def Slot.highComplexityFacts (threshold : UInt32) (s : Slot) : List HighComplexityFact :=
  if s.ir.isNone then [] else s.valueFacts.filterMap (highComplexityFact threshold)

def highComplexity (g : LiveGraph) (threshold : UInt32) : Exec (AnswerEnvelope HighComplexityAnswer) :=
  let symbols := sortBy
    (fun a b => (compare a.symbol b.symbol).then (compare a.complexity b.complexity))
    (g.slots.entries.flatMap fun e => e.2.highComplexityFacts threshold)
  let c := g.wholeGraphCompleteness
  captureEnvelope ⟨symbols, c.epochs⟩ c.missing c.worst c.languages

structure StructuralFileRow where
  path : String
  hasFileNode : Bool
  astSymbolCount : ℕ
  deriving DecidableEq, Repr

structure StructuralInventoryAnswer where
  files : List StructuralFileRow
  unattributedSymbols : ℕ
  contributingEpochs : BTreeMap String ℕ

structure InventoryRows where
  rows : BTreeMap String StructuralFileRow
  unattributedSymbols : ℕ

def addInventoryNode (acc : InventoryRows) (n : IrNode) : InventoryRows :=
  match n.identitySource with
  | .astFileScope =>
    match fileKeyPath n.key.asStr with
    | some path =>
      let row := acc.rows[path]?.getD ⟨path, true, 0⟩
      { acc with rows := acc.rows.insert path { row with hasFileNode := true } }
    | none => acc
  | .astAdopted =>
    match n.range with
    | some range =>
      let row := acc.rows[range.file]?.getD ⟨range.file, false, 0⟩
      { acc with rows := acc.rows.insert range.file { row with astSymbolCount := row.astSymbolCount + 1 } }
    | none => { acc with unattributedSymbols := acc.unattributedSymbols + 1 }
  | .scipSynthesizedFallback => acc

def structuralFileInventory (g : LiveGraph) : Exec (AnswerEnvelope StructuralInventoryAnswer) :=
  let acc := g.residentIrs.foldl (fun acc ir => ir.nodes.foldl addInventoryNode acc) ⟨∅, 0⟩
  let c := g.wholeGraphCompleteness
  captureEnvelope ⟨acc.rows.values, acc.unattributedSymbols, c.epochs⟩ c.missing c.worst c.languages

def WholeGraphComplete (g : LiveGraph) : Prop :=
  ∀ id s, g.slot id = some s → s.ResidentFresh ∧ s.language = .typeScriptPrimary

lemma outOfScope_eq_false {s : Slot} :
    s.outOfScope = false ↔ s.ir.isSome ∧ s.language = .typeScriptPrimary := by
  cases hir : s.ir with
  | none => simp [Slot.outOfScope, hir]
  | some ir => simp [Slot.outOfScope, hir]

lemma completeness_missing (g : LiveGraph) : g.wholeGraphCompleteness.missing = [] ↔
    ∀ id s, g.slot id = some s → s.outOfScope = false := by
  have hperm := sortBy_perm compare ((g.slots.entries.filter (fun e => e.2.outOfScope)).map Sigma.fst)
  simp only [wholeGraphCompleteness]
  constructor
  · intro h id s hs
    rw [h, List.nil_perm, List.map_eq_nil_iff, List.filter_eq_nil_iff] at hperm
    simpa using hperm ⟨id, s⟩ (IterMap.mem_entries.mpr hs)
  · intro h
    have hnil : g.slots.entries.filter (fun e => e.2.outOfScope) = [] := by
      rw [List.filter_eq_nil_iff]
      rintro ⟨id, s⟩ hmem
      simp [h id s (IterMap.mem_entries.mp hmem)]
    rw [hnil] at hperm ⊢
    exact List.perm_nil.mp hperm

lemma completeness_worst (g : LiveGraph) : g.wholeGraphCompleteness.worst = .fresh ↔
    ∀ id s, g.slot id = some s → s.status = .current := by
  have hfold : ∀ (es : List (Σ _ : String, Slot)) (acc : Contributing),
      (es.foldl (fun acc e => acc.add e.1 e.2) acc).freshness = .fresh ↔
        acc.freshness = .fresh ∧ ∀ e ∈ es, e.2.status = .current := by
    intro es
    induction es with
    | nil => simp
    | cons e es ih =>
      intro acc
      rw [List.foldl_cons, ih]
      simp only [Contributing.add, worse_eq_fresh, statusFreshness_eq_fresh, List.forall_mem_cons, and_assoc]
  simp only [wholeGraphCompleteness, hfold, Contributing.none, true_and]
  constructor
  · intro h id s hs
    exact h ⟨id, s⟩ (IterMap.mem_entries.mpr hs)
  · rintro h ⟨id, s⟩ hmem
    exact h id s (IterMap.mem_entries.mp hmem)

lemma capture_spec {α : Type} (g : LiveGraph) (data : α) :
    ∃ env, captureEnvelope data g.wholeGraphCompleteness.missing g.wholeGraphCompleteness.worst
        g.wholeGraphCompleteness.languages = .ok env ∧ env.data = some data ∧
      (env.answerClass = .exact ↔ g.WholeGraphComplete) := by
  have hlanguages : g.wholeGraphCompleteness.languages.Nonempty := orTypeScript_nonempty _
  obtain ⟨env, he, hd, hc⟩ := captureEnvelope_spec data g.wholeGraphCompleteness.missing
    g.wholeGraphCompleteness.worst hlanguages
  refine ⟨env, he, hd, ?_⟩
  rw [hc, completeness_missing, completeness_worst]
  simp only [outOfScope_eq_false]
  constructor
  · intro h id s hs
    exact ⟨⟨(h.1 id s hs).1, h.2 id s hs⟩, (h.1 id s hs).2⟩
  · intro h
    exact ⟨fun id s hs => ⟨(h id s hs).1.1, (h id s hs).2⟩, fun id s hs => (h id s hs).1.2⟩

lemma fileImportCycles_returns (g : LiveGraph) : ∃ env, g.fileImportCycles = .ok env := by
  obtain ⟨r, hr, -⟩ := findSccsEvery_partition cancelCheckInterval (toDirectedEdges g.fileImportEdges.1)
  obtain ⟨env, he, -⟩ := g.capture_spec
    (⟨r.cycles.map (fun c => ⟨c.members⟩), g.fileImportEdges.2, g.wholeGraphCompleteness.epochs⟩ :
      FileImportCyclesAnswer)
  exact ⟨env, by simp [fileImportCycles, fileImportCyclesCancellable, findSccsCancellable, hr, he]⟩

lemma moduleImportCycles_returns (g : LiveGraph) : ∃ env, g.moduleImportCycles = .ok env := by
  obtain ⟨r, hr, -⟩ := findSccsEvery_partition cancelCheckInterval
    (toDirectedEdges g.moduleImportPairs.1.toList)
  obtain ⟨env, he, -⟩ := g.capture_spec
    (⟨r.cycles.map (fun c => ⟨c.members⟩), ⟨g.moduleImportPairs.2, true⟩, g.wholeGraphCompleteness.epochs⟩ :
      ModuleImportCyclesAnswer)
  exact ⟨env, by simp [moduleImportCycles, moduleImportCyclesCancellable, findSccsCancellable, hr, he]⟩

end RepoGraph.LiveGraph
