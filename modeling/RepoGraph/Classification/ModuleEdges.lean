import RepoGraph.Classification.ImportPartition
import RepoGraph.Lib.Exec
import RepoGraph.Lib.IterMap

/-! Derivation of the cross-module dependency edges of a view from resolved imports, file ownership
and the list of modules. -/

namespace RepoGraph.Classification

open Lib

structure ResolvedImportFact where
  sourceFileUid : String
  targetFileUid : String
  partition : ImportPartition
  deriving DecidableEq, Repr

structure FileOwnershipFact where
  fileUid : String
  moduleUid : String
  deriving DecidableEq, Repr

structure ModuleRef where
  moduleUid : String
  canonicalPath : String
  deriving DecidableEq, Repr

structure ModuleEdgeDerivationInput where
  imports : List ResolvedImportFact
  ownership : List FileOwnershipFact
  modules : List ModuleRef

structure ModuleDependencyEdge where
  sourceModuleUid : String
  sourceCanonicalPath : String
  targetModuleUid : String
  targetCanonicalPath : String
  importCount : ℕ
  sourceFileCount : ℕ
  deriving DecidableEq, Repr

inductive ModuleEdgeDerivationError
  | duplicateOwnership (fileUid : String) (moduleUids : List String)
  deriving DecidableEq, Repr

structure ModuleScopedCounts where
  intraModule : ℕ
  sourceUnownedInto : ℕ
  targetUnownedFrom : ℕ
  deriving DecidableEq, Repr

inductive ScopedCell
  | intraModule
  | sourceUnownedInto
  | targetUnownedFrom
  deriving DecidableEq, Repr

def ModuleScopedCounts.bump (counts : ModuleScopedCounts) : ScopedCell → ModuleScopedCounts
  | .intraModule => { counts with intraModule := counts.intraModule + 1 }
  | .sourceUnownedInto => { counts with sourceUnownedInto := counts.sourceUnownedInto + 1 }
  | .targetUnownedFrom => { counts with targetUnownedFrom := counts.targetUnownedFrom + 1 }

abbrev PerModule := BTreeMap String ModuleScopedCounts

def PerModule.count (counts : PerModule) (path : Option String) (cell : ScopedCell) : PerModule :=
  match path with
  | some path => counts.insert path ((counts[path]?.getD ⟨0, 0, 0⟩).bump cell)
  | none => counts

structure ModuleEdgeDiagnostics where
  importsTotal : ℕ
  importsSourceUnowned : ℕ
  importsTargetUnowned : ℕ
  importsIntraModule : ℕ
  importsCrossModule : ℕ
  perModule : PerModule

def ModuleEdgeDiagnostics.empty : ModuleEdgeDiagnostics := ⟨0, 0, 0, 0, 0, ∅⟩

structure EdgeAggregate where
  importCount : ℕ
  sourceFiles : HashSet String
  partitions : PartitionCounts

instance EdgeAggregate.instInhabited : Inhabited EdgeAggregate := ⟨⟨0, ∅, default⟩⟩

structure ModuleEdgeDerivationResult where
  edges : List ModuleDependencyEdge
  diagnostics : ModuleEdgeDiagnostics
  view : ImportView
  remainder : ImportRemainder
  edgePartitions : BTreeMap (String × String) PartitionCounts

def ModuleEdgeDerivationResult.partitionsOf (result : ModuleEdgeDerivationResult) (edge : ModuleDependencyEdge) :
    Option PartitionCounts :=
  result.edgePartitions[(edge.sourceModuleUid, edge.targetModuleUid)]?

/-- The bucket orders of the two tables that are iterated. -/
structure HashOrders where
  files : BucketOrder String (List String)
  relations : BucketOrder (String × String) EdgeAggregate

def HashOrders.asInserted : HashOrders := ⟨.asInserted _ _, .asInserted _ _⟩

abbrev Relations := IterMap (String × String) EdgeAggregate

abbrev Outcome (α : Type) := Except ModuleEdgeDerivationError α

def indexFiles (index : IterMap String String) : List (Σ _ : String, List String) →
    Exec (Outcome (IterMap String String))
  | [] => .ok (.ok index)
  | ⟨fileUid, moduleUids⟩ :: rest =>
    if 1 < moduleUids.length then .ok (.error (.duplicateOwnership fileUid moduleUids))
    else do
      let moduleUid ← expect "index out of bounds" moduleUids[0]?
      indexFiles (index.insert fileUid moduleUid) rest

def buildOwnershipIndex (o : BucketOrder String (List String)) (ownership : List FileOwnershipFact) :
    Exec (Outcome (IterMap String String)) :=
  let fileToModules : IterMap String (List String) :=
    ownership.foldl (fun m fact => m.entryOrDefault o fact.fileUid (· ++ [fact.moduleUid])) ∅
  indexFiles ∅ fileToModules.entries

structure DerivationState where
  diagnostics : ModuleEdgeDiagnostics
  relations : Relations

def EdgeAggregate.add (view : ImportView) (imp : ResolvedImportFact) (agg : EdgeAggregate) : EdgeAggregate :=
  let agg := { agg with partitions := agg.partitions.add imp.partition }
  if view.admits imp.partition then
    { agg with importCount := agg.importCount + 1, sourceFiles := agg.sourceFiles.insert imp.sourceFileUid }
  else agg

section Loop

variable (o : BucketOrder (String × String) EdgeAggregate) (view : ImportView)
  (index paths : IterMap String String)

def processImport (s : DerivationState) (imp : ResolvedImportFact) : DerivationState :=
  let admitted := view.admits imp.partition
  let d :=
    if admitted then { s.diagnostics with importsTotal := s.diagnostics.importsTotal + 1 }
    else s.diagnostics
  match index.lookup imp.sourceFileUid with
  | none =>
    if admitted then
      let path := (index.lookup imp.targetFileUid).bind paths.lookup
      { s with diagnostics := { d with
          importsSourceUnowned := d.importsSourceUnowned + 1
          perModule := d.perModule.count path .sourceUnownedInto } }
    else { s with diagnostics := d }
  | some sourceModule =>
    match index.lookup imp.targetFileUid with
    | none =>
      if admitted then
        { s with diagnostics := { d with
            importsTargetUnowned := d.importsTargetUnowned + 1
            perModule := d.perModule.count (paths.lookup sourceModule) .targetUnownedFrom } }
      else { s with diagnostics := d }
    | some targetModule =>
      if sourceModule = targetModule then
        if admitted then
          { s with diagnostics := { d with
              importsIntraModule := d.importsIntraModule + 1
              perModule := d.perModule.count (paths.lookup sourceModule) .intraModule } }
        else { s with diagnostics := d }
      else
        { diagnostics := if admitted then { d with importsCrossModule := d.importsCrossModule + 1 } else d
          relations := s.relations.entryOrDefault o (sourceModule, targetModule) (EdgeAggregate.add view imp) }

def processImports (imports : List ResolvedImportFact) : DerivationState :=
  imports.foldl (processImport o view index paths) ⟨.empty, ∅⟩

end Loop

def edgeOf (paths : IterMap String String) (entry : Σ _ : String × String, EdgeAggregate) :
    Option ModuleDependencyEdge :=
  if 0 < entry.2.importCount then
    (paths.lookup entry.1.1).bind fun sourcePath =>
      (paths.lookup entry.1.2).map fun targetPath =>
        { sourceModuleUid := entry.1.1
          sourceCanonicalPath := sourcePath
          targetModuleUid := entry.1.2
          targetCanonicalPath := targetPath
          importCount := entry.2.importCount
          sourceFileCount := entry.2.sourceFiles.size }
  else none

def comparePaths (a b : ModuleDependencyEdge) : Ordering :=
  (compare a.sourceCanonicalPath b.sourceCanonicalPath).then
    (compare a.targetCanonicalPath b.targetCanonicalPath)

def emitEdges (view : ImportView) (paths : IterMap String String) (s : DerivationState) :
    ModuleEdgeDerivationResult :=
  { edges := sortBy comparePaths (s.relations.entries.filterMap (edgeOf paths))
    diagnostics := s.diagnostics
    view
    remainder := .fromRelations view (s.relations.entries.map (·.2.partitions))
    edgePartitions := .ofList (s.relations.entries.filterMap fun e =>
      (edgeOf paths e).map fun _ => (e.1, e.2.partitions)) }

def moduleLookup (modules : List ModuleRef) : IterMap String String :=
  .ofPairs (modules.map fun m => (m.moduleUid, m.canonicalPath))

def deriveRelations (o : HashOrders) (input : ModuleEdgeDerivationInput) (view : ImportView) :
    Exec (Outcome DerivationState) := do
  match ← buildOwnershipIndex o.files input.ownership with
  | .error e => .ok (.error e)
  | .ok index => .ok (.ok (processImports o.relations view index (moduleLookup input.modules) input.imports))

def deriveModuleDependencyEdgesInView (o : HashOrders) (input : ModuleEdgeDerivationInput) (view : ImportView) :
    Exec (Outcome ModuleEdgeDerivationResult) := do
  match ← deriveRelations o input view with
  | .error e => .ok (.error e)
  | .ok s => .ok (.ok (emitEdges view (moduleLookup input.modules) s))

def deriveModuleDependencyEdges (o : HashOrders) (input : ModuleEdgeDerivationInput) :
    Exec (Outcome ModuleEdgeDerivationResult) :=
  deriveModuleDependencyEdgesInView o input .all

end RepoGraph.Classification
