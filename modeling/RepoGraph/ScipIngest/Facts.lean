import RepoGraph.Indexer.Types
import RepoGraph.Ir
import RepoGraph.Lib.Folds
import RepoGraph.Lib.Search

/-! What the ingestion of a partition reads: the documents of a SCIP index and the facts of the extractor about the
same files. A SCIP definition is joined to the extractor's node of the same name around it. -/

namespace RepoGraph.ScipIngest

open Lib Lib.Text Ir

structure Occurrence where
  range : List ℤ
  symbol : String
  symbolRoles : Int32
  deriving DecidableEq, Repr

structure Document where
  relativePath : String
  occurrences : List Occurrence
  deriving DecidableEq, Repr

structure Descriptor where
  name : String
  suffix : String
  deriving DecidableEq, Repr

/-- What is taken from the SCIP library about the text of a symbol. -/
structure ScipSymbols where
  isLocalSymbol : String → Bool
  parseSymbol : String → Option (List Descriptor)

structure ScipDef where
  symbol : String
  name : String
  kind : String
  enclosingKind : String
  isLocal : Bool
  startLine0 : ℤ
  startChar0 : ℤ
  deriving DecidableEq, Repr

inductive Visibility
  | isPublic
  | isPrivate
  | isProtected
  | isInternal
  | isExport
  deriving DecidableEq, Repr

/-- The subtype is held as the text that it is written as. -/
structure AstNodeLite where
  stableKey : String
  name : String
  cyclomatic : Option UInt32
  isFileScope : Bool
  subtype : Option String
  visibility : Option Visibility
  isTopLevel : Bool
  lineStart : ℤ
  colStart : ℤ
  lineEnd : ℤ
  colEnd : ℤ
  deriving DecidableEq, Repr

structure CallSite where
  callee : String
  lineStart : ℤ
  colStart : ℤ
  lineEnd : ℤ
  colEnd : ℤ
  deriving DecidableEq, Repr

structure RawImport where
  rawSpecifier : String
  resolvedPath : String
  deriving DecidableEq, Repr

structure TsImportObservation where
  rawSpecifier : String
  resolvedPath : Option String
  isRelative : Bool
  isTypeOnly : Bool
  isReExport : Bool
  isSideEffect : Bool
  isDynamic : Bool
  deriving DecidableEq, Repr

structure AstFacts where
  nodes : List AstNodeLite
  callSites : List CallSite
  imports : List RawImport
  importObservations : List TsImportObservation
  deriving DecidableEq, Repr

def Occurrence.isDefinition (occ : Occurrence) : Bool := occ.symbolRoles &&& 1 != 0

def Occurrence.start (occ : Occurrence) : Option (ℤ × ℤ) :=
  match occ.range with
  | line :: col :: _ => some (line, col)
  | _ => none

section Spans

def spans (lineStart colStart lineEnd colEnd line col : ℤ) : Bool :=
  (line > lineStart || (line = lineStart && col ≥ colStart)) &&
    (line < lineEnd || (line = lineEnd && col ≤ colEnd))

def containsPoint (n : AstNodeLite) (line col : ℤ) : Bool :=
  spans n.lineStart n.colStart n.lineEnd n.colEnd line col

def spanSize (n : AstNodeLite) : ℤ := (n.lineEnd - n.lineStart) * 100000 + (n.colEnd - n.colStart)

def enclosingNode (nodes : List AstNodeLite) (line col : ℤ) : Option AstNodeLite :=
  leastBy spanSize (nodes.filter (containsPoint · line col))

def enclosingMaterializedNode (nodes : List AstNodeLite) (nodeKeys : HashSet String)
    (line col : ℤ) : Option AstNodeLite :=
  leastBy spanSize ((nodes.filter fun n => nodeKeys.contains n.stableKey).filter (containsPoint · line col))

def isCallAt (callSites : List CallSite) (name : String) (line col : ℤ) : Bool :=
  callSites.any fun site => site.callee = name &&
    spans site.lineStart site.colStart site.lineEnd site.colEnd line col

lemma enclosingMaterializedNode_spec {nodes : List AstNodeLite} {nodeKeys : HashSet String}
    {line col : ℤ} {n : AstNodeLite} (h : enclosingMaterializedNode nodes nodeKeys line col = some n) :
    n ∈ nodes ∧ n.stableKey ∈ nodeKeys ∧ containsPoint n line col ∧
      ∀ m ∈ nodes, m.stableKey ∈ nodeKeys → containsPoint m line col → spanSize n ≤ spanSize m := by
  obtain ⟨hmem, hleast⟩ := leastBy_spec h
  simp only [List.mem_filter, Std.ExtTreeSet.contains_iff_mem] at hmem hleast
  exact ⟨hmem.1.1, hmem.1.2, hmem.2, fun m hm hkey hpoint => hleast m ⟨⟨hm, hkey⟩, hpoint⟩⟩

end Spans

section Join

variable (symbols : ScipSymbols)

def descriptorsInfo (symbol : String) : String × String × String :=
  if symbols.isLocalSymbol symbol then ("", "Local", "Local")
  else
    match symbols.parseSymbol symbol with
    | some descriptors =>
      let last := descriptors.getLast?
      let name := (last.map (·.name)).getD ""
      let kind := (last.map (·.suffix)).getD "NoDescriptor"
      let enclosing := (descriptors.dropLast.getLast?.map (·.suffix)).getD "Root"
      (name, kind, enclosing)
    | none => ("", "ParseErr", "ParseErr")

def scipDefinitions (doc : Document) : List ScipDef :=
  doc.occurrences.filterMap fun occ =>
    if occ.isDefinition then
      occ.start.map fun (line, col) =>
        let (name, kind, enclosingKind) := descriptorsInfo symbols occ.symbol
        ⟨occ.symbol, name, kind, enclosingKind, symbols.isLocalSymbol occ.symbol, line, col⟩
    else none

def reconcileScipName (name : String) : String :=
  if name = "<constructor>" then "constructor"
  else (stripPrefix name "<get>").getD ((stripPrefix name "<set>").getD name)

/-- The nodes of the name of a definition; SCIP counts lines from zero, the extractor from one. -/
def sameName (d : ScipDef) (nodes : List AstNodeLite) : List AstNodeLite :=
  nodes.filter fun n => n.name ≠ "" && n.name = reconcileScipName d.name

def findMatch (d : ScipDef) (nodes : List AstNodeLite) : Option AstNodeLite :=
  leastBy spanSize ((sameName d nodes).filter (containsPoint · (d.startLine0 + 1) d.startChar0))

def diagnoseUnmatched (d : ScipDef) (filePath : String) (nodes : List AstNodeLite) : String :=
  if (sameName d nodes).any (containsPoint · (d.startLine0 + 1) d.startChar0) then "join_bug"
  else if (sameName d nodes).any fun n => d.startLine0 + 1 ≥ n.lineStart && d.startLine0 + 1 ≤ n.lineEnd then
    "coordinate_path_mismatch"
  else if endsWith filePath ".d.ts" then "ambient_or_generated"
  else if d.enclosingKind = "Method" then "scip_only_non_modeled"
  else "ts_extractor_coverage_gap"

lemma findMatch_isSome_iff (d : ScipDef) (filePath : String) (nodes : List AstNodeLite) :
    (findMatch d nodes).isSome ↔ diagnoseUnmatched d filePath nodes = "join_bug" := by
  have hmatch : (findMatch d nodes).isSome ↔
      (sameName d nodes).any (containsPoint · (d.startLine0 + 1) d.startChar0) := by
    rw [findMatch, ← Option.ne_none_iff_isSome, Ne, leastBy_eq_none, List.filter_eq_nil_iff, List.any_eq_true]
    push Not
    rfl
  rw [hmatch, diagnoseUnmatched]
  by_cases h : (sameName d nodes).any (containsPoint · (d.startLine0 + 1) d.startChar0)
  · rw [if_pos h]
    exact ⟨fun _ => rfl, fun _ => h⟩
  · rw [if_neg h]
    refine ⟨fun hsome => absurd hsome h, fun hcause => ?_⟩
    split_ifs at hcause <;> simp at hcause

end Join

section Extraction

structure ExtractedNode where
  stableKey : String
  name : String
  isFile : Bool
  subtype : Option String
  visibility : Option Visibility
  parentNodeUid : Option String
  location : Option Indexer.SourceLocation
  deriving DecidableEq, Repr

structure ExtractionResult where
  nodes : List ExtractedNode
  edges : List Indexer.ExtractedEdge
  cyclomaticComplexity : HashMap String UInt32
  importObservations : List TsImportObservation

variable (ext : Indexer.Externals)

def rawImportFromMetadata (metadataJson : Option String) : Option RawImport := do
  let v ← ext.parsed metadataJson
  let rawSpecifier ← (← v.get "rawPath").asStr
  let resolvedPath ← (← v.get "resolvedPath").asStr
  some ⟨rawSpecifier, resolvedPath⟩

def nameFromTarget (targetKey : String) : String :=
  match splitOnce targetKey '#' with
  | some (_, after) => ((splitOnce after ':').map Prod.fst).getD after
  | none => ((rsplitOnce targetKey '.').map Prod.snd).getD targetKey

def astNode (metrics : HashMap String UInt32) (n : ExtractedNode) : Option AstNodeLite :=
  n.location.map fun loc =>
    ⟨n.stableKey, n.name, metrics[n.stableKey]?, n.isFile, n.subtype, n.visibility, n.parentNodeUid.isNone,
      loc.lineStart, loc.colStart, loc.lineEnd, loc.colEnd⟩

/-- The facts about one file; an extractor that fails gives none. -/
def astFactsForSource (extract : String → String → String → Option ExtractionResult)
    (source filePath repoUid : String) : AstFacts :=
  match extract source filePath repoUid with
  | none => ⟨[], [], [], []⟩
  | some result =>
    { nodes := result.nodes.filterMap (astNode result.cyclomaticComplexity)
      callSites := (result.edges.filter (·.edgeType = .calls)).filterMap fun e => e.location.map fun loc =>
        ⟨nameFromTarget e.targetKey, loc.lineStart, loc.colStart, loc.lineEnd, loc.colEnd⟩
      imports := (result.edges.filter (·.edgeType = .imports)).filterMap fun e =>
        rawImportFromMetadata ext e.metadataJson
      importObservations := result.importObservations }

end Extraction

end RepoGraph.ScipIngest
