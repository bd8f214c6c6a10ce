import RepoGraph.Indexer.ModuleGraph

/-! The tables of the resolver index, built from the paths and the nodes of a snapshot. -/

namespace RepoGraph.Indexer

open Lib Lib.Text ImportResolver

def extensionlessImportExtensions : List String := ["ts", "tsx", "js", "jsx", "py"]

def stripExtension (path : String) : String :=
  match rsplitOnce path '.' with
  | some (stem, ext) => if ext ∈ extensionlessImportExtensions then stem else path
  | none => path

def orInsert (m : IterMap String String) (key value : String) : IterMap String String :=
  if (m.lookup key).isSome then m else m.insert key value

def directoryShortcuts (path : String) : List String :=
  ((stripSuffix path "/index.tsx").or (stripSuffix path "/index.ts")).toList ++
    (stripSuffix path "/__init__.py").toList

def addFileResolution (repoUid : String) (m : IterMap String String) (path : String) : IterMap String String :=
  let stableKey := fileKey repoUid path
  let m := m.insert stableKey stableKey
  let m := orInsert m (fileKey repoUid (stripExtension path)) stableKey
  (directoryShortcuts path).foldl (fun m dir => orInsert m (fileKey repoUid dir) stableKey) m

def buildFileResolutionMap (filePaths : List String) (repoUid : String) : IterMap String String :=
  filePaths.foldl (addFileResolution repoUid) ∅

def isHeaderPath (path : String) : Bool := endsWith path ".h" || endsWith path ".hpp" || endsWith path ".hxx"

def isCFamilyPath (path : String) : Bool :=
  endsWith path ".c" || endsWith path ".cpp" || endsWith path ".cc" || endsWith path ".cxx" || isHeaderPath path

def directoryOf (path : String) : String := (getModulePath path).getD ""

/-- The headers beside a file, by their bare names; the last of a name wins. -/
def headersBeside (filePaths : List String) (repoUid path : String) : IterMap String String :=
  .ofPairs ((filePaths.filter fun header => isHeaderPath header ∧ directoryOf header = directoryOf path).map
    fun header => (basename header, fileKey repoUid header))

def buildPerFileIncludeResolution (filePaths : List String)
    (repoUid : String) : IterMap String (IterMap String String) :=
  .ofPairs ((filePaths.filter fun path => isCFamilyPath path &&
    !(headersBeside filePaths repoUid path).entries.isEmpty).map
    fun path => (s!"{repoUid}:{path}", headersBeside filePaths repoUid path))

structure DeclaredModule where
  ecosystem : String
  name : String
  canonicalRoot : String
  npmDeclaredEntries : List NpmDeclaredEntry
  deriving DecidableEq, Repr

def buildRustCrateRoots (declaredModules : List DeclaredModule) : IterMap String String :=
  .ofPairs ((declaredModules.filter (·.ecosystem = "cargo")).map fun m =>
    (canonicalizeCargoPackageName m.name, m.canonicalRoot))

/-- The members of each name; a root listed twice counts once. -/
def buildNpmWorkspacePackages (declaredModules : List DeclaredModule) : NpmWorkspacePackages :=
  (declaredModules.filter (·.ecosystem = "npm")).foldl (fun packages m =>
    packages.entryOrDefault (keyOrder _) m.name fun members =>
      if members.any (·.root = m.canonicalRoot) then members
      else members ++ [⟨m.canonicalRoot, m.npmDeclaredEntries⟩]) ∅

def TsconfigPathsIndex.build (readMapping : String → Option Ir.TsconfigAliasConfig)
    (signalRows : List (String × Option String)) (fileStableKeys : List String) : TsconfigPathsIndex :=
  let mappings := signalRows.filterMap fun (fileUid, raw) => (raw.bind readMapping).map (fileUid, ·)
  if mappings.isEmpty then ⟨∅, ∅⟩ else ⟨.ofPairs mappings, .fromFileKeys fileStableKeys⟩

def rustModDeclsFromMetadata (ext : Externals) (metadataJson : Option String) : List RustModDeclaration :=
  let entries := ((ext.parsed metadataJson).bind (·.get "rust_mod_decls")).bind Json.asArray
  (entries.getD []).filterMap fun entry =>
    ((entry.get "name").bind Json.asStr).bind fun name =>
      (match entry.get "inline_path" with
        | none => some []
        | some list => list.asStrings).map fun inlinePath => ⟨name, inlinePath⟩

def nodesBy (key : ResolverNode → Option String)
    (nodes : List ResolverNode) : IterMap String (List ResolverNode) :=
  nodes.foldl (fun m n =>
    match key n with
    | some k => m.entryOrDefault (keyOrder _) k (· ++ [n])
    | none => m) ∅

def ResolverIndex.build (filePaths : List String) (repoUid : String) (cIncludeRoots : List String)
    (declaredModules : List DeclaredModule) (tsconfigPaths : TsconfigPathsIndex) (nodes : List ResolverNode) :
    ResolverIndex where
  nodesByStableKey := .ofPairs (nodes.map fun n => (n.stableKey, n))
  nodesByName := nodesBy (fun n => some n.name) nodes
  nodesByQualifiedName := nodesBy (·.qualifiedName) nodes
  nodesByUid := .ofPairs (nodes.map fun n => (n.nodeUid, n))
  nodeUidToFileUid := .ofPairs (nodes.filterMap fun n => n.fileUid.map (n.nodeUid, ·))
  fileResolution := buildFileResolutionMap filePaths repoUid
  perFileIncludeResolution := buildPerFileIncludeResolution filePaths repoUid
  includeResolver := some (buildIncludeResolutionMap filePaths repoUid ⟨cIncludeRoots, []⟩)
  rustCrateRoots := buildRustCrateRoots declaredModules
  javaSuffixIndex := buildJavaSuffixIndex filePaths
  npmWorkspacePackages := buildNpmWorkspacePackages declaredModules
  tsconfigPaths

end RepoGraph.Indexer
