import RepoGraph.Indexer.IncludeResolver
import RepoGraph.ImportResolver

/-! The stages that bind an IMPORTS edge: stable keys and the extensionless map, the includes of a
translation unit, Rust crates and enclosing modules, Python submodules, Java suffixes, tsconfig paths and
npm workspace members. -/

namespace RepoGraph.Indexer

open Lib Lib.Text ImportResolver

inductive TargetResolution
  | resolved (uid : String)
  | unresolved
  | ambiguous (candidates : List String)
  | javaWildcard
  | javaAmbiguousSuffix
  | selfCallAmbiguousMro (candidates : List String)
  | inferredImport (targetUid alternateStableKey basis : String)
  | includeBound (targetUid : String) (resolution : Resolution) (metadataJson : String)
  | includeAmbiguous (metadataJson : String)
  | workspaceSourceEntryBound (targetUid metadataJson : String)
  | workspaceSourceEntryAmbiguous (metadataJson : String)
  | tsconfigPathsBound (targetUid metadataJson : String)
  | tsconfigPathsAmbiguous (metadataJson : String)
  | inferredNameOnly (uid receiver candidate : String)
  | ambiguousNameOnly (pool : List String)
  | selfCallHierarchyMiss (pool : List String)
  | selfCallReceiverUnproven (pool : List String)
  | selfCallWithoutClassContext (pool : List String)
  deriving DecidableEq, Repr

inductive NpmDeclaredEntry
  | main (path : String)
  | export (path : String)
  deriving DecidableEq, Repr

def NpmDeclaredEntry.path : NpmDeclaredEntry → String
  | .main path => path
  | .export path => path

structure NpmWorkspacePackage where
  root : String
  declaredEntries : List NpmDeclaredEntry
  deriving DecidableEq, Repr

abbrev NpmWorkspacePackages := IterMap String (List NpmWorkspacePackage)

abbrev JavaSuffixIndex := IterMap String (List String)

structure TsconfigPathsIndex where
  configByFile : IterMap String Ir.TsconfigAliasConfig
  inventory : FileInventory

structure ResolverIndex where
  nodesByStableKey : IterMap String ResolverNode
  nodesByName : IterMap String (List ResolverNode)
  nodesByQualifiedName : IterMap String (List ResolverNode)
  nodesByUid : IterMap String ResolverNode
  nodeUidToFileUid : IterMap String String
  fileResolution : IterMap String String
  perFileIncludeResolution : IterMap String (IterMap String String)
  includeResolver : Option IncludeResolutionMap
  rustCrateRoots : IterMap String String
  javaSuffixIndex : JavaSuffixIndex
  npmWorkspacePackages : NpmWorkspacePackages
  tsconfigPaths : TsconfigPathsIndex

namespace ResolverIndex

def uidOf (index : ResolverIndex) (stableKey : String) : Option String :=
  (index.nodesByStableKey.lookup stableKey).map (·.nodeUid)

end ResolverIndex

section Rust

def rustSrcPrefix (crateRoot : String) : String :=
  if crateRoot = "." ∨ crateRoot = "" then "src" else s!"{crateRoot}/src"

def rustModuleProbes (src : String) (segs : List String) : List String :=
  (List.range (segs.length + 1)).reverse.flatMap fun n =>
    if n = 0 then [s!"{src}/lib.rs", s!"{src}/main.rs"]
    else
      let joined := join "/" (segs.take n)
      [s!"{src}/{joined}.rs", s!"{src}/{joined}/mod.rs"]

def rustModuleLadder (src : String) (segs : List String) (fileResolution : IterMap String String)
    (repoUid : String) : Option String :=
  (rustModuleProbes src segs).findSome? fun path => fileResolution.lookup (fileKey repoUid path)

def canonicalizeCargoPackageName (name : String) : String := replaceAll name '_' '-'

def resolveRustCrateImport (targetKey : String) (rustCrateRoots fileResolution : IterMap String String)
    (repoUid : String) : Option String :=
  match splitStr targetKey "::" with
  | [] => none
  | first :: rest =>
    if first = "" then none
    else
      (rustCrateRoots.lookup (canonicalizeCargoPackageName first)).bind fun crateRoot =>
        rustModuleLadder (rustSrcPrefix crateRoot) rest fileResolution repoUid

structure RustUseSite where
  sourcePath : String
  inlineModulePath : List String
  declaredModules : Option (List RustModDeclaration)
  deriving DecidableEq, Repr

def RustUseSite.fromEdge (ext : Externals) (sourcePath : String) (edge : ExtractedEdge)
    (declaredModules : Option (List RustModDeclaration)) : Option RustUseSite :=
  let inlineModulePath :=
    match edge.metadataJson with
    | none => some []
    | some raw =>
      (ext.fromStr raw).bind fun value => value.asObject.bind fun fields =>
        match fields.lookup "inlineModulePath" with
        | none => some []
        | some list => list.asStrings
  inlineModulePath.map fun inlineModulePath => { sourcePath, inlineModulePath, declaredModules }

def maxByKey (key : String → ℕ) : List String → Option String
  | [] => none
  | a :: l => some (l.foldl (fun best b => if key best ≤ key b then b else best) a)

def enclosingCrateRoot (rustCrateRoots : IterMap String String) (sourcePath : String) : Option String :=
  let roots := (rustCrateRoots.entries.map (·.2)).filter fun root =>
    root = "." ∨ root = "" ∨ startsWith sourcePath s!"{root}/"
  maxByKey (fun root => if root = "." then 0 else root.utf8ByteSize) roots

def moduleOfFile (rel : String) : List String :=
  let segs := split rel '/'
  if segs = ["lib"] ∨ segs = ["main"] then []
  else if segs.getLast? = some "mod" then segs.dropLast
  else segs

def useSegments (targetKey : String) (site : RustUseSite) (module : List String) (src : String)
    (rustCrateRoots fileResolution : IterMap String String) (repoUid : String) : Option (List String) :=
  let parts := splitStr targetKey "::"
  match parts with
  | [] => none
  | first :: rest =>
    if first = "crate" then some rest
    else if first = "self" then some (module ++ rest)
    else if first = "super" then
      let pops := (parts.takeWhile (· = "super")).length
      if module.length < pops then none
      else some (module.take (module.length - pops) ++ parts.drop pops)
    else if first = "" then none
    else if (rustCrateRoots.lookup (canonicalizeCargoPackageName first)).isSome then none
    else
      let declared := site.declaredModules.any fun decls => decls.any fun d =>
        d.name = first ∧ d.inlinePath = site.inlineModulePath
      if !declared then none
      else
        let firstDir := join "/" (module ++ [first])
        let indexed := fun rel : String => (fileResolution.lookup s!"{repoUid}:{src}/{rel}:FILE").isSome
        if !indexed s!"{firstDir}.rs" && !indexed s!"{firstDir}/mod.rs" then none
        else some (module ++ parts)

def resolveRustEnclosingModuleImport (targetKey : String) (site : RustUseSite)
    (rustCrateRoots fileResolution : IterMap String String) (repoUid : String) : Option String :=
  (enclosingCrateRoot rustCrateRoots site.sourcePath).bind fun crateRoot =>
    let src := rustSrcPrefix crateRoot
    (stripPrefix site.sourcePath s!"{src}/").bind fun rel =>
      if startsWith rel "bin/" then none
      else
        (stripSuffix rel ".rs").bind fun rel =>
          let module := moduleOfFile rel ++ site.inlineModulePath
          (useSegments targetKey site module src rustCrateRoots fileResolution repoUid).bind fun segs =>
            (rustModuleLadder src segs fileResolution repoUid).bind fun hit =>
              if hit = fileKey repoUid site.sourcePath then none else some hit

end Rust

section Python

def pythonSubmoduleBasis : String := "python_submodule"

def isPythonIdentifier (ext : Externals) (name : String) : Bool :=
  match name.toList with
  | [] => false
  | first :: rest =>
    (ext.isAlphabetic first || first == '_') && rest.all fun c => ext.isAlphanumeric c || c == '_'

def pythonImportedName (ext : Externals) (metadataJson : Option String) : Option String :=
  (ext.parsed metadataJson).bind fun value => (value.get "importedName").bind fun name =>
    name.asStr.bind fun name => if isPythonIdentifier ext name then some name else none

def pythonPackageDir (targetKey repoUid : String) : Option String :=
  let dir :=
    if contains targetKey ':' then
      (stripPrefix targetKey repoUid).bind fun rest => (stripPrefix rest ":").bind fun rest =>
        stripSuffix rest ":FILE"
    else some targetKey
  dir.bind fun dir =>
    if dir ≠ "" ∧ dir ≠ "." ∧ !startsWith dir "/" ∧ !endsWith dir "/" then some dir else none

def pythonBindingIsTheSubmoduleItself (binding : ImportBinding) (packageDotted name : String) : Bool :=
  match binding.importedName with
  | some imported => imported == name && (binding.specifier == "." || binding.specifier == packageDotted)
  | none => binding.specifier == s!"{packageDotted}.{name}"

def initDefinesName (index : ResolverIndex) (initFileUid importedName : String) : Bool :=
  ((index.nodesByName.lookup importedName).getD []).any fun n =>
    n.kind == "SYMBOL" && n.qualifiedName == some importedName &&
      ((index.nodeUidToFileUid.lookup n.nodeUid).or n.fileUid) == some initFileUid

def initBindsElsewhere (bindings : ImportBindingsByFile) (initFileUid packageDir importedName : String) : Bool :=
  ((bindings.lookup initFileUid).getD []).any fun b =>
    b.identifier == importedName &&
      !pythonBindingIsTheSubmoduleItself b (replaceAll packageDir '/' '.') importedName

def resolvePythonSubmoduleImport (ext : Externals) (edge : ExtractedEdge) (index : ResolverIndex)
    (bindings : Option ImportBindingsByFile) : Option TargetResolution :=
  (pythonImportedName ext edge.metadataJson).bind fun importedName =>
    (pythonPackageDir edge.targetKey edge.repoUid).bind fun packageDir =>
      let initKey := s!"{edge.repoUid}:{packageDir}/__init__.py:FILE"
      (index.nodesByStableKey.lookup initKey).bind fun initNode =>
        let submodules := [s!"{edge.repoUid}:{packageDir}/{importedName}/__init__.py:FILE",
          s!"{edge.repoUid}:{packageDir}/{importedName}.py:FILE"]
        (submodules.findSome? index.uidOf).bind fun targetUid =>
          let keepInit := TargetResolution.resolved initNode.nodeUid
          match initNode.fileUid.or (index.nodeUidToFileUid.lookup initNode.nodeUid), bindings with
          | some initFileUid, some bindings =>
            if initDefinesName index initFileUid importedName then some keepInit
            else if initBindsElsewhere bindings initFileUid packageDir importedName then some keepInit
            else some (.inferredImport targetUid initKey pythonSubmoduleBasis)
          | _, _ => some keepInit

end Python

section Java

inductive JavaSuffixLookup
  | resolved (path : String)
  | ambiguous
  | notFound
  deriving DecidableEq, Repr

def pathHasBoundarySuffix (path ending : String) : Bool := path == ending || endsWith path s!"/{ending}"

def javaSuffixAt (segs : List String) (index : JavaSuffixIndex) (n : ℕ) : Option JavaSuffixLookup :=
  let sub := segs.take n
  (sub.getLast?).bind fun className =>
    (index.lookup s!"{className}.java").bind fun paths =>
      let name := join "/" sub
      match paths.filter (pathHasBoundarySuffix · s!"{name}.java") with
      | [] => none
      | [path] => some (.resolved path)
      | _ => some .ambiguous

def resolveJavaSuffix (targetKey : String) (index : JavaSuffixIndex) : JavaSuffixLookup :=
  let segs := split targetKey '.'
  if "" ∈ segs then .notFound
  else
    (((List.range (segs.length + 1)).reverse.filter (0 < ·)).findSome? (javaSuffixAt segs index)).getD .notFound

def resolveJavaImport (targetKey : String) (index : ResolverIndex) (repoUid : String) : TargetResolution :=
  if endsWith targetKey ".*" then .javaWildcard
  else
    match resolveJavaSuffix targetKey index.javaSuffixIndex with
    | .resolved path =>
      match index.uidOf (fileKey repoUid path) with
      | some uid => .resolved uid
      | none => .unresolved
    | .ambiguous => .javaAmbiguousSuffix
    | .notFound => .unresolved

def buildJavaSuffixIndex (filePaths : List String) : JavaSuffixIndex :=
  (filePaths.filter (endsWith · ".java")).foldl
    (fun m path => m.entryOrDefault (keyOrder _) (basename path) (· ++ [path])) ∅

end Java

section Includes

/-- The carrier of an edge as an object: empty when absent, nothing when it is not an object. -/
def objectCarrier (ext : Externals) : Option String → Option Json.Fields
  | none => some []
  | some raw => (ext.fromStr raw).bind Json.asObject

def withBasis (ext : Externals) (carrier : Json.Fields) (basis : String) (candidates : List String) : String :=
  ext.toString (.object (Json.insert (Json.insert carrier "basis" (.string basis)) "candidates"
    (Json.strings candidates)))

def resolveIncludeSuffixOrBasename (ext : Externals) (edge : ExtractedEdge) (index : ResolverIndex) :
    Option TargetResolution :=
  index.includeResolver.bind fun includeMap => (objectCarrier ext edge.metadataJson).bind fun carrier =>
    let key := fileKey edge.repoUid
    let bound := fun (path basis : String) (resolution : Resolution) =>
      (index.uidOf (key path)).map fun uid =>
        TargetResolution.includeBound uid resolution (withBasis ext carrier basis [key path])
    match includeMap.matchPathSuffixOrBasename edge.targetKey with
    | .declined | .noMatch => none
    | .uniqueSuffix path => bound path "unique_suffix" .static
    | .uniqueBasename path => bound path "unique_basename" .inferred
    | .ambiguousSuffix paths => some (.includeAmbiguous (withBasis ext carrier "ambiguous_suffix" (paths.map key)))
    | .ambiguousBasename paths =>
      some (.includeAmbiguous (withBasis ext carrier "ambiguous_basename" (paths.map key)))

end Includes

section TypeScript

def specifierCarrier (ext : Externals) (edge : ExtractedEdge) : Option Json.Fields :=
  ((ext.parsed edge.metadataJson).bind Json.asObject).bind fun carrier =>
    if (carrier.lookup "rawPath").bind Json.asStr = some edge.targetKey then some carrier else none

inductive WorkspaceImportMatch
  | bound (sourceEntry : String) (declaredEntries : List String)
  | ambiguous (sourceEntries declaredEntries : List String)
  | notBound
  deriving DecidableEq, Repr

def sourceEntryExtensions : List String := ["ts", "tsx", "mts", "cts", "js", "jsx", "mjs", "cjs"]

def mainCompletions : List String := [".js", ".json", ".node", "/index.js"]

def declaredIndexed (isIndexed : String → Bool) : NpmDeclaredEntry → Bool
  | .main target => isIndexed target || mainCompletions.any fun completion => isIndexed s!"{target}{completion}"
  | .export target => isIndexed target

def matchWorkspacePackageImport (specifier : String) (packages : NpmWorkspacePackages)
    (isIndexed : String → Bool) : WorkspaceImportMatch :=
  if specifier = "" ∨ startsWith specifier "." ∨ startsWith specifier "/" ∨ contains specifier ':' then .notBound
  else
    match packages.lookup specifier with
    | some [member] =>
      if member.declaredEntries.isEmpty then .notBound
      else if member.declaredEntries.any (declaredIndexed isIndexed) then .notBound
      else
        let start := if member.root = "." then "src/index." else s!"{member.root}/src/index."
        let declaredPaths := member.declaredEntries.map (·.path)
        match sortBy compare ((sourceEntryExtensions.map (start ++ ·)).filter isIndexed) with
        | [] => .notBound
        | [entry] => .bound entry declaredPaths
        | entries => .ambiguous entries declaredPaths
    | _ => .notBound

def resolveWorkspacePackageImport (ext : Externals) (edge : ExtractedEdge) (index : ResolverIndex) :
    Option TargetResolution :=
  if index.npmWorkspacePackages.entries.isEmpty then none
  else
    (specifierCarrier ext edge).bind fun carrier =>
      let key := fileKey edge.repoUid
      match matchWorkspacePackageImport edge.targetKey index.npmWorkspacePackages
          (fun path => (index.nodesByStableKey.lookup (key path)).isSome) with
      | .notBound => none
      | .bound entry declared =>
        (index.uidOf (key entry)).map fun uid =>
          .workspaceSourceEntryBound uid
            (withBasis ext carrier "workspace_source_entry" ((entry :: declared).map key))
      | .ambiguous entries declared =>
        some (.workspaceSourceEntryAmbiguous
          (withBasis ext carrier "ambiguous_workspace_source_entry" ((entries ++ declared).map key)))

def isRelativeSpecifier (specifier : String) : Bool :=
  specifier == "." || specifier == ".." || startsWith specifier "./" || startsWith specifier "../" ||
    startsWith specifier "/"

def resolveTsconfigPathsImport (ext : Externals) (edge : ExtractedEdge) (index : ResolverIndex) :
    Option TargetResolution :=
  if index.tsconfigPaths.configByFile.entries.isEmpty then none
  else
    (specifierCarrier ext edge).bind fun carrier =>
      if isRelativeSpecifier edge.targetKey then none
      else
        (index.nodeUidToFileUid.lookup edge.sourceNodeUid).bind fun fileUid =>
          (index.tsconfigPaths.configByFile.lookup fileUid).bind fun config =>
            match tsconfigAliasHits edge.targetKey config index.tsconfigPaths.inventory with
            | .noPatternMatches => none
            | .selectedPattern hits =>
              match hits.toList with
              | [] => none
              | [target] =>
                (index.uidOf target).map fun uid =>
                  .tsconfigPathsBound uid (withBasis ext carrier "tsconfig_paths" [target])
              | many => some (.tsconfigPathsAmbiguous (withBasis ext carrier "ambiguous_tsconfig_paths" many))
            | .tiedPatterns hits =>
              match hits.toList with
              | [] => none
              | many => some (.tsconfigPathsAmbiguous (withBasis ext carrier "tied_tsconfig_paths_patterns" many))

end TypeScript

end RepoGraph.Indexer
