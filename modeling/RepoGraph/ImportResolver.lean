import RepoGraph.Lib.Text
import RepoGraph.Ir

/-! Import resolution over a file inventory: relative specifiers by extension and index rules,
bare specifiers by tsconfig aliases, and the classification of the remaining packages. -/

namespace RepoGraph.ImportResolver

open Lib Lib.Text Ir

inductive PackageImportClass
  | workspaceLocalUnedgeable
  | externalPackageNonLocal
  | packageUnresolved
  deriving DecidableEq, Repr

def nodeBuiltins : List String :=
  ["assert", "buffer", "child_process", "cluster", "console", "crypto", "dgram", "dns", "events", "fs",
    "http", "http2", "https", "net", "os", "path", "perf_hooks", "process", "punycode", "querystring",
    "readline", "stream", "string_decoder", "timers", "tls", "tty", "url", "util", "v8", "vm",
    "worker_threads", "zlib"]

def packageNameOf (specifier : String) : String :=
  match split specifier '/' with
  | [] => specifier
  | first :: rest =>
    if startsWith first "@" then
      match rest with
      | second :: _ => first ++ "/" ++ second
      | [] => first
    else first

def classifyPackageImport (specifier : String) (workspacePackages declaredDependencies : BTreeSet String)
    (externalNodeModules : Bool) : PackageImportClass :=
  if startsWith specifier "node:" then .externalPackageNonLocal
  else
    let pkg := packageNameOf specifier
    if pkg ∈ nodeBuiltins then .externalPackageNonLocal
    else if pkg ∈ workspacePackages then .workspaceLocalUnedgeable
    else if pkg ∈ declaredDependencies ∨ externalNodeModules then .externalPackageNonLocal
    else .packageUnresolved

def fileKeyPath (key : String) : Option String :=
  (stripSuffix key ":FILE").bind fun inner => (splitOnce inner ':').map Prod.snd

abbrev FileInventory := HashMap String String

namespace FileInventory

def addKey (inv : FileInventory) (key : String) : FileInventory :=
  match fileKeyPath key with
  | some path => inv.insert path key
  | none => inv

def fromFileKeys (keys : List String) : FileInventory := keys.foldl addKey ∅

def fileKeyFor (inv : FileInventory) (path : String) : Option String := inv[path]?

end FileInventory

structure ImportCandidate where
  sourceFileKey : String
  rawSpecifier : String
  deriving DecidableEq, Repr

inductive UnresolvedReason
  | notFound
  | ambiguous
  | packageExternal
  | badSourceKey
  deriving DecidableEq, Repr

structure ResolvedImportEdgeCandidate where
  srcFileKey : String
  dstFileKey : String
  basis : EdgeBasis
  rawSpecifier : String
  resolvedRepoPath : String
  deriving DecidableEq, Repr

structure UnresolvedImport where
  candidate : ImportCandidate
  reason : UnresolvedReason
  deriving DecidableEq, Repr

structure ImportResolutionReport where
  resolved : List ResolvedImportEdgeCandidate
  unresolved : List UnresolvedImport
  deriving DecidableEq, Repr

def assetExtensions : List String :=
  ["css", "scss", "sass", "less", "styl",
    "svg", "png", "jpg", "jpeg", "gif", "webp", "avif", "ico", "bmp",
    "woff", "woff2", "ttf", "eot", "otf"]

def sourceExtensions : List String := [".ts", ".tsx", ".mts", ".cts"]

def isAssetSpecifier (specifier : String) : Bool :=
  let lastSegment := ((rsplitOnce specifier '/').map Prod.snd).getD specifier
  match rsplitOnce lastSegment '.' with
  | some (_, ext) => ext ∈ assetExtensions
  | none => false

def baseEndsWithSourceExtension (base : String) : Bool := sourceExtensions.any (endsWith base)

def sourceSubstitutions (base : String) : List String :=
  match stripSuffix base ".js" with
  | some stem => [stem ++ ".ts", stem ++ ".tsx"]
  | none =>
    match stripSuffix base ".jsx" with
    | some stem => [stem ++ ".tsx"]
    | none =>
      match stripSuffix base ".mjs" with
      | some stem => [stem ++ ".mts"]
      | none =>
        match stripSuffix base ".cjs" with
        | some stem => [stem ++ ".cts"]
        | none => []

def candidatePaths (base : String) : List String :=
  [base ++ ".ts", base ++ ".tsx", base ++ ".d.ts", base ++ ".mts", base ++ ".cts", base ++ "/index.ts",
    base ++ "/index.tsx"] ++ sourceSubstitutions base

def pushSegment (parts : List String) (seg : String) : List String :=
  if seg = "" ∨ seg = "." then parts
  else if seg = ".." then parts.dropLast
  else parts ++ [seg]

def normalizeJoin (dir spec : String) : String :=
  let parts := if dir = "" then [] else split dir '/'
  join "/" ((split spec '/').foldl pushSegment parts)

def dirname (path : String) : String := ((rsplitOnce path '/').map Prod.fst).getD ""

def uniqueMatch (inv : FileInventory) (paths : List String) : Except UnresolvedReason (String × String) :=
  match paths.filterMap (fun path => (inv.fileKeyFor path).map (fun key => (path, key))) with
  | [] => .error .notFound
  | [hit] => .ok hit
  | _ => .error .ambiguous

def resolveTarget (inv : FileInventory) (cand : ImportCandidate) :
    Except UnresolvedReason (String × String) :=
  if !startsWith cand.rawSpecifier "." then .error .packageExternal
  else
    match fileKeyPath cand.sourceFileKey with
    | none => .error .badSourceKey
    | some srcPath =>
      let base := normalizeJoin (dirname srcPath) cand.rawSpecifier
      match (if baseEndsWithSourceExtension base then inv.fileKeyFor base else none) with
      | some key => .ok (base, key)
      | none => uniqueMatch inv (candidatePaths base)

def resolveImport (inv : FileInventory) (report : ImportResolutionReport) (cand : ImportCandidate) :
    ImportResolutionReport :=
  match resolveTarget inv cand with
  | .ok (path, key) =>
    { report with resolved := report.resolved ++
      [⟨cand.sourceFileKey, key, .astImportFileInventoryResolved, cand.rawSpecifier, path⟩] }
  | .error reason => { report with unresolved := report.unresolved ++ [⟨cand, reason⟩] }

def resolveImports (inv : FileInventory) (candidates : List ImportCandidate) : ImportResolutionReport :=
  candidates.foldl (resolveImport inv) ⟨[], []⟩

inductive AliasResolution
  | notAnAlias
  | resolved (key : String)
  | unresolved
  | ambiguous
  deriving DecidableEq, Repr

def matchAliasPattern (pattern specifier : String) : Option String :=
  match splitOnce pattern '*' with
  | some (before, after) =>
    if before.length + after.length ≤ specifier.length ∧ startsWith specifier before ∧
        endsWith specifier after then
      some (.ofList ((specifier.toList.drop before.length).take
        (specifier.length - before.length - after.length)))
    else none
  | none => if pattern = specifier then some "" else none

def specifierMatchesAnyAlias (config : TsconfigAliasConfig) (specifier : String) : Bool :=
  config.paths.keys.any fun pattern => (matchAliasPattern pattern specifier).isSome

def substitutionHits (inv : FileInventory) (effectiveBase capture target : String) : List String :=
  (candidatePaths (normalizeJoin effectiveBase (replaceFirst target '*' capture))).filterMap inv.fileKeyFor

def resolveTsconfigAlias (specifier : String) (config : TsconfigAliasConfig) (inv : FileInventory) :
    AliasResolution :=
  let effectiveBase := normalizeJoin config.partitionPrefix config.baseUrl
  let matching := config.paths.toList.filterMap fun entry =>
    (matchAliasPattern entry.1 specifier).map fun capture => (capture, entry.2)
  if matching.isEmpty then .notAnAlias
  else
    let hits : BTreeSet String := .ofList (matching.flatMap fun m =>
      m.2.flatMap (substitutionHits inv effectiveBase m.1))
    match hits.toList with
    | [] => .unresolved
    | [key] => .resolved key
    | _ => .ambiguous

def exactSubstitutionExtensions : List String :=
  [".ts", ".tsx", ".d.ts", ".mts", ".cts", ".js", ".jsx", ".mjs", ".cjs", ".json"]

inductive TsconfigAliasHits
  | noPatternMatches
  | selectedPattern (hits : BTreeSet String)
  | tiedPatterns (hits : BTreeSet String)

def pushWithin (parts : Option (List String)) (seg : String) : Option (List String) :=
  parts.bind fun parts =>
    if seg = "" ∨ seg = "." then some parts
    else if seg = ".." then if parts = [] then none else some parts.dropLast
    else some (parts ++ [seg])

def joinWithinRepository (dir spec : String) : Option String :=
  if startsWith spec "/" then none
  else
    let parts := (split dir '/').filter (· ≠ "")
    ((split spec '/').foldl pushWithin (some parts)).map (join "/")

def decidingCandidates (inv : FileInventory) (effectiveBase capture target : String) : List String :=
  match joinWithinRepository effectiveBase (replaceFirst target '*' capture) with
  | none => []
  | some base =>
    let exact := if exactSubstitutionExtensions.any (endsWith base) then [base] else []
    (exact ++ candidatePaths base).filterMap inv.fileKeyFor

def decidingSubstitutionHits (inv : FileInventory) (effectiveBase : Option String) (targets : List String)
    (capture : String) : BTreeSet String :=
  match effectiveBase with
  | none => ∅
  | some effectiveBase =>
    match (targets.map (decidingCandidates inv effectiveBase capture)).find? (· ≠ []) with
    | some hits => .ofList hits
    | none => ∅

def tsconfigAliasHits (specifier : String) (config : TsconfigAliasConfig) (inv : FileInventory) :
    TsconfigAliasHits :=
  let effectiveBase := joinWithinRepository config.partitionPrefix config.baseUrl
  match config.paths.toList.find? fun entry => !contains entry.1 '*' && entry.1 == specifier with
  | some (_, targets) => .selectedPattern (decidingSubstitutionHits inv effectiveBase targets "")
  | none =>
    let matching := config.paths.toList.filterMap fun (pattern, targets) =>
      (splitOnce pattern '*').bind fun (before, _) =>
        (matchAliasPattern pattern specifier).map fun capture => (before.utf8ByteSize, targets, capture)
    match (matching.map (·.1)).max? with
    | none => .noPatternMatches
    | some longest =>
      match matching.filter (·.1 = longest) with
      | [(_, targets, capture)] => .selectedPattern (decidingSubstitutionHits inv effectiveBase targets capture)
      | tied => .tiedPatterns (.ofList (tied.flatMap fun (_, targets, capture) =>
          (decidingSubstitutionHits inv effectiveBase targets capture).toList))

end RepoGraph.ImportResolver
