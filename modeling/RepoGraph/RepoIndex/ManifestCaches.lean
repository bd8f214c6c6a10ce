import RepoGraph.Indexer.SettingsGradle
import RepoGraph.Indexer.Types
import RepoGraph.Lib.Memo

/-! The manifests of a repository: a file has the nearest one above it, and what is read of a directory is kept
for the files that come after. -/

namespace RepoGraph.RepoIndex

open Lib Lib.Text Indexer

section Files

abbrev Path := List String

inductive FileRead
  | ok (content : String)
  | notFound
  | error (message : String)
  deriving DecidableEq, Repr

structure FileTree where
  readToString : Path → FileRead
  canonicalize : Path → Option Path

def components (path : String) : Path := (split path '/').filter fun name => name ≠ "" && name ≠ "."

/-- `Path::join`: an absolute path replaces the base. -/
def joinPath (base : Path) (path : String) : Path :=
  if startsWith path "/" then components path else base ++ components path

def withJsonExtension (path : Path) : Path :=
  match path.getLast? with
  | none | some ".." => path
  | some name =>
    match rsplitOnce name '.' with
    | some (stem, _) =>
      if stem = "" then path.dropLast ++ [name ++ ".json"] else path.dropLast ++ [stem ++ ".json"]
    | none => path.dropLast ++ [name ++ ".json"]

def parentDir (relPath : String) : String := ((rsplitOnce relPath '/').map Prod.fst).getD ""

end Files

section Extraction

variable (ext : Externals)

structure PackageDependencySet where
  names : List String
  deriving DecidableEq, Repr

def sortedNames (names : List String) : List String := (Std.ExtTreeSet.ofList names compare).toList

def extractPackageDependencies (content : String) : Option PackageDependencySet := do
  let obj ← (← ext.fromStr content).asObject
  let names := ["dependencies", "devDependencies", "peerDependencies", "optionalDependencies"].flatMap fun field =>
    (((obj.lookup field).bind Json.asObject).getD []).map Prod.fst
  some ⟨sortedNames names⟩

def dependencySections : List String := ["dependencies", "dev-dependencies", "build-dependencies"]

def readCargoLine (st : List String × String) (line : String) : List String × String :=
  let line := trim line
  if startsWith line "[" && endsWith line "]" then
    let currentSection := String.ofList (line.toList.drop 1).dropLast
    (st.1 ++ dependencySections.filterMap fun name =>
      (stripPrefix currentSection (name ++ ".")).map (replaceAll · '-' '_'), currentSection)
  else if !dependencySections.any (fun name => st.2 = name || startsWith st.2 (name ++ ".")) then st
  else if contains st.2 '.' then st
  else
    match splitOnce line '=' with
    | none => st
    | some (key, _) =>
      let key := trim key
      if key = "" || contains key ' ' || contains key '[' then st else (st.1 ++ [replaceAll key '-' '_'], st.2)

def extractCargoDependencies (content : String) : Option PackageDependencySet :=
  let names := ((lines content).foldl readCargoLine ([], "")).1
  if names = [] then none else some ⟨sortedNames names⟩

inductive JsonScan
  | plain
  | inString (escapeNext : Bool)
  | slash
  | lineComment
  | blockComment (prev : Char)

/-- The text without comments; a slash is held back until the character behind it is seen. -/
def stripJsonCommentsFrom : JsonScan → List Char → List Char
  | .slash, [] => ['/']
  | _, [] => []
  | .plain, c :: cs =>
    if c = '"' then c :: stripJsonCommentsFrom (.inString false) cs
    else if c = '/' then stripJsonCommentsFrom .slash cs
    else c :: stripJsonCommentsFrom .plain cs
  | .inString true, c :: cs => c :: stripJsonCommentsFrom (.inString false) cs
  | .inString false, c :: cs =>
    if c = '\\' then c :: stripJsonCommentsFrom (.inString true) cs
    else if c = '"' then c :: stripJsonCommentsFrom .plain cs
    else c :: stripJsonCommentsFrom (.inString false) cs
  | .slash, c :: cs =>
    if c = '/' then stripJsonCommentsFrom .lineComment cs
    else if c = '*' then stripJsonCommentsFrom (.blockComment ' ') cs
    else if c = '"' then '/' :: c :: stripJsonCommentsFrom (.inString false) cs
    else '/' :: c :: stripJsonCommentsFrom .plain cs
  | .lineComment, c :: cs =>
    if c = '\n' then c :: stripJsonCommentsFrom .plain cs else stripJsonCommentsFrom .lineComment cs
  | .blockComment prev, c :: cs =>
    if prev = '*' && c = '/' then stripJsonCommentsFrom .plain cs else stripJsonCommentsFrom (.blockComment c) cs

def stripJsonComments (source : String) : String := .ofList (stripJsonCommentsFrom .plain source.toList)

structure TsconfigAliasEntry where
  pattern : String
  substitutions : List String
  deriving DecidableEq, Repr

structure TsconfigAliases where
  entries : List TsconfigAliasEntry
  deriving DecidableEq, Repr

def maxExtendsDepth : ℕ := 10

/-- The paths of a config, or of the nearest one it extends; the configs at the end of a chain may be missing. -/
def readTsconfigChain (tree : FileTree) : ℕ → List Path → Path → Option TsconfigAliases
  | 0, _, _ => some ⟨[]⟩
  | depth + 1, visited, current =>
    let canonical := (tree.canonicalize current).getD current
    if canonical ∈ visited then some ⟨[]⟩
    else
      let unreadable := if visited = [] then none else some ⟨[]⟩
      match tree.readToString current with
      | .notFound | .error _ => unreadable
      | .ok raw =>
        match ext.fromStr (stripJsonComments raw) with
        | none => unreadable
        | some parsed =>
          match ((parsed.get "compilerOptions").bind (·.get "paths")).bind Json.asObject with
          | some paths =>
            some ⟨paths.map fun (pattern, subs) => ⟨pattern, (subs.asArray.getD []).filterMap Json.asStr⟩⟩
          | none =>
            match (parsed.get "extends").bind Json.asStr with
            | none => some ⟨[]⟩
            | some «extends» =>
              if !startsWith «extends» "." && !startsWith «extends» "/" then some ⟨[]⟩
              else
                readTsconfigChain tree depth (canonical :: visited)
                  (withJsonExtension (joinPath current.dropLast «extends»))

def readTsconfigAliasesFromPath (tree : FileTree) (path : Path) : Option TsconfigAliases :=
  readTsconfigChain ext tree maxExtendsDepth [] path

end Extraction

section Context

structure ManifestRecord where
  path : String
  dir : String
  ecosystem : String
  error : Option String
  deriving DecidableEq, Repr

/-- One record for each path; a failure takes the place of an earlier success. -/
def recordManifest (records : List ManifestRecord) (record : ManifestRecord) : List ManifestRecord :=
  if records.any (·.path = record.path) then
    records.map fun r => if r.path = record.path && r.error.isNone then { r with error := record.error } else r
  else records ++ [record]

inductive Provenance
  | unrecorded
  | parsed
  | failed (reason : String)

structure ManifestReader (ρ : Type) where
  fileName : String
  ecosystem : String
  empty : ρ
  content : Path → String → ρ × Provenance
  unreadable : String → Provenance

structure RepoConfigContext where
  pkgCache : HashMap String PackageDependencySet
  tsconfigCache : HashMap String TsconfigAliases
  cargoCache : HashMap String PackageDependencySet
  manifestProvenance : List ManifestRecord

def RepoConfigContext.new : RepoConfigContext := ⟨∅, ∅, ∅, []⟩

namespace ManifestReader

variable {ρ : Type} (reader : ManifestReader ρ) (tree : FileTree) (repoRoot : Path)

/-- The manifest of one directory; any failure but the absence of the file is a manifest that says nothing. -/
def inDir (probe : String) : Option (ρ × Provenance) :=
  let path := joinPath repoRoot probe ++ [reader.fileName]
  match tree.readToString path with
  | .ok content => some (reader.content path content)
  | .notFound => none
  | .error message => some (reader.empty, reader.unreadable message)

def record (probe : String) (provenance : Provenance) (records : List ManifestRecord) : List ManifestRecord :=
  let path := if probe = "" then reader.fileName else probe ++ "/" ++ reader.fileName
  match provenance with
  | .unrecorded => records
  | .parsed => recordManifest records ⟨path, probe, reader.ecosystem, none⟩
  | .failed reason => recordManifest records ⟨path, probe, reader.ecosystem, some reason⟩

end ManifestReader

lemma parentDir_length_lt {probe : String} (h : probe ≠ "") : (parentDir probe).length < probe.length := by
  rw [parentDir]
  cases hsplit : rsplitOnce probe '/' with
  | none => simpa [Nat.pos_iff_ne_zero] using h
  | some split =>
    obtain ⟨heq, -⟩ := rsplitOnce_eq_some.mp hsplit
    have hslash : (String.singleton '/').length = 1 := rfl
    have hlength := congrArg String.length heq
    rw [String.length_append, String.length_append, hslash] at hlength
    rw [Option.map_some, Option.getD_some]
    omega

namespace ManifestReader

variable {ρ : Type} (reader : ManifestReader ρ) (tree : FileTree) (repoRoot : Path)

/-- The walk from a directory to the root, which stops at a directory with a kept answer or a manifest. -/
def resolveFrom (dir probe : String) (st : HashMap String ρ × List ManifestRecord) :
    ρ × HashMap String ρ × List ManifestRecord :=
  match st.1[probe]? with
  | some cached => (cached, st.1.insert dir cached, st.2)
  | none =>
    match reader.inDir tree repoRoot probe with
    | some (found, provenance) =>
      (found, (st.1.insert probe found).insert dir found, reader.record probe provenance st.2)
    | none =>
      if _h : probe = "" then (reader.empty, st.1.insert dir reader.empty, st.2)
      else resolveFrom dir (parentDir probe) st
termination_by probe.length
decreasing_by exact parentDir_length_lt ‹_›

def nearest (probe : String) : ρ :=
  match reader.inDir tree repoRoot probe with
  | some (found, _) => found
  | none => if _h : probe = "" then reader.empty else nearest (parentDir probe)
termination_by probe.length
decreasing_by exact parentDir_length_lt ‹_›

end ManifestReader

variable (ext : Externals) (tree : FileTree) (repoRoot : Path)

def packageReader : ManifestReader PackageDependencySet where
  fileName := "package.json"
  ecosystem := "npm"
  empty := ⟨[]⟩
  content _ content :=
    match extractPackageDependencies ext content with
    | some deps => (deps, .parsed)
    | none => (⟨[]⟩, .failed "malformed: not a valid JSON object")
  unreadable message := .failed ("unreadable: " ++ message)

def tsconfigReader : ManifestReader TsconfigAliases where
  fileName := "tsconfig.json"
  ecosystem := ""
  empty := ⟨[]⟩
  content path _ := ((readTsconfigAliasesFromPath ext tree path).getD ⟨[]⟩, .unrecorded)
  unreadable _ := .unrecorded

def cargoReader : ManifestReader PackageDependencySet where
  fileName := "Cargo.toml"
  ecosystem := "cargo"
  empty := ⟨[]⟩
  content _ content := ((extractCargoDependencies content).getD ⟨[]⟩, .parsed)
  unreadable message := .failed ("unreadable: " ++ message)

namespace RepoConfigContext

def resolvePackageDeps (ctx : RepoConfigContext)
    (fileRelPath : String) : PackageDependencySet × RepoConfigContext :=
  let dir := parentDir fileRelPath
  let (deps, pkgCache, manifestProvenance) :=
    (packageReader ext).resolveFrom tree repoRoot dir dir (ctx.pkgCache, ctx.manifestProvenance)
  (deps, { ctx with pkgCache, manifestProvenance })

def resolveNearestTsconfigEntries (ctx : RepoConfigContext) (fileRelPath : String) :
    TsconfigAliases × RepoConfigContext :=
  let dir := parentDir fileRelPath
  let (aliases, tsconfigCache, manifestProvenance) :=
    (tsconfigReader ext tree).resolveFrom tree repoRoot dir dir (ctx.tsconfigCache, ctx.manifestProvenance)
  (aliases, { ctx with tsconfigCache, manifestProvenance })

def resolveCargoDeps (ctx : RepoConfigContext) (fileRelPath : String) : PackageDependencySet × RepoConfigContext :=
  let dir := parentDir fileRelPath
  let (deps, cargoCache, manifestProvenance) :=
    cargoReader.resolveFrom tree repoRoot dir dir (ctx.cargoCache, ctx.manifestProvenance)
  (deps, { ctx with cargoCache, manifestProvenance })

end RepoConfigContext

inductive ConfigQuery
  | packageDeps (fileRelPath : String)
  | tsconfigEntries (fileRelPath : String)
  | cargoDeps (fileRelPath : String)
  deriving DecidableEq, Repr

inductive ConfigAnswer
  | deps (set : PackageDependencySet)
  | aliases (aliases : TsconfigAliases)
  deriving DecidableEq, Repr

def RepoConfigContext.resolve (ctx : RepoConfigContext) : ConfigQuery → ConfigAnswer × RepoConfigContext
  | .packageDeps file => (ctx.resolvePackageDeps ext tree repoRoot file).map .deps id
  | .tsconfigEntries file => (ctx.resolveNearestTsconfigEntries ext tree repoRoot file).map .aliases id
  | .cargoDeps file => (ctx.resolveCargoDeps tree repoRoot file).map .deps id

def ConfigQuery.uncached : ConfigQuery → ConfigAnswer
  | .packageDeps file => .deps ((packageReader ext).nearest tree repoRoot (parentDir file))
  | .tsconfigEntries file => .aliases ((tsconfigReader ext tree).nearest tree repoRoot (parentDir file))
  | .cargoDeps file => .deps (cargoReader.nearest tree repoRoot (parentDir file))

end Context

section Transparency

variable {ext : Externals} {tree : FileTree} {repoRoot : Path}

lemma resolveFrom_spec {ρ : Type} (reader : ManifestReader ρ) (dir : String) {probe : String}
    (st : HashMap String ρ × List ManifestRecord) (hvalid : Memo.Valid (reader.nearest tree repoRoot) st.1)
    (hsame : reader.nearest tree repoRoot probe = reader.nearest tree repoRoot dir) :
    (reader.resolveFrom tree repoRoot dir probe st).1 = reader.nearest tree repoRoot dir ∧
      Memo.Valid (reader.nearest tree repoRoot) (reader.resolveFrom tree repoRoot dir probe st).2.1 := by
  fun_induction reader.resolveFrom tree repoRoot dir probe st with
  | case1 probe cached hcached =>
    have hanswer := (hvalid probe cached hcached).trans hsame
    exact ⟨hanswer, hvalid.insert hanswer⟩
  | case2 probe hmiss found provenance hfound =>
    have hprobe : found = reader.nearest tree repoRoot probe := by
      rw [ManifestReader.nearest, hfound]
    have hanswer := hprobe.trans hsame
    exact ⟨hanswer, (hvalid.insert hprobe).insert hanswer⟩
  | case3 hmiss hfound =>
    have hanswer : reader.empty = reader.nearest tree repoRoot dir := by
      rw [← hsame, ManifestReader.nearest, hfound]
      rfl
    exact ⟨hanswer, hvalid.insert hanswer⟩
  | case4 probe hmiss hfound hprobe ih =>
    apply ih
    rw [← hsame]
    conv_rhs => rw [ManifestReader.nearest, hfound]
    simp [hprobe]

structure RepoConfigContext.Valid (ext : Externals) (tree : FileTree) (repoRoot : Path) (ctx : RepoConfigContext) :
    Prop where
  pkg : Memo.Valid ((packageReader ext).nearest tree repoRoot) ctx.pkgCache
  tsconfig : Memo.Valid ((tsconfigReader ext tree).nearest tree repoRoot) ctx.tsconfigCache
  cargo : Memo.Valid (cargoReader.nearest tree repoRoot) ctx.cargoCache

lemma RepoConfigContext.valid_new : (new).Valid ext tree repoRoot :=
  ⟨Memo.valid_empty _, Memo.valid_empty _, Memo.valid_empty _⟩

lemma RepoConfigContext.resolve_spec {ctx : RepoConfigContext} (q : ConfigQuery)
    (h : ctx.Valid ext tree repoRoot) :
    (ctx.resolve ext tree repoRoot q).1 = q.uncached ext tree repoRoot ∧
      (ctx.resolve ext tree repoRoot q).2.Valid ext tree repoRoot := by
  cases q with
  | packageDeps file =>
    have hwalk := resolveFrom_spec (packageReader ext) (parentDir file) (_, ctx.manifestProvenance) h.pkg rfl
    exact ⟨congrArg _ hwalk.1, hwalk.2, h.tsconfig, h.cargo⟩
  | tsconfigEntries file =>
    have hwalk := resolveFrom_spec (tsconfigReader ext tree) (parentDir file)
      (_, ctx.manifestProvenance) h.tsconfig rfl
    exact ⟨congrArg _ hwalk.1, h.pkg, hwalk.2, h.cargo⟩
  | cargoDeps file =>
    have hwalk := resolveFrom_spec cargoReader (parentDir file) (_, ctx.manifestProvenance) h.cargo rfl
    exact ⟨congrArg _ hwalk.1, h.pkg, h.tsconfig, hwalk.2⟩

/-- Whatever files are asked for before, and in whatever order, a file has its nearest manifest. -/
theorem nearest_manifest_caches (ext : Externals) (tree : FileTree) (repoRoot : Path)
    (queries : List ConfigQuery) :
    answers (fun ctx q => ctx.resolve ext tree repoRoot q) RepoConfigContext.new queries =
      queries.map (ConfigQuery.uncached ext tree repoRoot) :=
  answers_eq_map (fun _ q h => RepoConfigContext.resolve_spec q h) RepoConfigContext.valid_new queries

end Transparency

end RepoGraph.RepoIndex
