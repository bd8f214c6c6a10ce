import RepoGraph.Indexer.IncludeResolver
import RepoGraph.Lib.TextLaws
import RepoGraph.Lib.IterMap

/-! Modules inferred from the directories of a repository without manifests. The parameter `lower` is the
lower case of a text. -/

namespace RepoGraph.Indexer

open Lib Lib.Text

inductive ExclusionReason
  | vendorDependency
  | buildOutput
  | generatedCode
  | documentation
  | examplesOrSamples
  | benchmarkOnly
  deriving DecidableEq, Repr

structure ExcludedDirectory where
  directoryPath : String
  reason : ExclusionReason
  sourceFileCount : ℕ
  deriving DecidableEq, Repr

structure InferredModule where
  directoryPath : String
  displayName : String
  sourceFileCount : ℕ
  testFileCount : ℕ
  isFallbackRoot : Bool
  buildFilesPresent : List String
  dominantLanguage : Option String
  deriving DecidableEq, Repr

structure InferredModuleResult where
  modules : List InferredModule := []
  excludedDirectories : List ExcludedDirectory := []
  deriving DecidableEq, Repr

def umbrellaPrefixes : List String := ["src", "packages", "services", "apps", "libs", "modules"]

def umbrellaMinChildren : ℕ := 2

def umbrellaMinFilesPerChild : ℕ := 5

def umbrellaMaxParentDirectFiles : ℕ := 5

section Paths

variable (lower : String → String)

def isUmbrellaCandidate (dirName : String) : Bool := umbrellaPrefixes.contains (lower dirName)

def isBuildFile (filename : String) : Bool :=
  ["CMakeLists.txt", "Makefile", "GNUmakefile", "makefile", "meson.build", "BUILD",
    "BUILD.bazel", "Kbuild"].contains filename

def extensionToLanguage (ext : String) : Option String :=
  if ext ∈ ["c", "h"] then some "c"
  else if ext ∈ ["cpp", "hpp", "cc", "hh", "cxx", "hxx"] then some "cpp"
  else if ext = "java" then some "java"
  else if ext = "kt" then some "kotlin"
  else if ext = "scala" then some "scala"
  else if ext = "py" then some "python"
  else if ext = "rs" then some "rust"
  else if ext = "go" then some "go"
  else if ext ∈ ["js", "jsx", "mjs", "cjs"] then some "javascript"
  else if ext ∈ ["ts", "tsx"] then some "typescript"
  else if ext = "rb" then some "ruby"
  else if ext = "swift" then some "swift"
  else if ext = "m" then some "objective-c"
  else if ext = "mm" then some "objective-cpp"
  else none

def getTopLevelDirectory (path : String) : Option String :=
  match split path '/' with
  | dir :: _ :: _ => some dir
  | _ => none

def pathExtension (path : String) : String := ((rsplitOnce path '.').map Prod.snd).getD path

def isSourceFile (path : String) : Bool :=
  ["c", "h", "cpp", "hpp", "cc", "hh", "cxx", "hxx", "java", "kt", "scala", "py", "rs", "go", "js", "jsx", "ts",
    "tsx", "mjs", "cjs", "rb", "swift", "m", "mm"].contains (pathExtension path)

def isTestPath (path : String) : Bool :=
  let pathLower := lower path
  let filenameLower := lower (basename path)
  ["/test/", "/tests/", "/testing/", "/__tests__/", "/spec/", "/specs/"].any (containsStr pathLower) ||
    ["test/", "tests/"].any (startsWith pathLower) || startsWith filenameLower "test_" ||
    ["_test.c", "_test.cpp", "_test.cc", "_test.java", "_test.py", "_test.rs", "_test.go", ".test.js", ".test.ts",
      ".spec.js", ".spec.ts"].any (endsWith filenameLower)

def shouldExcludeDirectory (dirName : String) : Option ExclusionReason :=
  let dirLower := lower dirName
  if dirLower ∈ ["vendor", "vendors", "third_party", "third-party", "thirdparty",
      "node_modules", "bower_components",
      "jspm_packages", "external", "externals", "deps", "dependencies"] then some .vendorDependency
  else if dirLower ∈ ["dist", "build", "builds", "out", "output", "target", "bin", "obj", "_build",
      "cmake-build-debug", "cmake-build-release"] then some .buildOutput
  else if dirLower ∈ ["generated", "gen", "codegen", "auto", "autogen", "__generated__"] then some .generatedCode
  else if dirLower ∈ ["docs", "doc", "documentation", "man", "manpages", "javadoc", "apidoc", "apidocs"] then
    some .documentation
  else if dirLower ∈ ["examples", "example", "samples", "sample", "demo", "demos", "tutorials", "tutorial"] then
    some .examplesOrSamples
  else if dirLower ∈ ["benchmark", "benchmarks", "bench", "benches", "perf",
    "performance"] then some .benchmarkOnly
  else none

end Paths

structure DirectoryStats where
  sourceFileCount : ℕ := 0
  testFileCount : ℕ := 0
  buildFiles : List String := []
  languageCounts : IterMap String ℕ := ∅

instance : Inhabited DirectoryStats := ⟨{}⟩

/-- The orders in which the tables that are iterated are left by an insertion. -/
structure TableOrders where
  dirs : BucketOrder String DirectoryStats
  languages : BucketOrder String ℕ

structure DescentFile where
  rel : String
  isTest : Bool
  language : Option String
  deriving DecidableEq, Repr

namespace DirectoryStats

variable (o : TableOrders) (s : DirectoryStats)

def addBuildFile (filename : String) : DirectoryStats :=
  if s.buildFiles.contains filename then s else { s with buildFiles := s.buildFiles ++ [filename] }

def addFile (isTest : Bool) (language : Option String) : DirectoryStats :=
  if isTest then { s with testFileCount := s.testFileCount + 1 }
  else
    { s with
      sourceFileCount := s.sourceFileCount + 1
      languageCounts :=
        match language with
        | some lang => s.languageCounts.entryOrDefault o.languages lang (· + 1)
        | none => s.languageCounts }

end DirectoryStats

/-- The language of the greatest count, none on a tie. -/
def computeDominantLanguage (counts : IterMap String ℕ) : Option String :=
  let maxCount := ((counts.entries.map Sigma.snd).max?).getD 0
  if maxCount = 0 then none
  else
    match counts.entries.filter (·.2 = maxCount) with
    | [top] => some top.1
    | _ => none

def DirectoryStats.toModule (s : DirectoryStats) (directoryPath displayName : String) (isFallbackRoot : Bool) :
    InferredModule where
  directoryPath := directoryPath
  displayName := displayName
  sourceFileCount := s.sourceFileCount
  testFileCount := s.testFileCount
  isFallbackRoot := isFallbackRoot
  buildFilesPresent := sortBy compare s.buildFiles
  dominantLanguage := computeDominantLanguage s.languageCounts

structure Scan where
  dirStats : IterMap String DirectoryStats := ∅
  rootStats : DirectoryStats := {}
  umbrellaChildren : IterMap String DirectoryStats := ∅
  umbrellaDirectCounts : HashMap String ℕ := ∅
  umbrellaFiles : HashMap String (List DescentFile) := ∅

section Scanning

variable (o : TableOrders) (lower : String → String)

def Scan.noteBuildFile (s : Scan) (path : String) : Scan :=
  let filename := basename path
  let parts := split path '/'
  if isBuildFile filename then
    match getTopLevelDirectory path with
    | some dir =>
      let s := if parts.length = 2 then
          { s with dirStats := s.dirStats.entryOrDefault o.dirs dir (·.addBuildFile filename) }
        else s
      if parts.length = 3 ∧ isUmbrellaCandidate lower dir then
        let childPath := join "/" (parts.take 2)
        { s with umbrellaChildren := s.umbrellaChildren.entryOrDefault o.dirs childPath (·.addBuildFile filename) }
      else s
    | none => { s with rootStats := s.rootStats.addBuildFile filename }
  else s

def Scan.noteUmbrellaFile (s : Scan) (dir : String) (parts : List String) (isTest : Bool)
    (language : Option String) :
    Scan :=
  let file : DescentFile := { rel := join "/" parts.tail, isTest, language }
  let s := { s with umbrellaFiles := s.umbrellaFiles.insert dir (s.umbrellaFiles.getD dir [] ++ [file]) }
  if parts.length = 2 then
    if isTest then s
    else
      { s with
        umbrellaDirectCounts := s.umbrellaDirectCounts.insert dir (s.umbrellaDirectCounts.getD dir 0 + 1) }
  else
    let childPath := join "/" (parts.take 2)
    { s with umbrellaChildren := s.umbrellaChildren.entryOrDefault o.dirs childPath (·.addFile o isTest language) }

def Scan.noteSourceFile (s : Scan) (path : String) : Scan :=
  if isSourceFile path then
    let isTest := isTestPath lower path
    let language := extensionToLanguage (pathExtension path)
    match getTopLevelDirectory path with
    | some dir =>
      let s := { s with dirStats := s.dirStats.entryOrDefault o.dirs dir (·.addFile o isTest language) }
      if isUmbrellaCandidate lower dir then s.noteUmbrellaFile o dir (split path '/') isTest language else s
    | none => { s with rootStats := s.rootStats.addFile o isTest language }
  else s

def Scan.add (s : Scan) (path : String) : Scan := (s.noteBuildFile o lower path).noteSourceFile o lower path

def scanFiles (filePaths : List String) : Scan := filePaths.foldl (Scan.add o lower) {}

end Scanning

section Descent

variable (o : TableOrders)

structure DescentLevel where
  children : BTreeMap String DirectoryStats := ∅
  directSource : ℕ := 0

def DescentLevel.add (relPrefix : List String) (level : DescentLevel) (f : DescentFile) : DescentLevel :=
  let dirSegs := (split f.rel '/').dropLast
  if dirSegs.length < relPrefix.length then level
  else if !(relPrefix.zip dirSegs).all (fun e => e.1 == e.2) then level
  else
    match dirSegs.drop relPrefix.length with
    | [] => if f.isTest then level else { level with directSource := level.directSource + 1 }
    | child :: _ =>
      let stats := level.children.getD child default
      { level with children := level.children.insert child (stats.addFile o f.isTest f.language) }

def descentLevel (relPrefix : List String) (files : List DescentFile) : DescentLevel :=
  files.foldl (DescentLevel.add o relPrefix) {}

def descendUmbrellaChain (top : String) (files : List DescentFile) :
    ℕ → List String → Option (Option (List InferredModule))
  | 0, _ => none
  | rounds + 1, relPrefix =>
    let level := descentLevel o relPrefix files
    match level.children.toList.filter (0 < ·.2.sourceFileCount) with
    | [] => some none
    | [only] => descendUmbrellaChain top files rounds (relPrefix ++ [only.1])
    | _ =>
      let qualifying := level.children.toList.filter (umbrellaMinFilesPerChild ≤ ·.2.sourceFileCount)
      if qualifying.length < umbrellaMinChildren ∨ umbrellaMaxParentDirectFiles < level.directSource then some none
      else
        let inside := join "/" relPrefix
        let base := if relPrefix = [] then top else s!"{top}/{inside}"
        some (some (qualifying.map fun e =>
          { e.2.toModule s!"{base}/{e.1}" e.1 false with buildFilesPresent := [] }))

end Descent

section Detection

variable (o : TableOrders) (lower : String → String)

def qualifyingChildren (scan : Scan) (dir : String) : List (Σ _ : String, DirectoryStats) :=
  sortBy (fun a b => compare a.1 b.1) (scan.umbrellaChildren.entries.filter fun e =>
    startsWith e.1 s!"{dir}/" && umbrellaMinFilesPerChild ≤ e.2.sourceFileCount)

def modulesOfSourceDir (rounds : ℕ) (scan : Scan) (dir : String) : Option (List InferredModule) :=
  let whole := [((scan.dirStats.lookup dir).getD default).toModule dir dir false]
  if isUmbrellaCandidate lower dir then
    let qualifying := qualifyingChildren scan dir
    if scan.umbrellaDirectCounts.getD dir 0 ≤ umbrellaMaxParentDirectFiles ∧
        umbrellaMinChildren ≤ qualifying.length then
      some (qualifying.map fun e => e.2.toModule e.1 (basename e.1) false)
    else
      match scan.umbrellaFiles[dir]? with
      | some files => (descendUmbrellaChain o dir files rounds []).map (·.getD whole)
      | none => some whole
  else some whole

def excludedDirectory (dir : String) (stats : DirectoryStats) : Option ExcludedDirectory :=
  let total := stats.sourceFileCount + stats.testFileCount
  if total = 0 then none
  else (shouldExcludeDirectory lower dir).map fun reason =>
    { directoryPath := dir, reason, sourceFileCount := total }

def detectInferredModules (rounds : ℕ) (filePaths : List String) (repoDisplayName : String) :
    Option InferredModuleResult :=
  let scan := scanFiles o lower filePaths
  let excludedDirectories := scan.dirStats.entries.filterMap fun e => excludedDirectory lower e.1 e.2
  let included := scan.dirStats.entries.filter fun e => (shouldExcludeDirectory lower e.1).isNone
  let sourceDirs := included.filter (0 < ·.2.sourceFileCount)
  let testOnlyDirs := included.filter fun e => e.2.sourceFileCount = 0 ∧ 0 < e.2.testFileCount
  if sourceDirs ≠ [] then
    (sourceDirs.mapM fun e => modulesOfSourceDir o lower rounds scan e.1).map fun modules =>
      { modules := modules.flatten, excludedDirectories }
  else if testOnlyDirs ≠ [] then
    some { modules := testOnlyDirs.map fun e => { e.2.toModule e.1 e.1 false with sourceFileCount := 0 }
           excludedDirectories }
  else if 0 < scan.rootStats.sourceFileCount ∨ 0 < scan.rootStats.testFileCount then
    some { modules := [scan.rootStats.toModule "." repoDisplayName true], excludedDirectories }
  else some { excludedDirectories }

end Detection

end RepoGraph.Indexer
