import RepoGraph.Lib.IterMap
import RepoGraph.Lib.Regex
import RepoGraph.Lib.Search

/-! The projects that a Gradle settings file declares: the paths it includes, and the names and directories that
it sets for them, each found by a search of its own over the text. -/

namespace RepoGraph.Indexer

open Lib Lib.Text

structure GradleModule where
  gradlePath : String
  projectRoot : String
  displayName : String
  settingsPath : String
  isRoot : Bool
  deriving DecidableEq, Repr

structure SettingsGradleParseResult where
  rootProject : Option GradleModule
  subprojects : List GradleModule
  unhandledProjectDirs : ℕ
  deriving DecidableEq, Repr

section Patterns

open Regex

def isQuote (c : Char) : Bool := c = '\'' || c = '"'

def blanks : Regex := .many isWhitespace

def quote : Regex := .char isQuote

def quotedText : Regex := .group (some1 fun c => !isQuote c)

def projectCall (rest : List Regex) : Regex :=
  cat (lit "project" :: blanks :: lit "(" :: blanks :: quote :: quotedText :: quote ::
    blanks :: lit ")" :: blanks :: lit "." :: blanks :: rest)

def rootNameRe : Regex :=
  cat [lit "rootProject", blanks, lit ".", blanks, lit "name", blanks, lit "=", blanks, quote, quotedText, quote]

def renameRe : Regex := projectCall [lit "name", blanks, lit "=", blanks, quote, quotedText, quote]

def assignRe : Regex := projectCall [lit "projectDir", blanks, lit "=", blanks, .group (some1 (· ≠ '\n'))]

def handledRhsRe : Regex :=
  cat [quote, lit "$rootDir/", quotedText, quote,
    .optional (cat [some1 isWhitespace, lit "as", some1 isWhitespace, lit "File"]), .atEnd]

def stringRe : Regex := cat [quote, quotedText, quote]

def continuationRe : Regex :=
  cat [.many fun c => isWhitespace c || c = ',', .char fun c => isQuote c || c = ':']

end Patterns

def extractRootProjectName (content : String) : Option String :=
  (rootNameRe.capturesIter content).head?.map fun cap => cap.getD 0 ""

def extractProjectRenames (content : String) : IterMap String String :=
  (renameRe.capturesIter content).foldl
    (fun renames cap => renames.insert (trimStart (cap.getD 0 "") ":") (cap.getD 1 "")) ∅

def extractProjectDirs (content : String) : IterMap String String × ℕ :=
  (assignRe.capturesIter content).foldl
    (fun (dirs, unhandled) cap =>
      let gradlePath := trimStart (cap.getD 0 "") ":"
      match handledRhsRe.matchAt (trim (cap.getD 1 "")).toList with
      | some (_, groups) => (dirs.insert gradlePath (.ofList (groups.getD 0 [])), unhandled)
      | none => (dirs, unhandled + 1))
    (∅, 0)

def isVersionString (s : String) : Bool := s ≠ "" && s.toList.all fun c => c.isDigit || c = '.'

def isProjectPath (path : String) : Bool :=
  !containsStr path "://" && !startsWith path "com." && !startsWith path "org." && !startsWith path "id " &&
    !isVersionString path

def lines (s : String) : List String :=
  let pieces := split s '\n'
  let last := pieces.getLast?.getD ""
  pieces.dropLast.map (fun line => (stripSuffix line "\r").getD line) ++ if last = "" then [] else [last]

structure IncludeState where
  inIncludeBlock : Bool := false
  paths : List String := []

/-- A block starts with a line that starts with `include`, and goes on over blank lines and lines of strings. -/
def IncludeState.inBlock (st : IncludeState) (line : String) : Bool :=
  if startsWith (trim line) "include" then true
  else st.inIncludeBlock && ((continuationRe.matchAt line.toList).isSome || trim line = "")

def IncludeState.read (st : IncludeState) (line : String) : IncludeState :=
  { inIncludeBlock := st.inBlock line
    paths := st.paths ++
      if st.inBlock line then ((stringRe.capturesIter line).map fun cap =>
        cap.getD 0 "").filter isProjectPath else [] }

def extractIncludePaths (content : String) : List String := ((lines content).foldl IncludeState.read {}).paths

def gradlePathToFilesystem (gradlePath : String) : String := replaceAll (trimStart gradlePath ":") ':' '/'

def directoryBasename (path : String) : String :=
  if path = "." then "root" else (split path '/').getLast?.getD path

def gradleModule (renames projectDirs : IterMap String String) (settingsPath gradlePath : String) : GradleModule :=
  let includeRoot := gradlePathToFilesystem gradlePath
  { gradlePath := ":" ++ gradlePath
    projectRoot := (projectDirs.lookup (trimStart gradlePath ":")).getD includeRoot
    displayName := (renames.lookup gradlePath).getD (directoryBasename includeRoot)
    settingsPath
    isRoot := false }

def parseSettingsGradle (content settingsPath : String) : SettingsGradleParseResult :=
  let (projectDirs, unhandledProjectDirs) := extractProjectDirs content
  { rootProject := some
      { gradlePath := ":"
        projectRoot := "."
        displayName := (extractRootProjectName content).getD "root"
        settingsPath
        isRoot := true }
    subprojects :=
      (extractIncludePaths content).map (gradleModule (extractProjectRenames content) projectDirs settingsPath)
    unhandledProjectDirs }

def joinRoot (settingsDir root : String) : String :=
  if root = "." || root = "" then settingsDir else settingsDir ++ "/" ++ root

def parseSettingsGradleRooted (content settingsPath : String) : SettingsGradleParseResult :=
  let parsed := parseSettingsGradle content settingsPath
  match rsplitOnce settingsPath '/' with
  | none => parsed
  | some (settingsDir, _) =>
    { parsed with
      rootProject := parsed.rootProject.map fun root =>
        { root with
          projectRoot := joinRoot settingsDir root.projectRoot
          displayName :=
            if (extractRootProjectName content).isNone then directoryBasename settingsDir else root.displayName }
      subprojects := parsed.subprojects.map fun project =>
        { project with projectRoot := joinRoot settingsDir project.projectRoot } }

end RepoGraph.Indexer
