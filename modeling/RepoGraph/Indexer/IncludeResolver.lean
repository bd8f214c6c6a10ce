import RepoGraph.Indexer.Types
import RepoGraph.Lib.Containers

/-! Resolution of `#include` directives against the indexed file list: the source's directory, the
configured and the derived include roots, and the match by path suffix or basename. -/

namespace RepoGraph.Indexer

open Lib Lib.Text

structure IncludeResolverConfig where
  configuredRoots : List String
  derivedRoots : List String
  deriving DecidableEq, Repr

inductive IncludeResolution
  | resolved (targetStableKey : String)
  | unresolved
  | ambiguous (candidates : List String)
  deriving DecidableEq, Repr

def getDirectory (path : String) : String := ((rsplitOnce path '/').map Prod.fst).getD ""

def joinPath (dir relative : String) : String := if dir = "" then relative else s!"{dir}/{relative}"

def normalizeSegments (parts : List String) (segment : String) : List String :=
  if segment = "" ∨ segment = "." then parts
  else if segment = ".." then parts.dropLast
  else parts ++ [segment]

def normalizePath (path : String) : String := join "/" ((split path '/').foldl normalizeSegments [])

def rootCandidate (specifier root : String) : String := normalizePath (joinPath root specifier)

def addDerived (indexedFiles : List String) (specifier : String) (candidates : List String) (root : String) :
    List String :=
  let path := rootCandidate specifier root
  if path ∈ indexedFiles ∧ path ∉ candidates then candidates ++ [path] else candidates

def rootCandidates (config : IncludeResolverConfig) (specifier : String) (indexedFiles : List String) :
    List String :=
  let configured := (config.configuredRoots.map (rootCandidate specifier)).filter (· ∈ indexedFiles)
  config.derivedRoots.foldl (addDerived indexedFiles specifier) configured

def IncludeResolverConfig.resolve (config : IncludeResolverConfig) (sourceFilePath specifier : String)
    (isSystemInclude : Bool) (indexedFiles : List String) (repoUid : String) : IncludeResolution :=
  let sameDir := normalizePath (joinPath (getDirectory sourceFilePath) specifier)
  if !isSystemInclude ∧ sameDir ∈ indexedFiles then .resolved (fileKey repoUid sameDir)
  else
    match rootCandidates config specifier indexedFiles with
    | [] => .unresolved
    | [path] => .resolved (fileKey repoUid path)
    | candidates => .ambiguous (candidates.map (fileKey repoUid))

def includeRootsOf (path : String) : List String :=
  let components := split path '/'
  ((List.range (components.length - 1)).filter fun i => components[i]? ∈ [some "include", some "inc"]).map
    fun i => join "/" (components.take (i + 1))

def deriveIncludeRoots (filePaths : List String) : List String :=
  let roots : BTreeSet String := .ofList (filePaths.flatMap includeRootsOf)
  roots.toList

inductive IncludePathMatch
  | declined
  | noMatch
  | uniqueSuffix (path : String)
  | ambiguousSuffix (paths : List String)
  | uniqueBasename (path : String)
  | ambiguousBasename (paths : List String)
  deriving DecidableEq, Repr

structure IncludeResolutionMap where
  config : IncludeResolverConfig
  indexedFiles : List String
  filesByBasename : IterMap String (List String)
  repoUid : String

def basename (path : String) : String := ((rsplitOnce path '/').map Prod.snd).getD path

/-- A stand-in for the order of a table that is only read by key. -/
def keyOrder (ν : Type) : BucketOrder String ν := .asInserted String ν

def buildBasenameIndex (filePaths : List String) : IterMap String (List String) :=
  let index := filePaths.foldl
    (fun (m : IterMap String (List String)) path => m.entryOrDefault (keyOrder _) (basename path) (· ++ [path])) ∅
  index.entries.foldl (fun m e => m.modify e.1 fun paths => (sortBy compare paths).dedup) index

def buildIncludeResolutionMap (filePaths : List String) (repoUid : String) (config : IncludeResolverConfig) :
    IncludeResolutionMap :=
  let derivedRoots := (deriveIncludeRoots filePaths).foldl
    (fun roots root => if root ∈ roots then roots else roots ++ [root]) config.derivedRoots
  { config := { config with derivedRoots }
    indexedFiles := filePaths
    filesByBasename := buildBasenameIndex filePaths
    repoUid }

def endsAtDirectoryBoundary (path ending : String) : Bool :=
  path == ending || (stripSuffix path ending).any (endsWith · "/")

namespace IncludeResolutionMap

def resolve (m : IncludeResolutionMap) (sourceFilePath specifier : String) (isSystemInclude : Bool) :
    IncludeResolution :=
  m.config.resolve sourceFilePath specifier isSystemInclude m.indexedFiles m.repoUid

def matchPathSuffixOrBasename (m : IncludeResolutionMap) (specifier : String) : IncludePathMatch :=
  if contains specifier ':' then .declined
  else
    let segments := (split specifier '/').filter fun s => s ≠ "" ∧ s ≠ "."
    if ".." ∈ segments then .declined
    else
      match segments.getLast? with
      | none => .declined
      | some name =>
        match m.filesByBasename.lookup name with
        | none => .noMatch
        | some sameBasename =>
          if segments.length = 1 then
            match sameBasename with
            | [] => .noMatch
            | [one] => .uniqueBasename one
            | many => .ambiguousBasename many
          else
            match sameBasename.filter (endsAtDirectoryBoundary · (join "/" segments)) with
            | [] => .noMatch
            | [one] => .uniqueSuffix one
            | many => .ambiguousSuffix many

end IncludeResolutionMap

end RepoGraph.Indexer
