import RepoGraph.Lib.Folds
import RepoGraph.Lib.TextLaws

/-! The roll-up of directories into package groups: the key that decides which directories fold together, and the
name that a group shows. -/

namespace RepoGraph.Agent

open Lib Lib.Text

structure DirGroup where
  path : String
  fileCount : ℕ
  testFileCount : ℕ
  deriving DecidableEq, Repr

inductive ManifestKind
  | rustCrate
  | tsPackage
  deriving DecidableEq, Repr

structure ManifestRoot where
  path : String
  kind : ManifestKind
  deriving DecidableEq, Repr

structure PackageGroup where
  name : String
  fileCount : ℕ
  testFileCount : ℕ
  deriving DecidableEq, Repr

def nearestManifestRoot (path : String) (roots : List ManifestRoot) (noNestedManifestRoots : Bool) :
    Option ManifestRoot :=
  lastMaxByKey (fun r => r.path.utf8ByteSize) (roots.filter fun r =>
    if r.path = "." then noNestedManifestRoots else path = r.path ∨ startsWith path s!"{r.path}/")

def classifyDirectory (path : String) : String :=
  match stripPrefix path "src/test/" with
  | some rest => rest
  | none =>
    match stripPrefix path "src/main/" with
    | some rest => rest
    | none => path

def classify (path : String) (manifestRoots : List ManifestRoot) (noNestedManifestRoots : Bool) : String × Bool :=
  match nearestManifestRoot path manifestRoots noNestedManifestRoots with
  | some root => (root.path, true)
  | none => (classifyDirectory path, false)

def noNestedManifestRoots (manifestRoots : List ManifestRoot) : Bool := !manifestRoots.any fun r => r.path ≠ "."

abbrev GroupTotals := ℕ × ℕ × Bool

def addDir (totals : GroupTotals) (d : DirGroup × Bool) : GroupTotals :=
  (totals.1 + d.1.fileCount, totals.2.1 + d.1.testFileCount, totals.2.2 || d.2)

def foldDir (manifestRoots : List ManifestRoot) (acc : BTreeMap String GroupTotals) (d : DirGroup) :
    BTreeMap String GroupTotals :=
  let (key, isManifest) := classify d.path manifestRoots (noNestedManifestRoots manifestRoots)
  acc.insert key (addDir (acc[key]?.getD (0, 0, false)) (d, isManifest))

def foldDirs (dirs : List DirGroup) (manifestRoots : List ManifestRoot) : BTreeMap String GroupTotals :=
  dirs.foldl (foldDir manifestRoots) ∅

def segments (key : String) : List String := split key '/'

def lastSegment (key : String) : String := (segments key).getLast?.getD key

def sharedSegments : ℕ → List String → List String → ℕ
  | limit + 1, x :: xs, y :: ys => if x = y then sharedSegments limit xs ys + 1 else 0
  | _, _, _ => 0

def narrowPrefix (first : List String) : ℕ → List String → ℕ
  | len, [] => len
  | len, k :: keys =>
    let len := sharedSegments len (segments k) first
    if len = 0 then 0 else narrowPrefix first len keys

def commonSegmentPrefix : List String → List String
  | [] => []
  | k :: keys =>
    let first := segments k
    first.take (narrowPrefix first first.length keys)

def displayName (key : String) (common : List String) : String :=
  let segs := segments key
  if segs.length > common.length then join "/" (segs.drop common.length) else common.getLast?.getD key

structure NamedGroup where
  key : String
  display : String
  total : ℕ
  test : ℕ
  deriving DecidableEq, Repr

def namedGroups (acc : BTreeMap String GroupTotals) : List NamedGroup :=
  let nonManifestKeys := (acc.toList.filter fun e => !e.2.2.2).map Prod.fst
  let common := commonSegmentPrefix nonManifestKeys
  acc.toList.map fun e =>
    { key := e.1
      display := if e.2.2.2 then lastSegment e.1 else displayName e.1 common
      total := e.2.1
      test := e.2.2.1 }

def segmentSuffix (key : String) (k : ℕ) : String :=
  let segs := segments key
  if k ≤ segs.length then join "/" (segs.drop (segs.length - k)) else key

def shortestDistinguishingSuffix (key : String) (others : List String) (selfPos : ℕ) : String :=
  let unique := fun k => others.zipIdx.all fun other => other.2 = selfPos ∨
    segmentSuffix other.1 k ≠ segmentSuffix key k
  match (List.range' 1 ((segments key).length - 1)).find? unique with
  | some k => segmentSuffix key k
  | none => key

def groupsByDisplay (named : List NamedGroup) : BTreeMap String (List ℕ) :=
  named.zipIdx.foldl (fun byDisplay e =>
    byDisplay.insert e.1.display (byDisplay[e.1.display]?.getD [] ++ [e.2])) ∅

def renameColliding (named : List NamedGroup) (idxs : List ℕ) : List NamedGroup :=
  if idxs.length < 2 then named
  else
    let keys := idxs.filterMap fun i => named[i]?.map NamedGroup.key
    idxs.zipIdx.foldl (fun named i =>
      named.modify i.1 fun e => { e with display := shortestDistinguishingSuffix e.key keys i.2 }) named

def disambiguate (named : List NamedGroup) : List NamedGroup :=
  ((groupsByDisplay named).toList.map Prod.snd).foldl renameColliding named

def groupOrder (a b : PackageGroup) : Ordering := (compare b.fileCount a.fileCount).then (compare a.name b.name)

def rollupPackageGroups (dirs : List DirGroup) (manifestRoots : List ManifestRoot) : List PackageGroup :=
  let named := disambiguate (namedGroups (foldDirs dirs manifestRoots))
  sortBy groupOrder (named.map fun e => ⟨e.display, e.total, e.test⟩)

example : rollupPackageGroups
    [⟨"src/main/java/p/owner", 4, 0⟩, ⟨"src/test/java/p/owner", 2, 2⟩, ⟨"src/main/java/p/vet", 3, 0⟩] [] =
    [⟨"owner", 6, 2⟩, ⟨"vet", 3, 0⟩] := by decide +kernel

end RepoGraph.Agent
