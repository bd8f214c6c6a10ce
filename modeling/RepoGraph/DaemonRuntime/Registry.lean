import RepoGraph.Lib.Folds
import RepoGraph.Lib.Inverse
import RepoGraph.Lib.IterMap
import RepoGraph.Lib.Runs
import RepoGraph.Lib.Text

/-! The registry of repositories: entries by canonical path, canonical paths by alias, both changed by hand
in every operation, and a file that a later daemon starts from. -/

namespace RepoGraph.DaemonRuntime

open Lib

abbrev PathName := {name : String // name ≠ ""}

/-- An absolute path in its canonical spelling: the root, and the names below it. -/
structure CanonicalPath where
  names : List PathName
  deriving DecidableEq

namespace CanonicalPath

def startsWith (p base : CanonicalPath) : Bool := base.names.isPrefixOf p.names

def byteLen (p : CanonicalPath) : ℕ :=
  if p.names = [] then 1 else (p.names.map fun n => 1 + n.1.utf8ByteSize).sum

lemma byteLen_pos (p : CanonicalPath) : 0 < p.byteLen := by
  rw [byteLen]
  split
  · exact one_pos
  · rename_i hne
    cases hp : p.names with
    | nil => exact absurd hp hne
    | cons n l =>
      rw [List.map_cons, List.sum_cons]
      omega

lemma byteLen_lt {p q : CanonicalPath} (hpre : p.names <+: q.names) (hlt : p.names.length < q.names.length) :
    p.byteLen < q.byteLen := by
  obtain ⟨l, hl⟩ := hpre
  rw [← hl, List.length_append] at hlt
  have hq : q.names ≠ [] := by
    rw [← hl]
    intro h
    rw [List.append_eq_nil_iff] at h
    simp [h.2] at hlt
  rw [byteLen, byteLen, if_neg hq, ← hl, List.map_append, List.sum_append]
  cases l with
  | nil => simp at hlt
  | cons n l =>
    have hname : n.1.utf8ByteSize ≠ 0 := fun h => n.2 (String.utf8ByteSize_eq_zero_iff.mp h)
    rw [List.map_cons, List.sum_cons]
    split
    · omega
    · omega

end CanonicalPath

inductive PathComponent
  | rootDir
  | curDir
  | parentDir
  | normal (name : PathName)
  deriving DecidableEq

/-- Repeated separators and the dots after the first component are passed over. -/
def components (path : String) : List PathComponent :=
  let pieces := Text.split path '/'
  let first : List PathComponent :=
    if Text.startsWith path "/" then [.rootDir] else if pieces.head? = some "." then [.curDir] else []
  first ++ pieces.filterMap fun piece =>
    if h : piece = "" then none
    else if piece = "." then none
    else if piece = ".." then some .parentDir
    else some (.normal ⟨piece, h⟩)

def PathComponent.name? : PathComponent → Option PathName
  | .normal name => some name
  | .rootDir | .curDir | .parentDir => none

def canonicalPathOf (path : String) : Option CanonicalPath :=
  match components path with
  | .rootDir :: rest => (rest.mapM PathComponent.name?).map CanonicalPath.mk
  | _ => none

structure RegistryEntry where
  canonicalPath : CanonicalPath
  alias_ : Option String
  dbPath : String
  repoUid : String
  lastIndexedAt : Option String
  lastSnapshotUid : Option String
  deriving DecidableEq

structure RegistryFile where
  version : ℕ
  repos : List RegistryEntry
  deriving DecidableEq

inductive RegistryError
  | ioError (msg : String)
  | parse (msg : String)
  | invalidPath (msg : String)
  | notFound (path : String)
  | aliasConflict (alias_ : String)
  deriving DecidableEq

structure RepoRegistry where
  byPath : IterMap CanonicalPath RegistryEntry
  byAlias : IterMap String CanonicalPath
  dirty : Bool

abbrev EntryOrder := BucketOrder CanonicalPath RegistryEntry

def RegistryEntry.new (allocateDbPath : CanonicalPath → String) (canonical : CanonicalPath) (repoUid : String) :
    RegistryEntry :=
  { canonicalPath := canonical, alias_ := none, dbPath := allocateDbPath canonical, repoUid, lastIndexedAt := none,
    lastSnapshotUid := none }

def RegistryEntry.withAlias (e : RegistryEntry) (alias_ : String) : RegistryEntry :=
  { e with alias_ := some alias_ }

def RegistryEntry.recordIndex (e : RegistryEntry) (timestamp snapshotUid : String) : RegistryEntry :=
  { e with lastIndexedAt := some timestamp, lastSnapshotUid := some snapshotUid }

def canonicalize (path : String) (canonical : Except String CanonicalPath) : Except RegistryError CanonicalPath :=
  canonical.mapError fun e => .invalidPath s!"cannot canonicalize '{path}': {e}"

namespace RepoRegistry

def empty : RepoRegistry := { byPath := ∅, byAlias := ∅, dirty := false }

def get (r : RepoRegistry) (path : String) : Option RegistryEntry := (canonicalPathOf path).bind r.byPath.lookup

/-- The entries are scanned in the order of the map. -/
def resolve (r : RepoRegistry) (path : String) (canonical : Except String CanonicalPath) : Option RegistryEntry :=
  match canonical with
  | .error _ => r.get path
  | .ok p =>
    match r.byPath.lookup p with
    | some e => some e
    | none => (longestBy (fun e => p.startsWith e.1) (fun e => e.1.byteLen) r.byPath.entries).1.map Sigma.snd

def resolveAlias (r : RepoRegistry) (alias_ : String) : Option RegistryEntry :=
  (r.byAlias.lookup alias_).bind r.byPath.lookup

def resolveAliasOrPath (r : RepoRegistry) (aliasOrPath : String) (canonical : Except String CanonicalPath) :
    Option RegistryEntry :=
  match r.resolveAlias aliasOrPath with
  | some e => some e
  | none => r.resolve aliasOrPath canonical

variable (allocateDbPath : CanonicalPath → String)

def register (r : RepoRegistry) (o : EntryOrder) (repoPath : String) (canonical : Except String CanonicalPath)
    (repoUid : String) : Except RegistryError RegistryEntry × RepoRegistry :=
  match canonicalize repoPath canonical with
  | .error e => (.error e, r)
  | .ok p =>
    match r.byPath.lookup p with
    | some e => (.ok e, r)
    | none =>
      let entry := RegistryEntry.new allocateDbPath p repoUid
      (.ok entry, { r with byPath := r.byPath.insertIn o p entry, dirty := true })

def removeMapping (byAlias : IterMap String CanonicalPath) : Option String → IterMap String CanonicalPath
  | some old => byAlias.erase old
  | none => byAlias

def realias (r : RepoRegistry) (p : CanonicalPath) (e : RegistryEntry) (alias_ : String) : RepoRegistry :=
  { byPath := r.byPath.modify p (·.withAlias alias_),
    byAlias := (removeMapping r.byAlias e.alias_).insert alias_ p, dirty := true }

def registerWithAlias (r : RepoRegistry) (o : EntryOrder) (repoPath alias_ : String)
    (canonical : Except String CanonicalPath) (repoUid : String) :
    Except RegistryError RegistryEntry × RepoRegistry :=
  match r.byAlias.lookup alias_ with
  | some _ => (.error (.aliasConflict alias_), r)
  | none =>
    match canonicalize repoPath canonical with
    | .error e => (.error e, r)
    | .ok p =>
      match r.byPath.lookup p with
      | some e => (.ok (e.withAlias alias_), r.realias p e alias_)
      | none =>
        let entry := (RegistryEntry.new allocateDbPath p repoUid).withAlias alias_
        (.ok entry, { byPath := r.byPath.insertIn o p entry, byAlias := r.byAlias.insert alias_ p, dirty := true })

def recordIndex (r : RepoRegistry) (path timestamp snapshotUid : String) :
    Except RegistryError Unit × RepoRegistry :=
  match (canonicalPathOf path).filter (· ∈ r.byPath) with
  | none => (.error (.notFound path), r)
  | some p => (.ok (), { r with byPath := r.byPath.modify p (·.recordIndex timestamp snapshotUid), dirty := true })

def setAlias (r : RepoRegistry) (path alias_ : String) : Except RegistryError Unit × RepoRegistry :=
  match (r.byAlias.lookup alias_).filter fun existing => canonicalPathOf path ≠ some existing with
  | some _ => (.error (.aliasConflict alias_), r)
  | none =>
    match (canonicalPathOf path).bind fun p => (r.byPath.lookup p).map (p, ·) with
    | none => (.error (.notFound path), r)
    | some (p, e) => (.ok (), r.realias p e alias_)

def remove (r : RepoRegistry) (path : String) : Except RegistryError RegistryEntry × RepoRegistry :=
  match (canonicalPathOf path).bind fun p => (r.byPath.lookup p).map (p, ·) with
  | none => (.error (.notFound path), r)
  | some (p, e) =>
    (.ok e, { byPath := r.byPath.erase p, byAlias := removeMapping r.byAlias e.alias_, dirty := true })

end RepoRegistry

/-- The file's text: reading undoes writing, and a text that was cut off is not a registry. -/
structure RegistryFormat (β : Type) where
  write : RegistryFile → β
  read : β → Except String RegistryFile
  cut : ℕ → β → β
  read_write : ∀ file, read (write file) = .ok file
  read_cut : ∀ file kept, cut kept (write file) = write file ∨ ∃ e, read (cut kept (write file)) = .error e

/-- How a save's file operations go. What the buffer still holds when its writer is dropped is written
then, and an error of that write is seen by nobody. -/
inductive SaveIo
  | written
  | createFails (e : String)
  | writeFails (e : String)
  | flushLost (kept : ℕ)
  | renameFails (e : String)
  deriving DecidableEq

structure RegistryState (β : Type) where
  registry : RepoRegistry
  disk : Option β

namespace RepoRegistry

variable {β : Type} (format : RegistryFormat β)

def file (r : RepoRegistry) : RegistryFile := { version := 1, repos := r.byPath.entries.map Sigma.snd }

def save (s : RegistryState β) (fileIo : SaveIo) : Except RegistryError Unit × RegistryState β :=
  if s.registry.dirty then
    match fileIo with
    | .createFails e => (.error (.ioError s!"failed to create temp file: {e}"), s)
    | .writeFails e => (.error (.ioError s!"failed to write registry: {e}"), s)
    | .renameFails e => (.error (.ioError s!"failed to rename temp file: {e}"), s)
    | .written =>
      (.ok (), { registry := { s.registry with dirty := false }, disk := some (format.write s.registry.file) })
    | .flushLost kept =>
      (.ok (), { registry := { s.registry with dirty := false },
                 disk := some (format.cut kept (format.write s.registry.file)) })
  else (.ok (), s)

def insertEntry (o : EntryOrder) (r : RepoRegistry) (e : RegistryEntry) : RepoRegistry :=
  { r with
    byAlias := match e.alias_ with
      | some alias_ => r.byAlias.insert alias_ e.canonicalPath
      | none => r.byAlias
    byPath := r.byPath.insertIn o e.canonicalPath e }

def load (r : RepoRegistry) (o : EntryOrder) (disk : Option β) (openError : Option String) :
    Except RegistryError Unit × RepoRegistry :=
  match disk, openError with
  | none, _ => (.ok (), r)
  | some _, some e => (.error (.ioError s!"failed to open registry: {e}"), r)
  | some content, none =>
    match format.read content with
    | .error e => (.error (.parse s!"failed to parse registry: {e}"), r)
    | .ok registryFile => (.ok (), registryFile.repos.foldl (insertEntry o) r)

def withStateRoot (o : EntryOrder) (disk : Option β) (createError openError : Option String) :
    Except RegistryError RepoRegistry :=
  match createError with
  | some e => .error (.ioError s!"failed to create db directory: {e}")
  | none =>
    match empty.load format o disk openError with
    | (.ok (), r) => .ok r
    | (.error e, _) => .error e

end RepoRegistry

inductive RegistryOp
  | register (o : EntryOrder) (repoPath : String) (canonical : Except String CanonicalPath) (repoUid : String)
  | registerWithAlias (o : EntryOrder) (repoPath alias_ : String) (canonical : Except String CanonicalPath)
      (repoUid : String)
  | recordIndex (path timestamp snapshotUid : String)
  | setAlias (path alias_ : String)
  | remove (path : String)
  | save (fileIo : SaveIo)
  | load (o : EntryOrder) (createError openError : Option String)

def RegistryOp.losesFlush : RegistryOp → Bool
  | .save (.flushLost _) => true
  | _ => false

namespace RegistryState

variable {β : Type} (allocateDbPath : CanonicalPath → String) (format : RegistryFormat β)

def new : RegistryState β := { registry := .empty, disk := none }

def returning {α : Type} (s : RegistryState β) (result : Except RegistryError α × RepoRegistry) :
    Except RegistryError Unit × RegistryState β :=
  (result.1.map fun _ => (), { s with registry := result.2 })

def apply (s : RegistryState β) : RegistryOp → Except RegistryError Unit × RegistryState β
  | .register o repoPath canonical repoUid =>
    s.returning (s.registry.register allocateDbPath o repoPath canonical repoUid)
  | .registerWithAlias o repoPath alias_ canonical repoUid =>
    s.returning (s.registry.registerWithAlias allocateDbPath o repoPath alias_ canonical repoUid)
  | .recordIndex path timestamp snapshotUid => s.returning (s.registry.recordIndex path timestamp snapshotUid)
  | .setAlias path alias_ => s.returning (s.registry.setAlias path alias_)
  | .remove path => s.returning (s.registry.remove path)
  | .save fileIo => RepoRegistry.save format s fileIo
  | .load o createError openError =>
    match RepoRegistry.withStateRoot format o s.disk createError openError with
    | .ok r => (.ok (), { s with registry := r })
    | .error e => (.error e, s)

def run (ops : List RegistryOp) : RegistryState β :=
  Lib.run (fun s op => (apply allocateDbPath format s op).2) new ops

end RegistryState

end RepoGraph.DaemonRuntime
