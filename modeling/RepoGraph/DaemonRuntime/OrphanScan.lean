import RepoGraph.DaemonRuntime.Registry
import RepoGraph.Lib.TextLaws

/-! Files of the state root that no registered repository refers to: databases with their sidecars, sidecars
without a database, and seed vectors; how they are grouped by database, and unlinked group by group. -/

namespace RepoGraph.DaemonRuntime

open Lib Lib.Text

def fileName (path : String) : Option String :=
  match (components path).getLast? with
  | some (.normal name) => some name
  | _ => none

/-- `databases/` and the directory beside it. -/
inductive Place
  | databases
  | seedVectors
  deriving DecidableEq, Repr

structure FilePath where
  place : Place
  name : String
  deriving DecidableEq, Repr

structure FileEntry where
  path : FilePath
  bytes : ℕ
  deriving DecidableEq, Repr

structure Listing where
  files : List (String × ℕ)
  names : (files.map Prod.fst).Nodup
  plain : ∀ file ∈ files, fileName file.1 = some file.1

def Listing.remove (l : Listing) (name : String) : Listing where
  files := l.files.filter (·.1 ≠ name)
  names := (List.filter_sublist.map _).nodup l.names
  plain := fun file h => l.plain file (List.mem_of_mem_filter h)

structure StateRoot where
  databases : Listing
  seedVectors : Option Listing
  present : CanonicalPath → Bool

def fileStem (name : String) : String :=
  match rsplitOnce name '.' with
  | some (before, _) => if before = "" then name else before
  | none => name

def sidecarBaseName (name : String) : Option String := (stripSuffix name "-wal").or (stripSuffix name "-shm")

def vecBaseDbName (name : String) : String := fileStem name ++ ".db"

section Scan

structure OrphanDb where
  dbFile : FileEntry
  sidecars : List FileEntry
  deriving DecidableEq, Repr

def OrphanDb.bytes (o : OrphanDb) : ℕ := o.dbFile.bytes + (o.sidecars.map (·.bytes)).sum

structure DeadPathEntry where
  canonicalPath : CanonicalPath
  display : String
  deriving DecidableEq

structure OrphanReport where
  orphanDbs : List OrphanDb
  straySidecars : List FileEntry
  orphanSeedVectors : List FileEntry
  deadPathEntries : List DeadPathEntry

def OrphanReport.reclaimableBytes (r : OrphanReport) : ℕ :=
  (r.orphanDbs.map OrphanDb.bytes).sum + (r.straySidecars.map (·.bytes)).sum +
    (r.orphanSeedVectors.map (·.bytes)).sum

def referenced (entries : List RegistryEntry) : List String := entries.filterMap fun e => fileName e.dbPath

def CanonicalPath.text (p : CanonicalPath) : String := "/" ++ join "/" (p.names.map (·.val))

def deadPathEntries (root : StateRoot) (entries : List RegistryEntry) : List DeadPathEntry :=
  entries.filterMap fun e =>
    if root.present e.canonicalPath then none
    else some { canonicalPath := e.canonicalPath, display := e.alias_.getD e.canonicalPath.text }

structure FirstPass where
  presentDbNames : List String := []
  orphanByName : IterMap String OrphanDb := ∅
  sidecarPaths : List FileEntry := []

def isSidecar (name : String) : Bool := endsWith name "-wal" || endsWith name "-shm"

def FirstPass.add (entries : List RegistryEntry) (pass : FirstPass) (file : String × ℕ) : FirstPass :=
  let entry : FileEntry := { path := ⟨.databases, file.1⟩, bytes := file.2 }
  if isSidecar file.1 then { pass with sidecarPaths := pass.sidecarPaths ++ [entry] }
  else if endsWith file.1 ".db" then
    { pass with
      presentDbNames := file.1 :: pass.presentDbNames
      orphanByName :=
        if file.1 ∈ referenced entries then pass.orphanByName
        else pass.orphanByName.insert file.1 { dbFile := entry, sidecars := [] } }
  else pass

def OrphanDb.push (file : FileEntry) (o : OrphanDb) : OrphanDb := { o with sidecars := o.sidecars ++ [file] }

def attributeSidecar (presentDbNames : List String) (found : IterMap String OrphanDb × List FileEntry)
    (file : FileEntry) :
    IterMap String OrphanDb × List FileEntry :=
  match sidecarBaseName file.path.name with
  | some base =>
    if (found.1.lookup base).isSome then (found.1.modify base (OrphanDb.push file), found.2)
    else if base ∈ presentDbNames then found
    else (found.1, found.2 ++ [file])
  | none => (found.1, found.2 ++ [file])

def inKeyOrder {ν : Type} (m : IterMap String ν) : List (Σ _ : String, ν) :=
  sortBy (fun a b => compare a.1 b.1) m.entries

def scanOrphanSeedVectors (root : StateRoot) (entries : List RegistryEntry) : List FileEntry :=
  match root.seedVectors with
  | none => []
  | some l => l.files.filterMap fun file =>
      if endsWith file.1 ".vec" && decide (vecBaseDbName file.1 ∉ referenced entries) then
        some { path := ⟨.seedVectors, file.1⟩, bytes := file.2 }
      else none

def scanOrphans (root : StateRoot) (entries : List RegistryEntry) : OrphanReport :=
  let pass := root.databases.files.foldl (FirstPass.add entries) {}
  let (orphanByName, straySidecars) := pass.sidecarPaths.foldl (attributeSidecar pass.presentDbNames)
    (pass.orphanByName, [])
  { orphanDbs := (inKeyOrder orphanByName).map Sigma.snd
    straySidecars
    orphanSeedVectors := scanOrphanSeedVectors root entries
    deadPathEntries := deadPathEntries root entries }

end Scan

section Units

structure GcFile where
  kind : String
  file : FileEntry
  deriving DecidableEq, Repr

structure ReclaimUnit where
  baseName : String
  files : List GcFile
  deriving DecidableEq, Repr

def OrphanDb.unit (o : OrphanDb) : ReclaimUnit where
  baseName := o.dbFile.path.name
  files := ⟨"orphan-db", o.dbFile⟩ :: o.sidecars.map (⟨"orphan-sidecar", ·⟩)

def strayBase (file : FileEntry) : String := (sidecarBaseName file.path.name).getD ""

def strayUnits (strays : List FileEntry) : List ReclaimUnit :=
  let strayByBase : IterMap String (List GcFile) := strays.foldl (fun m file =>
    m.entryOrDefault (.asInserted _ _) (strayBase file) (· ++ [⟨"stray-sidecar", file⟩])) ∅
  (inKeyOrder strayByBase).map fun e => { baseName := e.1, files := e.2 }

def attachSeedVector (units : List ReclaimUnit) (file : FileEntry) : List ReclaimUnit :=
  let base := vecBaseDbName file.path.name
  match units with
  | [] => [{ baseName := base, files := [⟨"orphan-seed-vector", file⟩] }]
  | u :: rest =>
    if u.baseName = base then { u with files := u.files ++ [⟨"orphan-seed-vector", file⟩] } :: rest
    else u :: attachSeedVector rest file

def reclaimUnits (scan : OrphanReport) : List ReclaimUnit :=
  scan.orphanSeedVectors.foldl attachSeedVector (scan.orphanDbs.map OrphanDb.unit ++ strayUnits scan.straySidecars)

end Units

section Run

structure GcItem where
  kind : String
  path : FilePath
  bytes : ℕ
  removed : Bool
  error : Option String
  skipped : Option String
  deriving DecidableEq, Repr

structure GcOutcome where
  dryRun : Bool
  items : List GcItem
  reclaimedBytes : ℕ
  wouldReclaimBytes : ℕ
  deadPathEntries : List DeadPathEntry

def StateRoot.unlink (root : StateRoot) (path : FilePath) : Except String StateRoot :=
  match path.place, root.seedVectors with
  | .databases, _ =>
    if path.name ∈ root.databases.files.map Prod.fst then
      .ok { root with databases := root.databases.remove path.name }
    else .error "not found"
  | .seedVectors, some l =>
    if path.name ∈ l.files.map Prod.fst then .ok { root with seedVectors := some (l.remove path.name) }
    else .error "not found"
  | .seedVectors, none => .error "not found"

structure GcState where
  root : StateRoot
  reclaimedBytes : ℕ := 0
  items : List GcItem := []

def GcFile.item (f : GcFile) (removed : Bool) (error skipped : Option String) : GcItem :=
  { kind := f.kind, path := f.file.path, bytes := f.file.bytes, removed, error, skipped }

def GcState.push (s : GcState) (items : List GcItem) : GcState := { s with items := s.items ++ items }

def GcState.unlinkFile (s : GcState) (f : GcFile) : GcState :=
  match s.root.unlink f.file.path with
  | .ok root => { s with root, reclaimedBytes := s.reclaimedBytes + f.file.bytes }.push [f.item true none none]
  | .error e => s.push [f.item false (some e) none]

/-- The slot of a database is found by the last name of its path, which a path to `..` does not have. -/
def hasWriteSlot (baseName : String) : Bool := baseName ≠ ".."

def baseNameIsRegistered (entries : List RegistryEntry) (baseName : String) : Bool := baseName ∈ referenced entries

def GcState.reclaim (entries : List RegistryEntry) (dryRun : Bool) (s : GcState) (u : ReclaimUnit) : GcState :=
  if dryRun then s.push (u.files.map fun f => f.item false none none)
  else if !hasWriteSlot u.baseName then
    s.push (u.files.map fun f => f.item false none
      (some "a write is in progress on this database (an index may be (re-)creating it); left intact"))
  else if baseNameIsRegistered entries u.baseName then
    s.push (u.files.map fun f => f.item false none
      (some "re-registered since the scan (a live index now owns this database); left intact"))
  else u.files.foldl GcState.unlinkFile s

def runGc (root : StateRoot) (entries : List RegistryEntry) (dryRun : Bool) : GcOutcome × StateRoot :=
  let scan := scanOrphans root entries
  let units := reclaimUnits scan
  let s := units.foldl (GcState.reclaim entries dryRun) { root }
  ({ dryRun
     items := s.items
     reclaimedBytes := s.reclaimedBytes
     wouldReclaimBytes := ((units.flatMap (·.files)).map (·.file.bytes)).sum
     deadPathEntries := scan.deadPathEntries }, s.root)

end Run

end RepoGraph.DaemonRuntime
