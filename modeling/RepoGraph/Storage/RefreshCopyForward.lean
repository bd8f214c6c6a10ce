import RepoGraph.Lib.Exec
import RepoGraph.Lib.Like
import RepoGraph.Lib.SqlText
import RepoGraph.Lib.TextLaws
import RepoGraph.Storage.DirectoryModules

/-! The copy of measurements and inferences into a refreshed snapshot: the statement reads the path of a file out
of the key of each row, by positions, and keeps the rows whose path is unchanged. -/

namespace RepoGraph.Storage

open Lib Lib.SqlText

structure MeasurementArtifact where
  measurementUid : String
  snapshotUid : String
  repoUid : String
  targetStableKey : String
  kind : String
  valueJson : String
  source : String
  createdAt : String
  deriving DecidableEq, Repr

structure InferenceArtifact where
  inferenceUid : String
  snapshotUid : String
  repoUid : String
  targetStableKey : String
  kind : String
  valueJson : String
  confidence : SqlValue
  basisJson : String
  extractor : String
  createdAt : String
  provenanceJson : SqlValue
  freshnessState : SqlValue
  deriving DecidableEq, Repr

structure ArtifactKind (ρ : Type) where
  uidColumn : String
  tempTable : String
  uid : ρ → String
  snapshotUid : ρ → String
  repoUid : ρ → String
  targetStableKey : ρ → String
  copied : String → String → ρ → ρ
  uid_copied : ∀ newUid snapshot r, uid (copied newUid snapshot r) = newUid

def measurements : ArtifactKind MeasurementArtifact where
  uidColumn := "measurements.measurement_uid"
  tempTable := "_unchanged_files_m"
  uid := (·.measurementUid)
  snapshotUid := (·.snapshotUid)
  repoUid := (·.repoUid)
  targetStableKey := (·.targetStableKey)
  copied newUid snapshot r := { r with measurementUid := newUid, snapshotUid := snapshot }
  uid_copied _ _ _ := rfl

def inferences : ArtifactKind InferenceArtifact where
  uidColumn := "inferences.inference_uid"
  tempTable := "_unchanged_files_i"
  uid := (·.inferenceUid)
  snapshotUid := (·.snapshotUid)
  repoUid := (·.repoUid)
  targetStableKey := (·.targetStableKey)
  copied newUid snapshot r := { r with inferenceUid := newUid, snapshotUid := snapshot }
  uid_copied _ _ _ := rfl

/-- A statement that fails leaves its table as it is. -/
inductive ConstraintError
  | unique (column : String)
  deriving DecidableEq, Repr

structure ArtifactTable {ρ : Type} (kind : ArtifactKind ρ) where
  rows : List ρ
  keys : (rows.map kind.uid).Nodup

section CopyForward

variable {ρ : Type} (kind : ArtifactKind ρ)

def ArtifactTable.insert {kind : ArtifactKind ρ} (t : ArtifactTable kind) (r : ρ) :
    Except ConstraintError (ArtifactTable kind) :=
  if h : kind.uid r ∈ t.rows.map kind.uid then .error (.unique kind.uidColumn)
  else .ok {
    rows := t.rows ++ [r]
    keys := by
      rw [List.map_append, List.nodup_append]
      exact ⟨t.keys, List.nodup_singleton _, fun k hk k' hk' he => h (by simp_all)⟩ }

def insertPath (table : String) (paths : List String) (path : String) : Except ConstraintError (List String) :=
  if path ∈ paths then .error (.unique (table ++ ".path")) else .ok (paths ++ [path])

def copyUid (uid snapshot : String) : String := uid ++ "-copy-" ++ snapshot

/-- The condition on the key: the text up to the first `#`, or the text before `:FILE`, is an unchanged path. -/
def readsUnchanged (repoUid : String) (unchanged : List String) (targetStableKey : String) : Bool :=
  let prefixLen := repoUid.utf8ByteSize + 2
  let key := targetStableKey.toList
  (instr key '#' > 0 ∧ .ofList (substr key prefixLen ((instr key '#' : ℤ) - prefixLen)) ∈ unchanged) ∨
    (Like.like none ['%', ':', 'F', 'I', 'L', 'E'] key ∧
      .ofList (substr key prefixLen ((key.length : ℤ) - prefixLen - 4)) ∈ unchanged)

def inScope (parentSnapshotUid repoUid : String) (r : ρ) : Bool :=
  kind.snapshotUid r = parentSnapshotUid ∧ kind.repoUid r = repoUid

def copyForward (parentSnapshotUid currentSnapshotUid repoUid : String) (unchangedFilePaths : List String)
    (t : ArtifactTable kind) : Except ConstraintError (ℕ × ArtifactTable kind) :=
  if unchangedFilePaths.isEmpty then .ok (0, t)
  else do
    let unchanged ← unchangedFilePaths.foldlM (insertPath kind.tempTable) []
    let selected := t.rows.filter fun r =>
      inScope kind parentSnapshotUid repoUid r && readsUnchanged repoUid unchanged (kind.targetStableKey r)
    let copies := selected.map fun r => kind.copied (copyUid (kind.uid r) currentSnapshotUid) currentSnapshotUid r
    let t ← copies.foldlM ArtifactTable.insert t
    return (copies.length, t)

def copyForwardMeasurements (parentSnapshotUid currentSnapshotUid repoUid : String)
    (unchangedFilePaths : List String)
    (t : ArtifactTable measurements) : Except ConstraintError (ℕ × ArtifactTable measurements) :=
  copyForward measurements parentSnapshotUid currentSnapshotUid repoUid unchangedFilePaths t

def copyForwardInferences (parentSnapshotUid currentSnapshotUid repoUid : String)
    (unchangedFilePaths : List String)
    (t : ArtifactTable inferences) : Except ConstraintError (ℕ × ArtifactTable inferences) :=
  copyForward inferences parentSnapshotUid currentSnapshotUid repoUid unchangedFilePaths t

end CopyForward

section Keys

inductive Anchor
  | symbol (path name kind : String)
  | file (path : String)
  deriving DecidableEq, Repr

def Anchor.path : Anchor → String
  | .symbol path _ _ => path
  | .file path => path

def Anchor.rest : Anchor → String
  | .symbol path name kind => path ++ "#" ++ name ++ ":SYMBOL:" ++ kind
  | .file path => path ++ ":FILE"

def Anchor.stableKey (repoUid : String) (a : Anchor) : String := repoUid ++ ":" ++ a.rest

def extraBytes (repoUid : String) : ℕ := repoUid.utf8ByteSize - repoUid.toList.length

/-- What the key reads as up to a `#`: the text before the first one without as many characters as the name of the
repository has extra bytes; the text between, where that runs out; a `#` in the name itself comes first. -/
def symbolReading (repoUid : String) (a : Anchor) : Option String :=
  if '#' ∈ repoUid.toList then
    some (.ofList (repoUid.toList.dropWhile (· ≠ '#') ++ ':' :: a.rest.toList.take (extraBytes repoUid)))
  else if '#' ∈ a.rest.toList then
    some (.ofList (between (extraBytes repoUid) (a.rest.toList.takeWhile (· ≠ '#')).length a.rest.toList))
  else none

def EndsLikeFile (rest : List Char) : Prop := ∃ q r, rest = q ++ r ∧ r.map Like.fold = [':', 'f', 'i', 'l', 'e']

def fileReading (repoUid : String) (a : Anchor) : String :=
  .ofList (between (extraBytes repoUid) (a.rest.toList.length - 5) a.rest.toList)

def ReadsAs (repoUid : String) (a : Anchor) (text : String) : Prop :=
  symbolReading repoUid a = some text ∨ EndsLikeFile a.rest.toList ∧ fileReading repoUid a = text

variable {repoUid text : String} {a : Anchor}

lemma idxOf_eq_takeWhile {c : Char} {l : List Char} (h : c ∈ l) : l.idxOf c = (l.takeWhile (· ≠ c)).length := by
  induction l with
  | nil => simp at h
  | cons d l ih =>
    by_cases hd : d = c
    · subst hd
      simp
    · rw [List.idxOf_cons_ne _ hd, List.takeWhile_cons_of_pos (by simpa using hd), List.length_cons,
        ih ((List.mem_cons.mp h).resolve_left (Ne.symm hd))]

lemma drop_idxOf {c : Char} {l : List Char} (h : c ∈ l) : l.drop (l.idxOf c) = l.dropWhile (· ≠ c) := by
  have hsplit : l.takeWhile (· ≠ c) ++ l.dropWhile (· ≠ c) = l := List.takeWhile_append_dropWhile
  have hdrop : (l.takeWhile (· ≠ c) ++ l.dropWhile (· ≠ c)).drop (l.takeWhile (· ≠ c)).length =
      l.dropWhile (· ≠ c) := List.drop_left
  rw [hsplit] at hdrop
  rw [idxOf_eq_takeWhile h]
  exact hdrop

lemma length_le_byteLen (l : List Char) : l.length ≤ Text.byteLen l := by
  induction l with
  | nil => exact le_refl _
  | cons c l ih =>
    rw [Text.byteLen_cons, List.length_cons]
    have hpos := c.utf8Size_pos
    omega

lemma utf8ByteSize_eq_extra (repoUid : String) : repoUid.utf8ByteSize =
    repoUid.toList.length + extraBytes repoUid := by
  have hle := length_le_byteLen repoUid.toList
  rw [extraBytes, Text.utf8ByteSize_eq]
  omega

lemma toList_stableKey (repoUid : String) (a : Anchor) :
    (a.stableKey repoUid).toList = repoUid.toList ++ ':' :: a.rest.toList := by
  simp [Anchor.stableKey]

lemma five_le_rest (a : Anchor) : 5 ≤ a.rest.toList.length := by
  cases a with
  | symbol path name kind =>
    simp only [Anchor.rest, String.toList_append, List.length_append]
    simp
    omega
  | file path =>
    simp only [Anchor.rest, String.toList_append, List.length_append]
    simp

lemma endsLikeFile_stableKey : Like.like none ['%', ':', 'F', 'I', 'L', 'E'] (a.stableKey repoUid).toList ↔
    EndsLikeFile a.rest.toList := by
  have hfile : [':', 'F', 'I', 'L', 'E'].map Like.fold = [':', 'f', 'i', 'l', 'e'] := by decide
  have hplain : ∀ c ∈ [':', 'F', 'I', 'L', 'E'], c ≠ '%' ∧ c ≠ '_' := by simp
  rw [Like.like_ends _ _ hplain, hfile, toList_stableKey, EndsLikeFile]
  constructor
  · rintro ⟨q, r, heq, hr⟩
    have hlen : r.length = 5 := by simpa using congrArg List.length hr
    have hsuffix : r <:+ a.rest.toList := by
      have hkey : r <:+ repoUid.toList ++ ':' :: a.rest.toList := ⟨q, heq.symm⟩
      have hrest : a.rest.toList <:+ repoUid.toList ++ ':' :: a.rest.toList := ⟨repoUid.toList ++ [':'], by simp⟩
      exact List.suffix_of_suffix_length_le hkey hrest (hlen.trans_le (five_le_rest a))
    obtain ⟨q', hq'⟩ := hsuffix
    exact ⟨q', r, hq'.symm, hr⟩
  · rintro ⟨q, r, heq, hr⟩
    exact ⟨repoUid.toList ++ ':' :: q, r, by rw [heq]; simp, hr⟩

lemma substr_stableKey (repoUid : String) (a : Anchor) (b : ℕ) :
    substr (a.stableKey repoUid).toList (repoUid.utf8ByteSize + 2)
        (((repoUid.toList.length + 1 + b : ℕ) : ℤ) - (repoUid.utf8ByteSize + 1 : ℕ)) =
      between (extraBytes repoUid) b a.rest.toList := by
  have hkey : (a.stableKey repoUid).toList = (repoUid.toList ++ [':']) ++ a.rest.toList := by
    rw [toList_stableKey]
    simp
  have hbytes : repoUid.utf8ByteSize + 1 = (repoUid.toList ++ [':']).length + extraBytes repoUid := by
    rw [utf8ByteSize_eq_extra]
    simp only [List.length_append, List.length_singleton]
    omega
  have hchars : repoUid.toList.length + 1 + b = (repoUid.toList ++ [':']).length + b := by simp
  rw [substr_between, hkey, hbytes, hchars, between_append]

lemma fileReading_eq (repoUid : String) (a : Anchor) :
    String.ofList (substr (a.stableKey repoUid).toList (repoUid.utf8ByteSize + 2)
      (((a.stableKey repoUid).toList.length : ℤ) - ((repoUid.utf8ByteSize + 2 : ℕ) : ℤ) - 4)) =
        fileReading repoUid a := by
  have hfive := five_le_rest a
  have hlen : (((a.stableKey repoUid).toList.length : ℤ) - ((repoUid.utf8ByteSize + 2 : ℕ) : ℤ) - 4) =
      ((repoUid.toList.length + 1 + (a.rest.toList.length - 5) : ℕ) : ℤ) - (repoUid.utf8ByteSize + 1 : ℕ) := by
    rw [toList_stableKey, List.length_append, List.length_cons]
    omega
  rw [hlen, substr_stableKey, fileReading]

lemma symbolReading_eq (repoUid : String) (a : Anchor) :
    symbolReading repoUid a =
      if instr (a.stableKey repoUid).toList '#' > 0 then
        some (String.ofList (substr (a.stableKey repoUid).toList (repoUid.utf8ByteSize + 2)
          ((instr (a.stableKey repoUid).toList '#' : ℤ) - ((repoUid.utf8ByteSize + 2 : ℕ) : ℤ))))
      else none := by
  unfold symbolReading
  by_cases hname : '#' ∈ repoUid.toList
  · have hin : '#' ∈ (a.stableKey repoUid).toList := by
      rw [toList_stableKey]
      exact List.mem_append_left _ hname
    have hidx : (a.stableKey repoUid).toList.idxOf '#' = repoUid.toList.idxOf '#' := by
      rw [toList_stableKey, List.idxOf_append_of_mem hname]
    have hlt : repoUid.toList.idxOf '#' < repoUid.toList.length := List.idxOf_lt_length_of_mem hname
    have hbytes := utf8ByteSize_eq_extra repoUid
    have hcount : (((repoUid.toList.idxOf '#' + 1 : ℕ) : ℤ) - ((repoUid.utf8ByteSize + 2 : ℕ) : ℤ)) =
        (repoUid.toList.idxOf '#' : ℕ) - ((repoUid.utf8ByteSize + 1 : ℕ) : ℤ) := by omega
    have hall : repoUid.toList.take (repoUid.utf8ByteSize + 1) = repoUid.toList :=
      List.take_of_length_le (by omega)
    have hmore : repoUid.utf8ByteSize + 1 - repoUid.toList.length = extraBytes repoUid + 1 := by omega
    rw [if_pos hname, instr, if_pos hin, if_pos (Nat.succ_pos _), hidx, hcount, substr_between,
      between_of_ge (by omega), toList_stableKey, List.take_append, hall, hmore, List.take_succ_cons,
      List.drop_append_of_le_length hlt.le, drop_idxOf hname]
  · rw [if_neg hname]
    have hiff : '#' ∈ (a.stableKey repoUid).toList ↔ '#' ∈ a.rest.toList := by
      rw [toList_stableKey]
      simp [hname]
    by_cases hrest : '#' ∈ a.rest.toList
    · have hidx : (a.stableKey repoUid).toList.idxOf '#' = repoUid.toList.length + 1 +
          a.rest.toList.idxOf '#' := by
        rw [toList_stableKey, List.idxOf_append_of_notMem hname, List.idxOf_cons_ne _ (by decide)]
        omega
      have hcount : (((repoUid.toList.length + 1 + a.rest.toList.idxOf '#' + 1 : ℕ) : ℤ) -
          ((repoUid.utf8ByteSize + 2 : ℕ) : ℤ)) =
            ((repoUid.toList.length + 1 + a.rest.toList.idxOf '#' : ℕ) : ℤ) - (repoUid.utf8ByteSize + 1 : ℕ) := by
        omega
      rw [if_pos hrest, instr, if_pos (hiff.mpr hrest), if_pos (Nat.succ_pos _), hidx, hcount, substr_stableKey,
        idxOf_eq_takeWhile hrest]
    · rw [if_neg hrest, instr, if_neg (hiff.not.mpr hrest)]
      simp

lemma readsUnchanged_iff {unchanged : List String} :
    readsUnchanged repoUid unchanged (a.stableKey repoUid) ↔ ∃ path ∈ unchanged, ReadsAs repoUid a path := by
  unfold readsUnchanged ReadsAs
  dsimp only
  rw [decide_eq_true_eq, fileReading_eq, endsLikeFile_stableKey, symbolReading_eq]
  by_cases hinstr : instr (a.stableKey repoUid).toList '#' > 0
  · simp only [hinstr, true_and, if_true, Option.some.injEq]
    constructor
    · rintro (h | ⟨hfile, h⟩)
      · exact ⟨_, h, .inl rfl⟩
      · exact ⟨_, h, .inr ⟨hfile, rfl⟩⟩
    · rintro ⟨path, hpath, rfl | ⟨hfile, rfl⟩⟩
      · exact .inl hpath
      · exact .inr ⟨hfile, hpath⟩
  · simp only [hinstr, false_and, if_false, reduceCtorEq, false_or]
    constructor
    · rintro ⟨hfile, h⟩
      exact ⟨_, h, hfile, rfl⟩
    · rintro ⟨path, hpath, hfile, rfl⟩
      exact ⟨hfile, hpath⟩

end Keys

end RepoGraph.Storage
