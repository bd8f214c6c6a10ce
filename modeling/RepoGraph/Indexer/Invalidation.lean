import RepoGraph.Lib.Containers
import RepoGraph.Lib.Text
import RepoGraph.Indexer.IncludeResolver

/-! Which files of the working tree a refresh extracts again, which it copies forward from the
parent snapshot, and which it drops. -/

namespace RepoGraph.Indexer

open Lib Lib.Text

structure CurrentFileState where
  fileUid : String
  path : String
  contentHash : String
  deriving DecidableEq, Repr

inductive Disposition
  | unchanged
  | changed
  | new
  | deleted
  | configWidened
  deriving DecidableEq, Repr

structure FileClassification where
  path : String
  fileUid : String
  disposition : Disposition
  reason : String
  currentHash : Option String
  parentHash : Option String
  deriving DecidableEq, Repr

structure InvalidationCounts where
  unchanged : ℕ
  changed : ℕ
  new : ℕ
  deleted : ℕ
  configWidened : ℕ
  total : ℕ
  deriving DecidableEq, Repr

inductive ConfigScope
  | global
  | directory (dir : String)
  deriving DecidableEq, Repr

structure ChangedConfig where
  path : String
  scope : ConfigScope
  deriving DecidableEq, Repr

structure InvalidationPlan where
  parentSnapshotUid : String
  files : List FileClassification
  changedConfigs : List ChangedConfig
  filesToExtract : List String
  filesToCopy : List String
  filesToDelete : List String
  counts : InvalidationCounts
  deriving DecidableEq, Repr

def recognizedConfigs : List String :=
  ["package.json", "pnpm-workspace.yaml", "tsconfig.json", "Cargo.toml", "build.gradle", "build.gradle.kts",
    "settings.gradle", "settings.gradle.kts", "pyproject.toml", "compile_commands.json"]

def isTsconfigOrJsconfigJsonName (filename : String) : Bool :=
  (startsWith filename "tsconfig" || startsWith filename "jsconfig") && endsWith filename ".json"

def isRecognizedConfig (path : String) : Bool :=
  recognizedConfigs.contains (basename path) || isTsconfigOrJsconfigJsonName (basename path)

def scopeOf (path : String) : ConfigScope :=
  if contains path '/' then .directory (((rsplitOnce path '/').map Prod.fst).getD "") else .global

def inScope (path : String) : ConfigScope → Bool
  | .global => true
  | .directory dir => startsWith path (dir ++ "/")

structure Classified where
  files : List FileClassification
  changedConfigs : List ChangedConfig
  currentFileUids : BTreeSet String

def classify (parentHashes : BTreeMap String String) (cf : CurrentFileState) : FileClassification :=
  let (disposition, reason) : Disposition × String :=
    match parentHashes[cf.fileUid]? with
    | none => (.new, "not in parent snapshot")
    | some ph => if ph = cf.contentHash then (.unchanged, "hash match") else (.changed, "hash changed")
  { path := cf.path
    fileUid := cf.fileUid
    disposition
    reason
    currentHash := some cf.contentHash
    parentHash := parentHashes[cf.fileUid]? }

def classifyStep (parentHashes : BTreeMap String String) (acc : Classified) (cf : CurrentFileState) : Classified :=
  let f := classify parentHashes cf
  { currentFileUids := acc.currentFileUids.insert cf.fileUid
    changedConfigs :=
      if f.disposition = .changed ∧ isRecognizedConfig cf.path then
        acc.changedConfigs ++ [{ path := cf.path, scope := scopeOf cf.path }]
      else acc.changedConfigs
    files := acc.files ++ [f] }

def classifyCurrent (parentHashes : BTreeMap String String) (currentFiles : List CurrentFileState) : Classified :=
  currentFiles.foldl (classifyStep parentHashes) { files := [], changedConfigs := [], currentFileUids := ∅ }

def deletedPath (repoUid fileUid : String) : String := (stripPrefix fileUid (repoUid ++ ":")).getD fileUid

def deletedEntry (repoUid : String) (entry : String × String) : FileClassification :=
  { path := deletedPath repoUid entry.1
    fileUid := entry.1
    disposition := .deleted
    reason := "not in current tree"
    currentHash := none
    parentHash := some entry.2 }

def detectDeleted (repoUid : String) (parentHashes : BTreeMap String String) (current : BTreeSet String)
    (files : List FileClassification) : List FileClassification :=
  parentHashes.toList.foldl
    (fun files entry => if entry.1 ∈ current then files else files ++ [deletedEntry repoUid entry]) files

def widen (changedConfigs : List ChangedConfig) (f : FileClassification) : FileClassification :=
  if f.disposition ≠ .unchanged then f
  else
    match changedConfigs.find? fun cc => inScope f.path cc.scope with
    | some cc => { f with disposition := .configWidened, reason := "config changed: " ++ cc.path }
    | none => f

structure PlanLists where
  filesToExtract : List String
  filesToCopy : List String
  filesToDelete : List String
  counts : InvalidationCounts
  deriving DecidableEq, Repr

def listStep (acc : PlanLists) (f : FileClassification) : PlanLists :=
  match f.disposition with
  | .unchanged =>
    { acc with
      filesToCopy := acc.filesToCopy ++ [f.path]
      counts := { acc.counts with unchanged := acc.counts.unchanged + 1 } }
  | .changed =>
    { acc with
      filesToExtract := acc.filesToExtract ++ [f.path]
      counts := { acc.counts with changed := acc.counts.changed + 1 } }
  | .new =>
    { acc with
      filesToExtract := acc.filesToExtract ++ [f.path]
      counts := { acc.counts with new := acc.counts.new + 1 } }
  | .deleted =>
    { acc with
      filesToDelete := acc.filesToDelete ++ [f.path]
      counts := { acc.counts with deleted := acc.counts.deleted + 1 } }
  | .configWidened =>
    { acc with
      filesToExtract := acc.filesToExtract ++ [f.path]
      counts := { acc.counts with configWidened := acc.counts.configWidened + 1 } }

def noCounts : InvalidationCounts :=
  { unchanged := 0, changed := 0, new := 0, deleted := 0, configWidened := 0, total := 0 }

def planLists (files : List FileClassification) : PlanLists :=
  files.foldl listStep { filesToExtract := [], filesToCopy := [], filesToDelete := [], counts := noCounts }

def buildInvalidationPlan (parentSnapshotUid : String) (parentHashes : BTreeMap String String)
    (currentFiles : List CurrentFileState) (repoUid : String) : InvalidationPlan :=
  let classified := classifyCurrent parentHashes currentFiles
  let files := detectDeleted repoUid parentHashes classified.currentFileUids classified.files
  let files := if classified.changedConfigs = [] then files else files.map (widen classified.changedConfigs)
  let lists := planLists files
  { parentSnapshotUid
    files
    changedConfigs := classified.changedConfigs
    filesToExtract := lists.filesToExtract
    filesToCopy := lists.filesToCopy
    filesToDelete := lists.filesToDelete
    counts := { lists.counts with total := files.length } }

section Loops

variable (parentHashes : BTreeMap String String)

def hashKept (f : CurrentFileState) : Bool := decide (parentHashes[f.fileUid]? = some f.contentHash)

def hashChanged (f : CurrentFileState) : Bool := parentHashes[f.fileUid]?.isSome && !hashKept parentHashes f

def configChanged (f : CurrentFileState) : Bool := hashChanged parentHashes f && isRecognizedConfig f.path

/-- The file has its parent hash, and no recognized config of changed hash has it in scope. -/
def copied (currentFiles : List CurrentFileState) (f : CurrentFileState) : Bool :=
  hashKept parentHashes f &&
    currentFiles.all fun c => !(configChanged parentHashes c && inScope f.path (scopeOf c.path))

lemma classify_unchanged (f : CurrentFileState) :
    (classify parentHashes f).disposition = .unchanged ↔ hashKept parentHashes f := by
  unfold classify hashKept
  rcases h : parentHashes[f.fileUid]? with _ | ph
  · simp
  · by_cases hp : ph = f.contentHash <;> simp [hp]

lemma classify_changed (f : CurrentFileState) :
    (classify parentHashes f).disposition = .changed ↔ hashChanged parentHashes f := by
  unfold classify hashChanged hashKept
  rcases h : parentHashes[f.fileUid]? with _ | ph
  · simp
  · by_cases hp : ph = f.contentHash <;> simp [hp]

lemma classify_not_deleted (f : CurrentFileState) : (classify parentHashes f).disposition ≠ .deleted := by
  unfold classify
  rcases h : parentHashes[f.fileUid]? with _ | ph
  · simp
  · by_cases hp : ph = f.contentHash <;> simp [hp]

@[simp] lemma classify_path (f : CurrentFileState) : (classify parentHashes f).path = f.path := rfl

def changedConfigOf (f : CurrentFileState) : ChangedConfig := { path := f.path, scope := scopeOf f.path }

lemma foldl_classifyStep (l : List CurrentFileState) (acc : Classified) :
    (l.foldl (classifyStep parentHashes) acc).files = acc.files ++ l.map (classify parentHashes) ∧
    (l.foldl (classifyStep parentHashes) acc).changedConfigs =
      acc.changedConfigs ++ (l.filter (configChanged parentHashes)).map changedConfigOf ∧
    ∀ uid, uid ∈ (l.foldl (classifyStep parentHashes) acc).currentFileUids ↔
      uid ∈ acc.currentFileUids ∨ ∃ f ∈ l, f.fileUid = uid := by
  induction l generalizing acc with
  | nil => simp
  | cons f l ih =>
    obtain ⟨h₁, h₂, h₃⟩ := ih (classifyStep parentHashes acc f)
    refine ⟨?_, ?_, ?_⟩
    · rw [List.foldl_cons, h₁]
      simp [classifyStep]
    · rw [List.foldl_cons, h₂]
      by_cases hc : configChanged parentHashes f = true
      · have hc' : (classify parentHashes f).disposition = .changed ∧ isRecognizedConfig f.path = true := by
          rw [classify_changed]
          simpa [configChanged] using hc
        simp [classifyStep, hc, hc', changedConfigOf]
      · have hc' : ¬((classify parentHashes f).disposition = .changed ∧ isRecognizedConfig f.path = true) := by
          rw [classify_changed]
          simpa [configChanged] using hc
        simp [classifyStep, hc, hc']
    · intro uid
      rw [List.foldl_cons, h₃ uid]
      simp [classifyStep]
      grind

lemma classifyCurrent_files (l : List CurrentFileState) :
    (classifyCurrent parentHashes l).files = l.map (classify parentHashes) := by
  exact (foldl_classifyStep parentHashes l _).1

lemma classifyCurrent_changedConfigs (l : List CurrentFileState) :
    (classifyCurrent parentHashes l).changedConfigs =
      (l.filter (configChanged parentHashes)).map changedConfigOf := by
  exact (foldl_classifyStep parentHashes l _).2.1

lemma mem_currentFileUids (l : List CurrentFileState) (uid : String) :
    uid ∈ (classifyCurrent parentHashes l).currentFileUids ↔ ∃ f ∈ l, f.fileUid = uid := by
  apply ((foldl_classifyStep parentHashes l _).2.2 uid).trans
  simp

def absentNow (currentFiles : List CurrentFileState) (uid : String) : Bool :=
  currentFiles.all fun f => f.fileUid != uid

lemma detectDeleted_eq (repoUid : String) (l : List CurrentFileState) (files : List FileClassification) :
    detectDeleted repoUid parentHashes (classifyCurrent parentHashes l).currentFileUids files =
      files ++ (parentHashes.toList.filter fun e => absentNow l e.1).map (deletedEntry repoUid) := by
  have hmem : ∀ uid, uid ∈ (classifyCurrent parentHashes l).currentFileUids ↔ absentNow l uid = false := by
    intro uid
    rw [mem_currentFileUids]
    simp [absentNow]
  unfold detectDeleted
  induction parentHashes.toList generalizing files with
  | nil => simp
  | cons e es ih =>
    rw [List.foldl_cons, ih]
    by_cases he : absentNow l e.1 = true
    · have : e.1 ∉ (classifyCurrent parentHashes l).currentFileUids := by simp [hmem, he]
      simp [he, this]
    · have : e.1 ∈ (classifyCurrent parentHashes l).currentFileUids := by simpa [hmem] using he
      simp [he, this]

lemma widen_nil (f : FileClassification) : widen [] f = f := by
  unfold widen
  split <;> rfl

lemma widen_unchanged (ccs : List ChangedConfig) (f : FileClassification) :
    (widen ccs f).disposition = .unchanged ↔
      f.disposition = .unchanged ∧ ∀ cc ∈ ccs, inScope f.path cc.scope = false := by
  by_cases hf : f.disposition = .unchanged
  · rcases h : ccs.find? (fun cc => inScope f.path cc.scope) with _ | cc
    · have hnone : ∀ cc ∈ ccs, inScope f.path cc.scope = false := by simpa using h
      simp only [widen, hf, h, true_and]
      simpa [hf] using hnone
    · have hcc : ∃ cc ∈ ccs, inScope f.path cc.scope = true :=
        ⟨cc, List.mem_of_find?_eq_some h, by simpa using List.find?_some h⟩
      simp only [widen, hf, h, true_and]
      simpa using hcc
  · simp [widen, hf]

lemma widen_deleted (ccs : List ChangedConfig) (f : FileClassification) :
    (widen ccs f).disposition = .deleted ↔ f.disposition = .deleted := by
  by_cases hf : f.disposition = .unchanged
  · rcases h : ccs.find? (fun cc => inScope f.path cc.scope) with _ | cc <;> simp [widen, hf, h]
  · simp [widen, hf]

@[simp] lemma widen_path (ccs : List ChangedConfig) (f : FileClassification) : (widen ccs f).path = f.path := by
  by_cases hf : f.disposition = .unchanged
  · rcases h : ccs.find? (fun cc => inScope f.path cc.scope) with _ | cc <;> simp [widen, hf, h]
  · simp [widen, hf]

lemma widen_deletedEntry (ccs : List ChangedConfig) (repoUid : String) (e : String × String) :
    widen ccs (deletedEntry repoUid e) = deletedEntry repoUid e := by
  simp [widen, deletedEntry]

lemma buildInvalidationPlan_files (parentSnapshotUid repoUid : String) (l : List CurrentFileState) :
    (buildInvalidationPlan parentSnapshotUid parentHashes l repoUid).files =
      (l.map fun f => widen (classifyCurrent parentHashes l).changedConfigs (classify parentHashes f)) ++
        (parentHashes.toList.filter fun e => absentNow l e.1).map (deletedEntry repoUid) := by
  have hmap : ∀ ccs : List ChangedConfig, ∀ files : List FileClassification,
      (if ccs = [] then files else files.map (widen ccs)) = files.map (widen ccs) := by
    intro ccs files
    by_cases h : ccs = []
    · subst h
      rw [if_pos rfl]
      exact (List.map_id'' widen_nil files).symm
    · rw [if_neg h]
  have hdel : ∀ ccs : List ChangedConfig, widen ccs ∘ deletedEntry repoUid = deletedEntry repoUid :=
    fun ccs => funext (widen_deletedEntry ccs repoUid)
  simp only [buildInvalidationPlan]
  rw [hmap, detectDeleted_eq, classifyCurrent_files, List.map_append, List.map_map, List.map_map, hdel]
  rfl

end Loops

def InvalidationCounts.sum (c : InvalidationCounts) : ℕ :=
  c.unchanged + c.changed + c.new + c.deleted + c.configWidened

def extracted (f : FileClassification) : Bool := f.disposition ≠ .unchanged ∧ f.disposition ≠ .deleted

lemma foldl_listStep (files : List FileClassification) (acc : PlanLists) :
    (files.foldl listStep acc).filesToExtract = acc.filesToExtract ++ (files.filter extracted).map (·.path) ∧
    (files.foldl listStep acc).filesToCopy =
      acc.filesToCopy ++ (files.filter (·.disposition = .unchanged)).map (·.path) ∧
    (files.foldl listStep acc).filesToDelete =
      acc.filesToDelete ++ (files.filter (·.disposition = .deleted)).map (·.path) ∧
    (files.foldl listStep acc).counts.sum = acc.counts.sum + files.length := by
  induction files generalizing acc with
  | nil => simp
  | cons f files ih =>
    obtain ⟨h₁, h₂, h₃, h₄⟩ := ih (listStep acc f)
    rw [List.foldl_cons, h₁, h₂, h₃, h₄]
    rcases hf : f.disposition <;>
      simp [listStep, hf, extracted, InvalidationCounts.sum] <;> omega

section Plan

variable (parentSnapshotUid repoUid : String) (parentHashes : BTreeMap String String)
  (currentFiles : List CurrentFileState)

lemma planned_unchanged (f : CurrentFileState) :
    (widen (classifyCurrent parentHashes currentFiles).changedConfigs (classify parentHashes f)).disposition =
      .unchanged ↔ copied parentHashes currentFiles f = true := by
  rw [widen_unchanged, classify_unchanged, classifyCurrent_changedConfigs]
  simp only [copied, Bool.and_eq_true, List.all_eq_true, Bool.not_eq_true', List.mem_map, List.mem_filter,
    classify_path, changedConfigOf]
  constructor
  · rintro ⟨hk, hcc⟩
    refine ⟨hk, fun c hc => ?_⟩
    by_cases hch : configChanged parentHashes c = true
    · simpa [hch] using hcc _ ⟨c, ⟨hc, hch⟩, rfl⟩
    · simp [hch]
  · rintro ⟨hk, hcc⟩
    refine ⟨hk, ?_⟩
    rintro _ ⟨c, ⟨hc, hch⟩, rfl⟩
    simpa [hch] using hcc c hc

lemma planned_not_deleted (f : CurrentFileState) :
    (widen (classifyCurrent parentHashes currentFiles).changedConfigs (classify parentHashes f)).disposition ≠
      .deleted := by
  intro h
  rw [widen_deleted] at h
  exact classify_not_deleted parentHashes f h

lemma deletedEntries_disposition (entries : List (String × String)) :
    ∀ g ∈ entries.map (deletedEntry repoUid), g.disposition = .deleted := by
  intro g hg
  obtain ⟨e, _, rfl⟩ := List.mem_map.1 hg
  rfl

lemma planLists_plan :
    (buildInvalidationPlan parentSnapshotUid parentHashes currentFiles repoUid).filesToExtract =
      (planLists (buildInvalidationPlan parentSnapshotUid parentHashes currentFiles
        repoUid).files).filesToExtract ∧
    (buildInvalidationPlan parentSnapshotUid parentHashes currentFiles repoUid).filesToCopy =
      (planLists (buildInvalidationPlan parentSnapshotUid parentHashes currentFiles repoUid).files).filesToCopy ∧
    (buildInvalidationPlan parentSnapshotUid parentHashes currentFiles repoUid).filesToDelete =
      (planLists (buildInvalidationPlan parentSnapshotUid parentHashes currentFiles
        repoUid).files).filesToDelete := by
  exact ⟨rfl, rfl, rfl⟩

lemma filesToCopy_eq :
    (buildInvalidationPlan parentSnapshotUid parentHashes currentFiles repoUid).filesToCopy =
      (currentFiles.filter (copied parentHashes currentFiles)).map (·.path) := by
  rw [(planLists_plan _ _ _ _).2.1, planLists, (foldl_listStep _ _).2.1, buildInvalidationPlan_files]
  rw [List.nil_append, List.filter_append, List.map_append, List.filter_map, List.map_map]
  have hcur : ∀ f ∈ currentFiles, ((fun g : FileClassification => decide (g.disposition = .unchanged)) ∘ fun f =>
      widen (classifyCurrent parentHashes currentFiles).changedConfigs (classify parentHashes f)) f =
        copied parentHashes currentFiles f := by
    intro f _
    rw [Bool.eq_iff_iff, Function.comp_apply, decide_eq_true_iff]
    exact planned_unchanged parentHashes currentFiles f
  rw [List.filter_congr hcur]
  have hdel : ((parentHashes.toList.filter fun e => absentNow currentFiles e.1).map (deletedEntry repoUid)).filter
      (fun g => decide (g.disposition = .unchanged)) = [] := by
    rw [List.filter_eq_nil_iff]
    intro g hg
    simp [deletedEntries_disposition repoUid _ g hg]
  rw [hdel, List.map_nil, List.append_nil]
  apply List.map_congr_left
  intro f _
  simp

lemma filesToExtract_eq :
    (buildInvalidationPlan parentSnapshotUid parentHashes currentFiles repoUid).filesToExtract =
      (currentFiles.filter fun f => !copied parentHashes currentFiles f).map (·.path) := by
  rw [(planLists_plan _ _ _ _).1, planLists, (foldl_listStep _ _).1, buildInvalidationPlan_files]
  rw [List.nil_append, List.filter_append, List.map_append, List.filter_map, List.map_map]
  have hcur : ∀ f ∈ currentFiles, (extracted ∘ fun f =>
      widen (classifyCurrent parentHashes currentFiles).changedConfigs (classify parentHashes f)) f =
        !copied parentHashes currentFiles f := by
    intro f _
    have hd := planned_not_deleted parentHashes currentFiles f
    have hu := planned_unchanged parentHashes currentFiles f
    by_cases hc : copied parentHashes currentFiles f = true
    · simp [extracted, hc, hu.2 hc]
    · simp [extracted, hc, hd, hu]
  rw [List.filter_congr hcur]
  have hdel : ((parentHashes.toList.filter fun e => absentNow currentFiles e.1).map (deletedEntry repoUid)).filter
      extracted = [] := by
    rw [List.filter_eq_nil_iff]
    intro g hg
    simp [extracted, deletedEntries_disposition repoUid _ g hg]
  rw [hdel, List.map_nil, List.append_nil]
  apply List.map_congr_left
  intro f _
  simp

lemma filesToDelete_eq :
    (buildInvalidationPlan parentSnapshotUid parentHashes currentFiles repoUid).filesToDelete =
      (parentHashes.keys.filter (absentNow currentFiles)).map (deletedPath repoUid) := by
  rw [(planLists_plan _ _ _ _).2.2, planLists, (foldl_listStep _ _).2.2.1, buildInvalidationPlan_files]
  rw [List.nil_append, List.filter_append, List.map_append]
  have hcur : (currentFiles.map fun f =>
      widen (classifyCurrent parentHashes currentFiles).changedConfigs (classify parentHashes f)).filter
        (fun g => decide (g.disposition = .deleted)) = [] := by
    rw [List.filter_eq_nil_iff]
    simp [planned_not_deleted]
  have hdel : ((parentHashes.toList.filter fun e => absentNow currentFiles e.1).map (deletedEntry repoUid)).filter
      (fun g => decide (g.disposition = .deleted)) =
        (parentHashes.toList.filter fun e => absentNow currentFiles e.1).map (deletedEntry repoUid) := by
    rw [List.filter_eq_self]
    intro g hg
    simp [deletedEntries_disposition repoUid _ g hg]
  rw [hcur, hdel, List.map_nil, List.nil_append, ← Std.ExtTreeMap.map_fst_toList_eq_keys, List.filter_map,
    List.map_map, List.map_map]
  rfl

lemma counts_sum :
    (buildInvalidationPlan parentSnapshotUid parentHashes currentFiles repoUid).counts.sum =
      (buildInvalidationPlan parentSnapshotUid parentHashes currentFiles repoUid).counts.total := by
  have h := (foldl_listStep (buildInvalidationPlan parentSnapshotUid parentHashes currentFiles repoUid).files
    { filesToExtract := [], filesToCopy := [], filesToDelete := [], counts := noCounts }).2.2.2
  apply h.trans
  simp [noCounts, InvalidationCounts.sum, buildInvalidationPlan]

/-- The plan splits the current files by `copied`, and drops the parent files that are gone. -/
theorem plan_partition (hu : (currentFiles.map (·.fileUid)).Nodup) :
    (buildInvalidationPlan parentSnapshotUid parentHashes currentFiles repoUid).filesToCopy =
      (currentFiles.filter (copied parentHashes currentFiles)).map (·.path) ∧
    (buildInvalidationPlan parentSnapshotUid parentHashes currentFiles repoUid).filesToExtract =
      (currentFiles.filter fun f => !copied parentHashes currentFiles f).map (·.path) ∧
    ((∀ f ∈ currentFiles, f.fileUid = repoUid ++ ":" ++ f.path) → ∀ f ∈ currentFiles,
      (f.path ∈ (buildInvalidationPlan parentSnapshotUid parentHashes currentFiles repoUid).filesToExtract ↔
        f.path ∉ (buildInvalidationPlan parentSnapshotUid parentHashes currentFiles repoUid).filesToCopy)) ∧
    (buildInvalidationPlan parentSnapshotUid parentHashes currentFiles repoUid).filesToDelete =
      (parentHashes.keys.filter fun uid => currentFiles.all fun f => f.fileUid != uid).map (deletedPath repoUid) ∧
    (buildInvalidationPlan parentSnapshotUid parentHashes currentFiles repoUid).counts.sum =
      (buildInvalidationPlan parentSnapshotUid parentHashes currentFiles repoUid).counts.total ∧
    (buildInvalidationPlan parentSnapshotUid parentHashes currentFiles repoUid).counts.total =
      currentFiles.length +
        (buildInvalidationPlan parentSnapshotUid parentHashes currentFiles repoUid).filesToDelete.length ∧
    ∀ f ∈ currentFiles, (copied parentHashes currentFiles f = true ↔
      parentHashes[f.fileUid]? = some f.contentHash ∧ ∀ c ∈ currentFiles, isRecognizedConfig c.path →
        inScope f.path (scopeOf c.path) → ∀ h, parentHashes[c.fileUid]? = some h → h = c.contentHash) := by
  refine ⟨filesToCopy_eq _ _ _ _, filesToExtract_eq _ _ _ _, ?_, filesToDelete_eq _ _ _ _, counts_sum _ _ _ _,
    ?_, ?_⟩
  · intro hp f hf
    have hpath : ∀ g ∈ currentFiles, g.path = f.path → g = f := by
      intro g hg hgf
      apply List.inj_on_of_nodup_map hu hg hf
      rw [hp g hg, hp f hf, hgf]
    rw [filesToCopy_eq, filesToExtract_eq]
    simp only [List.mem_map, List.mem_filter, Bool.not_eq_true', not_exists, not_and]
    constructor
    · rintro ⟨g, ⟨hg, hc⟩, hgf⟩ g' ⟨hg', hc'⟩ hgf'
      rw [hpath g hg hgf] at hc
      rw [hpath g' hg' hgf', hc] at hc'
      exact Bool.false_ne_true hc'
    · intro h
      refine ⟨f, ⟨hf, ?_⟩, rfl⟩
      rw [← Bool.not_eq_true]
      exact fun hc => h f ⟨hf, hc⟩ rfl
  · rw [filesToDelete_eq]
    change (buildInvalidationPlan parentSnapshotUid parentHashes currentFiles repoUid).files.length = _
    rw [buildInvalidationPlan_files, List.length_append, List.length_map, List.length_map, List.length_map,
      ← Std.ExtTreeMap.map_fst_toList_eq_keys, List.filter_map, List.length_map]
    rfl
  · intro f _
    simp only [copied, hashKept, configChanged, hashChanged, Bool.and_eq_true, decide_eq_true_eq, List.all_eq_true,
      Bool.not_eq_true', Bool.and_eq_false_iff]
    apply and_congr_right
    intro _
    apply forall₂_congr
    intro c _
    rcases hc : parentHashes[c.fileUid]? with _ | h
    · simp
    · simp
      grind

end Plan

def sampleParent : BTreeMap String String :=
  .ofList [("r:package.json", "p0"), ("r:lib/tsconfig.json", "t0"), ("r:lib/a.ts", "a0"), ("r:src/b.ts", "b0"),
    ("r:src/gone.ts", "g0")] compare

def sampleFiles : List CurrentFileState :=
  [{ fileUid := "r:lib/tsconfig.json", path := "lib/tsconfig.json", contentHash := "t1" },
    { fileUid := "r:lib/a.ts", path := "lib/a.ts", contentHash := "a0" },
    { fileUid := "r:src/tsconfig.json", path := "src/tsconfig.json", contentHash := "n0" },
    { fileUid := "r:src/b.ts", path := "src/b.ts", contentHash := "b0" }]

theorem plan_partition_sample :
    (buildInvalidationPlan "s" sampleParent sampleFiles "r").filesToCopy =
      (sampleFiles.filter (copied sampleParent sampleFiles)).map (·.path) :=
  (plan_partition "s" "r" sampleParent sampleFiles (by decide)).1

/-- A file is copied although a config with the file in its scope is gone, and another one is new. -/
theorem plan_copies_under_deleted_config :
    (¬∀ (parentSnapshotUid repoUid : String) (parentHashes : BTreeMap String String)
      (currentFiles : List CurrentFileState), (currentFiles.map (·.fileUid)).Nodup → ∀ f ∈ currentFiles,
      f.path ∈ (buildInvalidationPlan parentSnapshotUid parentHashes currentFiles repoUid).filesToCopy →
      ∀ config, isRecognizedConfig config → inScope f.path (scopeOf config) →
        parentHashes[repoUid ++ ":" ++ config]? =
          (currentFiles.find? (·.fileUid = repoUid ++ ":" ++ config)).map (·.contentHash)) ∧
    "src/b.ts" ∈ (buildInvalidationPlan "s" sampleParent sampleFiles "r").filesToCopy ∧
    isRecognizedConfig "src/tsconfig.json" ∧ inScope "src/b.ts" (scopeOf "src/tsconfig.json") ∧
    sampleParent["r:src/tsconfig.json"]? = none ∧ "r:src/tsconfig.json" ∈ sampleFiles.map (·.fileUid) := by
  refine ⟨?_, by decide +kernel, by decide +kernel, by decide +kernel, by decide +kernel, by decide⟩
  intro h
  have hc := h "s" "r" sampleParent sampleFiles (by decide)
    { fileUid := "r:src/b.ts", path := "src/b.ts", contentHash := "b0" } (by decide) (by decide +kernel)
    "package.json" (by decide +kernel) (by decide +kernel)
  revert hc
  decide +kernel

end RepoGraph.Indexer
