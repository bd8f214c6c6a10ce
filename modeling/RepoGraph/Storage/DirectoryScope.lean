import RepoGraph.Storage.PathScope

/-! When the reads of a directory answer for the files under it, by the components of the paths. -/

namespace RepoGraph.Storage

open Lib Classification

/-- The components of a directory; the empty text and the dot stand for the root, which has none. -/
def componentsOf (text : List Char) : List (List Char) :=
  if text = [] ∨ text = ['.'] then [] else Text.splitAll '/' text

def dirComponents (dir : String) : List (List Char) := componentsOf (trimEndSlashes dir)

def pathComponents (path : String) : List (List Char) := Text.splitAll '/' path.toList

def Under (dir path : String) : Prop :=
  dirComponents dir <+: pathComponents path ∧ dirComponents dir ≠ pathComponents path

def AtOrUnder (dir path : String) : Prop := path = dir ∨ Under dir path

instance (dir path : String) : Decidable (Under dir path) := inferInstanceAs (Decidable (_ ∧ _))

instance (dir path : String) : Decidable (AtOrUnder dir path) := inferInstanceAs (Decidable (_ ∨ _))

def Beneath (dir : List Char → Prop) (path : String) : Prop := ∃ q r, path.toList = q ++ '/' :: r ∧ dir q

def MatchedBy (pattern q : List Char) : Prop := Like.like none pattern q

def SameLetters (dir q : List Char) : Prop := q.map Like.fold = dir.map Like.fold

def CaseVariant (dir q : List Char) : Prop := SameLetters dir q ∧ q ≠ dir

/-- The path is in a directory that reads like the given one, and not in it. -/
def Misread (pattern : List Char) (dir path : String) : Prop := ¬ Under dir path ∧ Beneath (MatchedBy pattern) path

def FromRoot (dir path : String) : Prop := trimEndSlashes dir ++ ['/'] <+: path.toList

section Meaning

variable {dir path : String}

lemma componentsOf_eq_nil {text : List Char} : componentsOf text = [] ↔ text = [] ∨ text = ['.'] := by
  rw [componentsOf, ite_eq_left_iff, not_imp_comm, imp_iff_right (Text.splitAll_ne_nil '/' text)]

lemma componentsOf_of_ne_nil {text : List Char} (h : componentsOf text ≠ []) :
    componentsOf text = Text.splitAll '/' text := if_neg (componentsOf_eq_nil.not.mp h)

lemma under_iff (hroot : dirComponents dir ≠ []) : Under dir path ↔ Beneath (· = trimEndSlashes dir) path := by
  have hdir : dirComponents dir = Text.splitAll '/' (trimEndSlashes dir) := componentsOf_of_ne_nil hroot
  rw [Under, hdir, pathComponents, Text.splitAll_proper_prefix_iff]
  constructor
  · rintro ⟨r, hr⟩
    exact ⟨_, r, hr, rfl⟩
  · rintro ⟨q, r, hr, rfl⟩
    exact ⟨r, hr⟩

lemma matchedBy_self (d : List Char) : MatchedBy d d := by
  rw [MatchedBy, Like.like, Like.parse_none]
  exact Like.run_self d

lemma matchedBy_plain {d q : List Char} (hplain : ∀ c ∈ d, c ≠ '%' ∧ c ≠ '_') :
    MatchedBy d q ↔ SameLetters d q := by
  rw [MatchedBy, Like.like, Like.parse_none, Like.map_stepOf hplain]
  exact Like.run_literals d q

lemma Beneath.mono {p q : List Char → Prop} (h : Beneath p path) (hpq : ∀ d, p d → q d) : Beneath q path :=
  h.imp fun _ h => h.imp fun _ h => ⟨h.1, hpq _ h.2⟩

lemma Under.beneath_matchedBy (h : Under dir path) (hroot : dirComponents dir ≠ []) :
    Beneath (MatchedBy (trimEndSlashes dir)) path :=
  ((under_iff hroot).mp h).mono fun _ hd => hd ▸ matchedBy_self _

lemma beneath_root (hroot : dirComponents dir = []) :
    Beneath (MatchedBy (trimEndSlashes dir)) path ↔ FromRoot dir path := by
  have htext : ∀ c ∈ trimEndSlashes dir, c = '.' := by
    rcases componentsOf_eq_nil.mp hroot with h | h <;> simp [h]
  have hmatch : ∀ q, MatchedBy (trimEndSlashes dir) q ↔ q = trimEndSlashes dir := by
    intro q
    rw [matchedBy_plain fun c hc => htext c hc ▸ by decide, SameLetters, Like.map_fold_eq]
    intro c hc
    rw [htext c hc]
    decide
  simp only [Beneath, hmatch, FromRoot]
  constructor
  · rintro ⟨q, r, hpath, rfl⟩
    exact ⟨r, by rw [hpath, List.append_assoc, List.singleton_append]⟩
  · rintro ⟨r, hr⟩
    exact ⟨_, r, by rw [← hr, List.append_assoc, List.singleton_append], rfl⟩

lemma Under.seen_iff (h : Under dir path) :
    Beneath (MatchedBy (trimEndSlashes dir)) path ↔ (dirComponents dir = [] → FromRoot dir path) := by
  by_cases hroot : dirComponents dir = []
  · rw [beneath_root hroot, forall_prop_of_true hroot]
  · rw [forall_prop_of_false hroot]
    exact iff_of_true (h.beneath_matchedBy hroot) trivial

end Meaning

namespace ScopeTables

variable (t : ScopeTables) (snapshotUid repoUid dir : String)

section Imports

def readable (row : ImportRow) : Prop := ∃ c, ImportClass.fromResolution row.resolution = .ok c

/-- The import seems to go from one directory to the other, when their texts are taken as patterns. -/
def SeemsToCross (source target : String) (row : ImportRow) : Prop :=
  Beneath (MatchedBy (trimEndSlashes source)) row.sourceFile ∧
    Beneath (MatchedBy (trimEndSlashes target)) row.targetFile

def Crosses (source target : String) (row : ImportRow) : Prop :=
  Under source row.sourceFile ∧ Under target row.targetFile

instance (source target : String) (row : ImportRow) : Decidable (Crosses source target row) :=
  inferInstanceAs (Decidable (_ ∧ _))

lemma like_beneathPattern (d path : String) :
    Like.like none (beneathPattern d) path.toList ↔ Beneath (MatchedBy (trimEndSlashes d)) path := by
  rw [beneathPattern, Like.like_beneath_twice]
  simp only [Beneath, MatchedBy, Like.like, Like.parse_none]

lemma selects_iff_seemsToCross (source target : String) (row : ImportRow) :
    (Like.like none (beneathPattern source) row.sourceFile.toList &&
      Like.like none (beneathPattern target) row.targetFile.toList) ↔ SeemsToCross source target row := by
  rw [Bool.and_eq_true]
  exact and_congr (like_beneathPattern source _) (like_beneathPattern target _)

def ImportsExact (source target : String) : Prop :=
  ∃ imports, select byFileAndLine (Crosses source target ·) (readImportRow snapshotUid)
    (t.importRows snapshotUid) = .ok imports ∧ t.findImportsBetweenPaths snapshotUid source target = .ok imports

lemma readImportRow_ok {row : ImportRow} {r : ImportEdgeResult} (h : readImportRow snapshotUid row = .ok r) :
    ImportClass.fromResolution row.resolution = .ok r.importClass ∧ r.sourceFile = row.sourceFile ∧
      r.targetFile = row.targetFile := by
  unfold readImportRow at h
  split at h
  · rename_i hc
    obtain rfl := Except.ok.inj h
    exact ⟨hc, rfl, rfl⟩
  · cases h

lemma readImportRow_returns (row : ImportRow) : (∃ r, readImportRow snapshotUid row = .ok r) ↔ readable row := by
  constructor
  · rintro ⟨r, h⟩
    exact ⟨_, (readImportRow_ok snapshotUid h).1⟩
  · rintro ⟨c, hc⟩
    exact ⟨_, by rw [readImportRow, hc]⟩

lemma importsExact_iff_row (source target : String) : t.ImportsExact snapshotUid source target ↔
    ∀ row ∈ t.importRows snapshotUid, (SeemsToCross source target row ↔ Crosses source target row) ∧
      (Crosses source target row → readable row) := by
  rw [ImportsExact, findImportsBetweenPaths, select_same_iff]
  · simp only [selects_iff_seemsToCross, decide_eq_true_eq, readImportRow_returns]
  · intro row r row' h h'
    obtain ⟨-, hs, ht⟩ := readImportRow_ok snapshotUid h
    obtain ⟨-, hs', ht'⟩ := readImportRow_ok snapshotUid h'
    have hsource : row.sourceFile = row'.sourceFile := hs.symm.trans hs'
    have htarget : row.targetFile = row'.targetFile := ht.symm.trans ht'
    refine ⟨by rw [hsource, htarget], decide_eq_decide.mpr ?_⟩
    rw [Crosses, Crosses, hsource, htarget]

/-- What goes wrong is that a directory is taken for another that reads like it, that the root is taken for what is
written behind its text, and that a resolution cannot be read. -/
theorem importsExact_iff (source target : String) : t.ImportsExact snapshotUid source target ↔
    ∀ row ∈ t.importRows snapshotUid,
      (SeemsToCross source target row → ¬ Misread (trimEndSlashes source) source row.sourceFile ∧
        ¬ Misread (trimEndSlashes target) target row.targetFile) ∧
      (Crosses source target row → readable row ∧ (dirComponents source = [] → FromRoot source row.sourceFile) ∧
        (dirComponents target = [] → FromRoot target row.targetFile)) := by
  rw [importsExact_iff_row]
  refine forall₂_congr fun row _ => ?_
  constructor
  · rintro ⟨hsame, hread⟩
    constructor
    · intro hseems
      obtain ⟨hsource, htarget⟩ := hsame.mp hseems
      exact ⟨fun h => h.1 hsource, fun h => h.1 htarget⟩
    · intro hcrosses
      obtain ⟨hsource, htarget⟩ := hsame.mpr hcrosses
      exact ⟨hread hcrosses, hcrosses.1.seen_iff.mp hsource, hcrosses.2.seen_iff.mp htarget⟩
  · rintro ⟨hseems, hcrosses⟩
    refine ⟨⟨fun h => ?_, fun h => ?_⟩, fun h => (hcrosses h).1⟩
    · obtain ⟨hsource, htarget⟩ := hseems h
      exact ⟨by_contra fun hnot => hsource ⟨hnot, h.1⟩, by_contra fun hnot => htarget ⟨hnot, h.2⟩⟩
    · obtain ⟨-, hsource, htarget⟩ := hcrosses h
      exact ⟨h.1.seen_iff.mpr hsource, h.2.seen_iff.mpr htarget⟩

end Imports

section Dead

def inScope (n : LocatedNode) : Bool := (t.nodePath n).any (AtOrUnder dir ·)

def SeemsInScope (n : LocatedNode) : Prop :=
  ∃ path, t.nodePath n = some path ∧ (path = dir ∨ Beneath (MatchedBy dir.toList) path)

def MisreadInScope (n : LocatedNode) : Prop :=
  ∃ path, t.nodePath n = some path ∧ path ≠ dir ∧ Misread dir.toList dir path

/-- The path of the node is in the directory, and this is the root or written with a slash at its end. -/
def MissedInScope (n : LocatedNode) : Prop :=
  ∃ path, t.nodePath n = some path ∧ path ≠ dir ∧ Under dir path ∧
    (dirComponents dir = [] ∨ trimEndSlashes dir ≠ dir.toList) ∧ ¬ Beneath (MatchedBy dir.toList) path

def fileInScope (r : DeadNodeResult) : Bool := r.file.any (AtOrUnder dir ·)

/-- The dead symbols of a directory are the dead symbols whose file is in it; rows that share a name are in no
fixed order. -/
def DeadExact : Prop :=
  ∃ symbols inPath, t.findDeadNodes snapshotUid repoUid (some "SYMBOL") = .ok symbols ∧
    t.findDeadNodesInPath snapshotUid repoUid dir = .ok inPath ∧
    inPath.Perm ((symbols.filter (fileInScope dir)).map .ofResult)

def live (nodeUid : String) : Bool :=
  t.isLive (t.familyMarker snapshotUid .symbolCallDegrees).isSome snapshotUid nodeUid

def testFlag (n : LocatedNode) : SqlValue :=
  ((n.fileUid.bind fun fileUid => t.files.find? (·.fileUid = fileUid)).map (·.isTest)).getD .null

def testFlagReadable (n : LocatedNode) : Prop := t.testFlag n = .null ∨ ∃ value, t.testFlag n = .integer value

lemma mapDeadNodeRow_returns (n : LocatedNode) : (∃ r, t.mapDeadNodeRow n = .ok r) ↔ t.testFlagReadable n := by
  rw [testFlagReadable, testFlag, CallTables.mapDeadNodeRow]
  cases ((n.fileUid.bind fun fileUid => t.files.find? (·.fileUid = fileUid)).map (·.isTest)).getD .null <;>
    simp [bind, Except.bind]

lemma mapDeadNodeRow_ok {n : LocatedNode} {r : DeadNodeResult} (h : t.mapDeadNodeRow n = .ok r) :
    r.stableKey = n.stableKey ∧ r.file = t.nodePath n := by
  simp only [CallTables.mapDeadNodeRow] at h
  split at h
  · obtain rfl := Except.ok.inj h
    exact ⟨rfl, Option.map_bind⟩
  · obtain rfl := Except.ok.inj h
    exact ⟨rfl, Option.map_bind⟩
  · cases h

lemma pathLikeOrEqual_iff (n : LocatedNode) :
    pathLikeOrEqual dir (t.nodePath n) ↔ t.SeemsInScope dir n := by
  rw [SeemsInScope]
  cases t.nodePath n with
  | none => simp [pathLikeOrEqual]
  | some path =>
    have hlike : Like.like none (dir.toList ++ ['/', '%']) path.toList ↔ Beneath (MatchedBy dir.toList) path := by
      rw [Like.like_beneath]
      simp only [Beneath, MatchedBy, Like.like, Like.parse_none]
    simp only [pathLikeOrEqual, Bool.or_eq_true, hlike, decide_eq_true_eq, Option.some.injEq,
      exists_eq_left', or_comm]

lemma rejectUnreadable_ok (op : String) :
    t.rejectUnreadableCallResolutions snapshotUid op = .ok () ↔ t.unreadableCalls snapshotUid = [] := by
  rw [CallTables.rejectUnreadableCallResolutions]
  cases t.unreadableCalls snapshotUid <;> simp

lemma findDeadNodes_ok {symbols : List DeadNodeResult} :
    t.findDeadNodes snapshotUid repoUid (some "SYMBOL") = .ok symbols ↔
      ((t.familyMarker snapshotUid .symbolCallDegrees).isSome ∨ t.unreadableCalls snapshotUid = []) ∧
        select (compareOn (·.name)) (fun n => t.isCandidate snapshotUid repoUid n && !t.live snapshotUid n.nodeUid)
          t.mapDeadNodeRow t.nodes = .ok symbols := by
  have hrows : t.deadRows (t.familyMarker snapshotUid .symbolCallDegrees).isSome snapshotUid
      repoUid (some "SYMBOL") = sortBy (compareOn (·.name)) (t.nodes.filter fun n =>
        t.isCandidate snapshotUid repoUid n && !t.live snapshotUid n.nodeUid) := by
    rw [CallTables.deadRows]
    congr 1
    refine List.filter_congr fun n _ => ?_
    rw [Bool.eq_iff_iff]
    simp only [isCandidate, live, CallTables.isResource, Bool.and_eq_true, decide_eq_true_eq]
    constructor
    · rintro ⟨⟨⟨⟨⟨hs, hl⟩, hk⟩, hd⟩, hi⟩, -⟩
      exact ⟨⟨⟨⟨hs, hk⟩, hd⟩, hi⟩, hl⟩
    · rintro ⟨⟨⟨⟨hs, hk⟩, hd⟩, hi⟩, hl⟩
      exact ⟨⟨⟨⟨⟨hs, hl⟩, hk⟩, hd⟩, hi⟩, by simp [hk]⟩
  rw [CallTables.findDeadNodes, CallTables.findDeadNodesBy, hrows, select]
  cases (t.familyMarker snapshotUid .symbolCallDegrees).isSome with
  | true => simp
  | false =>
    simp only [Bool.false_eq_true, if_false, false_or, bind_ok,
      ← t.rejectUnreadable_ok snapshotUid "find_dead_nodes"]
    constructor
    · rintro ⟨_, h, h'⟩
      exact ⟨h, h'⟩
    · rintro ⟨h, h'⟩
      exact ⟨(), h, h'⟩

lemma findDeadNodesInPath_ok {inPath : List AgentDeadNode} :
    t.findDeadNodesInPath snapshotUid repoUid dir = .ok inPath ↔ t.unreadableCalls snapshotUid = [] ∧
      select (compareOn (·.name)) (fun n => t.isCandidate snapshotUid repoUid n &&
          pathLikeOrEqual dir (t.nodePath n) && !t.isRowTarget snapshotUid n.nodeUid)
        t.mapDeadNodeRowAgent t.nodes = .ok inPath := by
  rw [findDeadNodesInPath, bind_ok, ← t.rejectUnreadable_ok snapshotUid "find_dead_nodes_in_path"]
  exact ⟨fun ⟨_, h, h'⟩ => ⟨h, h'⟩, fun ⟨h, h'⟩ => ⟨(), h, h'⟩⟩

lemma deadExact_iff_row : t.DeadExact snapshotUid repoUid dir ↔
    t.unreadableCalls snapshotUid = [] ∧
    (∀ n ∈ t.nodes, t.isCandidate snapshotUid repoUid n → ¬ t.live snapshotUid n.nodeUid → t.testFlagReadable n) ∧
    ∀ n ∈ t.nodes, t.isCandidate snapshotUid repoUid n →
      (t.SeemsInScope dir n ∧ ¬ t.isRowTarget snapshotUid n.nodeUid ↔
        t.inScope dir n ∧ ¬ t.live snapshotUid n.nodeUid) := by
  have hpart : ∀ n r, t.mapDeadNodeRow n = .ok r → fileInScope dir r = t.inScope dir n := fun n r h => by
    rw [fileInScope, (t.mapDeadNodeRow_ok h).2, inScope]
  have hcandidate : ∀ {n}, t.isCandidate snapshotUid repoUid n → n.snapshotUid = snapshotUid := fun h => by
    simp only [isCandidate, Bool.and_eq_true, decide_eq_true_eq] at h
    exact h.1.1.1
  have hiff := @select_part_iff LocatedNode DeadNodeResult AgentDeadNode DeadNodesError (compareOn (·.name))
    (fun n => t.isCandidate snapshotUid repoUid n && pathLikeOrEqual dir (t.nodePath n) &&
      !t.isRowTarget snapshotUid n.nodeUid) t.mapDeadNodeRow t.nodes
    (fun n => t.isCandidate snapshotUid repoUid n && !t.live snapshotUid n.nodeUid)
      (fileInScope dir) (t.inScope dir)
    .ofResult hpart ?_
  · have hsplit : t.DeadExact snapshotUid repoUid dir ↔ t.unreadableCalls snapshotUid = [] ∧ _ :=
      Iff.trans (b := t.unreadableCalls snapshotUid = [] ∧ ∃ symbols inPath, _ ∧ _ ∧ _)
        ⟨fun ⟨symbols, inPath, hs, hp, hperm⟩ => ⟨(findDeadNodesInPath_ok ..).mp hp |>.1, symbols, inPath,
            ((t.findDeadNodes_ok ..).mp hs).2, ((t.findDeadNodesInPath_ok ..).mp hp).2, hperm⟩,
          fun ⟨hnone, symbols, inPath, hs, hp, hperm⟩ =>
            ⟨symbols, inPath, (t.findDeadNodes_ok ..).mpr ⟨.inr hnone, hs⟩,
            (t.findDeadNodesInPath_ok ..).mpr ⟨hnone, hp⟩, hperm⟩⟩
        (and_congr_right fun _ => hiff)
    rw [hsplit]
    refine and_congr_right fun _ => and_congr (forall₂_congr fun n _ => ?_) (forall₂_congr fun n _ => ?_)
    · rw [Bool.and_eq_true, Bool.not_eq_true', ← Bool.not_eq_true, and_imp, mapDeadNodeRow_returns]
    · have hscope := t.pathLikeOrEqual_iff dir n
      simp only [Bool.and_eq_true, Bool.not_eq_true', ← Bool.not_eq_true, hscope]
      constructor
      · intro h hc
        exact ⟨fun ⟨hs, hr⟩ => ⟨(h.mp ⟨⟨hc, hs⟩, hr⟩).2, (h.mp ⟨⟨hc, hs⟩, hr⟩).1.2⟩,
          fun ⟨hi, hl⟩ => ⟨(h.mpr ⟨⟨hc, hl⟩, hi⟩).1.2, (h.mpr ⟨⟨hc, hl⟩, hi⟩).2⟩⟩
      · intro h
        exact ⟨fun ⟨⟨hc, hs⟩, hr⟩ => ⟨⟨hc, ((h hc).mp ⟨hs, hr⟩).2⟩, ((h hc).mp ⟨hs, hr⟩).1⟩,
          fun ⟨⟨hc, hl⟩, hi⟩ => ⟨⟨hc, ((h hc).mpr ⟨hi, hl⟩).1⟩, ((h hc).mpr ⟨hi, hl⟩).2⟩⟩
  · intro m hm n hn hmsel hnsel r r' hr hr' hg
    have hkey : m.stableKey = n.stableKey := by
      have h := congrArg AgentDeadNode.stableKey hg
      rw [← (t.mapDeadNodeRow_ok hr).1, ← (t.mapDeadNodeRow_ok hr').1]
      exact h
    have hof : ∀ {n}, (t.isCandidate snapshotUid repoUid n && pathLikeOrEqual dir (t.nodePath n) &&
        !t.isRowTarget snapshotUid n.nodeUid) ∨
          (t.isCandidate snapshotUid repoUid n && !t.live snapshotUid n.nodeUid) →
        n.snapshotUid = snapshotUid := fun h => by
      simp only [Bool.and_eq_true] at h
      exact hcandidate (h.elim (·.1.1) (·.1))
    exact t.snapshotKey m hm n hn ((hof hmsel).trans (hof hnsel).symm) hkey

lemma inScope_iff (n : LocatedNode) :
    t.inScope dir n ↔ ∃ path, t.nodePath n = some path ∧ (path = dir ∨ Under dir path) := by
  rw [inScope]
  cases t.nodePath n with
  | none => simp
  | some path =>
    simp only [Option.any_some, Option.some.injEq, exists_eq_left']
    exact decide_eq_true_iff

lemma misreadInScope_iff (n : LocatedNode) :
    t.MisreadInScope dir n ↔ t.SeemsInScope dir n ∧ ¬ t.inScope dir n := by
  rw [inScope_iff, SeemsInScope, MisreadInScope]
  cases t.nodePath n with
  | none => simp
  | some path =>
    simp only [Option.some.injEq, exists_eq_left', Misread]
    tauto

lemma missedInScope_iff (n : LocatedNode) :
    t.MissedInScope dir n ↔ t.inScope dir n ∧ ¬ t.SeemsInScope dir n := by
  rw [inScope_iff, SeemsInScope, MissedInScope]
  cases t.nodePath n with
  | none => simp
  | some path =>
    simp only [Option.some.injEq, exists_eq_left']
    constructor
    · rintro ⟨hne, hunder, -, hnot⟩
      exact ⟨Or.inr hunder, not_or.mpr ⟨hne, hnot⟩⟩
    · rintro ⟨hin, hnot⟩
      obtain ⟨hne, hnot⟩ := not_or.mp hnot
      have hunder := hin.resolve_left hne
      refine ⟨hne, hunder, ?_, hnot⟩
      by_contra hplain
      obtain ⟨hroot, htrim⟩ := not_or.mp hplain
      exact hnot (not_not.mp htrim ▸ hunder.beneath_matchedBy hroot)

/-- What goes wrong is that a call or a flag cannot be read, that a directory is taken for another that reads
like it, that the root and a directory with a slash at its end are taken for nothing, and that an edge makes a
node live in one of the reads only. -/
theorem deadExact_iff : t.DeadExact snapshotUid repoUid dir ↔
    t.unreadableCalls snapshotUid = [] ∧
    (∀ n ∈ t.nodes, t.isCandidate snapshotUid repoUid n → ¬ t.live snapshotUid n.nodeUid → t.testFlagReadable n) ∧
    ∀ n ∈ t.nodes, t.isCandidate snapshotUid repoUid n →
      (t.MisreadInScope dir n → t.isRowTarget snapshotUid n.nodeUid) ∧
      (t.MissedInScope dir n → t.live snapshotUid n.nodeUid) ∧
      (t.inScope dir n → t.SeemsInScope dir n →
        (t.isRowTarget snapshotUid n.nodeUid ↔ t.live snapshotUid n.nodeUid)) := by
  rw [deadExact_iff_row]
  refine and_congr_right fun _ => and_congr_right fun _ => forall₂_congr fun n _ => imp_congr_right fun _ => ?_
  rw [misreadInScope_iff, missedInScope_iff]
  tauto

end Dead

section Map

def mapComponents (dir : String) : List (List Char) := componentsOf (trimSlashes dir)

def InSubtree (dir path : String) : Prop := mapComponents dir <+: pathComponents path

instance decidableInSubtree (dir path : String) : Decidable (InSubtree dir path) :=
  inferInstanceAs (Decidable (_ <+: _))

def SeemsMapped (path : String) : Prop :=
  if trimSlashes dir = [] ∨ trimSlashes dir = ['.'] then True
  else path.toList = trimSlashes dir ∨ Beneath (SameLetters (trimSlashes dir)) path

def flagsReadable (f : SourceFileRow) : Prop := (∃ v, f.isTest = .integer v) ∧ ∃ v, f.isGenerated = .integer v

def MapExact : Prop :=
  ∃ files, select (compareOn (·.1.path)) (InSubtree dir ·.1.path) (t.readMapFile snapshotUid)
      (t.snapshotFiles snapshotUid) = .ok files ∧
    t.mapFilesInPath snapshotUid dir = .ok files

lemma inMapScope_iff (path : String) : inMapScope (mapPathScope dir) path ↔ SeemsMapped dir path := by
  rw [inMapScope, mapPathScope, SeemsMapped]
  by_cases hroot : trimSlashes dir = [] ∨ trimSlashes dir = ['.']
  · rw [if_pos hroot, if_pos hroot]
    have hany : Like.like (some '\\') ['%'] path.toList := Like.run_any path.toList
    simp [hany]
  · rw [if_neg hroot, if_neg hroot, Like.replaceChar_eq_escaped, Bool.or_eq_true, Like.like_escaped_beneath,
      decide_eq_true_eq, or_comm]
    rfl

lemma readMapFile_returns (row : SourceFileRow × FileVersionRow) :
    (∃ r, t.readMapFile snapshotUid row = .ok r) ↔ flagsReadable row.1 := by
  rw [readMapFile, flagsReadable]
  cases row.1.isTest <;> cases row.1.isGenerated <;> simp [integerColumn, bind, Except.bind, pure, Except.pure]

lemma readMapFile_path {row : SourceFileRow × FileVersionRow} {r : MapFileRow}
    (h : t.readMapFile snapshotUid row = .ok r) : r.path = row.1.path := by
  rw [readMapFile] at h
  obtain ⟨_, -, h⟩ := bind_ok.mp h
  obtain ⟨_, -, h⟩ := bind_ok.mp h
  obtain rfl := Except.ok.inj h
  rfl

lemma inSubtree_iff {path : String} (h : mapComponents dir ≠ []) :
    InSubtree dir path ↔ path.toList = trimSlashes dir ∨ Beneath (· = trimSlashes dir) path := by
  have hproper := Text.splitAll_proper_prefix_iff '/' (trimSlashes dir) path.toList
  have hdir : mapComponents dir = Text.splitAll '/' (trimSlashes dir) := componentsOf_of_ne_nil h
  rw [InSubtree, hdir, pathComponents]
  constructor
  · intro hstart
    by_cases heq : Text.splitAll '/' (trimSlashes dir) = Text.splitAll '/' path.toList
    · refine Or.inl ?_
      rw [← Text.intercalate_splitAll '/' path.toList, ← heq, Text.intercalate_splitAll]
    · obtain ⟨r, hr⟩ := hproper.mp ⟨hstart, heq⟩
      exact Or.inr ⟨_, r, hr, rfl⟩
  · rintro (heq | ⟨q, r, hr, rfl⟩)
    · rw [heq]
    · exact (hproper.mpr ⟨r, hr⟩).1

lemma not_inSubtree_of_variant {path : String} (h : mapComponents dir ≠ [])
    (hvariant : Beneath (CaseVariant (trimSlashes dir)) path) : ¬ InSubtree dir path := by
  obtain ⟨q, r, hpath, hsame, hne⟩ := hvariant
  have hlength : q.length = (trimSlashes dir).length := by simpa using congrArg List.length hsame
  rw [inSubtree_iff dir h]
  rintro (heq | ⟨q', r', hpath', rfl⟩)
  · have hcount := congrArg List.length (hpath.symm.trans heq)
    rw [List.length_append, List.length_cons] at hcount
    omega
  · exact hne (List.append_inj (hpath.symm.trans hpath') hlength).1

lemma seemsMapped_iff {path : String} : SeemsMapped dir path ↔
    InSubtree dir path ∨ mapComponents dir ≠ [] ∧ Beneath (CaseVariant (trimSlashes dir)) path := by
  by_cases hroot : mapComponents dir = []
  · rw [SeemsMapped, if_pos (componentsOf_eq_nil.mp hroot), InSubtree, hroot]
    exact iff_of_true trivial (Or.inl List.nil_prefix)
  · rw [SeemsMapped, if_neg (componentsOf_eq_nil.not.mp hroot), inSubtree_iff dir hroot]
    constructor
    · rintro (heq | ⟨q, r, hpath, hsame⟩)
      · exact Or.inl (Or.inl heq)
      · by_cases hq : q = trimSlashes dir
        · exact Or.inl (Or.inr ⟨q, r, hpath, hq⟩)
        · exact Or.inr ⟨hroot, q, r, hpath, hsame, hq⟩
    · rintro ((heq | hbeneath) | ⟨-, hvariant⟩)
      · exact Or.inl heq
      · exact Or.inr (hbeneath.mono fun _ hq => hq ▸ rfl)
      · exact Or.inr (hvariant.mono fun _ hq => hq.1)

/-- What goes wrong is that a directory is taken for another whose letters are in the other case, and that a flag
cannot be read. -/
theorem mapExact_iff : t.MapExact snapshotUid dir ↔
    (mapComponents dir = [] ∨
      ∀ row ∈ t.snapshotFiles snapshotUid, ¬ Beneath (CaseVariant (trimSlashes dir)) row.1.path) ∧
    ∀ row ∈ t.snapshotFiles snapshotUid, InSubtree dir row.1.path → flagsReadable row.1 := by
  rw [MapExact, mapFilesInPath, select_same_iff]
  · simp only [inMapScope_iff, decide_eq_true_eq, readMapFile_returns, seemsMapped_iff]
    constructor
    · intro h
      refine ⟨?_, fun row hrow => (h row hrow).2⟩
      by_contra hnot
      obtain ⟨hroot, hvariant⟩ := not_or.mp hnot
      push Not at hvariant
      obtain ⟨row, hrow, hvariant⟩ := hvariant
      exact not_inSubtree_of_variant dir hroot hvariant ((h row hrow).1.mp (Or.inr ⟨hroot, hvariant⟩))
    · rintro ⟨hwhole, hread⟩ row hrow
      refine ⟨⟨?_, Or.inl⟩, hread row hrow⟩
      rintro (hin | ⟨hroot, hvariant⟩)
      · exact hin
      · exact absurd hvariant (hwhole.resolve_left hroot row hrow)
  · intro row r row' h h'
    have hpath : row.1.path = row'.1.path :=
      (t.readMapFile_path snapshotUid h).symm.trans (t.readMapFile_path snapshotUid h')
    simp only [hpath, and_self]

end Map

end ScopeTables

end RepoGraph.Storage
