import RepoGraph.Lib.Containers

/-! The partition of imports by resolution class and importer status, the views that admit some of
its cells, and the remainder that a view leaves out. -/

namespace RepoGraph.Classification

inductive ImportClass
  | certain
  | inferred
  deriving DecidableEq, Repr

inductive ImporterStatus
  | production
  | test
  | unknown
  deriving DecidableEq, Repr

@[simp] def ImporterStatus.isProductionPartition : ImporterStatus → Bool
  | .test => false
  | _ => true

structure ImportPartition where
  importClass : ImportClass
  status : ImporterStatus
  deriving DecidableEq, Repr

inductive ImportPartitionError
  | unreadableResolution (value : String)
  | unreadableImporterFlag (value : ℤ)
  deriving DecidableEq, Repr

def ImportClass.fromResolution : String → Except ImportPartitionError ImportClass
  | "static" | "dynamic" => .ok .certain
  | "inferred" => .ok .inferred
  | other => .error (.unreadableResolution other)

def ImporterStatus.fromIsTest : Option ℤ → Except ImportPartitionError ImporterStatus
  | some 1 => .ok .test
  | some 0 => .ok .production
  | none => .ok .unknown
  | some other => .error (.unreadableImporterFlag other)

def ImportPartition.classify (resolution : String) (importerIsTest : Option ℤ) :
    Except ImportPartitionError ImportPartition := do
  let importClass ← ImportClass.fromResolution resolution
  let status ← ImporterStatus.fromIsTest importerIsTest
  .ok ⟨importClass, status⟩

structure ImportView where
  includeTests : Bool
  includeInferred : Bool
  deriving DecidableEq, Repr

def ImportView.certainWithTests : ImportView := ⟨true, false⟩

def ImportView.withInferred : ImportView := ⟨false, true⟩

def ImportView.all : ImportView := ⟨true, true⟩

def ImportView.admits (view : ImportView) (partition : ImportPartition) : Bool :=
  let statusOk := partition.status.isProductionPartition || view.includeTests
  let classOk := decide (partition.importClass = .certain) || view.includeInferred
  statusOk && classOk

def ImportView.isStrictSupersetOf (view other : ImportView) : Bool :=
  view ≠ other && (view.includeTests || !other.includeTests) && (view.includeInferred || !other.includeInferred)

def ImportView.widerViews (view : ImportView) : List ImportView :=
  [certainWithTests, withInferred, all].filter (·.isStrictSupersetOf view)

def flagIncludeTests : String := "include_tests"

def flagIncludeInferred : String := "include_inferred"

def ImportView.flagNames (view : ImportView) : List String :=
  (if view.includeTests then [flagIncludeTests] else []) ++
    if view.includeInferred then [flagIncludeInferred] else []

section Views

variable {view wider : ImportView}

lemma mem_widerViews : wider ∈ view.widerViews ↔ wider.isStrictSupersetOf view = true := by
  obtain ⟨tests, inferred⟩ := view
  obtain ⟨tests', inferred'⟩ := wider
  revert tests inferred tests' inferred'
  decide

lemma admits_of_isStrictSupersetOf (h : wider.isStrictSupersetOf view = true) {partition : ImportPartition}
    (hp : view.admits partition = true) : wider.admits partition = true := by
  simp only [ImportView.isStrictSupersetOf, ImportView.admits, Bool.and_eq_true, Bool.or_eq_true,
    Bool.not_eq_true'] at h hp ⊢
  obtain ⟨⟨-, htests⟩, hinferred⟩ := h
  obtain ⟨hstatus, hclass⟩ := hp
  exact ⟨by grind, by grind⟩

@[simp] lemma admits_all (partition : ImportPartition) : ImportView.all.admits partition = true := by
  simp [ImportView.admits, ImportView.all]

end Views

inductive RemainderGroup
  | tests
  | inferred
  | testsAndInferred
  deriving DecidableEq, Repr

def RemainderGroup.all : List RemainderGroup := [.tests, .inferred, .testsAndInferred]

def remainderGroup (view : ImportView) (partition : ImportPartition) : Option RemainderGroup :=
  if view.admits partition then none
  else
    let needsTests := !partition.status.isProductionPartition && !view.includeTests
    let needsInferred := decide (partition.importClass = .inferred) && !view.includeInferred
    match needsTests, needsInferred with
    | true, true => some .testsAndInferred
    | true, false => some .tests
    | false, true => some .inferred
    | false, false => none

structure PartitionCounts where
  productionCertain : ℕ
  testCertain : ℕ
  productionInferred : ℕ
  testInferred : ℕ
  unknownTestStatus : ℕ
  deriving DecidableEq, Repr

namespace PartitionCounts

instance instInhabited : Inhabited PartitionCounts := ⟨⟨0, 0, 0, 0, 0⟩⟩

def add (counts : PartitionCounts) (partition : ImportPartition) : PartitionCounts :=
  let counts :=
    match partition.status.isProductionPartition, partition.importClass with
    | true, .certain => { counts with productionCertain := counts.productionCertain + 1 }
    | false, .certain => { counts with testCertain := counts.testCertain + 1 }
    | true, .inferred => { counts with productionInferred := counts.productionInferred + 1 }
    | false, .inferred => { counts with testInferred := counts.testInferred + 1 }
  if partition.status = .unknown then { counts with unknownTestStatus := counts.unknownTestStatus + 1 }
  else counts

def admitted (counts : PartitionCounts) (view : ImportView) : ℕ :=
  counts.productionCertain + (if view.includeTests then counts.testCertain else 0) +
    (if view.includeInferred then counts.productionInferred else 0) +
    (if view.includeTests && view.includeInferred then counts.testInferred else 0)

def total (counts : PartitionCounts) : ℕ :=
  counts.productionCertain + counts.testCertain + counts.productionInferred + counts.testInferred

def cells (counts : PartitionCounts) : List (ImportPartition × ℕ) :=
  [(⟨.certain, .production⟩, counts.productionCertain), (⟨.certain, .test⟩, counts.testCertain),
    (⟨.inferred, .production⟩, counts.productionInferred), (⟨.inferred, .test⟩, counts.testInferred)]

def excludedIn (counts : PartitionCounts) (view : ImportView) (group : RemainderGroup) : ℕ :=
  ((counts.cells.filter fun cell => remainderGroup view cell.1 = some group).map Prod.snd).sum

def merge (counts other : PartitionCounts) : PartitionCounts where
  productionCertain := counts.productionCertain + other.productionCertain
  testCertain := counts.testCertain + other.testCertain
  productionInferred := counts.productionInferred + other.productionInferred
  testInferred := counts.testInferred + other.testInferred
  unknownTestStatus := counts.unknownTestStatus + other.unknownTestStatus

variable (counts : PartitionCounts) (partition partition' : ImportPartition) (view : ImportView)

lemma total_add : (counts.add partition).total = counts.total + 1 := by
  obtain ⟨importClass, status⟩ := partition
  cases importClass <;> cases status <;>
    simp [add, total] <;> omega

lemma admitted_add : (counts.add partition).admitted view =
    counts.admitted view + if view.admits partition then 1 else 0 := by
  obtain ⟨importClass, status⟩ := partition
  obtain ⟨tests, inferred⟩ := view
  cases importClass <;> cases status <;> cases tests <;> cases inferred <;>
    simp [add, admitted, ImportView.admits] <;> omega

lemma add_right_comm : (counts.add partition).add partition' = (counts.add partition').add partition := by
  obtain ⟨importClass, status⟩ := partition
  obtain ⟨importClass', status'⟩ := partition'
  cases importClass <;> cases status <;> cases importClass' <;> cases status' <;>
    simp [add]

lemma total_eq_admitted_add_excluded :
    counts.total = counts.admitted view + (RemainderGroup.all.map (counts.excludedIn view)).sum := by
  obtain ⟨tests, inferred⟩ := view
  cases tests <;> cases inferred <;>
    simp [total, admitted, RemainderGroup.all, excludedIn, cells, remainderGroup,
      ImportView.admits] <;> omega

end PartitionCounts

structure RemainderCount where
  imports : ℕ
  edges : ℕ
  deriving DecidableEq, Repr

structure ImportRemainder where
  tests : RemainderCount
  inferred : RemainderCount
  testsAndInferred : RemainderCount
  deriving DecidableEq, Repr

namespace ImportRemainder

def empty : ImportRemainder := ⟨⟨0, 0⟩, ⟨0, 0⟩, ⟨0, 0⟩⟩

def get (remainder : ImportRemainder) : RemainderGroup → RemainderCount
  | .tests => remainder.tests
  | .inferred => remainder.inferred
  | .testsAndInferred => remainder.testsAndInferred

def modify (remainder : ImportRemainder) (group : RemainderGroup) (f : RemainderCount → RemainderCount) :
    ImportRemainder :=
  match group with
  | .tests => { remainder with tests := f remainder.tests }
  | .inferred => { remainder with inferred := f remainder.inferred }
  | .testsAndInferred => { remainder with testsAndInferred := f remainder.testsAndInferred }

lemma ext_get {r r' : ImportRemainder} (h : ∀ group, r.get group = r'.get group) : r = r' := by
  obtain ⟨a, b, c⟩ := r
  obtain ⟨a', b', c'⟩ := r'
  obtain rfl : a = a' := h .tests
  obtain rfl : b = b' := h .inferred
  obtain rfl : c = c' := h .testsAndInferred
  rfl

def shownBy (view : ImportView) (counts : PartitionCounts) : Option RemainderGroup :=
  if counts.admitted view = 0 then RemainderGroup.all.find? (0 < counts.excludedIn view ·) else none

def addRelation (view : ImportView) (out : ImportRemainder) (counts : PartitionCounts) : ImportRemainder :=
  let out := RemainderGroup.all.foldl
    (fun out group => out.modify group fun r => { r with imports := r.imports + counts.excludedIn view group }) out
  match shownBy view counts with
  | some group => out.modify group fun r => { r with edges := r.edges + 1 }
  | none => out

def fromRelations (view : ImportView) (relations : List PartitionCounts) : ImportRemainder :=
  relations.foldl (addRelation view) empty

variable (view : ImportView)

lemma get_addRelation (out : ImportRemainder) (counts : PartitionCounts) (group : RemainderGroup) :
    (addRelation view out counts).get group =
      ⟨(out.get group).imports + counts.excludedIn view group,
        (out.get group).edges + if shownBy view counts = some group then 1 else 0⟩ := by
  rw [addRelation]
  cases hshown : shownBy view counts with
  | none => cases group <;> simp [RemainderGroup.all, modify, get]
  | some shown => cases shown <;> cases group <;> simp [RemainderGroup.all, modify, get]

lemma get_fromRelations (relations : List PartitionCounts) (group : RemainderGroup) :
    (fromRelations view relations).get group =
      ⟨(relations.map (PartitionCounts.excludedIn · view group)).sum,
        relations.countP (shownBy view · = some group)⟩ := by
  have hfold : ∀ out, (relations.foldl (addRelation view) out).get group =
      ⟨(out.get group).imports + (relations.map (PartitionCounts.excludedIn · view group)).sum,
        (out.get group).edges + relations.countP (shownBy view · = some group)⟩ := by
    induction relations with
    | nil => simp
    | cons counts relations ih =>
      intro out
      rw [List.foldl_cons, ih, get_addRelation]
      simp [List.countP_cons, Nat.add_assoc, Nat.add_comm]
  rw [fromRelations, hfold]
  cases group <;> simp [empty, get]

lemma fromRelations_perm {relations relations' : List PartitionCounts} (h : relations.Perm relations') :
    fromRelations view relations = fromRelations view relations' := by
  refine ext_get fun group => ?_
  rw [get_fromRelations, get_fromRelations, (h.map _).sum_eq, h.countP_eq]

lemma shownBy_isSome {counts : PartitionCounts} (htotal : 0 < counts.total) (h : counts.admitted view = 0) :
    ∃ group, shownBy view counts = some group ∧ 0 < counts.excludedIn view group := by
  have hsplit := counts.total_eq_admitted_add_excluded view
  rw [shownBy, if_pos h]
  cases hfind : RemainderGroup.all.find? (0 < counts.excludedIn view ·) with
  | some group => exact ⟨group, rfl, by simpa using List.find?_some hfind⟩
  | none =>
    have hnone := List.find?_eq_none.mp hfind
    simp only [RemainderGroup.all, List.mem_cons, List.not_mem_nil, or_false, decide_eq_true_eq,
      forall_eq_or_imp, forall_eq, Nat.not_lt, Nat.le_zero] at hnone
    simp [RemainderGroup.all, hnone, h] at hsplit
    omega

end ImportRemainder

end RepoGraph.Classification
