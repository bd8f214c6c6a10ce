import RepoGraph.Lib.IterMap
import RepoGraph.Ir
import RepoGraph.TrustModel

/-! Partition slots: a resident IR or its retained summary, with epoch, refresh status, value facts
and degradation reasons. -/

namespace RepoGraph.LiveGraph

open Lib Ir TrustModel

inductive RefreshStatus
  | current
  | refreshing
  | stale
  | refreshFailed
  deriving DecidableEq, Repr

def statusFreshness : RefreshStatus → FreshnessState
  | .current => .fresh
  | .refreshing => .precisionPending
  | .stale => .stale
  | .refreshFailed => .refreshFailed

def freshnessRank : FreshnessState → ℕ
  | .fresh => 0
  | .precisionPending => 1
  | .stale => 2
  | .refreshFailed => 3
  | .unavailable => 4

def worse (worst f : FreshnessState) : FreshnessState :=
  if freshnessRank f > freshnessRank worst then f else worst

def basisOf : IdentitySource → IdentityBasis
  | .astAdopted => .astAdopted
  | .scipSynthesizedFallback => .scipSynthesized
  | .astFileScope => .astFileScope

def mergePartitionReasons (out more : List DegradationReason) : List DegradationReason :=
  more.foldl (fun out r => if r ∈ out then out else out ++ [r]) out

inductive ValueFactKind
  | cyclomaticComplexity
  deriving DecidableEq, Repr

inductive ValueSubject
  | symbol (key : CanonicalKey)
  | rawAnchor (range : SourceRange)
  deriving DecidableEq, Repr

structure ValueFact where
  subject : ValueSubject
  kind : ValueFactKind
  value : UInt32
  basis : IdentityBasis
  sourceRange : Option SourceRange
  provenance : Provenance
  deriving DecidableEq, Repr

structure Slot where
  epoch : ℕ
  status : RefreshStatus
  ir : Option PartitionIr
  language : LanguageSupport
  defines : HashMap String IdentityBasis
  refCounts : HashMap String ℕ
  valueFacts : List ValueFact
  valueFactsEpoch : Option ℕ
  partitionDegradationReasons : Finset DegradationReason

def Slot.ResidentFresh (s : Slot) : Prop := s.ir.isSome ∧ s.status = .current

instance residentFreshDecidable (s : Slot) : Decidable s.ResidentFresh := inferInstanceAs (Decidable (_ ∧ _))

def addDefinition (defines : HashMap String IdentityBasis) (n : IrNode) : HashMap String IdentityBasis :=
  defines.insert n.key.asStr (basisOf n.identitySource)

def countReference (refCounts : HashMap String ℕ) (e : IrEdge) : HashMap String ℕ :=
  refCounts.insert e.dst.asStr (refCounts[e.dst.asStr]?.getD 0 + 1)

def contribution (ir : PartitionIr) : HashMap String IdentityBasis × HashMap String ℕ :=
  (ir.nodes.foldl addDefinition ∅, ir.edges.foldl countReference ∅)

lemma worse_eq_fresh {a b : FreshnessState} : worse a b = .fresh ↔ a = .fresh ∧ b = .fresh := by
  cases a <;> cases b <;> decide

lemma statusFreshness_eq_fresh {st : RefreshStatus} : statusFreshness st = .fresh ↔ st = .current := by
  cases st <;> decide

lemma statusFreshness_ne_unavailable (st : RefreshStatus) : statusFreshness st ≠ .unavailable := by
  cases st <;> decide

lemma worse_ne_unavailable {a b : FreshnessState} (ha : a ≠ .unavailable) (hb : b ≠ .unavailable) :
    worse a b ≠ .unavailable := by
  rw [worse]
  split
  · exact hb
  · exact ha

lemma mem_mergePartitionReasons {out more : List DegradationReason} {r : DegradationReason} :
    r ∈ mergePartitionReasons out more ↔ r ∈ out ∨ r ∈ more := by
  induction more generalizing out with
  | nil => simp [mergePartitionReasons]
  | cons a more ih =>
    have hstep : mergePartitionReasons out (a :: more) =
        mergePartitionReasons (if a ∈ out then out else out ++ [a]) more := rfl
    rw [hstep, ih]
    by_cases ha : a ∈ out
    · rw [if_pos ha]
      grind
    · rw [if_neg ha]
      grind

lemma mem_defines (ir : PartitionIr) (k : String) :
    k ∈ (contribution ir).1 ↔ ∃ n ∈ ir.nodes, n.key.asStr = k := by
  have hfold : ∀ (ns : List IrNode) (m : HashMap String IdentityBasis),
      k ∈ ns.foldl addDefinition m ↔ k ∈ m ∨ ∃ n ∈ ns, n.key.asStr = k := by
    intro ns
    induction ns with
    | nil => simp
    | cons n ns ih =>
      intro m
      rw [List.foldl_cons, ih, addDefinition]
      simp only [Std.ExtTreeMap.mem_insert, Std.compare_eq_iff_eq, List.mem_cons, exists_eq_or_imp]
      grind
  rw [contribution, hfold]
  simp

lemma defines_basis (ir : PartitionIr) {k : String} {b : IdentityBasis}
    (h : (contribution ir).1[k]? = some b) : ∃ src, b = basisOf src := by
  have hfold : ∀ (ns : List IrNode) (m : HashMap String IdentityBasis),
      (∀ (k : String) (b : IdentityBasis), m[k]? = some b → ∃ src, b = basisOf src) →
      ∀ (k : String) (b : IdentityBasis), (ns.foldl addDefinition m)[k]? = some b →
        ∃ src, b = basisOf src := by
    intro ns
    induction ns with
    | nil => exact fun _ hm => hm
    | cons n ns ih =>
      intro m hm
      refine ih _ ?_
      intro k b hb
      rw [addDefinition, getElem?_insert] at hb
      split at hb
      · exact ⟨_, (Option.some.inj hb).symm⟩
      · exact hm k b hb
  exact hfold ir.nodes ∅ (by simp) k b h

lemma refCounts_eq (ir : PartitionIr) (k : String) :
    (contribution ir).2[k]? =
      let n := (ir.edges.filter (fun e => e.dst.asStr = k)).length
      if n = 0 then none else some n := by
  have hfold : ∀ (es : List IrEdge) (m : HashMap String ℕ),
      (es.foldl countReference m)[k]? =
        let n := (es.filter (fun e => e.dst.asStr = k)).length
        if n = 0 then m[k]? else some (m[k]?.getD 0 + n) := by
    intro es
    induction es with
    | nil => simp
    | cons e es ih =>
      intro m
      rw [List.foldl_cons, ih, countReference]
      by_cases he : e.dst.asStr = k
      · simp only [he, getElem?_insert, if_true, Option.getD_some, List.filter_cons, decide_true,
          List.length_cons]
        split <;> grind
      · simp only [getElem?_insert, he, if_false, List.filter_cons, decide_false, Bool.false_eq_true]
  rw [contribution, hfold]
  simp

end RepoGraph.LiveGraph
