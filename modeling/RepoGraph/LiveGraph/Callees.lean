import RepoGraph.LiveGraph.Callers

/-! The callees of a key: the outgoing edges of its defining partition, which has to be resident, each
resolved to the slot that defines its destination. -/

namespace RepoGraph.LiveGraph

open Lib Ir TrustModel

structure CalleesAnswer where
  perPartitionCounts : BTreeMap String ℕ
  calleeIdentities : List (String × Option String)
  contributingEpochs : BTreeMap String ℕ

structure CalleeScan where
  bases : List IdentityBasis
  calleeIdentities : List (String × Option String)
  perPartitionCounts : BTreeMap String ℕ
  contributing : BTreeSet String
  hasUnresolved : Bool

def scanCallee (g : LiveGraph) (target : String) (detail : Granularity) (acc : CalleeScan) (e : IrEdge) :
    CalleeScan :=
  if e.src.asStr ≠ target then acc
  else
    let calleeKey := e.dst.asStr
    match g.defining calleeKey with
    | some (ownerId, ownerBasis) =>
      { acc with
        bases := acc.bases ++ [ownerBasis]
        contributing := acc.contributing.insert ownerId
        perPartitionCounts := acc.perPartitionCounts.insert ownerId
          (acc.perPartitionCounts[ownerId]?.getD 0 + 1)
        calleeIdentities := acc.calleeIdentities ++
          if detail = .callerDetail then [(calleeKey, some ownerId)] else [] }
    | none =>
      { acc with
        hasUnresolved := true
        calleeIdentities := acc.calleeIdentities ++
          if detail = .callerDetail then [(calleeKey, none)] else [] }

def calleeScan (g : LiveGraph) (target : String) (detail : Granularity) (defPart : String)
    (defBasis : IdentityBasis) (ir : PartitionIr) : CalleeScan :=
  ir.edges.foldl (g.scanCallee target detail) ⟨[defBasis], [], ∅, .ofList [defPart], false⟩

def calleesReasons (g : LiveGraph) (scan : CalleeScan) : List DegradationReason :=
  mergePartitionReasons ((if scan.hasUnresolved then [.unresolvedAlias] else []) ++ identityReasons scan.bases)
    (scan.contributing.toList.flatMap g.partitionReasons)

def callees (g : LiveGraph) (target : String) (detail : Granularity) :
    Exec (AnswerEnvelope CalleesAnswer) :=
  match g.defining target with
  | none => .ok (.unavailable .unresolvedAlias .unavailable ∅)
  | some (defPart, defBasis) => do
    let defSlot ← expect "defining slot exists" (g.slot defPart)
    match defSlot.ir with
    | none =>
      unwrapOr "partial with missing partition is valid"
        (AnswerEnvelope.incomplete none [] [defPart] (statusFreshness defSlot.status) [] {defSlot.language})
    | some ir =>
      let scan := g.calleeScan target detail defPart defBasis ir
      let reasons := g.calleesReasons scan
      let folded := g.foldContributing scan.contributing.toList
      let data := ⟨scan.perPartitionCounts, scan.calleeIdentities, folded.epochs⟩
      let classC := classifyCrossPartition scan.bases folded.freshness reasons folded.languages
      finalizeEnvelope data classC folded.freshness reasons [] folded.languages

variable {g : LiveGraph} {target : String} {detail : Granularity}

lemma foldl_scanCallee_bases (es : List IrEdge) (acc : CalleeScan) :
    (es.foldl (g.scanCallee target detail) acc).bases = acc.bases ++
      (es.filter (fun e => e.src.asStr = target)).filterMap
        (fun e => (g.defining e.dst.asStr).map Prod.snd) := by
  induction es generalizing acc with
  | nil => simp
  | cons e es ih =>
    rw [List.foldl_cons, ih, scanCallee]
    by_cases he : e.src.asStr = target
    · rw [if_neg (not_not.mpr he)]
      cases hd : g.defining e.dst.asStr with
      | none => simp [he, hd]
      | some d => simp [he, hd]
    · rw [if_pos he]
      simp [he]

lemma foldl_scanCallee_contributing {es : List IrEdge} {acc : CalleeScan} {id : String} :
    id ∈ (es.foldl (g.scanCallee target detail) acc).contributing ↔
      id ∈ acc.contributing ∨ ∃ e ∈ es, e.src.asStr = target ∧ ∃ b, g.defining e.dst.asStr = some (id, b) := by
  induction es generalizing acc with
  | nil => simp
  | cons e es ih =>
    rw [List.foldl_cons, ih, scanCallee]
    by_cases he : e.src.asStr = target
    · rw [if_neg (not_not.mpr he)]
      cases hd : g.defining e.dst.asStr with
      | none => simp [hd]
      | some d =>
        obtain ⟨owner, b⟩ := d
        simp only [Std.ExtTreeSet.mem_insert, Std.compare_eq_iff_eq, List.mem_cons, exists_eq_or_imp, he,
          hd, true_and, Option.some.injEq, Prod.mk.injEq, exists_and_left, exists_eq', and_true]
        tauto
    · rw [if_pos he]
      simp [he]

lemma foldl_scanCallee_unresolved {es : List IrEdge} {acc : CalleeScan} :
    (es.foldl (g.scanCallee target detail) acc).hasUnresolved = true ↔
      acc.hasUnresolved = true ∨ ∃ e ∈ es, e.src.asStr = target ∧ g.defining e.dst.asStr = none := by
  induction es generalizing acc with
  | nil => simp
  | cons e es ih =>
    rw [List.foldl_cons, ih, scanCallee]
    by_cases he : e.src.asStr = target
    · rw [if_neg (not_not.mpr he)]
      cases hd : g.defining e.dst.asStr with
      | none => simp [he, hd]
      | some d => simp [hd]
    · rw [if_pos he]
      simp [he]

lemma mem_calleeScan_contributing {id defPart : String} {b : IdentityBasis} {ir : PartitionIr} :
    id ∈ (g.calleeScan target detail defPart b ir).contributing.toList ↔
      defPart = id ∨ ∃ e ∈ ir.edges, e.src.asStr = target ∧ ∃ b, g.defining e.dst.asStr = some (id, b) := by
  rw [Std.ExtTreeSet.mem_toList, calleeScan, foldl_scanCallee_contributing]
  simp

lemma calleeScan_fromNode (hg : g.WellFormed) {defPart : String} {defBasis : IdentityBasis} {ir : PartitionIr}
    (hd : g.defining target = some (defPart, defBasis)) {b : IdentityBasis}
    (hb : b ∈ (g.calleeScan target detail defPart defBasis ir).bases) : FromNode b := by
  have hdefining : ∀ {key id b}, g.defining key = some (id, b) → FromNode b := by
    intro key id b h
    obtain ⟨s, hs, hb⟩ := slot_of_defining h
    exact hg.fromNode hs hb
  rw [calleeScan, foldl_scanCallee_bases] at hb
  rcases List.mem_append.mp hb with hb | hb
  · exact List.mem_singleton.mp hb ▸ hdefining hd
  · obtain ⟨e, -, he⟩ := List.mem_filterMap.mp hb
    obtain ⟨⟨id, b'⟩, hd', rfl⟩ := Option.map_eq_some_iff.mp he
    exact hdefining hd'

lemma calleeScan_bases_ne_nil (g : LiveGraph) (target : String) (detail : Granularity) (defPart : String)
    (b : IdentityBasis) (ir : PartitionIr) : (g.calleeScan target detail defPart b ir).bases ≠ [] := by
  rw [calleeScan, foldl_scanCallee_bases]
  simp

inductive CalleesOutcome (g : LiveGraph) (target : String) (detail : Granularity)
    (env : AnswerEnvelope CalleesAnswer) : Prop
  | unknown (hd : g.defining target = none) (hclass : env.answerClass = .unavailable)
      (hlisted : env.degradationReasons = [.unresolvedAlias])
  | missing {defPart : String} {b : IdentityBasis} {s : Slot} (hd : g.defining target = some (defPart, b))
      (hs : g.slot defPart = some s) (hir : s.ir = none) (hclass : env.answerClass = .incomplete)
      (hlisted : env.degradationReasons = [])
  | read {defPart : String} {b : IdentityBasis} {s : Slot} {ir : PartitionIr}
      (hd : g.defining target = some (defPart, b)) (hs : g.slot defPart = some s) (hir : s.ir = some ir)
      (hcross : let scan := g.calleeScan target detail defPart b ir
        let folded := g.foldContributing scan.contributing.toList
        Crossing ⟨scan.perPartitionCounts, scan.calleeIdentities, folded.epochs⟩ scan.bases folded.freshness
          (g.calleesReasons scan) [] env)

lemma callees_spec (hg : g.WellFormed) (target : String) (detail : Granularity) :
    ∃ env, g.callees target detail = .ok env ∧ CalleesOutcome g target detail env := by
  rw [callees]
  cases hd : g.defining target with
  | none => exact ⟨_, rfl, .unknown hd rfl rfl⟩
  | some d =>
    obtain ⟨defPart, b⟩ := d
    obtain ⟨s, hs, -⟩ := slot_of_defining hd
    simp only [hs, expect_some, ok_bind]
    cases hir : s.ir with
    | none =>
      obtain ⟨env, he, hclass, -, hlisted⟩ := unwrapOr_incomplete "partial with missing partition is valid"
        (none : Option CalleesAnswer) [] [defPart] (statusFreshness s.status) []
        (Finset.singleton_nonempty s.language) (by simp)
      exact ⟨env, he, .missing hd hs hir hclass hlisted⟩
    | some ir =>
      let scan := g.calleeScan target detail defPart b ir
      have hself : defPart ∈ scan.contributing.toList := mem_calleeScan_contributing.mpr (Or.inl rfl)
      obtain ⟨env, he, hcross⟩ := finalizeEnvelope_spec
        (⟨scan.perPartitionCounts, scan.calleeIdentities,
          (g.foldContributing scan.contributing.toList).epochs⟩ : CalleesAnswer)
        (g.calleesReasons scan) [] (foldContributing_languages hself hs)
        (fun b hb => calleeScan_fromNode hg hd hb) (foldContributing_ne_unavailable g _)
        (fun r hr => mem_mergePartitionReasons.mpr (Or.inl (List.mem_append_right _ hr)))
      exact ⟨env, he, .read hd hs hir hcross⟩

end RepoGraph.LiveGraph
