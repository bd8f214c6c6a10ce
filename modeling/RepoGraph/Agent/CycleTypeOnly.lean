import RepoGraph.GraphAlgorithms.SccCorrect
import RepoGraph.Lib.Cycles
import RepoGraph.Lib.Folds
import RepoGraph.Lib.TextLaws

/-! The verdict on a module cycle: which of its imports vanish at runtime, and whether a cycle is left without
them. -/

namespace RepoGraph.Agent

open Lib Lib.Digraph Lib.Text GraphAlgorithms

inductive EdgeTypeOnly
  | typeOnly
  | runtime
  | unreadable
  deriving DecidableEq, Repr

inductive CycleTypeOnly
  | typeOnly
  | breaksAtRuntime (typeOnly of_ : ℕ)
  | hasRuntimeEdges (typeOnly of_ : ℕ)
  | unknown (reason : String)
  deriving DecidableEq, Repr

abbrev ModuleImport := String × String × Option EdgeTypeOnly

def isTsJsLanguageToken (token : String) : Bool :=
  token = "typescript" ∨ token = "tsx" ∨ token = "javascript" ∨ token = "jsx"

def pathInModule (path dir : String) : Bool := dir = "" ∨ path = dir ∨ startsWith path s!"{dir}/"

def moduleOwner (allModuleDirs : List String) (path : String) : Option String :=
  lastMaxByKey String.utf8ByteSize (allModuleDirs.filter (pathInModule path ·))

def tsJsCycleMemberDirs (memberDirs : BTreeSet String) (allModuleDirs : List String)
    (files : List (String × Option String)) : BTreeSet String :=
  if memberDirs.isEmpty then ∅
  else files.foldl (fun tsMembers file =>
    if (file.2.map isTsJsLanguageToken).getD false then
      match moduleOwner allModuleDirs file.1 with
      | some owner => if owner ∈ memberDirs then tsMembers.insert owner else tsMembers
      | none => tsMembers
    else tsMembers) ∅

def runtimeSubgraphIsCyclic (sccEdges : List ModuleImport) : Exec Bool := do
  let runtime := sccEdges.filter fun e => e.2.2 = some .runtime
  let result ← findSccs (runtime.map fun e => ⟨e.1, e.2.1⟩)
  return !result.cycles.isEmpty

def classifyCycleTypeOnly (sccEdges : List ModuleImport) : Exec CycleTypeOnly :=
  let of_ := sccEdges.length
  if of_ = 0 then .ok (.unknown "cycle import edges unavailable")
  else if sccEdges.any (fun e => e.2.2 = some .unreadable) then .ok (.unknown "type-only fact unreadable")
  else if sccEdges.any (fun e => e.2.2 = none) then .ok (.unknown "indexed before type-only tracking")
  else
    let typeOnly := sccEdges.countP fun e => e.2.2 = some .typeOnly
    if typeOnly = of_ then .ok .typeOnly
    else if typeOnly = 0 then .ok (.hasRuntimeEdges 0 of_)
    else do
      if ← runtimeSubgraphIsCyclic sccEdges then .ok (.hasRuntimeEdges typeOnly of_)
      else .ok (.breaksAtRuntime typeOnly of_)

def cycleOwner (cycleMembers : List (List (String × String))) : HashMap String ℕ :=
  (cycleMembers.zipIdx.flatMap fun c => c.1.map fun m => (m.1, c.2)).foldl (fun owner m => owner.insert m.1 m.2) ∅

def pushIntraEdge (owner : HashMap String ℕ) (perCycleEdges : List (List ModuleImport)) (e : ModuleImport) :
    List (List ModuleImport) :=
  if e.1 = e.2.1 then perCycleEdges
  else
    match owner[e.1]?, owner[e.2.1]? with
    | some fi, some ti => if fi = ti then perCycleEdges.modify fi (· ++ [e]) else perCycleEdges
    | _, _ => perCycleEdges

def perCycleEdges (cycleMembers : List (List (String × String))) (moduleEdges : List ModuleImport) :
    List (List ModuleImport) :=
  moduleEdges.foldl (pushIntraEdge (cycleOwner cycleMembers)) (List.replicate cycleMembers.length [])

def classifyCyclesTypeOnly (cycleMembers : List (List (String × String))) (moduleEdges : List ModuleImport)
    (files : List (String × Option String)) (allModuleDirs : List String) : Exec (List (Option CycleTypeOnly)) :=
  let memberDirs : BTreeSet String := Std.ExtTreeSet.ofList (cycleMembers.flatten.map Prod.snd) compare
  let tsMemberDirs := tsJsCycleMemberDirs memberDirs allModuleDirs files
  (cycleMembers.zip (perCycleEdges cycleMembers moduleEdges)).mapM fun c =>
    if c.1.any (fun m => m.2 ∈ tsMemberDirs) then some <$> classifyCycleTypeOnly c.2 else .ok none

lemma findSccs_cycles_iff (edges : List DirectedEdge) :
    ∃ r, findSccs edges = .ok r ∧ (r.cycles ≠ [] ↔ ∃ u v, u ≠ v ∧ Mutual (Arc edges) u v) := by
  obtain ⟨r, hr, hpart, hcycles, -, -⟩ := findSccsEvery_partition cancelCheckInterval edges
  refine ⟨r, findSccs_eq edges hr, ?_⟩
  rw [hcycles]
  constructor
  · intro hne
    obtain ⟨c, hc⟩ := List.exists_mem_of_ne_nil _ hne
    obtain ⟨hc, hsize⟩ := List.mem_filter.mp hc
    have hin : c.members ∈ r.allSccs.map Scc.members := List.mem_map_of_mem hc
    have hnodup : c.members.Nodup := (List.nodup_flatten.mp hpart.nodup).1 _ hin
    have hlen : 1 < c.members.length := by simpa [Scc.isCycle] using hsize
    have hne : c.members[0] ≠ c.members[1] := by
      intro heq
      exact absurd ((hnodup.getElem_inj_iff).mp heq) (by decide)
    refine ⟨c.members[0], c.members[1], hne, ?_⟩
    exact ((hpart.component _ hin).mem_iff _ (List.getElem_mem _) _).mp (List.getElem_mem _)
  · rintro ⟨u, v, hne, hmutual⟩
    have hu : u ∈ endpoints edges := by
      obtain ⟨w, harc⟩ := hmutual.exists_edge hne
      exact (mem_endpoints_of_arc harc).1
    obtain ⟨members, hin, humem, hvmem⟩ := (hpart.share_iff hu).mpr hmutual
    obtain ⟨c, hc, rfl⟩ := List.mem_map.mp hin
    apply List.ne_nil_of_mem
    refine List.mem_filter.mpr ⟨hc, ?_⟩
    simp only [Scc.isCycle, gt_iff_lt, decide_eq_true_eq]
    by_contra hshort
    obtain ⟨i, hi, rfl⟩ := List.getElem_of_mem humem
    obtain ⟨j, hj, rfl⟩ := List.getElem_of_mem hvmem
    obtain rfl : i = j := by omega
    exact hne rfl

section Verdict

variable {sccEdges : List ModuleImport}

def RuntimeImport (sccEdges : List ModuleImport) (u v : String) : Prop := (u, v, some .runtime) ∈ sccEdges

lemma runtimeSubgraphIsCyclic_iff (hloop : ∀ e ∈ sccEdges, e.1 ≠ e.2.1) :
    ∃ b, runtimeSubgraphIsCyclic sccEdges = .ok b ∧ (b = true ↔ Cyclic (RuntimeImport sccEdges)) := by
  let runtime := (sccEdges.filter fun e => e.2.2 = some .runtime).map fun e => (⟨e.1, e.2.1⟩ : DirectedEdge)
  have harc : Arc runtime = RuntimeImport sccEdges := by
    funext u v
    simp only [runtime, Arc, RuntimeImport, List.mem_map, List.mem_filter,
      decide_eq_true_eq, DirectedEdge.mk.injEq, eq_iff_iff]
    constructor
    · rintro ⟨⟨u', v', d⟩, ⟨hmem, rfl⟩, rfl, rfl⟩
      exact hmem
    · intro hmem
      exact ⟨_, ⟨hmem, rfl⟩, rfl, rfl⟩
  obtain ⟨r, hr, hcycles⟩ := findSccs_cycles_iff runtime
  refine ⟨!r.cycles.isEmpty, ?_, ?_⟩
  · rw [runtimeSubgraphIsCyclic, hr, ok_bind]
    rfl
  · have hirrefl : ∀ v, ¬ RuntimeImport sccEdges v v := fun v hv => hloop _ hv rfl
    rw [harc, ← cyclic_iff_mutual hirrefl] at hcycles
    rw [← hcycles]
    simp

/-- What a verdict says of the edges inside a cycle. -/
structure VerdictOf (sccEdges : List ModuleImport) (verdict : CycleTypeOnly) : Prop where
  typeOnly_iff : (∀ e ∈ sccEdges, e.2.2 = some .typeOnly ∨ e.2.2 = some .runtime) →
    (verdict = .typeOnly ↔ ∀ e ∈ sccEdges, e.2.2 ≠ some .runtime)
  breaks_iff : (∀ e ∈ sccEdges, e.2.2 = some .typeOnly ∨ e.2.2 = some .runtime) →
    ((∃ typeOnly of_, verdict = .breaksAtRuntime typeOnly of_) ↔ (∃ e ∈ sccEdges, e.2.2 = some .typeOnly) ∧
      (∃ e ∈ sccEdges, e.2.2 = some .runtime) ∧ ¬ Cyclic (RuntimeImport sccEdges))
  runtime_iff : (∀ e ∈ sccEdges, e.2.2 = some .typeOnly ∨ e.2.2 = some .runtime) →
    ((∃ typeOnly of_, verdict = .hasRuntimeEdges typeOnly of_) ↔ Cyclic (RuntimeImport sccEdges))
  unknown : (∃ e ∈ sccEdges, e.2.2 = none ∨ e.2.2 = some .unreadable) → ∃ reason, verdict = .unknown reason
  counts : ∀ typeOnly of_, verdict = .breaksAtRuntime typeOnly of_ ∨ verdict = .hasRuntimeEdges typeOnly of_ →
    typeOnly = (sccEdges.filter fun e => e.2.2 = some .typeOnly).length ∧ of_ = sccEdges.length

section Cases

variable {typeOnly : ℕ}

lemma not_known {e : ModuleImport} (he : e ∈ sccEdges) (hbad : e.2.2 = none ∨ e.2.2 = some .unreadable) :
    ¬ ∀ e ∈ sccEdges, e.2.2 = some .typeOnly ∨ e.2.2 = some .runtime := by
  intro hknown
  rcases hbad with hbad | hbad <;> simpa [hbad] using hknown e he

lemma verdictOf_unknown {e : ModuleImport} (he : e ∈ sccEdges) (hbad : e.2.2 = none ∨ e.2.2 = some .unreadable)
    (reason : String) : VerdictOf sccEdges (.unknown reason) where
  typeOnly_iff hknown := absurd hknown (not_known he hbad)
  breaks_iff hknown := absurd hknown (not_known he hbad)
  runtime_iff hknown := absurd hknown (not_known he hbad)
  unknown _ := ⟨reason, rfl⟩
  counts _ _ h := by simp at h

variable (hknown : ∀ e ∈ sccEdges, e.2.2 = some .typeOnly ∨ e.2.2 = some .runtime)

include hknown

lemma all_known : ¬ ∃ e ∈ sccEdges, e.2.2 = none ∨ e.2.2 = some .unreadable := by
  rintro ⟨e, he, hbad⟩
  exact not_known he hbad hknown

lemma verdictOf_typeOnly (hvanish : ∀ e ∈ sccEdges, e.2.2 ≠ some .runtime)
    (hnone : ¬ Cyclic (RuntimeImport sccEdges)) : VerdictOf sccEdges .typeOnly where
  typeOnly_iff _ := iff_of_true rfl hvanish
  breaks_iff _ := iff_of_false (by simp) fun ⟨_, ⟨e, he, hruntime⟩, _⟩ => hvanish e he hruntime
  runtime_iff _ := iff_of_false (by simp) hnone
  unknown h := absurd h (all_known hknown)
  counts _ _ h := by simp at h

lemma verdictOf_hasRuntimeEdges (hruntime : ∃ e ∈ sccEdges, e.2.2 = some .runtime)
    (hlives : Cyclic (RuntimeImport sccEdges))
    (hcount : typeOnly = (sccEdges.filter fun e => e.2.2 = some .typeOnly).length) :
    VerdictOf sccEdges (.hasRuntimeEdges typeOnly sccEdges.length) where
  typeOnly_iff _ := by
    obtain ⟨e, he, hruntime⟩ := hruntime
    exact iff_of_false (by simp) fun hno => hno e he hruntime
  breaks_iff _ := iff_of_false (by simp) fun ⟨_, _, hno⟩ => hno hlives
  runtime_iff _ := iff_of_true ⟨_, _, rfl⟩ hlives
  unknown h := absurd h (all_known hknown)
  counts _ _ h := by
    simp only [reduceCtorEq, CycleTypeOnly.hasRuntimeEdges.injEq, false_or] at h
    exact ⟨h.1.symm.trans hcount, h.2.symm⟩

lemma verdictOf_breaksAtRuntime (htype : ∃ e ∈ sccEdges, e.2.2 = some .typeOnly)
    (hruntime : ∃ e ∈ sccEdges, e.2.2 = some .runtime) (hno : ¬ Cyclic (RuntimeImport sccEdges))
    (hcount : typeOnly = (sccEdges.filter fun e => e.2.2 = some .typeOnly).length) :
    VerdictOf sccEdges (.breaksAtRuntime typeOnly sccEdges.length) where
  typeOnly_iff _ := by
    obtain ⟨e, he, hruntime⟩ := hruntime
    exact iff_of_false (by simp) fun hno => hno e he hruntime
  breaks_iff _ := iff_of_true ⟨_, _, rfl⟩ ⟨htype, hruntime, hno⟩
  runtime_iff _ := iff_of_false (by simp) hno
  unknown h := absurd h (all_known hknown)
  counts _ _ h := by
    simp only [reduceCtorEq, CycleTypeOnly.breaksAtRuntime.injEq, or_false] at h
    exact ⟨h.1.symm.trans hcount, h.2.symm⟩

end Cases

lemma classifyCycleTypeOnly_spec (hloop : ∀ e ∈ sccEdges, e.1 ≠ e.2.1)
    (hcyclic : Cyclic fun u v => ∃ d, (u, v, d) ∈ sccEdges) :
    ∃ verdict, classifyCycleTypeOnly sccEdges = .ok verdict ∧ VerdictOf sccEdges verdict := by
  have hpos : sccEdges.length ≠ 0 := by
    obtain ⟨v, hv⟩ := hcyclic
    obtain ⟨w, ⟨d, hd⟩, -⟩ := Relation.TransGen.head'_iff.mp hv
    exact List.length_pos_of_mem hd |>.ne'
  unfold classifyCycleTypeOnly
  dsimp only
  rw [if_neg hpos]
  by_cases hunreadable : sccEdges.any (fun e => e.2.2 = some .unreadable)
  · rw [if_pos hunreadable]
    obtain ⟨e, he, hbad⟩ := List.any_eq_true.mp hunreadable
    exact ⟨_, rfl, verdictOf_unknown he (.inr (by simpa using hbad)) _⟩
  by_cases habsent : sccEdges.any (fun e => e.2.2 = none)
  · rw [if_neg hunreadable, if_pos habsent]
    obtain ⟨e, he, hbad⟩ := List.any_eq_true.mp habsent
    exact ⟨_, rfl, verdictOf_unknown he (.inl (by simpa using hbad)) _⟩
  rw [if_neg hunreadable, if_neg habsent]
  have hknown : ∀ e ∈ sccEdges, e.2.2 = some .typeOnly ∨ e.2.2 = some .runtime := by
    intro e he
    simp only [List.any_eq_true, decide_eq_true_eq, not_exists, not_and] at hunreadable habsent
    have hread := hunreadable e he
    have hthere := habsent e he
    cases hd : e.2.2 with
    | none => exact absurd hd hthere
    | some d =>
      cases d with
      | typeOnly => exact .inl rfl
      | runtime => exact .inr rfl
      | unreadable => exact absurd hd hread
  have hcount : sccEdges.countP (fun e => e.2.2 = some .typeOnly) =
      (sccEdges.filter fun e => e.2.2 = some .typeOnly).length :=
    List.countP_eq_length_filter
  by_cases hall : sccEdges.countP (fun e => e.2.2 = some .typeOnly) = sccEdges.length
  · rw [if_pos hall]
    have hvanish : ∀ e ∈ sccEdges, e.2.2 ≠ some .runtime := by
      intro e he
      rw [List.countP_eq_length] at hall
      have htype : e.2.2 = some .typeOnly := by simpa using hall e he
      rw [htype]
      decide
    have hnone : ¬ Cyclic (RuntimeImport sccEdges) := by
      rintro ⟨v, hv⟩
      obtain ⟨w, hedge, -⟩ := Relation.TransGen.head'_iff.mp hv
      exact hvanish _ hedge rfl
    exact ⟨_, rfl, verdictOf_typeOnly hknown hvanish hnone⟩
  rw [if_neg hall]
  have hruntime : ∃ e ∈ sccEdges, e.2.2 = some .runtime := by
    by_contra hno
    apply hall
    rw [List.countP_eq_length]
    intro e he
    simpa using (hknown e he).resolve_right fun h => hno ⟨e, he, h⟩
  by_cases hzero : sccEdges.countP (fun e => e.2.2 = some .typeOnly) = 0
  · rw [if_pos hzero]
    have hnone : ∀ e ∈ sccEdges, e.2.2 = some .runtime := by
      intro e he
      rw [List.countP_eq_zero] at hzero
      exact (hknown e he).resolve_left (by simpa using hzero e he)
    have hlives : Cyclic (RuntimeImport sccEdges) := by
      apply hcyclic.mono
      rintro u v ⟨d, hd⟩
      obtain rfl : d = some .runtime := hnone _ hd
      exact hd
    exact ⟨_, rfl, verdictOf_hasRuntimeEdges hknown hruntime hlives (hzero.symm.trans hcount)⟩
  rw [if_neg hzero]
  have htype : ∃ e ∈ sccEdges, e.2.2 = some .typeOnly := by
    obtain ⟨e, he, htype⟩ := List.countP_pos_iff.mp (Nat.pos_of_ne_zero hzero)
    exact ⟨e, he, by simpa using htype⟩
  obtain ⟨b, hb, hiff⟩ := runtimeSubgraphIsCyclic_iff hloop
  rw [hb, ok_bind]
  cases b with
  | true => exact ⟨_, rfl, verdictOf_hasRuntimeEdges hknown hruntime (hiff.mp rfl) hcount⟩
  | false => exact ⟨_, rfl, verdictOf_breaksAtRuntime hknown htype hruntime (by simpa using hiff) hcount⟩

end Verdict

end RepoGraph.Agent
