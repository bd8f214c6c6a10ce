import RepoGraph.LiveGraph.PathSearch

/-! What the label of a path says about the partitions behind it. -/

namespace RepoGraph.LiveGraph

open Lib Lib.Digraph Ir TrustModel GraphAlgorithms

variable {g : LiveGraph} {source target : String}

lemma foundEnvelope_spec (g : LiveGraph) (t : Trace) :
    ∃ env, g.foundEnvelope t = .ok env ∧
      env.data = some ⟨t.nodesRev.reverse, t.edgesRev.reverse, (g.foldContributing t.parts.toList).epochs⟩ ∧
      (env.answerClass = .exact ↔ (g.foldContributing t.parts.toList).freshness = .fresh) ∧
      env.degradationReasons = [] := by
  simp only [foundEnvelope]
  by_cases hf : (g.foldContributing t.parts.toList).freshness = .fresh
  · rw [if_pos hf]
    obtain ⟨env, he, hc, hd, hr⟩ := unwrapOr_exact "path exact invariant holds"
      (⟨t.nodesRev.reverse, t.edgesRev.reverse, (g.foldContributing t.parts.toList).epochs⟩ : PathAnswer) []
      (orTypeScript_nonempty (g.foldContributing t.parts.toList).languages)
    exact ⟨env, he, hd, by simp [hc, hf], hr⟩
  · rw [if_neg hf]
    obtain ⟨env, he, hc, hd, hr⟩ := unwrapOr_stale "path stale invariant holds"
      (⟨t.nodesRev.reverse, t.edgesRev.reverse, (g.foldContributing t.parts.toList).epochs⟩ : PathAnswer) _ []
      [] [] (orTypeScript_nonempty (g.foldContributing t.parts.toList).languages) hf
    exact ⟨env, he, hd, by simp [hc, hf], hr⟩

lemma noPathEnvelope_spec (g : LiveGraph) (source : String) (degraded : Bool) :
    ∃ env, g.noPathEnvelope source degraded = .ok env ∧ env.data = some ⟨[], [], ∅⟩ ∧
      (env.answerClass = .exact ↔ degraded = false) := by
  simp only [noPathEnvelope]
  cases degraded with
  | true =>
    obtain ⟨env, he, hc, hd, -⟩ := unwrapOr_incomplete "path partial invariant holds"
      (some (⟨[], [], ∅⟩ : PathAnswer)) [.unresolvedAlias] [] .fresh [] (orTypeScript_nonempty _) (by simp)
    exact ⟨env, he, hd, by simp [hc]⟩
  | false =>
    obtain ⟨env, he, hc, hd, -⟩ := unwrapOr_exact "path exact no-path invariant holds"
      (⟨[], [], ∅⟩ : PathAnswer) [] (orTypeScript_nonempty _)
    exact ⟨env, he, hd, by simp [hc]⟩

inductive PathOutcome (g : LiveGraph) (source target : String) (env : AnswerEnvelope PathAnswer) : Prop
  | unknown (hunknown : source ∉ g.callGraph.known ∨ target ∉ g.callGraph.known)
      (hclass : env.answerClass = .unavailable)
  | found {t : Trace} (htraced : Traced g target t)
      (hself : source = target → t = .start g target)
      (hdata : env.data = some ⟨t.nodesRev.reverse, t.edgesRev.reverse,
        (g.foldContributing t.parts.toList).epochs⟩)
      (hclass : env.answerClass = .exact ↔ (g.foldContributing t.parts.toList).freshness = .fresh)
      (hlisted : env.degradationReasons = [])
  | noPath {popped : List String} {st : Search} (hexplored : Explored g source target popped st)
      (hempty : st.queue = []) (hdata : env.data = some ⟨[], [], ∅⟩)
      (hclass : env.answerClass = .exact ↔ st.degraded = false)

lemma pathEvery_spec (interval : ℕ) (g : LiveGraph) (source target : String) (cancel : CancelCheck) :
    (∃ n, cancel n = .brk) ∧ pathEvery interval g source target cancel = .ok (.error .cancelled) ∨
      ∃ env, pathEvery interval g source target cancel = .ok (.ok env) ∧ PathOutcome g source target env := by
  by_cases hunknown : source ∉ g.callGraph.known ∨ target ∉ g.callGraph.known
  · refine Or.inr ⟨.unavailable .unresolvedAlias .unavailable ∅, ?_, .unknown hunknown rfl⟩
    rw [pathEvery, if_pos hunknown]
  · have hsource : source ∈ g.callGraph.known := by tauto
    obtain ⟨r, hr, hdone⟩ := search_terminates interval cancel hsource target
    rw [pathEvery, if_neg hunknown, hr, ok_bind]
    cases r with
    | error e => exact Or.inl ⟨hdone, rfl⟩
    | ok r =>
      refine Or.inr ?_
      obtain ⟨found, st⟩ := r
      cases found with
      | true =>
        obtain ⟨popped, hdisc, htarget⟩ := hdone
        obtain ⟨t, ht, htraced⟩ := trace_terminates hdisc htarget
        obtain ⟨env, he, hdata, hclass, hlisted⟩ := foundEnvelope_spec g t
        refine ⟨env, by simp [ht, he], .found htraced ?_ hdata hclass hlisted⟩
        rintro rfl
        have hstop : traceStep g st.parent source (.start g source) = .ok (.inr (.start g source)) := by
          simp [traceStep, Trace.start, hdisc.root]
        rw [pathFuel, loop_done hstop] at ht
        exact (Except.ok.inj ht).symm
      | false =>
        obtain ⟨popped, hexplored, hempty⟩ := hdone
        obtain ⟨env, he, hdata, hclass⟩ := noPathEnvelope_spec g source st.degraded
        exact ⟨env, by simp [he], .noPath hexplored hempty hdata hclass⟩

lemma path_spec (g : LiveGraph) (source target : String) :
    ∃ env, g.path source target = .ok env ∧ PathOutcome g source target env := by
  rcases pathEvery_spec pathCancelCheckInterval g source target (fun _ => .cont) with
    ⟨⟨n, hn⟩, -⟩ | ⟨env, he, hout⟩
  · simp at hn
  · exact ⟨env, by simp [path, pathCancellable, he], hout⟩

def DefinersFresh (g : LiveGraph) (key : String) : Prop :=
  ∀ id s, g.slot id = some s → key ∈ s.defines → s.ResidentFresh

/-- An exact path rests on resident and fresh partitions only; an exact absence of a path is one in a
region that is known completely. -/
def PathTrusted (g : LiveGraph) (source target : String) : Prop :=
  ∃ env, g.path source target = .ok env ∧
    (env.answerClass = .exact → ∃ data, env.data = some data ∧
      (data.nodes ≠ [] → (∀ n ∈ data.nodes, g.DefinersFresh n) ∧
        (∀ e ∈ data.edges, ∃ id ∈ data.contributingEpochs, g.Call id e.1 e.2) ∧
        ∀ id ∈ data.contributingEpochs, ∃ s, g.slot id = some s ∧ s.ResidentFresh) ∧
      (data.nodes = [] → ∀ v, Reach g.Calls source v → g.DefinersFresh v))

/-- The slot that the owner map keeps for a key speaks for all slots that define the key. -/
def OwnersSpeak (g : LiveGraph) : Prop :=
  ∀ key id s, g.lastDefiner key = some ⟨id, s⟩ → s.status = .current → g.DefinersFresh key

lemma slot_of_lastDefiner {key id : String} {s : Slot} (h : g.lastDefiner key = some ⟨id, s⟩) :
    g.slot id = some s ∧ key ∈ s.defines :=
  mem_definers.mp (List.mem_of_getLast? h)

lemma exists_lastDefiner {key id : String} {s : Slot} (hs : g.slot id = some s) (hk : key ∈ s.defines) :
    ∃ id' s', g.lastDefiner key = some ⟨id', s'⟩ := by
  have hne : g.definers key ≠ [] := List.ne_nil_of_mem (mem_definers.mpr ⟨hs, hk⟩)
  exact ⟨_, _, List.getLast?_eq_getLast_of_ne_nil hne⟩

lemma owner_of_lastDefiner {key id : String} {s : Slot} (h : g.lastDefiner key = some ⟨id, s⟩) :
    g.owner[key]? = some id := by
  rw [getElem?_owner, h]
  rfl

lemma fullyExpandable_iff {key : String} : g.fullyExpandable key = true ↔
    ∃ id s, g.lastDefiner key = some ⟨id, s⟩ ∧ s.ResidentFresh := by
  rw [fullyExpandable, getElem?_owner]
  cases h : g.lastDefiner key with
  | none => simp
  | some e =>
    obtain ⟨id, s⟩ := e
    obtain ⟨hs, -⟩ := slot_of_lastDefiner h
    simp only [Option.map_some, hs, Option.getD_some, Slot.ResidentFresh, Bool.and_eq_true,
      decide_eq_true_eq, statusFreshness_eq_fresh, Option.some.injEq]
    constructor
    · intro hf
      exact ⟨id, s, rfl, hf⟩
    · rintro ⟨id', s', heq, hf⟩
      cases heq
      exact hf

lemma OwnersSpeak.definersFresh (h : g.OwnersSpeak) {t : Trace} (ht : Traced g target t)
    (hfresh : (g.foldContributing t.parts.toList).freshness = .fresh) {n : String} (hn : n ∈ t.nodesRev) :
    g.DefinersFresh n := by
  intro id s hs hk
  obtain ⟨id', s', hlast⟩ := exists_lastDefiner hs hk
  have hpart := ht.owners n hn id' (owner_of_lastDefiner hlast)
  have hstatus := foldContributing_fresh.mp hfresh id' (Std.ExtTreeSet.mem_toList.mpr hpart) s'
    (slot_of_lastDefiner hlast).1
  exact h n id' s' hlast hstatus id s hs hk

lemma Traced.contributes {t : Trace} (ht : Traced g target t) {e : String × String} (he : e ∈ t.edgesRev) :
    ∃ id ∈ (g.foldContributing t.parts.toList).epochs, g.Call id e.1 e.2 := by
  obtain ⟨id, hid, hcall⟩ := ht.edges e he
  obtain ⟨ir, hir⟩ := hcall.resident
  obtain ⟨s, hs, -⟩ := Option.bind_eq_some_iff.mp hir
  exact ⟨id, mem_foldContributing_epochs.mpr ⟨Std.ExtTreeSet.mem_toList.mpr hid, s, hs⟩, hcall⟩

lemma OwnersSpeak.contributorsFresh (h : g.OwnersSpeak) {t : Trace} (ht : Traced g target t)
    (hfresh : (g.foldContributing t.parts.toList).freshness = .fresh) {id : String}
    (hid : id ∈ (g.foldContributing t.parts.toList).epochs) : ∃ s, g.slot id = some s ∧ s.ResidentFresh := by
  obtain ⟨hpart, s, hs⟩ := mem_foldContributing_epochs.mp hid
  have hstatus := foldContributing_fresh.mp hfresh id hpart s hs
  rcases ht.parts id (Std.ExtTreeSet.mem_toList.mp hpart) with ⟨n, hn, howner⟩ | ⟨ir, hir⟩
  · rw [getElem?_owner] at howner
    obtain ⟨⟨id', s'⟩, hlast, rfl⟩ := Option.map_eq_some_iff.mp howner
    obtain ⟨hs', hk⟩ := slot_of_lastDefiner hlast
    exact ⟨s', hs', h.definersFresh ht hfresh hn id' s' hs' hk⟩
  · have hsir : s.ir = some ir := by simpa [residentIr, hs] using hir
    exact ⟨s, hs, by simp [hsir], hstatus⟩

lemma OwnersSpeak.regionFresh (h : g.OwnersSpeak) {popped : List String} {st : Search}
    (hexplored : Explored g source target popped st) (hempty : st.queue = []) (hdegraded : st.degraded = false)
    {v : String} (hreach : Reach g.Calls source v) : g.DefinersFresh v := by
  intro id s hs hk
  have hpopped : ∀ w, w ∈ st.visited ↔ w ∈ popped := by
    intro w
    rw [hexplored.visited, hempty, List.append_nil]
  -- With the queue empty the popped nodes are closed under calls.
  have hclosed : Closed g.Calls (· ∈ popped) := by
    intro u w hu hcall
    exact (hpopped w).mp (hexplored.closed u hu w hcall)
  have hv := hclosed.reach ((hpopped source).mp hexplored.start) hreach
  obtain ⟨id', s', hlast, hrf⟩ := fullyExpandable_iff.mp (hexplored.degraded hdegraded v hv)
  exact h v id' s' hlast hrf.2 id s hs hk

lemma OwnersSpeak.pathTrusted (h : g.OwnersSpeak) (source target : String) : g.PathTrusted source target := by
  obtain ⟨env, he, hout⟩ := path_spec g source target
  refine ⟨env, he, ?_⟩
  intro hexact
  cases hout with
  | unknown _ hclass => simp [hexact] at hclass
  | found htraced _ hdata hclass _ =>
    have hfresh := hclass.mp hexact
    refine ⟨_, hdata, ?_, ?_⟩
    · intro _
      exact ⟨fun n hn => h.definersFresh htraced hfresh (List.mem_reverse.mp hn),
        fun e hedge => htraced.contributes (List.mem_reverse.mp hedge),
        fun id hid => h.contributorsFresh htraced hfresh hid⟩
    · intro hnil
      have hmem := htraced.target
      simp only [List.reverse_eq_nil_iff] at hnil
      simp [hnil] at hmem
  | noPath hexplored hempty hdata hclass =>
    have hdegraded := hclass.mp hexact
    exact ⟨_, hdata, by simp, fun _ v hreach => h.regionFresh hexplored hempty hdegraded hreach⟩

lemma path_self {key id : String} {s : Slot} (h : g.lastDefiner key = some ⟨id, s⟩) :
    ∃ env, g.path key key = .ok env ∧
      (∃ data, env.data = some data ∧ data.nodes = [key] ∧ ∀ id', id' ∈ data.contributingEpochs ↔ id' = id) ∧
      (env.answerClass = .exact ↔ s.status = .current) ∧ env.degradationReasons = [] := by
  obtain ⟨hs, hk⟩ := slot_of_lastDefiner h
  have hknown : key ∈ g.callGraph.known := mem_known.mpr (Or.inl ⟨id, s, hs, hk⟩)
  obtain ⟨env, he, hout⟩ := path_spec g key key
  refine ⟨env, he, ?_⟩
  cases hout with
  | unknown hunknown => simp [hknown] at hunknown
  | found _ hself hdata hclass hlisted =>
    rw [hself rfl] at hdata hclass
    have hpart : ∀ id', id' ∈ (Trace.start g key).parts.toList ↔ id' = id := by
      intro id'
      rw [Std.ExtTreeSet.mem_toList, Trace.start, mem_addOwner, owner_of_lastDefiner h]
      simp [eq_comm]
    refine ⟨⟨_, hdata, by simp [Trace.start], ?_⟩, ?_, hlisted⟩
    · intro id'
      rw [mem_foldContributing_epochs, hpart]
      exact ⟨fun hid => hid.1, fun hid => ⟨hid, s, hid ▸ hs⟩⟩
    rw [hclass, foldContributing_fresh]
    simp only [hpart, forall_eq, hs, Option.some.injEq, forall_eq']
  | noPath hexplored hempty =>
    have hmem := (hexplored.visited key).mp hexplored.start
    rw [hempty, List.append_nil] at hmem
    exact (hexplored.unpopped hmem).elim

/-- The label of a path can be trusted exactly when, for every key, the slot kept by the owner map
stands for all slots that define the key. -/
theorem path_trusted_iff (ms : List Mutation) :
    (∀ source target, (after ms).PathTrusted source target) ↔ (after ms).OwnersSpeak := by
  constructor
  · intro h key id s hlast hstatus
    obtain ⟨env, he, hexact⟩ := h key key
    obtain ⟨env', he', ⟨data', hdata', hnodes, -⟩, hclass, -⟩ := path_self hlast
    obtain rfl := Except.ok.inj (he.symm.trans he')
    obtain ⟨data, hdata, hfound, -⟩ := hexact (hclass.mpr hstatus)
    obtain rfl := Option.some.inj (hdata.symm.trans hdata')
    exact (hfound (by simp [hnodes])).1 key (by simp [hnodes])
  · intro h source target
    exact h.pathTrusted source target

/-- An unloaded partition keeps its status, and a path that ends in it is still called exact. -/
theorem path_untrusted_after_unload :
    ¬ (after (Fixture.both ++ [.unloadPartition "engine"])).PathTrusted "api.caller" "engine.foo" := by
  let ms : List Mutation := Fixture.both ++ [.unloadPartition "engine"]
  rintro ⟨env, he, hexact⟩
  have hanswer : ((after ms).path "api.caller" "engine.foo").map
      (fun env => (env.answerClass, env.data.map PathAnswer.nodes)) =
        .ok (.exact, some ["api.caller", "engine.foo"]) := by decide
  rw [he] at hanswer
  obtain ⟨hclass, hnodes⟩ := Prod.mk.inj (Except.ok.inj hanswer)
  obtain ⟨data, hdata, hfound, -⟩ := hexact hclass
  rw [hdata] at hnodes
  have hnodes' : data.nodes = ["api.caller", "engine.foo"] := Option.some.inj hnodes
  have hpast : past ms "engine" =
      some ⟨Ir.Fixture.engine, .typeScriptPrimary, false, .current, ∅, [], false⟩ := rfl
  obtain ⟨s, hs, hr⟩ := slot_of_past hpast
  have hfresh := (hfound (by simp [hnodes'])).1 "engine.foo" (by simp [hnodes']) "engine" s hs
    (hr.defines ▸ (mem_defines _ _).mpr ⟨_, List.mem_cons_self .., rfl⟩)
  have hres := hfresh.1
  rw [hr.ir] at hres
  simp at hres

end RepoGraph.LiveGraph
