import RepoGraph.GraphAlgorithms.SccCancel
import RepoGraph.LiveGraph.PathTrust

/-! Cancellation of the path search, and both cancellable searches together. -/

namespace RepoGraph.LiveGraph

open Lib Ir TrustModel GraphAlgorithms

def checkDue (interval : ℕ) (st : Search) : Bool := !st.queue.isEmpty && st.popsSinceCheck + 1 ≥ interval

def pathAnswers (interval : ℕ) (g : LiveGraph) (source target : String) (cancel : CancelCheck) :
    List ControlFlow :=
  if source ∉ g.callGraph.known ∨ target ∉ g.callGraph.known then []
  else
    (List.range (polls (searchStep interval cancel g target) (checkDue interval) g.pathFuel
      (.start source))).map cancel

variable {g : LiveGraph} {source target : String} {interval : ℕ} {cancel : CancelCheck}

inductive SearchRound (g : LiveGraph) (interval : ℕ) (cancel : CancelCheck) (target : String) (st : Search) : Prop
  | stops (hstep : searchStep interval cancel g target st = .ok (.inr (.error .cancelled)))
      (hdue : checkDue interval st = true) (hbrk : cancel st.consulted = .brk)
  | goesOn {st' : Search} (hstep : searchStep interval cancel g target st = .ok (.inl st'))
      (hnever : searchStep interval (fun _ => .cont) g target st = .ok (.inl st'))
      (hconsulted : st'.consulted = st.consulted + if checkDue interval st then 1 else 0)
      (hcont : checkDue interval st = true → cancel st.consulted = .cont)
  | ends {r : Except Cancelled (Bool × Search)} (hstep : searchStep interval cancel g target st = .ok (.inr r))
      (hnever : searchStep interval (fun _ => .cont) g target st = .ok (.inr r))
      (hcont : checkDue interval st = true → cancel st.consulted = .cont)

lemma visitNeighbor_consulted (n : String) (st : Search) (nb : String × String) :
    (visitNeighbor n st nb).consulted = st.consulted := by
  rw [visitNeighbor]
  split <;> rfl

lemma expand_consulted (g : LiveGraph) (n : String) (st : Search) :
    (g.expand n st).consulted = st.consulted := by
  have hfold : ∀ (nbs : List (String × String)) (st : Search),
      (nbs.foldl (visitNeighbor n) st).consulted = st.consulted := by
    intro nbs
    induction nbs with
    | nil => exact fun _ => rfl
    | cons nb nbs ih =>
      intro st
      rw [List.foldl_cons, ih, visitNeighbor_consulted]
  rw [expand, hfold]
  split <;> rfl

lemma popCheckpoint_cases (interval : ℕ) (cancel : CancelCheck) (st : Search) :
    (st.popsSinceCheck + 1 ≥ interval ∧ cancel st.consulted = .brk ∧
        (popCheckpoint interval cancel st).1 = .brk) ∨
      ∃ st', popCheckpoint interval cancel st = (.cont, st') ∧
        popCheckpoint interval (fun _ => .cont) st = (.cont, st') ∧
        st'.consulted = st.consulted + (if st.popsSinceCheck + 1 ≥ interval then 1 else 0) ∧
        (st.popsSinceCheck + 1 ≥ interval → cancel st.consulted = .cont) := by
  by_cases hdue : st.popsSinceCheck + 1 ≥ interval
  · have hpop : ∀ cancel, popCheckpoint interval cancel st =
        (cancel st.consulted, { st with popsSinceCheck := 0, consulted := st.consulted + 1 }) :=
      fun _ => if_pos hdue
    cases hc : cancel st.consulted with
    | brk => exact Or.inl ⟨hdue, rfl, by rw [hpop]; exact hc⟩
    | cont => exact Or.inr ⟨_, by rw [hpop, hc], hpop _, by simp [hdue], fun _ => rfl⟩
  · have hpop : ∀ cancel, popCheckpoint interval cancel st =
        (.cont, { st with popsSinceCheck := st.popsSinceCheck + 1 }) := fun _ => if_neg hdue
    exact Or.inr ⟨_, hpop _, hpop _, by simp [hdue], fun h => absurd h hdue⟩

lemma searchStep_pop (g : LiveGraph) (target : String) {n : String} {queue : List String} {st st' : Search}
    (hq : st.queue = n :: queue) (hpop : popCheckpoint interval cancel { st with queue := queue } = (.cont, st')) :
    searchStep interval cancel g target st =
      .ok (if n = target then .inr (.ok (true, st')) else .inl (g.expand n st')) := by
  rw [searchStep, hq]
  dsimp only
  rw [hpop]
  dsimp only
  split <;> rfl

lemma searchRound (g : LiveGraph) (interval : ℕ) (cancel : CancelCheck) (target : String) (st : Search) :
    SearchRound g interval cancel target st := by
  cases hq : st.queue with
  | nil =>
    have hdue : checkDue interval st = false := by simp [checkDue, hq]
    exact .ends (r := .ok (false, st)) (by simp [searchStep, hq]) (by simp [searchStep, hq]) (by simp [hdue])
  | cons n queue =>
    have hdue : checkDue interval st = decide (st.popsSinceCheck + 1 ≥ interval) := by simp [checkDue, hq]
    rcases popCheckpoint_cases interval cancel { st with queue := queue } with
      ⟨hd, hbrk, hpop⟩ | ⟨st', hpop, hnever, hconsulted, hcont⟩
    · refine .stops ?_ (by simpa [hdue] using hd) hbrk
      rw [searchStep, hq]
      dsimp only
      rcases hp : popCheckpoint interval cancel { st with queue := queue } with ⟨flow, st'⟩
      rw [hp] at hpop
      obtain rfl : flow = .brk := hpop
      rfl
    · have hcont' : checkDue interval st = true → cancel st.consulted = .cont := by
        intro h
        exact hcont (by simpa [hdue] using h)
      have hstep := searchStep_pop g target hq hpop
      have hstep' := searchStep_pop g target hq hnever
      by_cases hn : n = target
      · rw [if_pos hn] at hstep hstep'
        exact .ends hstep hstep' hcont'
      · rw [if_neg hn] at hstep hstep'
        refine .goesOn hstep hstep' ?_ hcont'
        rw [expand_consulted, hconsulted, hdue]
        simp

lemma search_tracks (cancel : CancelCheck) {fuel : ℕ} {st : Search} {r : Except Cancelled (Bool × Search)}
    (hquiet : ∀ n < st.consulted, cancel n = .cont)
    (h : loop (searchStep interval (fun _ => .cont) g target) fuel st = .ok r) :
    let total := st.consulted + polls (searchStep interval cancel g target) (checkDue interval) fuel st
    loop (searchStep interval cancel g target) fuel st = .ok r ∧ (∀ n < total, cancel n = .cont) ∨
      loop (searchStep interval cancel g target) fuel st = .ok (.error .cancelled) ∧
        ∃ n < total, cancel n = .brk := by
  have hthis : ∀ (st : Search), (∀ n < st.consulted, cancel n = .cont) →
      (checkDue interval st = true → cancel st.consulted = .cont) →
      ∀ n < st.consulted + (if checkDue interval st then 1 else 0), cancel n = .cont := by
    intro st hquiet hcont n hn
    cases hdue : checkDue interval st with
    | false => exact hquiet n (by simpa [hdue] using hn)
    | true =>
      simp only [hdue, if_true, Nat.lt_succ_iff_lt_or_eq] at hn
      rcases hn with hn | rfl
      · exact hquiet n hn
      · exact hcont hdue
  induction fuel generalizing st with
  | zero => cases h
  | succ fuel ih =>
    cases searchRound g interval cancel target st with
    | stops hstep hdue hbrk =>
      rw [polls_done hstep, loop_done hstep]
      exact Or.inr ⟨rfl, st.consulted, by simp [hdue], hbrk⟩
    | goesOn hstep hnever hconsulted hcont =>
      rw [loop_next hnever] at h
      rw [polls_next hstep, loop_next hstep, ← Nat.add_assoc, ← hconsulted]
      exact ih (hconsulted ▸ hthis st hquiet hcont) h
    | ends hstep hnever hcont =>
      rw [loop_done hnever] at h
      rw [polls_done hstep, loop_done hstep]
      exact Or.inl ⟨h, hthis st hquiet hcont⟩

def Search.recount (st : Search) (pops consulted : ℕ) : Search :=
  { st with popsSinceCheck := pops, consulted := consulted }

lemma visitNeighbor_recount (n : String) (st : Search) (nb : String × String) (a b : ℕ) :
    visitNeighbor n (st.recount a b) nb = (visitNeighbor n st nb).recount a b := by
  by_cases hv : nb.1 ∈ st.visited
  · have hv' : nb.1 ∈ (st.recount a b).visited := hv
    rw [visitNeighbor, visitNeighbor, if_pos hv, if_pos hv']
  · have hv' : nb.1 ∉ (st.recount a b).visited := hv
    rw [visitNeighbor, visitNeighbor, if_neg hv, if_neg hv']
    rfl

lemma expand_recount (g : LiveGraph) (n : String) (st : Search) (a b : ℕ) :
    g.expand n (st.recount a b) = (g.expand n st).recount a b := by
  have hfold : ∀ (nbs : List (String × String)) (st : Search),
      nbs.foldl (visitNeighbor n) (st.recount a b) = (nbs.foldl (visitNeighbor n) st).recount a b := by
    intro nbs
    induction nbs with
    | nil => exact fun _ => rfl
    | cons nb nbs ih =>
      intro st
      rw [List.foldl_cons, List.foldl_cons, visitNeighbor_recount, ih]
  rw [expand, expand, ← hfold]
  cases g.fullyExpandable n <;> rfl

lemma popCheckpoint_continues (interval : ℕ) (st : Search) :
    ∃ a b, popCheckpoint interval (fun _ => .cont) st = (.cont, st.recount a b) := by
  rw [popCheckpoint]
  split
  · exact ⟨_, _, rfl⟩
  · exact ⟨_, _, rfl⟩

lemma search_interval {fuel : ℕ} {st : Search} {r : Except Cancelled (Bool × Search)}
    (h : loop (searchStep interval (fun _ => .cont) g target) fuel st = .ok r) (interval' : ℕ) :
    ∃ found st' a b, r = .ok (found, st') ∧
      loop (searchStep interval' (fun _ => .cont) g target) fuel st = .ok (.ok (found, st'.recount a b)) := by
  have hround : ∀ s s' : Search, (∃ a b, s' = s.recount a b) →
      (∀ t, searchStep interval (fun _ => .cont) g target s = .ok (.inl t) →
        ∃ t', searchStep interval' (fun _ => .cont) g target s' = .ok (.inl t') ∧ ∃ a b, t' = t.recount a b) ∧
      ∀ r, searchStep interval (fun _ => .cont) g target s = .ok (.inr r) →
        ∃ r', searchStep interval' (fun _ => .cont) g target s' = .ok (.inr r') ∧
          ∃ found st' a b, r = .ok (found, st') ∧ r' = .ok (found, Search.recount st' a b) := by
    rintro s _ ⟨a, b, rfl⟩
    cases hq : s.queue with
    | nil =>
      refine ⟨by simp [searchStep, hq], ?_⟩
      intro r hr
      have hr : r = .ok (false, s) := by simpa [searchStep, hq, eq_comm] using hr
      have hq' : (s.recount a b).queue = [] := hq
      exact ⟨_, by simp [searchStep, hq'], false, s, a, b, hr, rfl⟩
    | cons n queue =>
      have hq' : (s.recount a b).queue = n :: queue := hq
      obtain ⟨c, d, hpop⟩ := popCheckpoint_continues interval { s with queue := queue }
      obtain ⟨c', d', hpop'⟩ := popCheckpoint_continues interval' { s.recount a b with queue := queue }
      rw [searchStep_pop g target hq hpop, searchStep_pop g target hq' hpop']
      by_cases hn : n = target
      · rw [if_pos hn, if_pos hn]
        refine ⟨by simp, ?_⟩
        intro r hr
        obtain rfl := Sum.inr.inj (Except.ok.inj hr)
        exact ⟨_, rfl, true, _, c', d', rfl, rfl⟩
      · rw [if_neg hn, if_neg hn]
        refine ⟨?_, by simp⟩
        intro t ht
        obtain rfl := Sum.inl.inj (Except.ok.inj ht)
        exact ⟨_, rfl, c', d', expand_recount g n (Search.recount { s with queue := queue } c d) c' d'⟩
  obtain ⟨r', hloop, found, st', a, b, rfl, rfl⟩ := loop_related hround
    ⟨st.popsSinceCheck, st.consulted, rfl⟩ h
  exact ⟨found, st', a, b, rfl, hloop⟩

def afterSearch (g : LiveGraph) (source target : String) :
    Except Cancelled (Bool × Search) → Exec (Except Cancelled (AnswerEnvelope PathAnswer))
  | .error e => .ok (.error e)
  | .ok (true, st) => do
    let t ← loop (traceStep g st.parent source) g.pathFuel (.start g target)
    .ok <$> g.foundEnvelope t
  | .ok (false, st) => .ok <$> g.noPathEnvelope source st.degraded

lemma pathEvery_known (hknown : ¬ (source ∉ g.callGraph.known ∨ target ∉ g.callGraph.known)) (interval : ℕ)
    (cancel : CancelCheck) : pathEvery interval g source target cancel =
      loop (searchStep interval cancel g target) g.pathFuel (.start source) >>= g.afterSearch source target := by
  rw [pathEvery, if_neg hknown]
  rfl

lemma afterSearch_recount (found : Bool) (st : Search) (a b : ℕ) :
    g.afterSearch source target (.ok (found, st.recount a b)) = g.afterSearch source target (.ok (found, st)) := by
  cases found <;> rfl

lemma pathEvery_transparent (interval : ℕ) (g : LiveGraph) (source target : String) (cancel : CancelCheck) :
    ∃ env, g.path source target = .ok env ∧ pathEvery interval g source target cancel =
      .ok (if .brk ∈ pathAnswers interval g source target cancel then .error .cancelled else .ok env) := by
  by_cases hunknown : source ∉ g.callGraph.known ∨ target ∉ g.callGraph.known
  · refine ⟨.unavailable .unresolvedAlias .unavailable ∅, ?_, ?_⟩
    · rw [path, pathCancellable, pathEvery, if_pos hunknown]
      rfl
    · rw [pathEvery, if_pos hunknown, pathAnswers, if_pos hunknown]
      rfl
  · obtain ⟨env, hpath, -⟩ := path_spec g source target
    refine ⟨env, hpath, ?_⟩
    have hsource : source ∈ g.callGraph.known := by tauto
    rw [pathAnswers, if_neg hunknown, pathEvery_known hunknown]
    obtain ⟨r, hr, -⟩ := search_terminates pathCancelCheckInterval (fun _ => .cont) hsource target
    obtain ⟨found, st, a, b, rfl, hr'⟩ := search_interval hr interval
    have hafter : g.afterSearch source target (.ok (found, st)) = .ok (.ok env) := by
      rw [path, pathCancellable, pathEvery_known hunknown, hr, ok_bind] at hpath
      obtain ⟨e, he, hunwrap⟩ := bind_ok.mp hpath
      cases e with
      | error e => cases hunwrap
      | ok env' =>
        obtain rfl : env' = env := Except.ok.inj hunwrap
        exact he
    rcases search_tracks cancel (by simp [Search.start]) hr' with ⟨hsame, hquiet⟩ | ⟨hbrk, n, hn, hc⟩
    · have hnot : ControlFlow.brk ∉ (List.range (polls (searchStep interval cancel g target) (checkDue interval)
          g.pathFuel (.start source))).map cancel := by
        intro hmem
        obtain ⟨n, hn, he⟩ := List.mem_map.mp hmem
        have := hquiet n (by simpa [Search.start] using hn)
        simp [he] at this
      rw [hsame, ok_bind, afterSearch_recount, hafter, if_neg hnot]
    · have hmem : ControlFlow.brk ∈ (List.range (polls (searchStep interval cancel g target) (checkDue interval)
          g.pathFuel (.start source))).map cancel :=
        List.mem_map.mpr ⟨n, by simpa [Search.start] using hn, hc⟩
      rw [hbrk, ok_bind, if_pos hmem]
      rfl

/-- For any checkpoint interval, a cancellable search returns the cancelled error exactly when one of
the answers it was given was `brk`, and what the search without cancellation returns otherwise. -/
theorem cancellation_transparent (interval : ℕ) (cancel : CancelCheck) :
    (∀ edges, ∃ r answers, findSccs edges = .ok r ∧ sccAnswers interval edges cancel = .ok answers ∧
      (findSccsEvery interval edges cancel = .ok (.error .cancelled) ↔ .brk ∈ answers) ∧
      (.brk ∉ answers → findSccsEvery interval edges cancel = .ok (.ok r))) ∧
    ∀ (g : LiveGraph) (source target : String), ∃ env, g.path source target = .ok env ∧
      (pathEvery interval g source target cancel = .ok (.error .cancelled) ↔
        .brk ∈ pathAnswers interval g source target cancel) ∧
      (.brk ∉ pathAnswers interval g source target cancel →
        pathEvery interval g source target cancel = .ok (.ok env)) := by
  constructor
  · intro edges
    obtain ⟨r, answers, hr, hanswers, hevery⟩ := findSccsEvery_transparent interval edges cancel
    refine ⟨r, answers, hr, hanswers, ?_⟩
    rw [hevery]
    by_cases hbrk : ControlFlow.brk ∈ answers
    · simp [hbrk]
    · simp [hbrk]
  · intro g source target
    obtain ⟨env, henv, hevery⟩ := pathEvery_transparent interval g source target cancel
    refine ⟨env, henv, ?_⟩
    rw [hevery]
    by_cases hbrk : ControlFlow.brk ∈ pathAnswers interval g source target cancel
    · simp [hbrk]
    · simp [hbrk]

end RepoGraph.LiveGraph
