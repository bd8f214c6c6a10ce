import RepoGraph.Lib.Keyed
import RepoGraph.Lib.Runs

/-! The automatic re-index queue: jobs that are noted by first uses and status requests, guards of the
explicit writes, and the one worker that reads a stamp without the queue's lock and then starts an index. -/

namespace RepoGraph.DaemonRuntime

open Lib

inductive JobState
  | queued
  | running
  | finished
  | failed (failure : String)
  deriving DecidableEq, Repr

structure Job (δ : Type) where
  dbKey : δ
  repoUid : String
  state : JobState
  deriving DecidableEq, Repr

def Job.key {δ : Type} (j : Job δ) : δ × String := (j.dbKey, j.repoUid)

/-- The jobs in FIFO order, those that have ended among them, and the explicit writes in flight. -/
structure JobQueue (δ : Type) where
  jobs : List (Job δ)
  explicitWrites : List δ

inductive StampCheck
  | nothing
  | reindex (repoPath : String)
  | contended
  | unreadable (reason : String)
  deriving DecidableEq, Repr

/-- Where the worker is: it has picked a job, has read that the job's stamp calls for an index, or runs it. -/
inductive ReindexWorker (δ : Type)
  | idle
  | picked (job : δ × String)
  | due (job : δ × String)
  | running (job : δ × String)
  | stopped
  deriving DecidableEq, Repr

inductive ReindexState
  | disabled (reason : String)
  | queued
  | running
  | failed (failure : String)
  deriving DecidableEq, Repr

def optOutDisabledReason : String := "RMAP_AUTO_REINDEX=off"

def stdioDisabledReason : String := "stdio transport — a background re-index cannot outlive the request"

structure AutoReindex (δ : Type) where
  queue : JobQueue δ
  worker : ReindexWorker δ
  stdio : Bool
  workerFailure : Option String

/-- `enabled` is the switch as the step reads it, `clear` tells for which databases neither a rebuild sentinel
nor an index or refresh in flight stands in the way, and `failureSeen` whether a request reads the worker's
failure before or after it was set. -/
inductive ReindexEvent (δ : Type)
  | markStdioTransport
  | noteFirstUse (enabled : Bool) (dbKey : δ) (repoUid : String)
  | takeGuard (dbKey : δ)
  | dropGuard (dbKey : δ)
  | requestState (enabled failureSeen : Bool) (dbKey : δ) (repoUid : String)
  | pick (clear : δ → Bool)
  | readStamp (found : StampCheck)
  | start (clear : δ → Bool)
  | finishIndex (failure : Option String)
  | stopWorker (reason : String)

variable {δ : Type} [DecidableEq δ]

namespace JobQueue

def jobState (q : JobQueue δ) (job : δ × String) : Option JobState := (Keyed.find Job.key job q.jobs).map (·.state)

def setJobState (q : JobQueue δ) (job : δ × String) (state : JobState) : JobQueue δ :=
  { q with jobs := Keyed.modifyFirst Job.key job (fun j => { j with state }) q.jobs }

def push (q : JobQueue δ) (dbKey : δ) (repoUid : String) : JobQueue δ :=
  { q with jobs := q.jobs ++ [⟨dbKey, repoUid, .queued⟩] }

def requeue (q : JobQueue δ) (dbKey : δ) (repoUid : String) : JobQueue δ :=
  { q with jobs := Keyed.replaceLast Job.key ⟨dbKey, repoUid, .queued⟩ q.jobs }

def moveBehind (q : JobQueue δ) (job : δ × String) : JobQueue δ :=
  { q with jobs := Keyed.moveLast Job.key job q.jobs }

def gateOpen (q : JobQueue δ) (clear : δ → Bool) (dbKey : δ) : Bool := dbKey ∉ q.explicitWrites && clear dbKey

def nextStartable (q : JobQueue δ) (clear : δ → Bool) : Option (δ × String) :=
  ((q.jobs.filter (·.state = .queued)).find? fun j => q.gateOpen clear j.dbKey).map Job.key

end JobQueue

namespace AutoReindex

def new : AutoReindex δ := { queue := ⟨[], []⟩, worker := .idle, stdio := false, workerFailure := none }

def noteFirstUse (s : AutoReindex δ) (enabled : Bool) (dbKey : δ) (repoUid : String) : AutoReindex δ :=
  if s.stdio ∨ !enabled then s
  else if (s.queue.jobState (dbKey, repoUid)).isNone then { s with queue := s.queue.push dbKey repoUid }
  else s

def reindexStateForRequest (s : AutoReindex δ) (enabled failureSeen : Bool) (dbKey : δ) (repoUid : String) :
    ReindexState × AutoReindex δ :=
  if !enabled then (.disabled optOutDisabledReason, s)
  else if s.stdio then (.disabled stdioDisabledReason, s)
  else
    let workerFailure := if failureSeen then s.workerFailure else none
    match s.queue.jobState (dbKey, repoUid), workerFailure with
    | some (.failed failure), _ => (.failed failure, s)
    | _, some failure => (.failed failure, s)
    | some .queued, none => (.queued, s)
    | some .running, none => (.running, s)
    | some .finished, none | none, none => (.queued, { s with queue := s.queue.requeue dbKey repoUid })

def step (s : AutoReindex δ) : ReindexEvent δ → AutoReindex δ
  | .markStdioTransport => { s with stdio := true }
  | .noteFirstUse enabled dbKey repoUid => s.noteFirstUse enabled dbKey repoUid
  | .takeGuard dbKey => { s with queue := { s.queue with explicitWrites := s.queue.explicitWrites ++ [dbKey] } }
  | .dropGuard dbKey => { s with queue := { s.queue with explicitWrites := s.queue.explicitWrites.erase dbKey } }
  | .requestState enabled failureSeen dbKey repoUid =>
    (s.reindexStateForRequest enabled failureSeen dbKey repoUid).2
  | .pick clear =>
    match s.worker with
    | .idle =>
      match s.queue.nextStartable clear with
      | some job => { s with worker := .picked job }
      | none => s
    | _ => s
  | .readStamp found =>
    match s.worker with
    | .picked job =>
      match found with
      | .nothing => { s with queue := s.queue.setJobState job .finished, worker := .idle }
      | .unreadable reason => { s with queue := s.queue.setJobState job (.failed reason), worker := .idle }
      | .contended => { s with queue := s.queue.moveBehind job, worker := .idle }
      | .reindex _ => { s with worker := .due job }
    | _ => s
  | .start clear =>
    match s.worker with
    | .due job =>
      if !s.queue.gateOpen clear job.1 then { s with worker := .idle }
      else if s.queue.jobState job = some .queued then
        { s with queue := s.queue.setJobState job .running, worker := .running job }
      else { s with worker := .idle }
    | _ => s
  | .finishIndex failure =>
    match s.worker with
    | .running job =>
      let ended := (failure.map JobState.failed).getD .finished
      { s with queue := s.queue.setJobState job ended, worker := .idle }
    | _ => s
  | .stopWorker reason => { s with worker := .stopped, workerFailure := s.workerFailure.or (some reason) }

inductive Moves (s s' : AutoReindex δ) : Prop
  | keeps (h : ∀ x, s'.queue.jobState x = s.queue.jobState x)
  | enqueues (job : δ × String) (hold : s.queue.jobState job = none ∨ s.queue.jobState job = some .finished)
      (h : ∀ x, s'.queue.jobState x = if x = job then some .queued else s.queue.jobState x)
  | starts (job : δ × String) (hold : s.queue.jobState job = some .queued) (hgate : job.1 ∉ s.queue.explicitWrites)
      (h : ∀ x, s'.queue.jobState x = if x = job then some .running else s.queue.jobState x)
  | ends (job : δ × String) (hold : s.queue.jobState job = some .queued ∨ s.queue.jobState job = some .running)
      (ended : JobState) (hended : ended ≠ .queued ∧ ended ≠ .running)
      (h : ∀ x, s'.queue.jobState x = if x = job then some ended else s.queue.jobState x)

/-- The worker's job is where the worker believes it to be, and nobody else runs one. -/
structure Consistent (s : AutoReindex δ) : Prop where
  keys : (s.queue.jobs.map Job.key).Nodup
  waiting : ∀ x, s.worker = .picked x ∨ s.worker = .due x → s.queue.jobState x = some .queued
  working : ∀ x, s.worker = .running x → s.queue.jobState x = some .running
  worked : ∀ x, s.queue.jobState x = some .running → s.worker = .running x ∨ s.worker = .stopped
  one : ∀ x y, s.queue.jobState x = some .running → s.queue.jobState y = some .running → x = y

variable {s s' : AutoReindex δ}

omit [DecidableEq δ] in
lemma key_withState (state : JobState) (j : Job δ) : Job.key { j with state } = j.key := rfl

lemma jobState_setJobState (q : JobQueue δ) (job x : δ × String) (state : JobState) (h : (q.jobState job).isSome) :
    (q.setJobState job state).jobState x = if x = job then some state else q.jobState x := by
  rw [JobQueue.jobState, JobQueue.setJobState, Keyed.find_modifyFirst (key_withState state)]
  split
  · rw [JobQueue.jobState, Option.isSome_map, Option.isSome_iff_exists] at h
    obtain ⟨j, hj⟩ := h
    rw [hj]
    rfl
  · rfl

lemma nodup_setJobState {q : JobQueue δ} (h : (q.jobs.map Job.key).Nodup) (job : δ × String) (state : JobState) :
    ((q.setJobState job state).jobs.map Job.key).Nodup := by
  rw [JobQueue.setJobState, Keyed.map_modifyFirst (key_withState state)]
  exact h

lemma jobState_requeue (q : JobQueue δ) (dbKey : δ) (repoUid : String) (x : δ × String) :
    (q.requeue dbKey repoUid).jobState x = if x = (dbKey, repoUid) then some .queued else q.jobState x := by
  rw [JobQueue.jobState, JobQueue.requeue, Keyed.find_replaceLast]
  change Option.map _ (if x = (dbKey, repoUid) then _ else _) = _
  split <;> rfl

lemma jobState_push {q : JobQueue δ} {dbKey : δ} {repoUid : String} (h : q.jobState (dbKey, repoUid) = none)
    (x : δ × String) :
    (q.push dbKey repoUid).jobState x = if x = (dbKey, repoUid) then some .queued else q.jobState x := by
  have habsent : Keyed.find Job.key (dbKey, repoUid) q.jobs = none := Option.map_eq_none_iff.mp h
  have hfind := Keyed.find_append_of_absent (a := (⟨dbKey, repoUid, .queued⟩ : Job δ)) habsent x
  rw [JobQueue.jobState, JobQueue.push, hfind]
  change Option.map _ (if x = (dbKey, repoUid) then _ else _) = _
  split <;> rfl

lemma nextStartable_queued {q : JobQueue δ} {clear : δ → Bool} {job : δ × String}
    (hkeys : (q.jobs.map Job.key).Nodup) (h : q.nextStartable clear = some job) :
      q.jobState job = some .queued := by
  obtain ⟨j, hj, rfl⟩ := Option.map_eq_some_iff.mp h
  obtain ⟨hmem, hqueued⟩ := List.mem_filter.mp (List.mem_of_find?_eq_some hj)
  have hfind : Keyed.find Job.key j.key q.jobs = some j := (Keyed.find_eq_some_iff hkeys).mpr ⟨hmem, rfl⟩
  rw [JobQueue.jobState, hfind]
  exact congrArg some (by simpa using hqueued)

lemma Consistent.none_runs (h : s.Consistent) (hworker : ∀ x, s.worker ≠ .running x)
    (hstopped : s.worker ≠ .stopped) (x : δ × String) : s.queue.jobState x ≠ some .running := by
  intro hx
  exact (h.worked x hx).elim (hworker x) hstopped

lemma Consistent.enqueues (h : s.Consistent) {job : δ × String} (hworker : s'.worker = s.worker)
    (hkeys : (s'.queue.jobs.map Job.key).Nodup)
    (hold : s.queue.jobState job = none ∨ s.queue.jobState job = some .finished)
    (htable : ∀ x, s'.queue.jobState x = if x = job then some .queued else s.queue.jobState x) :
      s'.Consistent := by
  have hrunning : ∀ x, s'.queue.jobState x = some .running ↔ s.queue.jobState x = some .running := by
    intro x
    rw [htable]
    by_cases hx : x = job
    · subst hx
      rcases hold with hold | hold <;> simp [hold]
    · rw [if_neg hx]
  constructor
  · exact hkeys
  · intro x hx
    rw [hworker] at hx
    rw [htable, h.waiting x hx]
    split <;> rfl
  · intro x hx
    rw [hworker] at hx
    exact (hrunning x).mpr (h.working x hx)
  · intro x hx
    rw [hworker]
    exact h.worked x ((hrunning x).mp hx)
  · intro x y hx hy
    exact h.one x y ((hrunning x).mp hx) ((hrunning y).mp hy)

lemma consistent_of_idle (hworker : s'.worker = .idle) (hkeys : (s'.queue.jobs.map Job.key).Nodup)
    (hnone : ∀ x, s'.queue.jobState x ≠ some .running) : s'.Consistent := by
  refine ⟨hkeys, ?_, ?_, ?_, ?_⟩
  · intro x hx
    rw [hworker] at hx
    rcases hx with hx | hx <;> cases hx
  · intro x hx
    rw [hworker] at hx
    cases hx
  · intro x hx
    exact absurd hx (hnone x)
  · intro x _ hx
    exact absurd hx (hnone x)

lemma Consistent.ends (h : s.Consistent) {job : δ × String} {ended : JobState} {queue : JobQueue δ}
    (hqueue : queue = s.queue.setJobState job ended) (hended : ended ≠ .queued ∧ ended ≠ .running)
    (hold : s.queue.jobState job = some .queued ∨ s.queue.jobState job = some .running)
    (hothers : ∀ x, x ≠ job → s.queue.jobState x ≠ some .running) :
    { s with queue, worker := .idle }.Consistent ∧ Moves s { s with queue, worker := .idle } := by
  subst hqueue
  have hsome : (s.queue.jobState job).isSome := by rcases hold with hold | hold <;> rw [hold] <;> rfl
  have htable := fun x => jobState_setJobState s.queue job x ended hsome
  refine ⟨consistent_of_idle rfl (nodup_setJobState h.keys job ended) ?_, .ends job hold ended hended htable⟩
  intro x hx
  rw [show _ = _ from htable x] at hx
  split at hx
  · exact hended.2 (Option.some.inj hx)
  · rename_i hne
    exact hothers x hne hx

lemma Consistent.noteFirstUse (h : s.Consistent) (enabled : Bool) (dbKey : δ) (repoUid : String) :
    (s.noteFirstUse enabled dbKey repoUid).Consistent ∧ Moves s (s.noteFirstUse enabled dbKey repoUid) := by
  rw [AutoReindex.noteFirstUse]
  split
  · exact ⟨h, .keeps fun _ => rfl⟩
  · split
    · rename_i hnone
      have habsent : s.queue.jobState (dbKey, repoUid) = none := by simpa using hnone
      have htable := jobState_push habsent
      refine ⟨h.enqueues rfl ?_ (Or.inl habsent) htable, .enqueues _ (Or.inl habsent) htable⟩
      have hfind : Keyed.find Job.key (dbKey, repoUid) s.queue.jobs = none := Option.map_eq_none_iff.mp habsent
      exact Keyed.nodup_append_of_absent h.keys hfind
    · exact ⟨h, .keeps fun _ => rfl⟩

lemma Consistent.requestState (h : s.Consistent) (enabled failureSeen : Bool) (dbKey : δ) (repoUid : String) :
    let answer := s.reindexStateForRequest enabled failureSeen dbKey repoUid
    answer.2.Consistent ∧ Moves s answer.2 ∧
      (answer.1 = .queued → answer.2.queue.jobState (dbKey, repoUid) = some .queued) ∧
      (answer.1 = .running → answer.2.queue.jobState (dbKey, repoUid) = some .running) := by
  have hrequeue : ∀ hold : s.queue.jobState (dbKey, repoUid) = none ∨
      s.queue.jobState (dbKey, repoUid) = some .finished,
      let s' := { s with queue := s.queue.requeue dbKey repoUid }
      s'.Consistent ∧ Moves s s' ∧ s'.queue.jobState (dbKey, repoUid) = some .queued := by
    intro hold
    have htable := jobState_requeue s.queue dbKey repoUid
    have hkeys := Keyed.nodup_replaceLast h.keys (⟨dbKey, repoUid, .queued⟩ : Job δ)
    exact ⟨h.enqueues rfl hkeys hold htable, .enqueues _ hold htable, by rw [htable, if_pos rfl]⟩
  simp only [reindexStateForRequest]
  split
  · exact ⟨h, .keeps fun _ => rfl, by simp, by simp⟩
  · split
    · exact ⟨h, .keeps fun _ => rfl, by simp, by simp⟩
    · split
      · exact ⟨h, .keeps fun _ => rfl, by simp, by simp⟩
      · exact ⟨h, .keeps fun _ => rfl, by simp, by simp⟩
      · rename_i hstate _
        exact ⟨h, .keeps fun _ => rfl, fun _ => hstate, by simp⟩
      · rename_i hstate _
        exact ⟨h, .keeps fun _ => rfl, by simp, fun _ => hstate⟩
      · rename_i hstate _
        obtain ⟨hcons, hmoves, hqueued⟩ := hrequeue (Or.inr hstate)
        exact ⟨hcons, hmoves, fun _ => hqueued, by simp⟩
      · rename_i hstate _
        obtain ⟨hcons, hmoves, hqueued⟩ := hrequeue (Or.inl hstate)
        exact ⟨hcons, hmoves, fun _ => hqueued, by simp⟩

lemma Consistent.pick (h : s.Consistent) (clear : δ → Bool) :
    (s.step (.pick clear)).Consistent ∧ Moves s (s.step (.pick clear)) := by
  rw [step]
  split
  · rename_i hworker
    split
    · rename_i job hjob
      refine ⟨⟨h.keys, ?_, by simp, ?_, h.one⟩, .keeps fun _ => rfl⟩
      · rintro x (hx | hx)
        · cases hx
          exact nextStartable_queued h.keys hjob
        · cases hx
      · intro x hx
        exact absurd hx (h.none_runs (by simp [hworker]) (by simp [hworker]) x)
    · exact ⟨h, .keeps fun _ => rfl⟩
  · exact ⟨h, .keeps fun _ => rfl⟩

lemma Consistent.readStamp (h : s.Consistent) (found : StampCheck) :
    (s.step (.readStamp found)).Consistent ∧ Moves s (s.step (.readStamp found)) := by
  rw [step]
  split
  · rename_i job hworker
    have hqueued := h.waiting job (Or.inl hworker)
    have hnone := h.none_runs (by simp [hworker]) (by simp [hworker])
    split
    · exact h.ends rfl (by simp) (Or.inl hqueued) fun x _ => hnone x
    · exact h.ends rfl (by simp) (Or.inl hqueued) fun x _ => hnone x
    · have hsame : ∀ x, (s.queue.moveBehind job).jobState x = s.queue.jobState x := by
        intro x
        rw [JobQueue.jobState, JobQueue.moveBehind, Keyed.find_of_perm (Keyed.moveLast_perm job _) h.keys]
        rfl
      have hkeys : ((s.queue.moveBehind job).jobs.map Job.key).Nodup :=
        ((Keyed.moveLast_perm job s.queue.jobs).map Job.key).nodup_iff.mpr h.keys
      refine ⟨consistent_of_idle rfl hkeys fun x => ?_, .keeps hsame⟩
      rw [show _ = _ from hsame x]
      exact hnone x
    · refine ⟨⟨h.keys, ?_, by simp, fun x hx => absurd hx (hnone x), h.one⟩, .keeps fun _ => rfl⟩
      rintro x (hx | hx)
      · cases hx
      · cases hx
        exact hqueued
  · exact ⟨h, .keeps fun _ => rfl⟩

lemma Consistent.start (h : s.Consistent) (clear : δ → Bool) :
    (s.step (.start clear)).Consistent ∧ Moves s (s.step (.start clear)) := by
  rw [step]
  split
  · rename_i job hworker
    have hnone := h.none_runs (by simp [hworker]) (by simp [hworker])
    split
    · exact ⟨consistent_of_idle rfl h.keys hnone, .keeps fun _ => rfl⟩
    · rename_i hgate
      split
      · rename_i hqueued
        have htable := fun x => jobState_setJobState s.queue job x .running (by rw [hqueued]; rfl)
        have hrunning : ∀ x, (s.queue.setJobState job .running).jobState x = some .running → x = job := by
          intro x hx
          rw [htable] at hx
          by_contra hne
          rw [if_neg hne] at hx
          exact hnone x hx
        refine ⟨⟨nodup_setJobState h.keys job .running, ?_, ?_, ?_, ?_⟩, .starts job hqueued ?_ htable⟩
        · rintro x (hx | hx) <;> cases hx
        · intro x hx
          cases hx
          exact (htable job).trans (if_pos rfl)
        · intro x hx
          exact Or.inl (congrArg _ (hrunning x hx).symm)
        · intro x y hx hy
          exact (hrunning x hx).trans (hrunning y hy).symm
        · simp only [JobQueue.gateOpen, Bool.not_eq_true', Bool.not_eq_false, Bool.and_eq_true,
            decide_eq_true_eq] at hgate
          exact hgate.1
      · exact ⟨consistent_of_idle rfl h.keys hnone, .keeps fun _ => rfl⟩
  · exact ⟨h, .keeps fun _ => rfl⟩

lemma Consistent.finishIndex (h : s.Consistent) (failure : Option String) :
    (s.step (.finishIndex failure)).Consistent ∧ Moves s (s.step (.finishIndex failure)) := by
  rw [step]
  split
  · rename_i job hworker
    have hrunning := h.working job hworker
    refine h.ends rfl ?_ (Or.inr hrunning) ?_
    · cases failure <;> simp
    · intro x hne hx
      exact hne (h.one x job hx hrunning)
  · exact ⟨h, .keeps fun _ => rfl⟩

lemma Consistent.step (h : s.Consistent) (e : ReindexEvent δ) : (s.step e).Consistent ∧ Moves s (s.step e) := by
  have hsame : ∀ s' : AutoReindex δ, s'.queue.jobs = s.queue.jobs → s'.worker = s.worker →
      s'.Consistent ∧ Moves s s' := by
    intro s' hjobs hworker
    have htable : ∀ x, s'.queue.jobState x = s.queue.jobState x := fun x => by
      rw [JobQueue.jobState, hjobs, JobQueue.jobState]
    refine ⟨⟨hjobs ▸ h.keys, ?_, ?_, ?_, ?_⟩, .keeps htable⟩
    all_goals simp only [htable, hworker]
    · exact h.waiting
    · exact h.working
    · exact h.worked
    · exact h.one
  cases e with
  | markStdioTransport => exact hsame _ rfl rfl
  | takeGuard dbKey => exact hsame _ rfl rfl
  | dropGuard dbKey => exact hsame _ rfl rfl
  | noteFirstUse enabled dbKey repoUid => exact h.noteFirstUse enabled dbKey repoUid
  | requestState enabled failureSeen dbKey repoUid =>
    obtain ⟨hcons, hmoves, -⟩ := h.requestState enabled failureSeen dbKey repoUid
    exact ⟨hcons, hmoves⟩
  | pick clear => exact h.pick clear
  | readStamp found => exact h.readStamp found
  | start clear => exact h.start clear
  | finishIndex failure => exact h.finishIndex failure
  | stopWorker reason =>
    refine ⟨⟨h.keys, by simp [AutoReindex.step], by simp [AutoReindex.step], ?_, h.one⟩, .keeps fun _ => rfl⟩
    intro x _
    exact Or.inr rfl

lemma new_consistent : (new : AutoReindex δ).Consistent := by
  constructor <;> simp [new, JobQueue.jobState, Keyed.find]

lemma run_consistent (events : List (ReindexEvent δ)) : (run step new events).Consistent :=
  run_invariant (fun _ (s : AutoReindex δ) => s.Consistent) new_consistent (fun _ _ e h => (h.step e).1) events

/-- At most one job for a key, and at most one that runs. -/
structure QueueOk (s : AutoReindex δ) : Prop where
  keys : (s.queue.jobs.map Job.key).Nodup
  one_running : (s.queue.jobs.filter (·.state = .running)).length ≤ 1

/-- What no step does: start a job that is not queued or whose database an explicit write holds, touch a failed
job, drop a queued one, or answer with a state the job is not in. -/
structure StepOk (s : AutoReindex δ) (e : ReindexEvent δ) : Prop where
  starts : ∀ x, (s.step e).queue.jobState x = some .running → s.queue.jobState x ≠ some .running →
    s.queue.jobState x = some .queued ∧ x.1 ∉ s.queue.explicitWrites
  failed : ∀ x failure, s.queue.jobState x = some (.failed failure) →
    (s.step e).queue.jobState x = some (.failed failure)
  kept : ∀ x, s.queue.jobState x = some .queued → ((s.step e).queue.jobState x).isSome
  answers : ∀ enabled failureSeen dbKey repoUid, e = .requestState enabled failureSeen dbKey repoUid →
    let reply := (s.reindexStateForRequest enabled failureSeen dbKey repoUid).1
    (reply = .queued → (s.step e).queue.jobState (dbKey, repoUid) = some .queued) ∧
      (reply = .running → (s.step e).queue.jobState (dbKey, repoUid) = some .running)

lemma Consistent.queueOk (h : s.Consistent) : s.QueueOk := by
  refine ⟨h.keys, ?_⟩
  have hnodup : (s.queue.jobs.filter (·.state = .running)).Nodup := h.keys.of_map.filter _
  by_contra hlen
  obtain ⟨a, b, rest, hrunning⟩ : ∃ a b rest, s.queue.jobs.filter (·.state = .running) = a :: b :: rest := by
    generalize s.queue.jobs.filter (·.state = .running) = running at hlen
    match running, hlen with
    | [], hlen => simp at hlen
    | [a], hlen => simp at hlen
    | a :: b :: rest, _ => exact ⟨a, b, rest, rfl⟩
  have hstate : ∀ j ∈ s.queue.jobs.filter (·.state = .running), j ∈ s.queue.jobs ∧
      s.queue.jobState j.key = some .running := by
    intro j hj
    obtain ⟨hmem, hr⟩ := List.mem_filter.mp hj
    refine ⟨hmem, ?_⟩
    rw [JobQueue.jobState, (Keyed.find_eq_some_iff h.keys).mpr ⟨hmem, rfl⟩]
    exact congrArg some (by simpa using hr)
  obtain ⟨hma, hsa⟩ := hstate a (by simp [hrunning])
  obtain ⟨hmb, hsb⟩ := hstate b (by simp [hrunning])
  have hab := List.inj_on_of_nodup_map h.keys hma hmb (h.one _ _ hsa hsb)
  rw [hrunning, hab] at hnodup
  simp at hnodup

lemma Consistent.stepOk (h : s.Consistent) (e : ReindexEvent δ) : s.StepOk e := by
  have hmoves := (h.step e).2
  constructor
  · intro x hx hold
    cases hmoves with
    | keeps htable =>
      rw [htable] at hx
      exact absurd hx hold
    | enqueues job _ htable =>
      rw [htable] at hx
      split at hx
      · cases hx
      · exact absurd hx hold
    | starts job hqueued hgate htable =>
      rw [htable] at hx
      split at hx
      · rename_i heq
        exact heq ▸ ⟨hqueued, hgate⟩
      · exact absurd hx hold
    | ends job _ ended hended htable =>
      rw [htable] at hx
      split at hx
      · exact absurd (Option.some.inj hx) hended.2
      · exact absurd hx hold
  · intro x failure hx
    cases hmoves with
    | keeps htable => rw [htable, hx]
    | enqueues job hold htable =>
      rw [htable, if_neg, hx]
      rintro rfl
      rcases hold with hold | hold <;> rw [hold] at hx <;> cases hx
    | starts job hold _ htable =>
      rw [htable, if_neg, hx]
      rintro rfl
      rw [hold] at hx
      cases hx
    | ends job hold ended _ htable =>
      rw [htable, if_neg, hx]
      rintro rfl
      rcases hold with hold | hold <;> rw [hold] at hx <;> cases hx
  · intro x hx
    cases hmoves with
    | keeps htable => simp [htable, hx]
    | enqueues job _ htable =>
      rw [htable]
      split <;> simp [hx]
    | starts job _ _ htable =>
      rw [htable]
      split <;> simp [hx]
    | ends job _ ended _ htable =>
      rw [htable]
      split <;> simp [hx]
  · rintro enabled failureSeen dbKey repoUid rfl
    exact (h.requestState enabled failureSeen dbKey repoUid).2.2

end AutoReindex

/-- The queue of every run, and every step that can follow it. -/
theorem auto_reindex_ok (events : List (ReindexEvent δ)) :
    (run AutoReindex.step (AutoReindex.new : AutoReindex δ) events).QueueOk ∧
      ∀ e, (run AutoReindex.step (AutoReindex.new : AutoReindex δ) events).StepOk e :=
  ⟨(AutoReindex.run_consistent events).queueOk, fun e => (AutoReindex.run_consistent events).stepOk e⟩

end RepoGraph.DaemonRuntime
