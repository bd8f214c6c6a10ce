import RepoGraph.DaemonPolicy.Safety

/-! Wake-ups: a call sleeps only while what it waits for has not come, unless a queued refresh that
was granted has emptied the queue without a notification. -/

namespace RepoGraph.DaemonPolicy

open Lib CoordinatorState

variable {ι : Type} [DecidableEq ι]

namespace Sys

/-- Some call was notified and has not run since. -/
def WakeUpPending (s : Sys ι) : Prop :=
  ∃ i, (∃ timed, s.calls i = .readWait timed true) ∨
    ∃ kind timed ticket, s.calls i = .writeWait kind timed ticket true

def ReaderSleeps (s : Sys ι) : Prop := ∃ i timed, s.calls i = .readWait timed false

/-- A reader sleeps that the state admits. -/
def ReaderMissed (s : Sys ι) : Prop := s.ReaderSleeps ∧ s.writeQueue = [] ∧ s.state.canRead

/-- The writer at the front sleeps, and could be granted. -/
def WriterMissed (s : Sys ι) : Prop :=
  ∃ i kind timed ticket state, s.calls i = .writeWait kind timed ticket false ∧
    s.writeQueue.head? = some (ticket, kind) ∧ kind.tryFn s.state = .ok state

/-- The step grants the only queued call, a refresh, while a reader sleeps. -/
def Strands (s : Sys ι) (e : Event ι) : Prop :=
  (∃ i expired timed ticket, e = .resume i expired ∧ s.calls i = .writeWait .refresh timed ticket true ∧
    s.writeQueue = [(ticket, .refresh)]) ∧ s.state = .idle ∧ s.ReaderSleeps

structure Awake (s : Sys ι) : Prop where
  reader : ∀ i timed, s.calls i = .readWait timed false → s.writeQueue ≠ [] ∨ s.state = .writing
  writer : ∀ i kind timed ticket, s.calls i = .writeWait kind timed ticket false →
    s.writeQueue.head?.map Prod.fst = some ticket → s.state ≠ .idle

lemma canRead_iff (state : CoordinatorState) : state.canRead ↔ state ≠ .writing := by
  cases state <;> simp [canRead]

omit [DecidableEq ι] in
lemma Awake.not_readerMissed {s : Sys ι} (h : s.Awake) : ¬s.ReaderMissed := by
  rintro ⟨⟨i, timed, hi⟩, hq, hr⟩
  rcases h.reader i timed hi with hne | hw
  · exact hne hq
  · exact (canRead_iff s.state).1 hr hw

omit [DecidableEq ι] in
lemma Awake.not_writerMissed {s : Sys ι} (h : s.Awake) : ¬s.WriterMissed := by
  rintro ⟨i, kind, timed, ticket, state, hi, hf, ht⟩
  apply h.writer i kind timed ticket hi
  · rw [hf]
    rfl
  · exact (tryFn_idle_iff kind s.state).1 ⟨state, ht⟩

lemma wake_ne_readWait (p : Phase) (timed : Bool) : p.wake ≠ .readWait timed false := by
  cases p <;> simp [Phase.wake]

lemma wake_ne_writeWait (p : Phase) (kind : WriteKind) (timed : Bool) (ticket : ℕ) :
    p.wake ≠ .writeWait kind timed ticket false := by
  cases p <;> simp [Phase.wake]

omit [DecidableEq ι] in
lemma notifyAll_awake (s : Sys ι) : s.notifyAll.Awake := by
  constructor
  · intro i timed hi
    exact absurd hi (wake_ne_readWait _ _)
  · intro i kind timed ticket hi
    exact absurd hi (wake_ne_writeWait _ _ _ _)

lemma setPhase_calls (s : Sys ι) (i : ι) (p : Phase) : (s.setPhase i p).calls = Function.update s.calls i p := rfl

lemma Awake.setPhase {s s' : Sys ι} {i : ι} {p : Phase} (h : s.Awake) (hs : s'.calls = Function.update s.calls i p)
    (hpr : ∀ timed, p ≠ .readWait timed false) (hpw : ∀ kind timed ticket, p ≠ .writeWait kind timed ticket false)
    (hr : s.ReaderSleeps → s.writeQueue ≠ [] ∨ s.state = .writing → s'.writeQueue ≠ [] ∨ s'.state = .writing)
    (hw : ∀ j kind timed ticket, j ≠ i → s.calls j = .writeWait kind timed ticket false →
      s'.writeQueue.head?.map Prod.fst = some ticket → s'.state ≠ .idle) : s'.Awake := by
  constructor
  · intro j timed hj
    rw [hs] at hj
    by_cases hji : j = i
    · subst hji
      rw [Function.update_self] at hj
      exact absurd hj (hpr timed)
    · rw [Function.update_of_ne hji] at hj
      exact hr ⟨j, timed, hj⟩ (h.reader j timed hj)
  · intro j kind timed ticket hj hf
    rw [hs] at hj
    by_cases hji : j = i
    · subst hji
      rw [Function.update_self] at hj
      exact absurd hj (hpw kind timed ticket)
    · rw [Function.update_of_ne hji] at hj
      exact hw j kind timed ticket hji hj hf

lemma tryFn_ne_idle {k : WriteKind} {state state' : CoordinatorState} (h : k.tryFn state = .ok state') :
    state' ≠ .idle := by
  rcases k <;> rcases state <;>
    simp [WriteKind.tryFn, tryAcquireWrite, tryAcquireRefresh] at h <;> simp [← h]

lemma tryAcquireRead_ne_idle {state state' : CoordinatorState} (h : state.tryAcquireRead = .ok state') :
    state' ≠ .idle ∧ state ≠ .writing := by
  rcases state <;> simp [tryAcquireRead] at h <;> simp [← h]

variable [Fintype ι]

def MoveStrands (s : Sys ι) (i : ι) (s' : Sys ι) : Prop :=
  s.ReaderSleeps ∧ s.state = .idle ∧ s'.calls i = .writeGuard .refresh ∧
    ∃ ticket, s.standing i = .queued (ticket, .refresh) ∧ s.writeQueue.head?.map Prod.fst = some ticket ∧
      s.writeQueue.tail = []

lemma Awake.move {s s' : Sys ι} {i : ι} (h : s.Awake) (hl : s.Lined) (hm : Move s i s')
    (hs : ¬MoveStrands s i s') :
    s'.Awake := by
  cases hm with
  | stay => exact h
  | waitRead timed hi hb =>
    constructor
    · intro j timed' hj
      by_cases hji : j = i
      · exact hb
      · rw [setPhase_calls, Function.update_of_ne hji] at hj
        exact h.reader j timed' hj
    · intro j kind timed' ticket hj hf
      by_cases hji : j = i
      · subst hji
        simp [Sys.setPhase] at hj
      · rw [setPhase_calls, Function.update_of_ne hji] at hj
        exact h.writer j kind timed' ticket hj hf
  | leaveRead hi =>
    exact h.setPhase rfl (by simp) (by simp) (fun _ hr => hr) (fun j kind timed ticket _ hj => h.writer j _ _ _ hj)
  | waitWrite kind timed ticket hi hb =>
    constructor
    · intro j timed' hj
      by_cases hji : j = i
      · subst hji
        simp [Sys.setPhase] at hj
      · rw [setPhase_calls, Function.update_of_ne hji] at hj
        exact h.reader j timed' hj
    · intro j kind' timed' ticket' hj hf
      by_cases hji : j = i
      · subst hji
        rw [setPhase_calls, Function.update_self] at hj
        injection hj with _ _ ht _
        subst ht
        rcases hb with hb | hb
        · exact absurd hf hb
        · exact hb
      · rw [setPhase_calls, Function.update_of_ne hji] at hj
        exact h.writer j kind' timed' ticket' hj hf
  | grantRead state hi hq ht =>
    obtain ⟨hidle, hw⟩ := tryAcquireRead_ne_idle ht
    apply h.setPhase rfl (by simp) (by simp)
    · rintro _ (hr | hr)
      · exact absurd hq hr
      · exact absurd hr hw
    · exact fun _ _ _ _ _ _ _ => hidle
  | takeTicket kind timed hi =>
    exact h.setPhase rfl (by simp) (by simp) (fun _ hr => hr) (fun j kind timed ticket _ hj => h.writer j _ _ _ hj)
  | pushBack kind timed ticket hi =>
    apply h.setPhase rfl (by simp) (by simp)
    · intro _ _
      left
      simp [Sys.pushBack, Sys.setPhase]
    · intro j kind' timed' ticket' hji hj hf
      change (s.writeQueue ++ [(ticket, kind)]).head?.map Prod.fst = some ticket' at hf
      cases hqueue : s.writeQueue with
      | nil =>
        -- the new entry is the front, and its ticket is that of its own call
        rw [hqueue] at hf
        have hte : ticket = ticket' := by simpa using hf
        exfalso
        apply hji
        apply hl.ticket_inj j i ticket
        · rw [standing_of_calls hj, hte]
          rfl
        · rw [standing_of_calls hi]
          rfl
      | cons e rest =>
        rw [hqueue] at hf
        apply h.writer j kind' timed' ticket' hj
        rw [hqueue]
        simpa using hf
  | giveUp kind ticket hi => exact notifyAll_awake _
  | grantQueued kind ticket state hi hf ht =>
    apply h.setPhase rfl (by simp) (by simp)
    · intro hsleeps _
      by_cases htail : s.writeQueue.tail = []
      · right
        cases kind with
        | write =>
          rcases hstate : s.state <;> simp [WriteKind.tryFn, tryAcquireWrite, hstate] at ht
          exact ht.symm
        | refresh =>
          exfalso
          apply hs
          exact ⟨hsleeps, (tryFn_idle_iff .refresh s.state).1 ⟨state, ht⟩,
            by simp [Sys.setPhase], ticket, hi, hf, htail⟩
      · exact .inl htail
    · exact fun _ _ _ _ _ _ _ => tryFn_ne_idle ht
  | grantWrite kind state hi hq ht =>
    have hidle : s.state = .idle := (tryFn_idle_iff kind s.state).1 ⟨state, ht⟩
    apply h.setPhase rfl (by simp) (by simp)
    · rintro _ (hr | hr)
      · exact absurd hq hr
      · rw [hidle] at hr
        cases hr
    · exact fun _ _ _ _ _ _ _ => tryFn_ne_idle ht
  | releaseRead state hi ht => exact notifyAll_awake _
  | releaseWrite kind state hi ht => exact notifyAll_awake _
  | panicRead msg hi ht =>
    exact h.setPhase rfl (by simp) (by simp) (fun _ hr => hr) (fun j kind timed ticket _ hj => h.writer j _ _ _ hj)
  | panicWrite kind msg hi ht =>
    exact h.setPhase rfl (by simp) (by simp) (fun _ hr => hr) (fun j kind timed ticket _ hj => h.writer j _ _ _ hj)

lemma strands_of_move {s : Sys ι} {e : Event ι} (hl : s.Lined) (hm : MoveStrands s e.caller (s.step e)) :
    s.Strands e := by
  obtain ⟨hsleeps, hidle, hgranted, ticket, hi, hf, htail⟩ := hm
  have hwait : ∃ timed woken, s.calls e.caller = .writeWait .refresh timed ticket woken := by
    unfold standing at hi
    cases hp : s.calls e.caller <;> simp [hp, Phase.standing] at hi
    obtain ⟨rfl, rfl⟩ := hi
    exact ⟨_, _, rfl⟩
  obtain ⟨timed, woken, hcalls⟩ := hwait
  have hqueue : s.writeQueue = [(ticket, .refresh)] := by
    have hfront := hl.front hi hf
    cases hq : s.writeQueue with
    | nil => simp [hq] at hfront
    | cons e rest =>
      rw [hq] at hfront htail
      have hee : e = (ticket, .refresh) := by simpa using hfront
      have hrest : rest = [] := htail
      rw [hee, hrest]
  refine ⟨?_, hidle, hsleeps⟩
  cases e with
  | resume i expired =>
    have hcalls' : s.calls i = .writeWait .refresh timed ticket woken := hcalls
    cases woken with
    | true => exact ⟨i, expired, timed, ticket, rfl, hcalls', hqueue⟩
    | false => simp [step, hcalls', Event.caller] at hgranted
  | timeOut i =>
    have hcalls' : s.calls i = .writeWait .refresh timed ticket woken := hcalls
    cases timed with
    | true => simp [step, hcalls', Event.caller, giveUp, notifyAll, setPhase, Phase.wake] at hgranted
    | false => simp [step, hcalls', Event.caller] at hgranted
  | acquireRead i timed' expired =>
    have hcalls' : s.calls i = .writeWait .refresh timed ticket woken := hcalls
    simp [step, hcalls', Event.caller] at hgranted
  | tryAcquireRead i =>
    have hcalls' : s.calls i = .writeWait .refresh timed ticket woken := hcalls
    simp [step, hcalls', Event.caller] at hgranted
  | takeTicket i kind timed' =>
    have hcalls' : s.calls i = .writeWait .refresh timed ticket woken := hcalls
    simp [step, hcalls', Event.caller] at hgranted
  | enqueue i expired =>
    have hcalls' : s.calls i = .writeWait .refresh timed ticket woken := hcalls
    simp [step, hcalls', Event.caller] at hgranted
  | tryAcquireWriteKind i kind =>
    have hcalls' : s.calls i = .writeWait .refresh timed ticket woken := hcalls
    simp [step, hcalls', Event.caller] at hgranted
  | dropGuard i =>
    have hcalls' : s.calls i = .writeWait .refresh timed ticket woken := hcalls
    simp [step, hcalls', Event.caller] at hgranted

lemma Lined.step {s : Sys ι} (h : s.Lined) (e : Event ι) : (s.step e).Lined := by
  rcases step_moves s e with hm | ⟨i, kind, timed, ticket, _, _, hi, hm⟩
  · exact hm.line h
  · exact hm.line ((Move.pushBack kind timed ticket hi).line h)

lemma Awake.step {s : Sys ι} (h : s.Awake) (hl : s.Lined) (e : Event ι)
    (hs : ¬s.Strands e) : (s.step e).Awake := by
  rcases step_moves s e with hm | ⟨i, kind, timed, ticket, expired, rfl, hi, hm⟩
  · exact h.move hl hm fun hstrands => hs (strands_of_move hl hstrands)
  · have hpush := Move.pushBack kind timed ticket hi
    have hnot : ∀ s', ¬MoveStrands s i s' := by
      rintro s' ⟨_, _, _, t, hq, _⟩
      simp [standing_of_calls hi, Phase.standing] at hq
    apply (h.move hl hpush (hnot _)).move (hpush.line hl) hm
    -- a reader that slept beside the empty queue was not awake
    rintro ⟨⟨j, timed', hj⟩, hidle, _, t, _, _, htail⟩
    have hempty : s.writeQueue = [] := by
      change (s.writeQueue ++ [(ticket, kind)]).tail = [] at htail
      cases hq : s.writeQueue with
      | nil => rfl
      | cons e rest => simp [hq] at htail
    have hji : j ≠ i := by
      rintro rfl
      simp [Sys.pushBack, Sys.setPhase] at hj
    change Function.update s.calls i _ j = _ at hj
    rw [Function.update_of_ne hji] at hj
    rcases h.reader j timed' hj with hne | hw
    · exact hne hempty
    · change s.state = .idle at hidle
      rw [hw] at hidle
      cases hidle

def Unstranded (events : List (Event ι)) : Prop :=
  ∀ pre e, pre ++ [e] <+: events → ¬(run Sys.step Sys.new pre).Strands e

lemma run_lined (events : List (Event ι)) : (run Sys.step Sys.new events).Lined :=
  run_invariant (fun _ (s : Sys ι) => s.Lined) new_safe.line (fun _ _ e h => Lined.step h e) events

lemma run_awake (events : List (Event ι)) (hs : Unstranded events) : (run Sys.step Sys.new events).Awake := by
  induction events using List.reverseRecOn with
  | nil => constructor <;> simp [run, Sys.new]
  | append_singleton events e ih =>
    have hpre : Unstranded events := fun pre e' h => hs pre e' (h.trans (List.prefix_append _ _))
    rw [run_snoc]
    exact (ih hpre).step (run_lined events) e (hs events e List.prefix_rfl)

end Sys

/-- In a run that strands no reader, a call that could be let in is awake. -/
theorem no_lost_wake_up [Fintype ι] (events : List (Event ι)) (hs : Sys.Unstranded events) :
    ¬(¬(run Sys.step Sys.new events).WakeUpPending ∧
      ((run Sys.step Sys.new events).ReaderMissed ∨ (run Sys.step Sys.new events).WriterMissed)) := by
  have h := Sys.run_awake events hs
  rintro ⟨_, hr | hw⟩
  · exact h.not_readerMissed hr
  · exact h.not_writerMissed hw

/-- A refresh waits for the readers `0` and `3`, and the reader `2` behind it; the first release lets neither in,
the second one both. -/
def servedRun : List (Event (Fin 4)) :=
  [.acquireRead 0 false false, .acquireRead 3 false false, .takeTicket 1 .refresh false, .enqueue 1 false,
    .acquireRead 2 false false, .dropGuard 0, .resume 2 false, .resume 1 false, .dropGuard 3, .resume 1 false,
    .resume 2 false]

theorem no_lost_wake_up_served :
    ¬(¬(run Sys.step Sys.new servedRun).WakeUpPending ∧
      ((run Sys.step Sys.new servedRun).ReaderMissed ∨ (run Sys.step Sys.new servedRun).WriterMissed)) :=
  no_lost_wake_up _ (by
    have hbusy : ∀ k, (h : k < servedRun.length) → (∃ i expired, servedRun[k] = .resume i expired) →
        (run Sys.step Sys.new (servedRun.take k)).state = .idle →
        ¬∃ i timed, (run Sys.step Sys.new (servedRun.take k)).calls i = .readWait timed false := by
      decide
    rw [Sys.Unstranded, forall_prefix_snoc]
    rintro k hk ⟨⟨i, expired, _, _, he, _⟩, hidle, hsleeps⟩
    exact hbusy k hk ⟨i, expired, he⟩ hidle hsleeps)

/-- A refresh waits for the reader `0`, and the reader `2` behind it; both are woken, the reader
looks first, and sleeps again before the refresh is granted. -/
def strandedRun : List (Event (Fin 3)) :=
  [.acquireRead 0 false false, .takeTicket 1 .refresh false, .enqueue 1 false, .acquireRead 2 false false,
    .dropGuard 0, .resume 2 false, .resume 1 false]

theorem wake_up_lost :
    ¬∀ events : List (Event (Fin 3)),
      ¬(¬(run Sys.step Sys.new events).WakeUpPending ∧
        ((run Sys.step Sys.new events).ReaderMissed ∨ (run Sys.step Sys.new events).WriterMissed)) := by
  intro h
  have hcalls : (run Sys.step Sys.new strandedRun).calls =
      ![.idle, .writeGuard .refresh, .readWait false false] := by decide
  apply h strandedRun
  constructor
  · rintro ⟨i, hi⟩
    rw [hcalls] at hi
    fin_cases i <;> simp at hi
  · left
    refine ⟨⟨2, false, ?_⟩, by decide, by decide⟩
    rw [hcalls]
    rfl

end RepoGraph.DaemonPolicy
