import RepoGraph.Lib.Runs

/-! Explicit writes and background enrichment passes on one database: the cancel flag of the running pass,
and the marker that a write leaves for a pass that has the lock and no flag yet. -/

namespace RepoGraph.DaemonRuntime

open Lib

inductive YieldPhase
  | idle
  | waiting
  | acquired
  | writing
  | passLocked
  | passRunning
  | passEnding
  deriving DecidableEq, Repr

def YieldPhase.holds : YieldPhase → Bool
  | acquired | writing | passLocked | passRunning | passEnding => true
  | idle | waiting => false

/-- `flag` is the cancel flag registered for the database, and `pending` its yield marker. -/
structure EnrichCoordinator (ι : Type) where
  lock : Option ι
  flag : Option Bool
  pending : Bool
  phases : ι → YieldPhase

inductive YieldEvent (ι : Type)
  | requestYield (i : ι)
  | acquireWrite (i : ι)
  | clearPendingYield (i : ι)
  | finishWrite (i : ι)
  | tryAcquireWrite (i : ι)
  | giveUp (i : ι)
  | registerRunning (i : ι)
  | deregister (i : ι)
  | finishPass (i : ι)
  deriving DecidableEq, Repr

namespace EnrichCoordinator

variable {ι : Type} [DecidableEq ι]

def new : EnrichCoordinator ι := { lock := none, flag := none, pending := false, phases := fun _ => .idle }

def setPhase (s : EnrichCoordinator ι) (i : ι) (p : YieldPhase) : EnrichCoordinator ι :=
  { s with phases := Function.update s.phases i p }

def step (s : EnrichCoordinator ι) : YieldEvent ι → EnrichCoordinator ι
  | .requestYield i =>
    match s.phases i with
    | .idle =>
      match s.flag with
      | some _ => { s with flag := some true }.setPhase i .waiting
      | none => { s with pending := true }.setPhase i .waiting
    | _ => s
  | .acquireWrite i =>
    match s.phases i with
    | .waiting => if s.lock = none then { s with lock := some i }.setPhase i .acquired else s
    | _ => s
  | .clearPendingYield i =>
    match s.phases i with
    | .acquired => { s with pending := false }.setPhase i .writing
    | _ => s
  | .finishWrite i =>
    match s.phases i with
    | .writing => { s with lock := none }.setPhase i .idle
    | _ => s
  | .tryAcquireWrite i =>
    match s.phases i with
    | .idle => if s.lock = none then { s with lock := some i }.setPhase i .passLocked else s
    | _ => s
  | .giveUp i =>
    -- the run slot is taken, the pass is superseded, or the repository cannot be loaded
    match s.phases i with
    | .passLocked => { s with lock := none }.setPhase i .idle
    | _ => s
  | .registerRunning i =>
    match s.phases i with
    | .passLocked => { s with flag := some s.pending, pending := false }.setPhase i .passRunning
    | _ => s
  | .deregister i =>
    match s.phases i with
    | .passRunning => { s with flag := none }.setPhase i .passEnding
    | _ => s
  | .finishPass i =>
    match s.phases i with
    | .passEnding => { s with lock := none }.setPhase i .idle
    | _ => s

/-- While a write waits, the pass that is registered is cancelled; with no write waiting, a pass that registers
is not. -/
structure WritesWin (s : EnrichCoordinator ι) : Prop where
  latched : ∀ cancelled, s.flag = some cancelled → (∃ i, s.phases i = .waiting) → cancelled = true
  fresh : ∀ i, s.phases i = .passLocked → (∀ j, s.phases j ≠ .waiting) →
    (s.step (.registerRunning i)).flag = some false

/-- A pass registers while a write waits whose marker is gone: another write cleared it, another pass adopted it,
or it was never set because another pass was running. -/
def MissesYield (s : EnrichCoordinator ι) : YieldEvent ι → Prop
  | .registerRunning i => s.phases i = .passLocked ∧ s.pending = false ∧ ∃ j, s.phases j = .waiting
  | _ => False

structure Kept (s : EnrichCoordinator ι) : Prop where
  held : ∀ i, (s.phases i).holds = true → s.lock = some i
  flagged : s.flag.isSome → ∃ i, s.phases i = .passRunning
  marked : s.pending = true → ∃ i, s.phases i = .waiting ∨ s.phases i = .acquired
  latched : ∀ cancelled, s.flag = some cancelled → (∃ i, s.phases i = .waiting) → cancelled = true

variable {s : EnrichCoordinator ι} {i : ι}

omit [DecidableEq ι] in
lemma new_kept : (new : EnrichCoordinator ι).Kept := by
  constructor <;> simp [new, YieldPhase.holds]

omit [DecidableEq ι] in
lemma Kept.alone (h : s.Kept) (hi : (s.phases i).holds = true) {j : ι} (hj : (s.phases j).holds = true) : j = i :=
  Option.some.inj ((h.held j hj).symm.trans (h.held i hi))

omit [DecidableEq ι] in
lemma Kept.unflagged (h : s.Kept) (hrunning : ∀ i, s.phases i ≠ .passRunning) : s.flag = none := by
  by_contra hflag
  obtain ⟨i, hi⟩ := h.flagged (Option.isSome_iff_ne_none.mpr hflag)
  exact hrunning i hi

omit [DecidableEq ι] in
lemma Kept.unflagged_of_free (h : s.Kept) (hlock : s.lock = none) : s.flag = none := by
  apply h.unflagged
  intro i hi
  have hheld := h.held i (by rw [hi]; rfl)
  rw [hlock] at hheld
  cases hheld

omit [DecidableEq ι] in
lemma Kept.unflagged_of_holds (h : s.Kept) (hi : (s.phases i).holds = true) (hne : s.phases i ≠ .passRunning) :
    s.flag = none := by
  apply h.unflagged
  intro j hj
  obtain rfl : j = i := h.alone hi (by rw [hj]; rfl)
  exact hne hj

lemma Kept.move {s' : EnrichCoordinator ι} {p : YieldPhase} (h : s.Kept)
    (hs : s'.phases = Function.update s.phases i p) (hheld : p.holds = true → s'.lock = some i)
    (hothers : ∀ j, j ≠ i → (s.phases j).holds = true → s'.lock = s.lock)
    (hflagged : s'.flag.isSome → p = .passRunning ∨ (s.flag.isSome ∧ s.phases i ≠ .passRunning))
    (hmarked : s'.pending = true → (p = .waiting ∨ p = .acquired) ∨
      (s.pending = true ∧ s.phases i ≠ .waiting ∧ s.phases i ≠ .acquired))
    (hlatched : ∀ cancelled, s'.flag = some cancelled → (p = .waiting ∨ ∃ j, s.phases j = .waiting) →
      cancelled = true) :
    s'.Kept := by
  have hsame : s'.phases i = p := by rw [hs, Function.update_self]
  have hother : ∀ j, j ≠ i → s'.phases j = s.phases j := fun j hji => by rw [hs, Function.update_of_ne hji]
  constructor
  · intro j hj
    by_cases hji : j = i
    · rw [hji, hsame] at hj
      rw [hji]
      exact hheld hj
    · rw [hother j hji] at hj
      rw [hothers j hji hj]
      exact h.held j hj
  · intro hflag
    rcases hflagged hflag with rfl | ⟨hold, hne⟩
    · exact ⟨i, hsame⟩
    · obtain ⟨j, hj⟩ := h.flagged hold
      refine ⟨j, ?_⟩
      rw [hother j (fun hji => hne (hji ▸ hj))]
      exact hj
  · intro hpending
    rcases hmarked hpending with hp | ⟨hold, hwait, hacq⟩
    · exact ⟨i, by rwa [hsame]⟩
    · obtain ⟨j, hj⟩ := h.marked hold
      refine ⟨j, ?_⟩
      have hji : j ≠ i := by
        rintro rfl
        exact hj.elim hwait hacq
      rwa [hother j hji]
  · rintro cancelled hflag ⟨j, hj⟩
    apply hlatched cancelled hflag
    by_cases hji : j = i
    · rw [hji, hsame] at hj
      exact Or.inl hj
    · rw [hother j hji] at hj
      exact Or.inr ⟨j, hj⟩

lemma Kept.release (h : s.Kept) (hi : (s.phases i).holds = true) (hrunning : s.phases i ≠ .passRunning)
    (hacquired : s.phases i ≠ .acquired) : ({ s with lock := none }.setPhase i .idle).Kept := by
  have hflag := h.unflagged_of_holds hi hrunning
  have hwaiting : s.phases i ≠ .waiting := by
    intro he
    rw [he] at hi
    cases hi
  refine h.move rfl (fun hheld => by cases hheld) ?_ ?_ ?_ ?_
  · intro j hji hj
    exact absurd (h.alone hi hj) hji
  · intro hsome
    exact Or.inr ⟨hsome, hrunning⟩
  · intro hpending
    exact Or.inr ⟨hpending, hwaiting, hacquired⟩
  · intro cancelled hsome
    rw [show s.flag = some cancelled from hsome] at hflag
    cases hflag

lemma Kept.requestYield (h : s.Kept) (i : ι) : (s.step (.requestYield i)).Kept := by
  rw [step]
  split
  · rename_i hi
    split
    · rename_i flag hflag
      refine h.move rfl (fun hheld => by cases hheld) (fun _ _ _ => rfl) ?_ (fun _ => Or.inl (Or.inl rfl)) ?_
      · intro _
        exact Or.inr ⟨by simp [hflag], by simp [hi]⟩
      · intro cancelled hcancelled _
        exact (Option.some.inj hcancelled).symm
    · rename_i hflag
      refine h.move rfl (fun hheld => by cases hheld) (fun _ _ _ => rfl) ?_ (fun _ => Or.inl (Or.inl rfl)) ?_
      · intro hsome
        simp [setPhase, hflag] at hsome
      · intro cancelled hsome
        rw [show s.flag = some cancelled from hsome] at hflag
        cases hflag
  · exact h

lemma Kept.takeLock (h : s.Kept) (hlock : s.lock = none) {p : YieldPhase}
    (hmarked : s.phases i = .waiting ∧ p = .acquired ∨ s.phases i = .idle) :
    ({ s with lock := some i }.setPhase i p).Kept := by
  have hflag := h.unflagged_of_free hlock
  refine h.move rfl (fun _ => rfl) ?_ ?_ ?_ ?_
  · intro j _ hj
    have hheld := h.held j hj
    rw [hlock] at hheld
    cases hheld
  · intro hsome
    simp [setPhase, hflag] at hsome
  · intro hpending
    rcases hmarked with ⟨-, hp⟩ | hidle
    · exact Or.inl (Or.inr hp)
    · exact Or.inr ⟨hpending, by simp [hidle], by simp [hidle]⟩
  · intro cancelled hsome
    rw [show s.flag = some cancelled from hsome] at hflag
    cases hflag

lemma Kept.registerRunning (h : s.Kept) (hmisses : ¬s.MissesYield (.registerRunning i)) :
    (s.step (.registerRunning i)).Kept := by
  rw [step]
  split
  · rename_i hi
    have hholds : (s.phases i).holds = true := by rw [hi]; rfl
    refine h.move rfl (fun _ => h.held i hholds) (fun _ _ _ => rfl) (fun _ => Or.inl rfl) (by simp [setPhase]) ?_
    rintro cancelled hflag (hp | hwaits)
    · cases hp
    · obtain rfl : s.pending = cancelled := Option.some.inj hflag
      by_contra hpending
      exact hmisses ⟨hi, by simpa using hpending, hwaits⟩
  · exact h

lemma Kept.step {e : YieldEvent ι} (h : s.Kept) (hmisses : ¬s.MissesYield e) : (s.step e).Kept := by
  cases e with
  | requestYield i => exact h.requestYield i
  | registerRunning i => exact h.registerRunning hmisses
  | acquireWrite i =>
    rw [EnrichCoordinator.step]
    split
    · rename_i hi
      split
      · rename_i hlock
        exact h.takeLock hlock (Or.inl ⟨hi, rfl⟩)
      · exact h
    · exact h
  | tryAcquireWrite i =>
    rw [EnrichCoordinator.step]
    split
    · rename_i hi
      split
      · rename_i hlock
        exact h.takeLock hlock (Or.inr hi)
      · exact h
    · exact h
  | clearPendingYield i =>
    rw [EnrichCoordinator.step]
    split
    · rename_i hi
      have hholds : (s.phases i).holds = true := by rw [hi]; rfl
      have hflag := h.unflagged_of_holds hholds (by simp [hi])
      refine h.move rfl (fun _ => h.held i hholds) (fun _ _ _ => rfl) ?_ (by simp [setPhase]) ?_
      · intro hsome
        simp [setPhase, hflag] at hsome
      · intro cancelled hsome
        rw [show s.flag = some cancelled from hsome] at hflag
        cases hflag
    · exact h
  | deregister i =>
    rw [EnrichCoordinator.step]
    split
    · rename_i hi
      have hholds : (s.phases i).holds = true := by rw [hi]; rfl
      refine h.move rfl (fun _ => h.held i hholds) (fun _ _ _ => rfl) (by simp [setPhase]) ?_ (by simp [setPhase])
      intro hpending
      exact Or.inr ⟨hpending, by simp [hi], by simp [hi]⟩
    · exact h
  | finishWrite i =>
    rw [EnrichCoordinator.step]
    split
    · rename_i hi
      exact h.release (by rw [hi]; rfl) (by simp [hi]) (by simp [hi])
    · exact h
  | giveUp i =>
    rw [EnrichCoordinator.step]
    split
    · rename_i hi
      exact h.release (by rw [hi]; rfl) (by simp [hi]) (by simp [hi])
    · exact h
  | finishPass i =>
    rw [EnrichCoordinator.step]
    split
    · rename_i hi
      exact h.release (by rw [hi]; rfl) (by simp [hi]) (by simp [hi])
    · exact h

lemma Kept.writesWin (h : s.Kept) : s.WritesWin := by
  refine ⟨h.latched, ?_⟩
  intro i hi hwaits
  have hholds : (s.phases i).holds = true := by rw [hi]; rfl
  have hpending : s.pending = false := by
    by_contra hpending
    obtain ⟨j, hj | hj⟩ := h.marked (by simpa using hpending)
    · exact hwaits j hj
    · obtain rfl : j = i := h.alone hholds (by rw [hj]; rfl)
      rw [hi] at hj
      cases hj
  simp [EnrichCoordinator.step, hi, setPhase, hpending]

lemma MissesYield.not_writesWin {e : YieldEvent ι} (h : s.MissesYield e) : ¬(s.step e).WritesWin := by
  cases e with
  | registerRunning i =>
    obtain ⟨hi, hpending, j, hj⟩ := h
    intro hwin
    have hji : j ≠ i := by
      rintro rfl
      rw [hi] at hj
      cases hj
    have hflag : (s.step (.registerRunning i)).flag = some false :=
      by simp [EnrichCoordinator.step, hi, setPhase, hpending]
    have hwaits : (s.step (.registerRunning i)).phases j = .waiting := by
      simp [EnrichCoordinator.step, hi, setPhase, Function.update_of_ne hji, hj]
    exact absurd (hwin.latched false hflag ⟨j, hwaits⟩) (by decide)
  | _ => exact h.elim

lemma run_kept (events : List (YieldEvent ι))
    (h : ∀ pre e, pre ++ [e] <+: events → ¬(run step new pre).MissesYield e) : (run step new events).Kept := by
  induction events using List.reverseRecOn with
  | nil => exact new_kept
  | append_singleton events e ih =>
    rw [run_snoc]
    have hpre := ih fun pre e' hp => h pre e' (hp.trans (List.prefix_append _ _))
    exact hpre.step (h events e List.prefix_rfl)

end EnrichCoordinator

open EnrichCoordinator in
/-- Explicit writes win in every state of a run exactly when no pass of it registers past a waiting write whose
marker is gone. -/
theorem writes_win_iff {ι : Type} [DecidableEq ι] (events : List (YieldEvent ι)) :
    (∀ pre, pre <+: events → (run step (new : EnrichCoordinator ι) pre).WritesWin) ↔
      ∀ pre e, pre ++ [e] <+: events → ¬(run step (new : EnrichCoordinator ι) pre).MissesYield e := by
  constructor
  · intro h pre e hpre hmisses
    have hwin := h (pre ++ [e]) hpre
    rw [run_snoc] at hwin
    exact hmisses.not_writesWin hwin
  · intro h pre hpre
    exact (run_kept pre fun pre' e hp => h pre' e (hp.trans hpre)).writesWin

inductive DatabaseUser
  | index
  | refresh
  | enrich
  deriving DecidableEq

/-- An index and a refresh ask a pass to yield; the index clears the marker of both, and the pass that takes the
lock after it does not hear of the refresh that still waits. -/
def refreshUnheard : List (YieldEvent DatabaseUser) :=
  [.requestYield .index, .requestYield .refresh, .acquireWrite .index,
    .clearPendingYield .index, .finishWrite .index, .tryAcquireWrite .enrich, .registerRunning .enrich]

theorem writes_lose : ¬∀ events : List (YieldEvent DatabaseUser),
    (run EnrichCoordinator.step EnrichCoordinator.new events).WritesWin := by
  intro h
  exact absurd ((h refreshUnheard).latched false (by decide) ⟨.refresh, by decide⟩) (by decide)

end RepoGraph.DaemonRuntime
