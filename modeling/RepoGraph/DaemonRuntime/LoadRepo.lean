import RepoGraph.Lib.Runs

/-! Concurrent loads of repositories into the daemon. A load looks its key up under the read lock,
opens the store without a lock, and inserts under the write lock. -/

namespace RepoGraph.DaemonRuntime

open Lib

/-- A loaded repository; `coordinator` is the identity of the coordinator it was opened with. -/
structure RepoState (κ : Type) where
  key : κ
  coordinator : ℕ
  deriving DecidableEq, Repr

inductive LoadPhase (κ : Type)
  | idle
  | keyed (key : κ)
  | missed (key : κ)
  | opened (state : RepoState κ)
  | returned (state : RepoState κ)
  | failed (msg : String)
  deriving DecidableEq, Repr

structure Loads (κ ι : Type) where
  repos : κ → Option (RepoState κ)
  nextCoordinator : ℕ
  calls : ι → LoadPhase κ

/-- `start` carries what the sentinel check and the canonicalization of the path give, `openStore`
what opening and validating the store gives. -/
inductive LoadEvent (κ ι : Type)
  | start (i : ι) (key : Except String κ)
  | lookup (i : ι)
  | openStore (i : ι) (result : Except String Unit)
  | insert (i : ι)

namespace Loads

variable {κ ι : Type} [DecidableEq κ] [DecidableEq ι]

def new : Loads κ ι := { repos := fun _ => none, nextCoordinator := 0, calls := fun _ => .idle }

def setPhase (s : Loads κ ι) (i : ι) (p : LoadPhase κ) : Loads κ ι :=
  { s with calls := Function.update s.calls i p }

def step (s : Loads κ ι) : LoadEvent κ ι → Loads κ ι
  | .start i key =>
    match s.calls i, key with
    | .idle, .ok key => s.setPhase i (.keyed key)
    | .idle, .error msg => s.setPhase i (.failed msg)
    | _, _ => s
  | .lookup i =>
    match s.calls i with
    | .keyed key =>
      match s.repos key with
      | some state => s.setPhase i (.returned state)
      | none => s.setPhase i (.missed key)
    | _ => s
  | .openStore i result =>
    match s.calls i, result with
    | .missed key, .ok () =>
      { s with nextCoordinator := s.nextCoordinator + 1 }.setPhase i
        (.opened { key, coordinator := s.nextCoordinator })
    | .missed _, .error msg => s.setPhase i (.failed msg)
    | _, _ => s
  | .insert i =>
    match s.calls i with
    | .opened state =>
      { s with repos := Function.update s.repos state.key (some state) }.setPhase i (.returned state)
    | _ => s

/-- Every load of the key that returned has the state that the map holds. -/
def Shared (s : Loads κ ι) (key : κ) : Prop :=
  ∀ i state, s.calls i = .returned state → state.key = key → s.repos key = some state

def Replaces (s : Loads κ ι) (key : κ) (e : LoadEvent κ ι) : Prop :=
  ∃ i state, e = .insert i ∧ s.calls i = .opened state ∧ state.key = key ∧ s.repos key ≠ none

/-- A new state is known to its own call only, and every state of the map was returned. -/
structure Minted (s : Loads κ ι) : Prop where
  opened_lt : ∀ i state, s.calls i = .opened state → state.coordinator < s.nextCoordinator
  mapped_lt : ∀ key state, s.repos key = some state → state.coordinator < s.nextCoordinator
  opened_unmapped : ∀ i state key, s.calls i = .opened state → s.repos key ≠ some state
  opened_inj : ∀ i j state, s.calls i = .opened state → s.calls j = .opened state → i = j
  mapped_returned : ∀ key state, s.repos key = some state → state.key = key ∧ ∃ i, s.calls i = .returned state

omit [DecidableEq κ] [DecidableEq ι] in
lemma new_minted : (new : Loads κ ι).Minted := by
  constructor <;> simp [new]

omit [DecidableEq κ] in
lemma setPhase_calls (s : Loads κ ι) (i : ι) (p : LoadPhase κ) :
    (s.setPhase i p).calls = Function.update s.calls i p := rfl

omit [DecidableEq κ] in
lemma Minted.setPhase {s : Loads κ ι} (h : s.Minted) {i : ι} {p : LoadPhase κ}
    (hi : ∀ state, s.calls i ≠ .returned state) (hp : ∀ state, p ≠ .opened state) : (s.setPhase i p).Minted := by
  have hopened : ∀ j state, (s.setPhase i p).calls j = .opened state → s.calls j = .opened state := by
    intro j state hj
    by_cases hji : j = i
    · subst hji
      simp [Loads.setPhase] at hj
      exact absurd hj (hp state)
    · simpa [Loads.setPhase, Function.update_of_ne hji] using hj
  refine ⟨?_, h.mapped_lt, ?_, ?_, ?_⟩
  · intro j state hj
    exact h.opened_lt j state (hopened j state hj)
  · intro j state key hj
    exact h.opened_unmapped j state key (hopened j state hj)
  · intro j j' state hj hj'
    exact h.opened_inj j j' state (hopened j state hj) (hopened j' state hj')
  · intro key state hk
    obtain ⟨hkey, j, hj⟩ := h.mapped_returned key state hk
    refine ⟨hkey, j, ?_⟩
    have hji : j ≠ i := by
      rintro rfl
      exact hi state hj
    simpa [Loads.setPhase, Function.update_of_ne hji] using hj

omit [DecidableEq κ] in
lemma Minted.openStore {s : Loads κ ι} (h : s.Minted) {i : ι} {key : κ} (hi : s.calls i = .missed key) :
    ({ s with nextCoordinator := s.nextCoordinator + 1 }.setPhase i
      (.opened { key, coordinator := s.nextCoordinator })).Minted := by
  have hopened : ∀ j state, Function.update s.calls i (.opened { key, coordinator := s.nextCoordinator }) j =
      .opened state → j = i ∧ state = { key, coordinator := s.nextCoordinator } ∨ s.calls j = .opened state := by
    intro j state hj
    by_cases hji : j = i
    · subst hji
      rw [Function.update_self] at hj
      injection hj with hj
      exact .inl ⟨rfl, hj.symm⟩
    · rw [Function.update_of_ne hji] at hj
      exact .inr hj
  refine ⟨?_, ?_, ?_, ?_, ?_⟩
  · intro j state hj
    change state.coordinator < s.nextCoordinator + 1
    rcases hopened j state hj with ⟨_, rfl⟩ | hj
    · exact Nat.lt_succ_self _
    · exact Nat.lt_succ_of_lt (h.opened_lt j state hj)
  · intro k state hk
    exact Nat.lt_succ_of_lt (h.mapped_lt k state hk)
  · intro j state k hj hk
    rcases hopened j state hj with ⟨_, rfl⟩ | hj
    · exact lt_irrefl _ (h.mapped_lt k _ hk)
    · exact h.opened_unmapped j state k hj hk
  · intro j j' state hj hj'
    rcases hopened j state hj with ⟨hji, hst⟩ | hold <;> rcases hopened j' state hj' with ⟨hji', hst'⟩ | hold'
    · rw [hji, hji']
    · rw [hst] at hold'
      exact absurd (h.opened_lt j' _ hold') (lt_irrefl _)
    · rw [hst'] at hold
      exact absurd (h.opened_lt j _ hold) (lt_irrefl _)
    · exact h.opened_inj j j' state hold hold'
  · intro k state hk
    obtain ⟨hkey, j, hj⟩ := h.mapped_returned k state hk
    refine ⟨hkey, j, ?_⟩
    have hji : j ≠ i := by
      rintro rfl
      rw [hi] at hj
      cases hj
    change Function.update s.calls i _ j = _
    rw [Function.update_of_ne hji, hj]

lemma Minted.insert {s : Loads κ ι} (h : s.Minted) {i : ι} {state : RepoState κ} (hi : s.calls i = .opened state) :
    ({ s with repos := Function.update s.repos state.key (some state) }.setPhase i (.returned state)).Minted := by
  have hopened : ∀ j state', Function.update s.calls i (.returned state) j = .opened state' →
      j ≠ i ∧ s.calls j = .opened state' := by
    intro j state' hj
    by_cases hji : j = i
    · subst hji
      rw [Function.update_self] at hj
      cases hj
    · rw [Function.update_of_ne hji] at hj
      exact ⟨hji, hj⟩
  have hmapped : ∀ key state', Function.update s.repos state.key (some state) key = some state' →
      key = state.key ∧ state' = state ∨ s.repos key = some state' := by
    intro key state' hk
    by_cases hkey : key = state.key
    · subst hkey
      rw [Function.update_self] at hk
      injection hk with hk
      exact .inl ⟨rfl, hk.symm⟩
    · rw [Function.update_of_ne hkey] at hk
      exact .inr hk
  refine ⟨?_, ?_, ?_, ?_, ?_⟩
  · intro j state' hj
    exact h.opened_lt j state' (hopened j state' hj).2
  · intro key state' hk
    rcases hmapped key state' hk with ⟨_, rfl⟩ | hk
    · exact h.opened_lt i _ hi
    · exact h.mapped_lt key state' hk
  · intro j state' key hj hk
    obtain ⟨hji, hold⟩ := hopened j state' hj
    rcases hmapped key state' hk with ⟨_, rfl⟩ | hk
    · exact hji (h.opened_inj j i _ hold hi)
    · exact h.opened_unmapped j state' key hold hk
  · intro j j' state' hj hj'
    exact h.opened_inj j j' state' (hopened j state' hj).2 (hopened j' state' hj').2
  · intro key state' hk
    rcases hmapped key state' hk with ⟨rfl, rfl⟩ | hk
    · refine ⟨rfl, i, ?_⟩
      change Function.update s.calls i _ i = _
      rw [Function.update_self]
    · obtain ⟨hkey, j, hj⟩ := h.mapped_returned key state' hk
      refine ⟨hkey, j, ?_⟩
      have hji : j ≠ i := by
        rintro rfl
        rw [hi] at hj
        cases hj
      change Function.update s.calls i _ j = _
      rw [Function.update_of_ne hji, hj]

lemma Minted.step {s : Loads κ ι} (h : s.Minted) (e : LoadEvent κ ι) : (s.step e).Minted := by
  cases e with
  | start i key =>
    simp only [Loads.step]
    split
    · rename_i hi
      exact h.setPhase (by simp [hi]) (by simp)
    · rename_i hi
      exact h.setPhase (by simp [hi]) (by simp)
    · exact h
  | lookup i =>
    simp only [Loads.step]
    split
    · rename_i key hi
      split
      · exact h.setPhase (by simp [hi]) (by simp)
      · exact h.setPhase (by simp [hi]) (by simp)
    · exact h
  | openStore i result =>
    simp only [Loads.step]
    split
    · rename_i key hi
      exact h.openStore hi
    · rename_i key msg hi
      exact h.setPhase (by simp [hi]) (by simp)
    · exact h
  | insert i =>
    simp only [Loads.step]
    split
    · rename_i state hi
      exact h.insert hi
    · exact h

omit [DecidableEq κ] in
lemma Shared.setPhase {s : Loads κ ι} {key : κ} (h : s.Shared key) {i : ι} {p : LoadPhase κ}
    (hp : ∀ state, p = .returned state → state.key = key → s.repos key = some state) :
      (s.setPhase i p).Shared key := by
  intro j state hj hkey
  by_cases hji : j = i
  · subst hji
    rw [setPhase_calls, Function.update_self] at hj
    exact hp state hj hkey
  · rw [setPhase_calls, Function.update_of_ne hji] at hj
    exact h j state hj hkey

omit [DecidableEq κ] [DecidableEq ι] in
lemma not_replaces {s : Loads κ ι} {key : κ} {e : LoadEvent κ ι}
    (he : ∀ i, e ≠ .insert i) : ¬s.Replaces key e := by
  rintro ⟨i, _, rfl, _⟩
  exact he i rfl

/-- An insertion keeps the loads of a key together exactly when it replaces no state of the key: a
state that is there was returned to another call. -/
lemma shared_insert {s : Loads κ ι} {key : κ} (hm : s.Minted) (h : s.Shared key) {i : ι} {state : RepoState κ}
    (hi : s.calls i = .opened state) :
    ({ s with repos := Function.update s.repos state.key (some state) }.setPhase i (.returned state)).Shared key ↔
      ¬s.Replaces key (.insert i) := by
  have hself : ∀ j, j ≠ i → ∀ p, Function.update s.calls i p j = s.calls j :=
    fun j hji p => Function.update_of_ne hji p s.calls
  constructor
  · rintro hs ⟨i', state', hev, hi', hkey, hold⟩
    injection hev with hii
    subst hii
    rw [hi] at hi'
    injection hi' with hst
    subst hst
    obtain ⟨old, hmapped⟩ := Option.ne_none_iff_exists'.1 hold
    obtain ⟨hok, j, hj⟩ := hm.mapped_returned key old hmapped
    have hji : j ≠ i := by
      rintro rfl
      rw [hi] at hj
      cases hj
    have hnew := hs j old (by rw [setPhase_calls, hself j hji, hj]) hok
    change Function.update s.repos state.key (some state) key = some old at hnew
    rw [← hkey, Function.update_self] at hnew
    injection hnew with hnew
    rw [hnew] at hi
    exact hm.opened_unmapped i old key hi hmapped
  · intro hnot j state' hj hkey
    change Function.update s.repos state.key (some state) key = some state'
    rw [setPhase_calls] at hj
    by_cases hji : j = i
    · subst hji
      rw [Function.update_self] at hj
      injection hj with hst
      subst hst
      rw [hkey, Function.update_self]
    · rw [hself j hji] at hj
      have hmapped := h j state' hj hkey
      by_cases hsk : state.key = key
      · exact absurd ⟨i, state, rfl, hi, hsk, by simp [hmapped]⟩ hnot
      · rw [Function.update_of_ne (Ne.symm hsk)]
        exact hmapped

lemma shared_step {s : Loads κ ι} {key : κ} (hm : s.Minted) (h : s.Shared key) (e : LoadEvent κ ι) :
    (s.step e).Shared key ↔ ¬s.Replaces key e := by
  cases e with
  | start i k =>
    refine iff_of_true ?_ (not_replaces (by simp))
    simp only [Loads.step]
    split
    · exact h.setPhase (by simp)
    · exact h.setPhase (by simp)
    · exact h
  | lookup i =>
    refine iff_of_true ?_ (not_replaces (by simp))
    simp only [Loads.step]
    split
    · rename_i k hi
      split
      · rename_i state hk
        apply h.setPhase
        intro state' hst hkey
        injection hst with hst
        subst hst
        rw [← hkey, (hm.mapped_returned k state hk).1]
        exact hk
      · exact h.setPhase (by simp)
    · exact h
  | openStore i result =>
    refine iff_of_true ?_ (not_replaces (by simp))
    simp only [Loads.step]
    split
    · exact Shared.setPhase (s := { s with nextCoordinator := s.nextCoordinator + 1 }) h (by simp)
    · exact h.setPhase (by simp)
    · exact h
  | insert i =>
    simp only [Loads.step]
    split
    · rename_i state hi
      exact shared_insert hm h hi
    · rename_i hi
      refine iff_of_true h ?_
      rintro ⟨i', state, hev, hi', _⟩
      injection hev with hii
      subst hii
      exact hi state hi'

lemma run_minted (events : List (LoadEvent κ ι)) : (run Loads.step Loads.new events).Minted :=
  run_invariant (fun _ (s : Loads κ ι) => s.Minted) new_minted (fun _ _ e h => Minted.step h e) events

end Loads

/-- The loads of a key share one state all along a run exactly when no insertion of the run replaces
a state of the key. -/
theorem loads_shared_iff {κ ι : Type} [DecidableEq κ] [DecidableEq ι] (key : κ) (events : List (LoadEvent κ ι)) :
    (∀ pre, pre <+: events → (run Loads.step Loads.new pre).Shared key) ↔
      ∀ pre e, pre ++ [e] <+: events → ¬(run Loads.step Loads.new pre).Replaces key e := by
  constructor
  · intro h pre e hpre
    have hshared := h (pre ++ [e]) hpre
    rw [run_snoc] at hshared
    exact (Loads.shared_step (Loads.run_minted pre) (h pre ((List.prefix_append _ _).trans hpre)) e).1 hshared
  · intro h pre hpre
    induction pre using List.reverseRecOn with
    | nil =>
      intro i state hi
      simp [run, Loads.new] at hi
    | append_singleton pre e ih =>
      have hshared := ih ((List.prefix_append _ _).trans hpre)
      rw [run_snoc, Loads.shared_step (Loads.run_minted pre) hshared e]
      exact h pre e hpre

/-- Two loads of one repository that both miss before either inserts. -/
def overlappingLoads : List (LoadEvent Unit (Fin 2)) :=
  [.start 0 (.ok ()), .start 1 (.ok ()), .lookup 0, .lookup 1, .openStore 0 (.ok ()), .openStore 1 (.ok ()),
    .insert 0, .insert 1]

theorem loads_not_shared :
    ¬∀ events : List (LoadEvent Unit (Fin 2)), (run Loads.step Loads.new events).Shared () := by
  intro h
  have hs := h overlappingLoads 0 { key := (), coordinator := 0 } (by decide) rfl
  revert hs
  decide

end RepoGraph.DaemonRuntime
