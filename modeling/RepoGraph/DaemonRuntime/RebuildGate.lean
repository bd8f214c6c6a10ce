import RepoGraph.DaemonRuntime.Rebuild

/-! Index and rebuild requests on one store: an index consults the rebuild sentinel before it waits for
the write lock, and a rebuild sets, keeps or clears the sentinel under that lock. -/

namespace RepoGraph.DaemonRuntime

open Lib

def rebuildInterruptedReason : String := "rebuild interrupted — run `rmap repo rebuild <path>` again"

def refuseIfRebuildInterrupted (sentinelPath : String) (sentinel : Bool) (statError : Option String) :
    Except String Unit :=
  match statError with
  | some e => .error s!"could not check the rebuild sentinel {sentinelPath} (refusing to open the store): {e}"
  | none => if sentinel then .error rebuildInterruptedReason else .ok ()

/-- Where a request stands. An index request is `checked` when it has passed the sentinel. -/
inductive AccessPhase
  | idle
  | indexAsked
  | indexRefused (reason : String)
  | indexChecked
  | indexLocked
  | indexing
  | rebuildAsked
  | rebuildLocked
  | rebuilding
  deriving DecidableEq, Repr

def AccessPhase.holds : AccessPhase → Bool
  | indexLocked | indexing | rebuildLocked | rebuilding => true
  | idle | indexAsked | indexRefused _ | indexChecked | rebuildAsked => false

def AccessPhase.attempts {γ : Type} : AccessPhase → RebuildEvent γ → Bool
  | .rebuildLocked, .begin _ _ => true
  | .rebuilding, .proceed _ | .rebuilding, .writePartial _ | .rebuilding, .commit _
  | .rebuilding, .reindexFails => true
  | _, _ => false

lemma AccessPhase.of_attempts {γ : Type} {p : AccessPhase} {e : RebuildEvent γ} (h : p.attempts e = true) :
    p.holds = true ∧ e ≠ .crash := by
  cases p <;> cases e <;> simp_all [attempts, holds]

structure StoreAccess (ι γ : Type) where
  rebuild : Rebuild γ
  lock : Option ι
  requests : ι → AccessPhase

inductive AccessEvent (ι γ : Type)
  | startIndex (i : ι)
  | checkSentinel (i : ι) (statError : Option String)
  | acquireWrite (i : ι)
  | startWriting (i : ι) (prepared : Bool)
  | writeStore (i : ι) (files : Files γ)
  | finishIndex (i : ι)
  | startRebuild (i : ι)
  | acquireForegroundWrite (i : ι) (refreshed : Bool)
  | busy (i : ι)
  | attempt (i : ι) (e : RebuildEvent γ)
  | finishRebuild (i : ι)
  | restart

namespace StoreAccess

variable {ι γ : Type} [DecidableEq ι]

def new (seeded : Bool) (left : Rebuild γ) : StoreAccess ι γ :=
  { rebuild := left.step seeded .crash, lock := none, requests := fun _ => .idle }

def setPhase (s : StoreAccess ι γ) (i : ι) (p : AccessPhase) : StoreAccess ι γ :=
  { s with requests := Function.update s.requests i p }

def release (s : StoreAccess ι γ) (i : ι) : StoreAccess ι γ := { s with lock := none }.setPhase i .idle

def step (seeded : Bool) (sentinelPath : String) (s : StoreAccess ι γ) : AccessEvent ι γ → StoreAccess ι γ
  | .startIndex i =>
    match s.requests i with
    | .idle | .indexRefused _ => s.setPhase i .indexAsked
    | _ => s
  | .checkSentinel i statError =>
    match s.requests i with
    | .indexAsked =>
      match refuseIfRebuildInterrupted sentinelPath s.rebuild.sentinel statError with
      | .ok () => s.setPhase i .indexChecked
      | .error reason => s.setPhase i (.indexRefused reason)
    | _ => s
  | .acquireWrite i =>
    match s.requests i with
    | .indexChecked => if s.lock = none then { s with lock := some i }.setPhase i .indexLocked else s
    | _ => s
  | .startWriting i prepared =>
    match s.requests i with
    | .indexLocked => if prepared then s.setPhase i .indexing else s.release i
    | _ => s
  | .writeStore i files =>
    match s.requests i with
    | .indexing => { s with rebuild := { s.rebuild with live := Rebuild.overwrite seeded s.rebuild.live files } }
    | _ => s
  | .finishIndex i =>
    match s.requests i with
    | .indexing => s.release i
    | _ => s
  | .startRebuild i =>
    match s.requests i with
    | .idle | .indexRefused _ => s.setPhase i .rebuildAsked
    | _ => s
  | .acquireForegroundWrite i refreshed =>
    match s.requests i with
    | .rebuildAsked =>
      if s.lock = none then
        if refreshed then { s with lock := some i }.setPhase i .rebuildLocked else s.setPhase i .idle
      else s
    | _ => s
  | .busy i =>
    match s.requests i with
    | .rebuildAsked => s.setPhase i .idle
    | _ => s
  | .attempt i e =>
    if (s.requests i).attempts e then { s with rebuild := s.rebuild.step seeded e }.setPhase i .rebuilding else s
  | .finishRebuild i =>
    match s.requests i with
    | .rebuildLocked => s.release i
    | .rebuilding => if s.rebuild.phase = .idle then s.release i else s
    | _ => s
  | .restart => new seeded s.rebuild

/-- No index writes the store while the sentinel is there; one that finds it is refused by name. -/
structure WritesClean (seeded : Bool) (sentinelPath : String) (s : StoreAccess ι γ) : Prop where
  clear : ∀ i, s.requests i = .indexing → s.rebuild.sentinel = false
  refused : ∀ i, s.requests i = .indexAsked → s.rebuild.sentinel = true →
    (s.step seeded sentinelPath (.checkSentinel i none)).requests i = .indexRefused rebuildInterruptedReason

end StoreAccess

def Rebuild.Retains {γ : Type} (s : Rebuild γ) : RebuildEvent γ → Prop
  | .begin written left => written = false ∧ (s.sentinel = true ∨ left = true)
  | .proceed ok =>
    match s.phase with
    | .rollingBack [] | .discarding [] | .puttingBack [] => ok = false
    | .emptying (c :: _) _ => ok = false ∧ s.live c ≠ none
    | .puttingBack (c :: _) => ok = false ∨ s.staged c = none
    | _ => False
  | _ => False

lemma Rebuild.proceed_idle {γ : Type} {s : Rebuild γ} {ok : Bool} (hretains : ¬s.Retains (.proceed ok))
    (hphase : (s.proceed ok).phase = .idle) (hsentinel : (s.proceed ok).sentinel = true) :
    s.phase = .idle ∧ s.sentinel = true := by
  -- An attempt ends with the sentinel unlinked, or by a step that retains it.
  have hcleared : ∀ result, ok ≠ false → ((s.clearSentinel ok).finish result).sentinel = true → False := by
    intro result hok h
    have hok : ok = true := by simpa using hok
    simp [finish, clearSentinel, hok] at h
  rcases hp : s.phase with _ | ⟨_ | ⟨c, todo⟩, retired⟩ | (_ | ⟨c, todo⟩) | retired | (_ | ⟨c, todo⟩) |
    ⟨_ | ⟨c, todo⟩, retired⟩ | (_ | ⟨c, todo⟩) <;>
    simp only [Rebuild.proceed, Retains, hp] at hphase hsentinel hretains
  · exact ⟨rfl, hsentinel⟩
  · cases hphase
  · split at hphase
    · cases hphase
    · split at hphase <;> split at hphase <;> simp_all [Rebuild.retire]
  · exact (hcleared _ hretains hsentinel).elim
  · split at hphase <;> cases hphase
  · cases hphase
  · exact (hcleared _ hretains hsentinel).elim
  · cases hphase
  · cases hphase
  · split at hphase
    · cases hphase
    · rename_i hlive
      split at hphase
      · cases hphase
      · rename_i hok
        exact absurd ⟨by simpa using hok, by simpa using hlive⟩ hretains
  · exact (hcleared _ hretains hsentinel).elim
  · split at hphase
    · cases hphase
    · rename_i hback
      simp only [not_or] at hretains
      exact absurd (by simp [hretains.1, Option.isSome_iff_ne_none.mpr hretains.2]) hback

lemma Rebuild.sentinel_of_idle {γ : Type} {seeded : Bool} {s : Rebuild γ} {e : RebuildEvent γ} (he : e ≠ .crash)
    (hretains : ¬s.Retains e) (hphase : (s.step seeded e).phase = .idle)
    (hsentinel : (s.step seeded e).sentinel = true) :
    s.phase = .idle ∧ s.sentinel = true := by
  cases e with
  | crash => exact absurd rfl he
  | begin written left =>
    by_cases hidle : s.phase = .idle
    · cases written with
      | true => simp [Rebuild.step, hidle] at hphase
      | false =>
        simp only [Retains, true_and, not_or, Bool.not_eq_true] at hretains
        simp [Rebuild.step, hidle, finish, hretains.1, hretains.2] at hsentinel
    · rw [Rebuild.step, if_neg hidle] at hphase
      exact absurd hphase hidle
  | proceed ok => exact s.proceed_idle hretains hphase hsentinel
  | writePartial files =>
    cases hp : s.phase <;> simp_all [Rebuild.step]
  | commit files =>
    cases hp : s.phase <;> simp_all [Rebuild.step]
  | reindexFails =>
    cases hp : s.phase <;> simp_all [Rebuild.step]

namespace StoreAccess

variable {ι γ : Type} [DecidableEq ι] {seeded : Bool} {sentinelPath : String} {s : StoreAccess ι γ} {i : ι}

/-- A rebuild ends with its sentinel in place while an index that has passed the sentinel waits for the lock. -/
def Strands (s : StoreAccess ι γ) : AccessEvent ι γ → Prop
  | .attempt i e => (s.requests i).holds = true ∧ s.rebuild.Retains e ∧ ∃ j, s.requests j = .indexChecked
  | _ => False

/-- The lock is of the request that holds it, only its holder rebuilds, and an index under the lock or past the
sentinel has no sentinel before it, but for that of an attempt under way. -/
structure Gated (s : StoreAccess ι γ) : Prop where
  held : ∀ i, (s.requests i).holds = true → s.lock = some i
  attempted : s.rebuild.phase ≠ .idle → ∃ i, s.requests i = .rebuilding
  passed : s.rebuild.phase = .idle → s.rebuild.sentinel = true → ∀ i, s.requests i ≠ .indexChecked
  clear : ∀ i, s.requests i = .indexLocked ∨ s.requests i = .indexing → s.rebuild.sentinel = false

omit [DecidableEq ι] in
lemma new_gated (seeded : Bool) (left : Rebuild γ) : (new seeded left : StoreAccess ι γ).Gated := by
  constructor <;> simp [new, AccessPhase.holds, Rebuild.step]

omit [DecidableEq ι] in
lemma Gated.alone (h : s.Gated) (hi : (s.requests i).holds = true) {j : ι}
    (hj : (s.requests j).holds = true) : j = i := by
  have hlock := (h.held j hj).symm.trans (h.held i hi)
  exact Option.some.inj hlock

omit [DecidableEq ι] in
lemma Gated.none_holds (h : s.Gated) (hlock : s.lock = none) (j : ι) : (s.requests j).holds = false := by
  by_contra hj
  have hheld := h.held j (by simpa using hj)
  rw [hlock] at hheld
  cases hheld

omit [DecidableEq ι] in
lemma Gated.idle_of_free (h : s.Gated) (hlock : s.lock = none) : s.rebuild.phase = .idle := by
  by_contra hphase
  obtain ⟨i, hi⟩ := h.attempted hphase
  have hnone := h.none_holds hlock i
  rw [hi] at hnone
  cases hnone

lemma Gated.move {s' : StoreAccess ι γ} {p : AccessPhase} (h : s.Gated)
    (hs : s'.requests = Function.update s.requests i p) (hheld : p.holds = true → s'.lock = some i)
    (hothers : ∀ j, j ≠ i → (s.requests j).holds = true → s'.lock = s.lock ∧ s'.rebuild = s.rebuild)
    (hattempted : s'.rebuild.phase ≠ .idle → p = .rebuilding ∨ ∃ j, j ≠ i ∧ s.requests j = .rebuilding)
    (hpassed : s'.rebuild.phase = .idle → s'.rebuild.sentinel = true →
      p ≠ .indexChecked ∧ ∀ j, s.requests j ≠ .indexChecked ∨ j = i)
    (hclear : p = .indexLocked ∨ p = .indexing → s'.rebuild.sentinel = false) : s'.Gated := by
  have hsame : s'.requests i = p := by rw [hs, Function.update_self]
  have hother : ∀ j, j ≠ i → s'.requests j = s.requests j := fun j hji => by rw [hs, Function.update_of_ne hji]
  constructor
  · intro j hj
    by_cases hji : j = i
    · rw [hji, hsame] at hj
      rw [hji]
      exact hheld hj
    · rw [hother j hji] at hj
      rw [(hothers j hji hj).1]
      exact h.held j hj
  · intro hphase
    rcases hattempted hphase with rfl | ⟨j, hji, hj⟩
    · exact ⟨i, hsame⟩
    · exact ⟨j, (hother j hji).trans hj⟩
  · intro hphase hsentinel j hj
    obtain ⟨hp, hrest⟩ := hpassed hphase hsentinel
    by_cases hji : j = i
    · rw [hji, hsame] at hj
      exact hp hj
    · rw [hother j hji] at hj
      exact (hrest j).elim (fun hne => hne hj) hji
  · intro j hj
    by_cases hji : j = i
    · rw [hji, hsame] at hj
      exact hclear hj
    · rw [hother j hji] at hj
      have hholds : (s.requests j).holds = true := by rcases hj with hj | hj <;> rw [hj] <;> rfl
      rw [(hothers j hji hholds).2]
      exact h.clear j hj

lemma Gated.setPhase {p : AccessPhase} (h : s.Gated) (hi : s.requests i ≠ .rebuilding)
    (hp : p.holds = true → (s.requests i).holds = true) (hchecked : p = .indexChecked → s.rebuild.sentinel = false)
    (hclear : p = .indexLocked ∨ p = .indexing → s.rebuild.sentinel = false) : (s.setPhase i p).Gated := by
  refine h.move rfl (fun hheld => h.held i (hp hheld)) (fun _ _ _ => ⟨rfl, rfl⟩) ?_ ?_ hclear
  · intro hphase
    obtain ⟨j, hj⟩ := h.attempted hphase
    have hji : j ≠ i := by
      rintro rfl
      exact hi hj
    exact Or.inr ⟨j, hji, hj⟩
  · intro hphase hsentinel
    refine ⟨fun he => ?_, fun j => Or.inl (h.passed hphase hsentinel j)⟩
    have hfalse := hchecked he
    rw [show s.rebuild.sentinel = true from hsentinel] at hfalse
    cases hfalse

lemma Gated.takeLock {p : AccessPhase} (h : s.Gated) (hlock : s.lock = none) (hp : p ≠ .indexChecked)
    (hclear : p = .indexLocked ∨ p = .indexing → s.rebuild.sentinel = false) :
    ({ s with lock := some i }.setPhase i p).Gated := by
  have hidle := h.idle_of_free hlock
  refine h.move rfl (fun _ => rfl) ?_ (fun hphase => absurd hidle hphase) ?_ hclear
  · intro j _ hj
    rw [h.none_holds hlock j] at hj
    cases hj
  · intro _ hsentinel
    exact ⟨hp, fun j => Or.inl (h.passed hidle hsentinel j)⟩

lemma Gated.release (h : s.Gated) (hi : (s.requests i).holds = true) (hidle : s.rebuild.phase = .idle) :
    (s.release i).Gated := by
  refine h.move rfl (fun hheld => by cases hheld) ?_ (fun hphase => absurd hidle hphase) ?_ (by simp)
  · intro j hji hj
    exact absurd (h.alone hi hj) hji
  · intro _ hsentinel
    exact ⟨by simp, fun j => Or.inl (h.passed hidle hsentinel j)⟩

lemma Gated.rebuild {rebuild : Rebuild γ} (h : s.Gated) (hi : (s.requests i).holds = true)
    (hpassed : rebuild.phase = .idle → rebuild.sentinel = true → ∀ j, s.requests j ≠ .indexChecked) :
    ({ s with rebuild }.setPhase i .rebuilding).Gated := by
  refine h.move rfl (fun _ => h.held i hi) ?_ (fun _ => Or.inl rfl) ?_ (by simp)
  · intro j hji hj
    exact absurd (h.alone hi hj) hji
  · intro hphase hsentinel
    exact ⟨by simp, fun j => Or.inl (hpassed hphase hsentinel j)⟩

lemma Gated.attempt {e : RebuildEvent γ} (h : s.Gated) (hi : (s.requests i).holds = true) (he : e ≠ .crash)
    (hstrands : ¬s.Strands (.attempt i e)) :
    ({ s with rebuild := s.rebuild.step seeded e }.setPhase i .rebuilding).Gated := by
  apply h.rebuild hi
  intro hphase hsentinel j hj
  by_cases hretains : s.rebuild.Retains e
  · exact hstrands ⟨hi, hretains, j, hj⟩
  · obtain ⟨hidle, hset⟩ := Rebuild.sentinel_of_idle he hretains hphase hsentinel
    exact h.passed hidle hset j hj

omit [DecidableEq ι] in
lemma Gated.idle_of_holds (h : s.Gated) (hi : (s.requests i).holds = true) (hne : s.requests i ≠ .rebuilding) :
    s.rebuild.phase = .idle := by
  by_contra hphase
  obtain ⟨j, hj⟩ := h.attempted hphase
  have hji : j = i := h.alone hi (by rw [hj]; rfl)
  rw [hji] at hj
  exact hne hj

lemma Gated.step {e : AccessEvent ι γ} (h : s.Gated) (hstrands : ¬s.Strands e) :
    (s.step seeded sentinelPath e).Gated := by
  cases e with
  | startIndex i =>
    rw [StoreAccess.step]
    split
    · rename_i hi
      exact h.setPhase (by simp [hi]) (by simp [AccessPhase.holds]) (by simp) (by simp)
    · rename_i reason hi
      exact h.setPhase (by simp [hi]) (by simp [AccessPhase.holds]) (by simp) (by simp)
    · exact h
  | checkSentinel i statError =>
    rw [StoreAccess.step]
    split
    · rename_i hi
      split
      · rename_i hpass
        have hsentinel : s.rebuild.sentinel = false := by
          cases statError <;> simp_all [refuseIfRebuildInterrupted]
        exact h.setPhase (by simp [hi]) (by simp [AccessPhase.holds]) (fun _ => hsentinel) (by simp)
      · exact h.setPhase (by simp [hi]) (by simp [AccessPhase.holds]) (by simp) (by simp)
    · exact h
  | acquireWrite i =>
    rw [StoreAccess.step]
    split
    · rename_i hi
      split
      · rename_i hlock
        refine h.takeLock hlock (by simp) fun _ => ?_
        by_contra hsentinel
        exact h.passed (h.idle_of_free hlock) (by simpa using hsentinel) i hi
      · exact h
    · exact h
  | startWriting i prepared =>
    rw [StoreAccess.step]
    split
    · rename_i hi
      have hidle : s.rebuild.phase = .idle := h.idle_of_holds (by rw [hi]; rfl) (by simp [hi])
      split
      · exact h.setPhase (by simp [hi]) (by simp [hi, AccessPhase.holds]) (by simp)
          (fun _ => h.clear i (Or.inl hi))
      · exact h.release (by rw [hi]; rfl) hidle
    · exact h
  | writeStore i files =>
    rw [StoreAccess.step]
    split
    · exact ⟨h.held, h.attempted, h.passed, h.clear⟩
    · exact h
  | finishIndex i =>
    rw [StoreAccess.step]
    split
    · rename_i hi
      exact h.release (by rw [hi]; rfl) (h.idle_of_holds (by rw [hi]; rfl) (by simp [hi]))
    · exact h
  | startRebuild i =>
    rw [StoreAccess.step]
    split
    · rename_i hi
      exact h.setPhase (by simp [hi]) (by simp [AccessPhase.holds]) (by simp) (by simp)
    · rename_i reason hi
      exact h.setPhase (by simp [hi]) (by simp [AccessPhase.holds]) (by simp) (by simp)
    · exact h
  | acquireForegroundWrite i refreshed =>
    rw [StoreAccess.step]
    split
    · rename_i hi
      split
      · rename_i hlock
        split
        · exact h.takeLock hlock (by simp) (by simp)
        · exact h.setPhase (by simp [hi]) (by simp [AccessPhase.holds]) (by simp) (by simp)
      · exact h
    · exact h
  | busy i =>
    rw [StoreAccess.step]
    split
    · rename_i hi
      exact h.setPhase (by simp [hi]) (by simp [AccessPhase.holds]) (by simp) (by simp)
    · exact h
  | attempt i e =>
    rw [StoreAccess.step]
    split
    · rename_i hattempts
      obtain ⟨hi, he⟩ := AccessPhase.of_attempts hattempts
      exact h.attempt hi he hstrands
    · exact h
  | finishRebuild i =>
    rw [StoreAccess.step]
    split
    · rename_i hi
      exact h.release (by rw [hi]; rfl) (h.idle_of_holds (by rw [hi]; rfl) (by simp [hi]))
    · rename_i hi
      split
      · rename_i hidle
        exact h.release (by rw [hi]; rfl) hidle
      · exact h
    · exact h
  | restart => exact new_gated seeded s.rebuild

lemma Gated.writesClean (h : s.Gated) : s.WritesClean seeded sentinelPath := by
  constructor
  · intro i hi
    exact h.clear i (Or.inr hi)
  · intro i hi hsentinel
    simp [StoreAccess.step, hi, refuseIfRebuildInterrupted, hsentinel, StoreAccess.setPhase]

def Unstranded (seeded : Bool) (sentinelPath : String) (left : Rebuild γ)
    (events : List (AccessEvent ι γ)) : Prop :=
  ∀ pre e, pre ++ [e] <+: events → ¬(run (StoreAccess.step seeded sentinelPath) (new seeded left) pre).Strands e

lemma run_gated (seeded : Bool) (sentinelPath : String) (left : Rebuild γ) (events : List (AccessEvent ι γ))
    (h : Unstranded seeded sentinelPath left events) :
    (run (StoreAccess.step seeded sentinelPath) (new seeded left) events).Gated := by
  induction events using List.reverseRecOn with
  | nil => exact new_gated seeded left
  | append_singleton events e ih =>
    rw [run_snoc]
    have hpre : Unstranded seeded sentinelPath left events :=
      fun pre e' hp => h pre e' (hp.trans (List.prefix_append _ _))
    exact (ih hpre).step (h events e List.prefix_rfl)

end StoreAccess

/-- In a run in which no rebuild strands an index that waits past the sentinel, no index writes the store of an
interrupted rebuild. -/
theorem index_writes_clean {ι γ : Type} [DecidableEq ι] (seeded : Bool) (sentinelPath : String) (left : Rebuild γ)
    (events : List (AccessEvent ι γ)) (h : StoreAccess.Unstranded seeded sentinelPath left events) :
    (run (StoreAccess.step seeded sentinelPath) (StoreAccess.new seeded left) events).WritesClean seeded
      sentinelPath :=
  (StoreAccess.run_gated seeded sentinelPath left events h).writesClean

inductive Contender
  | index
  | rebuild
  deriving DecidableEq

/-- An index passes the sentinel and waits; a rebuild commits a store and cannot unlink its sentinel. -/
def indexPastSentinel : List (AccessEvent Contender ℕ) :=
  [.startIndex .index, .checkSentinel .index none, .startRebuild .rebuild, .acquireForegroundWrite .rebuild true,
    .attempt .rebuild (.begin true false), .attempt .rebuild (.proceed true), .attempt .rebuild (.proceed true),
    .attempt .rebuild (.proceed true), .attempt .rebuild (.proceed true), .attempt .rebuild (.commit sampleStore),
    .attempt .rebuild (.proceed true), .attempt .rebuild (.proceed true), .attempt .rebuild (.proceed false),
    .finishRebuild .rebuild, .acquireWrite .index, .startWriting .index true]

/-- The daemon dies in the attempt, and the next one is asked for an index. -/
def indexAfterRestart : List (AccessEvent Contender ℕ) :=
  [.startIndex .index, .checkSentinel .index none, .startRebuild .rebuild, .acquireForegroundWrite .rebuild true,
    .attempt .rebuild (.begin true false), .restart, .startIndex .index, .checkSentinel .index none]

theorem index_writes_clean_afterRestart :
    (run (StoreAccess.step false "r.db.rebuilding") (StoreAccess.new false (Rebuild.new sampleStore))
      indexAfterRestart).WritesClean false "r.db.rebuilding" :=
  index_writes_clean false "r.db.rebuilding" (Rebuild.new sampleStore) indexAfterRestart (by
    intro pre e hpre hstrands
    have hmem := hpre.subset (List.mem_append_right pre (List.mem_singleton_self e))
    cases e with
    | attempt i e =>
      obtain ⟨-, hretains, -⟩ := hstrands
      obtain ⟨rfl, rfl⟩ : i = .rebuild ∧ e = .begin true false := by simpa [indexAfterRestart] using hmem
      exact absurd hretains.1 (by decide)
    | _ => exact hstrands)

theorem index_writes_residue :
    ¬∀ events : List (AccessEvent Contender ℕ),
      (run (StoreAccess.step false "r.db.rebuilding") (StoreAccess.new false (Rebuild.new sampleStore))
        events).WritesClean false "r.db.rebuilding" := by
  intro h
  have hclear := (h indexPastSentinel).clear .index (by decide)
  revert hclear
  decide

end RepoGraph.DaemonRuntime
