import RepoGraph.Lib.Runs

/-! `repo rebuild`: the store files are retired aside behind a sentinel, the repository is indexed
anew, and the retired files are discarded, or put back. Any file operation may fail, and the daemon
may die between two of them. -/

namespace RepoGraph.DaemonRuntime

open Lib

inductive StoreFile
  | wal
  | shm
  | db
  | vec
  deriving DecidableEq, Repr

/-- The seed sidecar has a place only under a state root. -/
def storeFileCandidates (seeded : Bool) : List StoreFile := [.wal, .shm, .db] ++ if seeded then [.vec] else []

abbrev Files (γ : Type) := StoreFile → Option γ

inductive RebuildReturn
  | sentinelNotWritten
  | retireFailed
  | rebuilt
  | sentinelNotCleared
  | restored
  | restoreFailed
  deriving DecidableEq, Repr

/-- The lists are the files still to be handled, and the retired files, in the order of the retire. -/
inductive RebuildPhase
  | idle
  | retiring (todo retired : List StoreFile)
  | rollingBack (todo : List StoreFile)
  | reindexing (retired : List StoreFile)
  | discarding (todo : List StoreFile)
  | emptying (todo retired : List StoreFile)
  | puttingBack (todo : List StoreFile)
  deriving DecidableEq, Repr

/-- The files at their live and at their staging (`.retired`) places, and the `.rebuilding` sentinel.
`entry` is what an attempt found at the live places, `base` what was there when the sentinel went
up, and `complete` lists the complete stores: the first one, and each one committed since; no step
reads these three. -/
structure Rebuild (γ : Type) where
  live : Files γ
  staged : Files γ
  sentinel : Bool
  phase : RebuildPhase
  returned : Option RebuildReturn
  entry : Files γ
  base : Files γ
  complete : List (Files γ)

/-- `proceed` makes the next file operation of the phase, which succeeds or not. -/
inductive RebuildEvent (γ : Type)
  | begin (written left : Bool)
  | proceed (ok : Bool)
  | writePartial (files : Files γ)
  | commit (files : Files γ)
  | reindexFails
  | crash

namespace Rebuild

variable {γ : Type}

def new (files : Files γ) : Rebuild γ :=
  { live := files, staged := fun _ => none, sentinel := false, phase := .idle, returned := none, entry := files
    base := files, complete := [files] }

def retire (s : Rebuild γ) (c : StoreFile) : Rebuild γ :=
  { s with staged := Function.update s.staged c (s.live c), live := Function.update s.live c none }

def moveBack (s : Rebuild γ) (c : StoreFile) : Rebuild γ :=
  { s with live := Function.update s.live c (s.staged c), staged := Function.update s.staged c none }

def finish (s : Rebuild γ) (result : RebuildReturn) : Rebuild γ :=
  { s with phase := .idle, returned := some result }

def clearSentinel (s : Rebuild γ) (ok : Bool) : Rebuild γ :=
  { s with sentinel := if ok then false else s.sentinel }

def overwrite (seeded : Bool) (live files : Files γ) : Files γ :=
  fun c => if c ∈ storeFileCandidates seeded then files c else live c

def proceed (s : Rebuild γ) (ok : Bool) : Rebuild γ :=
  match s.phase with
  | .idle => s
  | .retiring [] retired => { s with phase := .reindexing retired }
  | .retiring (c :: todo) retired =>
    if (s.live c).isNone then { s with phase := .retiring todo retired }
    else if (s.staged c).isSome then
      if ok then { s with staged := Function.update s.staged c none }
      else { s with phase := .rollingBack retired.reverse }
    else if ok then { s.retire c with phase := .retiring todo (retired ++ [c]) }
    else { s with phase := .rollingBack retired.reverse }
  | .rollingBack [] => (s.clearSentinel ok).finish .retireFailed
  | .rollingBack (c :: todo) =>
    if ok && (s.staged c).isSome then { s.moveBack c with phase := .rollingBack todo }
    else { s with phase := .rollingBack todo }
  | .reindexing _ => s
  | .discarding [] => (s.clearSentinel ok).finish (if ok then .rebuilt else .sentinelNotCleared)
  | .discarding (c :: todo) =>
    { s with staged := if ok then Function.update s.staged c none else s.staged, phase := .discarding todo }
  | .emptying [] retired => { s with phase := .puttingBack retired }
  | .emptying (c :: todo) retired =>
    if (s.live c).isNone then { s with phase := .emptying todo retired }
    else if ok then { s with live := Function.update s.live c none, phase := .emptying todo retired }
    else s.finish .restoreFailed
  | .puttingBack [] => (s.clearSentinel ok).finish .restored
  | .puttingBack (c :: todo) =>
    if ok && (s.staged c).isSome then { s.moveBack c with phase := .puttingBack todo }
    else s.finish .restoreFailed

def step (seeded : Bool) (s : Rebuild γ) : RebuildEvent γ → Rebuild γ
  | .begin written left =>
    if s.phase = .idle then
      let marked := { s with
        sentinel := s.sentinel || written || left
        entry := s.live
        base := if s.sentinel then s.base else s.live
        returned := none }
      if written then { marked with phase := .retiring (storeFileCandidates seeded) [] }
      else marked.finish .sentinelNotWritten
    else s
  | .proceed ok => s.proceed ok
  | .writePartial files =>
    match s.phase with
    | .reindexing _ => { s with live := overwrite seeded s.live files }
    | _ => s
  | .commit files =>
    match s.phase with
    | .reindexing retired =>
      { s with
        live := overwrite seeded s.live files
        complete := s.complete ++ [overwrite seeded s.live files]
        phase := .discarding retired }
    | _ => s
  | .reindexFails =>
    match s.phase with
    | .reindexing retired => { s with phase := .emptying (storeFileCandidates seeded) retired }
    | _ => s
  | .crash => { s with phase := .idle, returned := none }

/-- What is served is a complete store, and what was restored is what was there before the first
attempt that did not finish. -/
structure Sound (s : Rebuild γ) : Prop where
  served : s.sentinel = false → s.live ∈ s.complete
  restored : s.returned = some .restored → s.live = s.base

/-- The steps after which the residue of an attempt may pass for a store: a rename of a rollback
fails; the retire fails of an attempt that began on files that are no complete store; the reindex
fails of an attempt that began on other files than those before the first unfinished attempt. -/
def Spoils (s : Rebuild γ) (e : RebuildEvent γ) : Prop :=
  (e = .proceed false ∧ ∃ c todo, s.phase = .rollingBack (c :: todo)) ∨
  (e = .proceed false ∧ s.entry ∉ s.complete ∧
    ∃ c todo retired, s.phase = .retiring (c :: todo) retired ∧ s.live c ≠ none) ∨
  (e = .reindexFails ∧ s.entry ≠ s.base ∧ ∃ retired, s.phase = .reindexing retired)

structure Returning (live staged entry : Files γ) (todo : List StoreFile) : Prop where
  nodup : todo.Nodup
  aside : ∀ c ∈ todo, staged c = entry c ∧ entry c ≠ none
  rest : ∀ c, c ∉ todo → live c = entry c

structure Retired (seeded : Bool) (live staged entry : Files γ) (retired : List StoreFile) : Prop where
  nodup : retired.Nodup
  candidates : ∀ c ∈ retired, c ∈ storeFileCandidates seeded
  aside : ∀ c ∈ retired, staged c = entry c ∧ entry c ≠ none
  absent : ∀ c ∈ storeFileCandidates seeded, c ∉ retired → entry c = none
  outside : ∀ c, c ∉ storeFileCandidates seeded → live c = entry c

structure Retiring (seeded : Bool) (live staged entry : Files γ) (todo retired : List StoreFile) : Prop where
  nodup : (retired ++ todo).Nodup
  candidates : ∀ c ∈ retired ++ todo, c ∈ storeFileCandidates seeded
  aside : ∀ c ∈ retired, staged c = entry c ∧ entry c ≠ none
  absent : ∀ c ∈ storeFileCandidates seeded, c ∉ retired ++ todo → entry c = none
  rest : ∀ c, c ∉ retired → live c = entry c

def PhaseOk (seeded : Bool) (s : Rebuild γ) : Prop :=
  match s.phase with
  | .idle => True
  | .retiring todo retired => Retiring seeded s.live s.staged s.entry todo retired
  | .rollingBack todo => Returning s.live s.staged s.entry todo ∧ s.entry ∈ s.complete
  | .reindexing retired => Retired seeded s.live s.staged s.entry retired
  | .discarding _ => s.live ∈ s.complete
  | .emptying todo retired => Retired seeded s.live s.staged s.entry retired ∧ s.entry = s.base ∧
    (∀ c ∈ todo, c ∈ storeFileCandidates seeded) ∧ ∀ c ∈ storeFileCandidates seeded, c ∉ todo → s.live c = none
  | .puttingBack todo => Returning s.live s.staged s.entry todo ∧ s.entry = s.base

structure Recoverable (seeded : Bool) (s : Rebuild γ) : Prop where
  sound : s.Sound
  base_complete : s.base ∈ s.complete
  marked : s.phase ≠ .idle → s.sentinel = true
  unreturned : s.phase ≠ .idle → s.returned = none
  phaseOk : PhaseOk seeded s

lemma nodup_candidates (seeded : Bool) : (storeFileCandidates seeded).Nodup := by
  cases seeded <;> decide

lemma new_recoverable (seeded : Bool) (files : Files γ) : (new files).Recoverable seeded :=
  ⟨⟨fun _ => by simp [new], fun h => by cases h⟩, by simp [new], fun h => absurd rfl h,
    fun h => absurd rfl h, trivial⟩

lemma Returning.start {seeded : Bool} {s : Rebuild γ} {todo retired : List StoreFile}
    (h : Retiring seeded s.live s.staged s.entry todo retired) :
      Returning s.live s.staged s.entry retired.reverse := by
  constructor
  · rw [List.nodup_reverse]
    exact (List.nodup_append.1 h.nodup).1
  · intro c hc
    exact h.aside c (List.mem_reverse.1 hc)
  · intro c hc
    exact h.rest c fun hr => hc (List.mem_reverse.2 hr)

lemma Returning.step {s : Rebuild γ} {c : StoreFile} {todo : List StoreFile}
    (h : Returning s.live s.staged s.entry (c :: todo)) :
    Returning (s.moveBack c).live (s.moveBack c).staged (s.moveBack c).entry todo := by
  obtain ⟨hc, hnodup⟩ := List.nodup_cons.1 h.nodup
  refine ⟨hnodup, ?_, ?_⟩
  · intro c' hc'
    have hne : c' ≠ c := fun he => hc (he ▸ hc')
    simp only [moveBack, Function.update_of_ne hne]
    exact h.aside c' (List.mem_cons_of_mem c hc')
  · intro c' hc'
    by_cases hcc : c' = c
    · subst hcc
      simp only [moveBack, Function.update_self]
      exact (h.aside c' List.mem_cons_self).1
    · simp only [moveBack, Function.update_of_ne hcc]
      exact h.rest c' (by simp [hcc, hc'])

lemma Returning.done {s : Rebuild γ} (h : Returning s.live s.staged s.entry []) : s.live = s.entry := by
  funext c
  exact h.rest c (by simp)

lemma Returning.isSome {s : Rebuild γ} {c : StoreFile} {todo : List StoreFile}
    (h : Returning s.live s.staged s.entry (c :: todo)) :
    (s.staged c).isSome = true := by
  obtain ⟨hs, hne⟩ := h.aside c List.mem_cons_self
  rw [hs]
  exact Option.isSome_iff_ne_none.2 hne

lemma Retiring.start (seeded : Bool) {s : Rebuild γ} (hlive : s.live = s.entry) :
    Retiring seeded s.live s.staged s.entry (storeFileCandidates seeded) [] := by
  refine ⟨nodup_candidates seeded, fun c hc => hc, by simp, ?_, fun c _ => congrFun hlive c⟩
  intro c hc hn
  exact absurd hc hn

lemma Retiring.skip {seeded : Bool} {s : Rebuild γ} {c : StoreFile} {todo retired : List StoreFile}
    (h : Retiring seeded s.live s.staged s.entry (c :: todo) retired)
      (hc : s.live c = none) : Retiring seeded s.live s.staged s.entry todo retired := by
  have hsub : List.Sublist (retired ++ todo) (retired ++ c :: todo) :=
    (List.Sublist.refl retired).append (List.sublist_cons_self c todo)
  have hcr : c ∉ retired := by
    intro hr
    exact (List.nodup_append.1 h.nodup).2.2 c hr c List.mem_cons_self rfl
  refine ⟨h.nodup.sublist hsub, fun c' hc' => h.candidates c' (hsub.subset hc'), h.aside, ?_, h.rest⟩
  intro c' hc' hn
  by_cases hcc : c' = c
  · subst hcc
    rw [← h.rest c' hcr, hc]
  · apply h.absent c' hc'
    simp only [List.mem_append, List.mem_cons, not_or] at hn ⊢
    exact ⟨hn.1, hcc, hn.2⟩

lemma Retiring.unstage {seeded : Bool} {s : Rebuild γ} {c : StoreFile} {todo retired : List StoreFile}
    (h : Retiring seeded s.live s.staged s.entry (c :: todo) retired) :
    Retiring seeded s.live (Function.update s.staged c none) s.entry (c :: todo) retired := by
  refine ⟨h.nodup, h.candidates, ?_, h.absent, h.rest⟩
  intro c' hc'
  have hne : c' ≠ c := by
    rintro rfl
    exact (List.nodup_append.1 h.nodup).2.2 c' hc' c' List.mem_cons_self rfl
  simp only [Function.update_of_ne hne]
  exact h.aside c' hc'

lemma Retiring.retire {seeded : Bool} {s : Rebuild γ} {c : StoreFile} {todo retired : List StoreFile}
    (h : Retiring seeded s.live s.staged s.entry (c :: todo) retired) (hc : s.live c ≠ none) :
    Retiring seeded (s.retire c).live (s.retire c).staged (s.retire c).entry todo (retired ++ [c]) := by
  have hassoc : retired ++ [c] ++ todo = retired ++ c :: todo := by simp
  have hcr : c ∉ retired := by
    intro hr
    exact (List.nodup_append.1 h.nodup).2.2 c hr c List.mem_cons_self rfl
  refine ⟨hassoc ▸ h.nodup, hassoc ▸ h.candidates, ?_, hassoc ▸ h.absent, ?_⟩
  · intro c' hc'
    rcases List.mem_append.1 hc' with hr | hr
    · have hne : c' ≠ c := fun he => hcr (he ▸ hr)
      simp only [Rebuild.retire, Function.update_of_ne hne]
      exact h.aside c' hr
    · rw [List.mem_singleton.1 hr]
      simp only [Rebuild.retire, Function.update_self]
      rw [← h.rest c hcr]
      exact ⟨rfl, hc⟩
  · intro c' hc'
    simp only [List.mem_append, List.mem_singleton, not_or] at hc'
    simp only [Rebuild.retire, Function.update_of_ne hc'.2]
    exact h.rest c' hc'.1

lemma Retiring.done {seeded : Bool} {s : Rebuild γ} {retired : List StoreFile}
    (h : Retiring seeded s.live s.staged s.entry [] retired) :
    Retired seeded s.live s.staged s.entry retired := by
  have happend : retired ++ [] = retired := List.append_nil retired
  refine ⟨happend ▸ h.nodup, happend ▸ h.candidates, h.aside, happend ▸ h.absent, ?_⟩
  intro c hc
  apply h.rest
  intro hr
  exact hc (h.candidates c (by simp [hr]))

lemma Retired.returning {seeded : Bool} {s : Rebuild γ} {retired : List StoreFile}
    (h : Retired seeded s.live s.staged s.entry retired)
    (hempty : ∀ c ∈ storeFileCandidates seeded, s.live c = none) : Returning s.live s.staged s.entry retired := by
  refine ⟨h.nodup, h.aside, ?_⟩
  intro c hc
  by_cases hcand : c ∈ storeFileCandidates seeded
  · rw [hempty c hcand, h.absent c hcand hc]
  · exact h.outside c hcand

lemma Retired.overwrite {seeded : Bool} {live live' staged entry : Files γ} {retired : List StoreFile}
    (h : Retired seeded live staged entry retired)
    (hlive : ∀ c, c ∉ storeFileCandidates seeded → live' c = live c) :
      Retired seeded live' staged entry retired := by
  refine ⟨h.nodup, h.candidates, h.aside, h.absent, ?_⟩
  intro c hc
  rw [hlive c hc]
  exact h.outside c hc

lemma Recoverable.underWay {seeded : Bool} {s : Rebuild γ} (hs : s.sentinel = true) (hr : s.returned = none)
    (hb : s.base ∈ s.complete) (hp : PhaseOk seeded s) : s.Recoverable seeded := by
  refine ⟨⟨?_, ?_⟩, hb, fun _ => hs, fun _ => hr, hp⟩
  · intro h
    rw [hs] at h
    cases h
  · intro h
    rw [hr] at h
    cases h

lemma Recoverable.finish {seeded : Bool} {s : Rebuild γ} {result : RebuildReturn} (hb : s.base ∈ s.complete)
    (hserved : s.sentinel = false → s.live ∈ s.complete) (hrestored : result = .restored → s.live = s.base) :
    (s.finish result).Recoverable seeded := by
  refine ⟨⟨hserved, ?_⟩, hb, fun h => absurd rfl h, fun h => absurd rfl h, trivial⟩
  intro h
  injection h with h
  exact hrestored h

lemma Recoverable.begin {seeded : Bool} {s : Rebuild γ} (h : s.Recoverable seeded) (written left : Bool) :
    (s.step seeded (.begin written left)).Recoverable seeded := by
  simp only [Rebuild.step]
  split
  · have hbase : (if s.sentinel then s.base else s.live) ∈ s.complete := by
      split
      · exact h.base_complete
      · rename_i hs
        exact h.sound.served (by simpa using hs)
    split
    · rename_i hw
      apply Recoverable.underWay
      · simp [hw]
      · rfl
      · exact hbase
      · exact Retiring.start seeded rfl
    · apply Recoverable.finish hbase
      · intro hs
        apply h.sound.served
        simp only [Bool.or_eq_false_iff] at hs
        exact hs.1.1
      · simp
  · exact h

lemma Recoverable.proceed {seeded : Bool} {s : Rebuild γ} (h : s.Recoverable seeded) (ok : Bool)
    (hs : ¬s.Spoils (.proceed ok)) : (s.proceed ok).Recoverable seeded := by
  have hphase := h.phaseOk
  have hmarked := h.marked
  have hunreturned := h.unreturned
  have hb := h.base_complete
  unfold Rebuild.proceed
  rcases hp : s.phase with _ | ⟨_ | ⟨c, todo⟩, retired⟩ | (_ | ⟨c, todo⟩) | retired | (_ | ⟨c, todo⟩) |
    ⟨_ | ⟨c, todo⟩, retired⟩ | (_ | ⟨c, todo⟩) <;> simp only [PhaseOk, hp] at hphase hmarked hunreturned ⊢
  · exact h
  · exact .underWay (hmarked (by simp)) (hunreturned (by simp)) hb hphase.done
  · have hm := hmarked (by simp)
    have hr := hunreturned (by simp)
    by_cases hlive : s.live c = none
    · rw [if_pos (by simp [hlive])]
      exact .underWay hm hr hb (hphase.skip hlive)
    · rw [if_neg (by simpa using hlive)]
      have hback : ok = false → s.entry ∈ s.complete := by
        rintro rfl
        by_contra hn
        exact hs (.inr (.inl ⟨rfl, hn, c, todo, retired, hp, hlive⟩))
      have hrolling : ok = false →
          ({ s with phase := .rollingBack retired.reverse } : Rebuild γ).Recoverable seeded :=
        fun hok => .underWay hm hr hb ⟨Returning.start hphase, hback hok⟩
      split
      · split
        · refine .underWay hm hr hb ?_
          simp only [PhaseOk]
          exact hphase.unstage
        · rename_i hok
          exact hrolling (by simpa using hok)
      · split
        · exact .underWay hm hr hb (hphase.retire hlive)
        · rename_i hok
          exact hrolling (by simpa using hok)
  · refine .finish hb ?_ (by simp)
    intro _
    change s.live ∈ s.complete
    rw [hphase.1.done]
    exact hphase.2
  · have hok : ok = true := by
      by_contra hn
      rw [Bool.not_eq_true] at hn
      subst hn
      exact hs (.inl ⟨rfl, c, todo, hp⟩)
    rw [if_pos (by simp [hok, hphase.1.isSome])]
    exact .underWay (hmarked (by simp)) (hunreturned (by simp)) hb ⟨hphase.1.step, hphase.2⟩
  · exact h
  · exact .finish hb (fun _ => hphase) (by split <;> simp)
  · exact .underWay (hmarked (by simp)) (hunreturned (by simp)) hb hphase
  · refine .underWay (hmarked (by simp)) (hunreturned (by simp)) hb ⟨?_, hphase.2.1⟩
    exact hphase.1.returning fun c hc => hphase.2.2.2 c hc (by simp)
  · have hm := hmarked (by simp)
    have hr := hunreturned (by simp)
    obtain ⟨hretired, hentry, htodo, hempty⟩ := hphase
    have htail : ∀ c' ∈ todo, c' ∈ storeFileCandidates seeded :=
      fun c' hc' => htodo c' (List.mem_cons_of_mem c hc')
    split
    · rename_i hlive
      refine .underWay hm hr hb ⟨hretired, hentry, htail, ?_⟩
      intro c' hc' hn
      by_cases hcc : c' = c
      · subst hcc
        simpa using hlive
      · exact hempty c' hc' (by simp [hcc, hn])
    · split
      · refine .underWay hm hr hb ⟨hretired.overwrite ?_, hentry, htail, ?_⟩
        · intro c' hc'
          have hne : c' ≠ c := fun he => hc' (he ▸ htodo c List.mem_cons_self)
          exact Function.update_of_ne hne _ _
        · intro c' hc' hn
          by_cases hcc : c' = c
          · subst hcc
            exact Function.update_self _ _ _
          · change Function.update s.live c none c' = none
            rw [Function.update_of_ne hcc]
            exact hempty c' hc' (by simp [hcc, hn])
      · refine .finish hb ?_ (by simp)
        intro hn
        rw [hm] at hn
        cases hn
  · have hlive : s.live = s.base := hphase.1.done.trans hphase.2
    exact .finish hb (fun _ => by change s.live ∈ s.complete; rw [hlive]; exact hb) (fun _ => hlive)
  · have hm := hmarked (by simp)
    split
    · exact .underWay hm (hunreturned (by simp)) hb ⟨hphase.1.step, hphase.2⟩
    · refine .finish hb ?_ (by simp)
      intro hn
      rw [hm] at hn
      cases hn

lemma overwrite_outside {seeded : Bool} {live files : Files γ} (c : StoreFile)
    (hc : c ∉ storeFileCandidates seeded) : overwrite seeded live files c = live c := by
  rw [overwrite, if_neg hc]

lemma Recoverable.step {seeded : Bool} {s : Rebuild γ} (h : s.Recoverable seeded) (e : RebuildEvent γ)
    (hs : ¬s.Spoils e) : (s.step seeded e).Recoverable seeded := by
  have hphase := h.phaseOk
  have hb := h.base_complete
  cases e with
  | begin written left => exact h.begin written left
  | proceed ok => exact h.proceed ok hs
  | writePartial files =>
    simp only [Rebuild.step]
    split
    · rename_i retired hp
      simp only [PhaseOk, hp] at hphase
      refine .underWay (h.marked (by simp [hp])) (h.unreturned (by simp [hp])) hb ?_
      simp only [PhaseOk, hp]
      exact hphase.overwrite overwrite_outside
    · exact h
  | commit files =>
    simp only [Rebuild.step]
    split
    · rename_i retired hp
      refine .underWay (h.marked (by simp [hp])) (h.unreturned (by simp [hp])) (List.mem_append_left _ hb) ?_
      exact List.mem_append_right _ (List.mem_singleton_self _)
    · exact h
  | reindexFails =>
    simp only [Rebuild.step]
    split
    · rename_i retired hp
      simp only [PhaseOk, hp] at hphase
      have hentry : s.entry = s.base := by
        by_contra hne
        exact hs (.inr (.inr ⟨rfl, hne, retired, hp⟩))
      refine .underWay (h.marked (by simp [hp])) (h.unreturned (by simp [hp])) hb ?_
      exact ⟨hphase, hentry, fun c hc => hc, fun c hc hn => absurd hc hn⟩
    · exact h
  | crash => exact ⟨⟨h.sound.served, fun hr => by cases hr⟩, hb, fun hn => absurd rfl hn,
    fun hn => absurd rfl hn, trivial⟩

def Unspoilt (seeded : Bool) (files : Files γ) (events : List (RebuildEvent γ)) : Prop :=
  ∀ pre e, pre ++ [e] <+: events → ¬(run (Rebuild.step seeded) (new files) pre).Spoils e

lemma run_recoverable (seeded : Bool) (files : Files γ) (events : List (RebuildEvent γ))
    (hs : Unspoilt seeded files events) : (run (Rebuild.step seeded) (new files) events).Recoverable seeded := by
  induction events using List.reverseRecOn with
  | nil => exact new_recoverable seeded files
  | append_singleton events e ih =>
    rw [run_snoc]
    exact (ih fun pre e' h => hs pre e' (h.trans (List.prefix_append _ _))).step e (hs events e List.prefix_rfl)

end Rebuild

/-- In a run that spoils nothing, what is served is one complete store, and a restored store is the
one from before the first unfinished attempt. -/
theorem rebuild_sound {γ : Type} (seeded : Bool) (files : Files γ) (events : List (RebuildEvent γ))
    (hs : Rebuild.Unspoilt seeded files events) :
    (run (Rebuild.step seeded) (Rebuild.new files) events).Sound :=
  (Rebuild.run_recoverable seeded files events hs).sound

def sampleStore : Files ℕ
  | .wal => some 1
  | .db => some 2
  | .shm | .vec => none

/-- The daemon dies when the first file is retired; the next attempt commits a new store. -/
def crashThenCommit : List (RebuildEvent ℕ) :=
  [.begin true false, .proceed true, .crash, .begin true false, .proceed true, .proceed true, .proceed true,
    .proceed true, .commit sampleStore, .proceed true, .proceed true]

theorem rebuild_sound_crashThenCommit :
    (run (Rebuild.step false) (Rebuild.new sampleStore) crashThenCommit).Sound :=
  rebuild_sound false sampleStore crashThenCommit (by
    intro pre e hpre hspoils
    have hmem := hpre.subset (List.mem_append_right pre (List.mem_singleton_self e))
    rcases hspoils with ⟨rfl, _⟩ | ⟨rfl, _⟩ | ⟨rfl, _⟩ <;> simp [crashThenCommit] at hmem)

/-- The daemon dies when the first file is retired; the next attempt retires the rest, and its
reindex fails. -/
def crashThenRestore : List (RebuildEvent ℕ) :=
  [.begin true false, .proceed true, .crash, .begin true false, .proceed true, .proceed true, .proceed true,
    .proceed true, .reindexFails, .proceed true, .proceed true, .proceed true, .proceed true, .proceed true,
    .proceed true]

theorem partial_store_served :
    (¬∀ events : List (RebuildEvent ℕ),
      (run (Rebuild.step false) (Rebuild.new sampleStore) events).sentinel = false →
        (run (Rebuild.step false) (Rebuild.new sampleStore) events).live ∈
          (run (Rebuild.step false) (Rebuild.new sampleStore) events).complete) ∧
    ¬∀ events : List (RebuildEvent ℕ),
      (run (Rebuild.step false) (Rebuild.new sampleStore) events).returned = some .restored →
        (run (Rebuild.step false) (Rebuild.new sampleStore) events).live =
          (run (Rebuild.step false) (Rebuild.new sampleStore) events).base := by
  constructor
  · intro h
    have hserved := h crashThenRestore (by decide)
    have hcomplete : (run (Rebuild.step false) (Rebuild.new sampleStore) crashThenRestore).complete =
        [sampleStore] :=
      rfl
    rw [hcomplete, List.mem_singleton] at hserved
    have hwal := congrFun hserved .wal
    revert hwal
    decide
  · intro h
    have hwal := congrFun (h crashThenRestore (by decide)) .wal
    revert hwal
    decide

end RepoGraph.DaemonRuntime
