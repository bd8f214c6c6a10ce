import RepoGraph.DaemonPolicy.Coordinator
import RepoGraph.Lib.Runs

/-! The state of the coordinator against the guards that are out, and the write queue against the
writers that wait. -/

namespace RepoGraph.DaemonPolicy

open Lib CoordinatorState

inductive Standing
  | outside
  | ticketed (ticket : ℕ)
  | queued (entry : ℕ × WriteKind)
  | reader
  | writer (kind : WriteKind)
  | panicked
  deriving DecidableEq

def Standing.ticket : Standing → Option ℕ
  | ticketed t => some t
  | queued e => some e.1
  | _ => none

def Phase.standing : Phase → Standing
  | idle | readWait _ _ => .outside
  | queueing _ _ ticket => .ticketed ticket
  | writeWait kind _ ticket _ => .queued (ticket, kind)
  | readGuard => .reader
  | writeGuard kind => .writer kind
  | panicked _ => .panicked

@[simp] lemma Phase.standing_wake (p : Phase) : p.wake.standing = p.standing := by
  cases p <;> rfl

section Permits

variable {ι : Type} [DecidableEq ι] [Fintype ι]

def readersOf (st : ι → Standing) : ℕ := (Finset.univ.filter fun i => st i = .reader).card

lemma readersOf_update (st : ι → Standing) (i : ι) (a : Standing) :
    readersOf (Function.update st i a) + (if st i = .reader then 1 else 0) =
      readersOf st + (if a = .reader then 1 else 0) :=
  card_filter_update (· = Standing.reader) st i a

omit [DecidableEq ι] in
lemma readersOf_pos {st : ι → Standing} {i : ι} (h : st i = .reader) : 0 < readersOf st := by
  apply Finset.card_pos.2
  exact ⟨i, by simp [h]⟩

/-- The state is what the guards call for; `w` is the one write guard. -/
structure Permitted (state : CoordinatorState) (st : ι → Standing) (w : Option (ι × WriteKind)) : Prop where
  writer : ∀ i k, st i = .writer k ↔ w = some (i, k)
  state_eq : state = permits (readersOf st) (w.map Prod.snd)
  exclusive : w.map Prod.snd = some .write → readersOf st = 0

variable {state state' : CoordinatorState} {st st' : ι → Standing} {w : Option (ι × WriteKind)} {i : ι}

namespace Permitted

omit [DecidableEq ι] in
lemma congr (h : Permitted state st w) (hr : ∀ j, st' j = .reader ↔ st j = .reader)
    (hw : ∀ j k, st' j = .writer k ↔ st j = .writer k) : Permitted state st' w := by
  have hreaders : readersOf st' = readersOf st := by
    unfold readersOf
    congr 1
    exact Finset.filter_congr fun j _ => hr j
  constructor
  · intro j k
    exact (hw j k).trans (h.writer j k)
  · rw [hreaders]
    exact h.state_eq
  · rw [hreaders]
    exact h.exclusive

lemma move (h : Permitted state st w) (a : Standing) (ha : a ≠ .reader ∧ ∀ k, a ≠ .writer k)
    (hi : st i ≠ .reader ∧ ∀ k, st i ≠ .writer k) : Permitted state (Function.update st i a) w := by
  apply h.congr
  · intro j
    by_cases hj : j = i
    · subst hj
      simp [ha.1, hi.1]
    · rw [Function.update_of_ne hj]
  · intro j k
    by_cases hj : j = i
    · subst hj
      simp [ha.2 k, hi.2 k]
    · rw [Function.update_of_ne hj]

lemma grantRead (h : Permitted state st w) (hi : st i = .outside) (hb : readersOf st + 1 < 2 ^ 32)
    (ht : state.tryAcquireRead = .ok state') : Permitted state' (Function.update st i .reader) w := by
  rw [h.state_eq] at ht
  obtain ⟨hw, rfl⟩ := tryAcquireRead_permits hb ht
  have hreaders : readersOf (Function.update st i .reader) = readersOf st + 1 := by
    have := readersOf_update st i .reader
    simpa [hi] using this
  constructor
  · intro j k
    rw [← h.writer j k]
    by_cases hj : j = i
    · subst hj
      simp [hi]
    · rw [Function.update_of_ne hj]
  · rw [hreaders]
  · exact fun he => absurd he hw

lemma releaseRead (h : Permitted state st w) (hi : st i = .reader) :
    ∃ state', state.releaseRead = .ok state' ∧ Permitted state' (Function.update st i .outside) w := by
  have hreaders : readersOf (Function.update st i .outside) + 1 = readersOf st := by
    have := readersOf_update st i .outside
    simpa [hi] using this
  have hw : w.map Prod.snd ≠ some .write := by
    intro he
    have := h.exclusive he
    omega
  refine ⟨permits (readersOf (Function.update st i .outside)) (w.map Prod.snd), ?_, ?_, rfl, ?_⟩
  · rw [h.state_eq, ← hreaders]
    exact releaseRead_permits hw
  · intro j k
    rw [← h.writer j k]
    by_cases hj : j = i
    · subst hj
      simp [hi]
    · rw [Function.update_of_ne hj]
  · exact fun he => absurd he hw

lemma grantWrite {k : WriteKind} (h : Permitted state st w) (hi : st i = .outside)
    (ht : k.tryFn state = .ok state') :
    w = none ∧ Permitted state' (Function.update st i (.writer k)) (some (i, k)) := by
  rw [h.state_eq] at ht
  obtain ⟨hr, hw, rfl⟩ := tryFn_permits ht
  have hnone : w = none := by simpa using hw
  subst hnone
  have hreaders : readersOf (Function.update st i (.writer k)) = 0 := by
    have := readersOf_update st i (.writer k)
    simpa [hi, hr] using this
  refine ⟨rfl, ?_, ?_, fun _ => hreaders⟩
  · intro j k'
    by_cases hj : j = i
    · subst hj
      simp
    · rw [Function.update_of_ne hj, h.writer j k']
      simp [Ne.symm hj]
  · rw [hreaders]
    rfl

lemma releaseWrite {k : WriteKind} (h : Permitted state st w) (hi : st i = .writer k) :
    ∃ state', k.releaseFn state = .ok state' ∧ Permitted state' (Function.update st i .outside) none := by
  have hw : w = some (i, k) := (h.writer i k).1 hi
  have hreaders : readersOf (Function.update st i .outside) = readersOf st := by
    have := readersOf_update st i .outside
    simpa [hi] using this
  refine ⟨permits (readersOf st) none, ?_, ?_, ?_, by simp⟩
  · rw [h.state_eq, hw]
    apply releaseFn_permits
    intro hk
    exact h.exclusive (by simp [hw, hk])
  · intro j k'
    by_cases hj : j = i
    · subst hj
      simp
    · rw [Function.update_of_ne hj, h.writer j k', hw]
      simp [Ne.symm hj]
  · rw [hreaders]
    rfl

end Permitted

end Permits

section Line

variable {ι : Type} [DecidableEq ι] [Fintype ι]

/-- The queue holds, in the order of arrival, the entries whose call still waits. -/
structure InLine (queue arrivals : List (ℕ × WriteKind)) (nextTicket : ℕ) (st : ι → Standing) : Prop where
  ticket_lt : ∀ i t, (st i).ticket = some t → t < nextTicket
  ticket_inj : ∀ i j t, (st i).ticket = some t → (st j).ticket = some t → i = j
  arrival_lt : ∀ e ∈ arrivals, e.1 < nextTicket
  arrivals_nodup : (arrivals.map Prod.fst).Nodup
  ticketed_new : ∀ i t, st i = .ticketed t → ∀ e ∈ arrivals, e.1 ≠ t
  queue_eq : queue = arrivals.filter fun e => ∃ i, st i = .queued e

variable {queue arrivals : List (ℕ × WriteKind)} {nextTicket : ℕ} {st : ι → Standing} {i : ι}

lemma tail_eq_filter {l : List (ℕ × WriteKind)} {t : ℕ} (hl : (l.map Prod.fst).Nodup)
    (h : l.head?.map Prod.fst = some t) : l.tail = l.filter fun e => e.1 ≠ t := by
  cases l with
  | nil => rfl
  | cons e l =>
    have he : e.1 = t := by simpa using h
    rw [List.map_cons, List.nodup_cons] at hl
    rw [List.filter_cons_of_neg (by simpa using he), List.tail_cons]
    symm
    rw [List.filter_eq_self]
    intro e' he'
    have hne : e'.1 ≠ e.1 := fun hee => hl.1 (hee ▸ List.mem_map_of_mem he')
    simpa [he] using hne

namespace InLine

omit [DecidableEq ι] in
lemma queue_nodup (h : InLine queue arrivals nextTicket st) : (queue.map Prod.fst).Nodup := by
  rw [h.queue_eq]
  exact h.arrivals_nodup.sublist (List.filter_sublist.map _)

lemma move (h : InLine queue arrivals nextTicket st) (a : Standing) (ha : a.ticket = none)
    (hi : (st i).ticket = none) : InLine queue arrivals nextTicket (Function.update st i a) := by
  have hsame : ∀ j, (Function.update st i a j).ticket = (st j).ticket := by
    intro j
    by_cases hj : j = i
    · subst hj
      rw [Function.update_self, ha, hi]
    · rw [Function.update_of_ne hj]
  have hqueued : ∀ e j, Function.update st i a j = .queued e ↔ st j = .queued e := by
    intro e j
    by_cases hj : j = i
    · subst hj
      rw [Function.update_self]
      constructor
      · rintro rfl
        simp [Standing.ticket] at ha
      · intro he
        simp [he, Standing.ticket] at hi
    · rw [Function.update_of_ne hj]
  refine ⟨?_, ?_, h.arrival_lt, h.arrivals_nodup, ?_, ?_⟩
  · intro j t
    rw [hsame]
    exact h.ticket_lt j t
  · intro j j' t
    rw [hsame, hsame]
    exact h.ticket_inj j j' t
  · intro j t hj
    by_cases hji : j = i
    · subst hji
      rw [Function.update_self] at hj
      simp [hj, Standing.ticket] at ha
    · rw [Function.update_of_ne hji] at hj
      exact h.ticketed_new j t hj
  · rw [h.queue_eq]
    apply List.filter_congr
    intro e _
    simp only [hqueued]

lemma takeTicket (h : InLine queue arrivals nextTicket st) (hi : st i = .outside) :
    InLine queue arrivals (nextTicket + 1) (Function.update st i (.ticketed nextTicket)) := by
  refine ⟨?_, ?_, ?_, h.arrivals_nodup, ?_, ?_⟩
  · intro j t hj
    by_cases hji : j = i
    · subst hji
      simp [Standing.ticket] at hj
      omega
    · rw [Function.update_of_ne hji] at hj
      have := h.ticket_lt j t hj
      omega
  · intro j j' t hj hj'
    by_cases hji : j = i <;> by_cases hji' : j' = i
    · rw [hji, hji']
    · subst hji
      rw [Function.update_of_ne hji'] at hj'
      have := h.ticket_lt j' t hj'
      simp [Standing.ticket] at hj
      omega
    · subst hji'
      rw [Function.update_of_ne hji] at hj
      have := h.ticket_lt j t hj
      simp [Standing.ticket] at hj'
      omega
    · rw [Function.update_of_ne hji] at hj
      rw [Function.update_of_ne hji'] at hj'
      exact h.ticket_inj j j' t hj hj'
  · intro e he
    have := h.arrival_lt e he
    omega
  · intro j t hj e he
    have hlt := h.arrival_lt e he
    by_cases hji : j = i
    · subst hji
      simp at hj
      omega
    · rw [Function.update_of_ne hji] at hj
      exact h.ticketed_new j t hj e he
  · rw [h.queue_eq]
    apply List.filter_congr
    intro e _
    rw [decide_eq_decide]
    apply exists_congr
    intro j
    by_cases hji : j = i
    · subst hji
      simp [hi]
    · rw [Function.update_of_ne hji]

lemma pushBack {t : ℕ} {k : WriteKind} (h : InLine queue arrivals nextTicket st) (hi : st i = .ticketed t) :
    InLine (queue ++ [(t, k)]) (arrivals ++ [(t, k)]) nextTicket (Function.update st i (.queued (t, k))) := by
  have hsame : ∀ j, (Function.update st i (.queued (t, k)) j).ticket = (st j).ticket := by
    intro j
    by_cases hj : j = i
    · subst hj
      rw [Function.update_self, hi]
      rfl
    · rw [Function.update_of_ne hj]
  have hnew := h.ticketed_new i t hi
  refine ⟨?_, ?_, ?_, ?_, ?_, ?_⟩
  · intro j t'
    rw [hsame]
    exact h.ticket_lt j t'
  · intro j j' t'
    rw [hsame, hsame]
    exact h.ticket_inj j j' t'
  · intro e he
    rcases List.mem_append.1 he with he | he
    · exact h.arrival_lt e he
    · rw [List.mem_singleton.1 he]
      exact h.ticket_lt i t (by rw [hi]; rfl)
  · rw [List.map_append, List.nodup_append]
    refine ⟨h.arrivals_nodup, by simp, ?_⟩
    intro a ha b hb
    obtain ⟨e, he, rfl⟩ := List.mem_map.1 ha
    rw [List.map_singleton, List.mem_singleton] at hb
    rw [hb]
    exact hnew e he
  · intro j t' hj e he
    by_cases hji : j = i
    · subst hji
      simp at hj
    · rw [Function.update_of_ne hji] at hj
      rcases List.mem_append.1 he with he | he
      · exact h.ticketed_new j t' hj e he
      · rw [List.mem_singleton.1 he]
        rintro rfl
        apply hji
        exact h.ticket_inj j i t (by rw [hj]; rfl) (by rw [hi]; rfl)
  · rw [List.filter_append, h.queue_eq]
    congr 1
    · apply List.filter_congr
      intro e he
      rw [decide_eq_decide]
      apply exists_congr
      intro j
      by_cases hji : j = i
      · subst hji
        have hne : (t, k) ≠ e := fun hee => hnew e he (by rw [← hee])
        simp [hi, hne]
      · rw [Function.update_of_ne hji]
    · have hex : ∃ j, Function.update st i (.queued (t, k)) j = .queued (t, k) := ⟨i, by simp⟩
      simp [hex]

lemma leave {e : ℕ × WriteKind} (h : InLine queue arrivals nextTicket st) (hi : st i = .queued e) :
    InLine (queue.filter fun e' => e'.1 ≠ e.1) arrivals nextTicket (Function.update st i .outside) := by
  have hsub : ∀ j t, (Function.update st i .outside j).ticket = some t → j ≠ i ∧ (st j).ticket = some t := by
    intro j t hj
    by_cases hji : j = i
    · subst hji
      simp [Standing.ticket] at hj
    · rw [Function.update_of_ne hji] at hj
      exact ⟨hji, hj⟩
  refine ⟨?_, ?_, h.arrival_lt, h.arrivals_nodup, ?_, ?_⟩
  · intro j t hj
    exact h.ticket_lt j t (hsub j t hj).2
  · intro j j' t hj hj'
    exact h.ticket_inj j j' t (hsub j t hj).2 (hsub j' t hj').2
  · intro j t hj
    by_cases hji : j = i
    · subst hji
      simp at hj
    · rw [Function.update_of_ne hji] at hj
      exact h.ticketed_new j t hj
  · rw [h.queue_eq, List.filter_filter]
    apply List.filter_congr
    intro e' _
    rw [Bool.eq_iff_iff]
    simp only [Bool.and_eq_true, decide_eq_true_eq]
    constructor
    · rintro ⟨hne, j, hj⟩
      refine ⟨j, ?_⟩
      rw [Function.update_of_ne ?_]
      · exact hj
      · rintro rfl
        rw [hi] at hj
        injection hj with hee
        exact hne (by rw [hee])
    · rintro ⟨j, hj⟩
      have hji : j ≠ i := (hsub j e'.1 (by rw [hj]; rfl)).1
      rw [Function.update_of_ne hji] at hj
      refine ⟨?_, j, hj⟩
      intro hee
      apply hji
      exact h.ticket_inj j i e.1 (by rw [hj, ← hee]; rfl) (by rw [hi]; rfl)

end InLine

end Line

end RepoGraph.DaemonPolicy
