import RepoGraph.DaemonPolicy.Ledger

/-! The coordinator over whole runs: the state is what the guards call for, the queue is the waiting
writers, and no call panics. -/

namespace RepoGraph.DaemonPolicy

open Lib CoordinatorState

variable {ι : Type} [DecidableEq ι]

namespace Sys

def standing (s : Sys ι) (i : ι) : Standing := (s.calls i).standing

@[simp] lemma setPhase_standing (s : Sys ι) (i : ι) (p : Phase) :
    (s.setPhase i p).standing = Function.update s.standing i p.standing :=
  comp_update Phase.standing s.calls i p

omit [DecidableEq ι] in
@[simp] lemma notifyAll_standing (s : Sys ι) : s.notifyAll.standing = s.standing := by
  funext j
  exact Phase.standing_wake (s.calls j)

lemma giveUp_standing (s : Sys ι) (i : ι) (ticket : ℕ) :
    (s.giveUp i ticket).standing = Function.update s.standing i .outside := by
  rw [Sys.giveUp.eq_def, notifyAll_standing, setPhase_standing]
  rfl

omit [DecidableEq ι] in
lemma standing_of_calls {s : Sys ι} {i : ι} {p : Phase} (h : s.calls i = p) : s.standing i = p.standing :=
  congrArg Phase.standing h

/-- The moves of a call; a step makes one of them, or joins the queue and then makes one. -/
inductive Move (s : Sys ι) (i : ι) : Sys ι → Prop
  | stay : Move s i s
  | waitRead (timed : Bool) (hi : s.standing i = .outside) (hb : s.writeQueue ≠ [] ∨ s.state = .writing) :
      Move s i (s.setPhase i (.readWait timed false))
  | leaveRead (hi : s.standing i = .outside) : Move s i (s.setPhase i .idle)
  | grantRead (state : CoordinatorState) (hi : s.standing i = .outside) (hq : s.writeQueue = [])
      (ht : s.state.tryAcquireRead = .ok state) : Move s i ({ s with state := state }.setPhase i .readGuard)
  | takeTicket (kind : WriteKind) (timed : Bool) (hi : s.standing i = .outside) :
      Move s i ({ s with nextTicket := s.nextTicket + 1 }.setPhase i (.queueing kind timed s.nextTicket))
  | pushBack (kind : WriteKind) (timed : Bool) (ticket : ℕ) (hi : s.calls i = .queueing kind timed ticket) :
      Move s i (s.pushBack i kind timed ticket)
  | waitWrite (kind : WriteKind) (timed : Bool) (ticket : ℕ) (hi : s.standing i = .queued (ticket, kind))
      (hb : s.writeQueue.head?.map Prod.fst ≠ some ticket ∨ s.state ≠ .idle) :
      Move s i (s.setPhase i (.writeWait kind timed ticket false))
  | giveUp (kind : WriteKind) (ticket : ℕ) (hi : s.standing i = .queued (ticket, kind)) :
      Move s i (s.giveUp i ticket)
  | grantQueued (kind : WriteKind) (ticket : ℕ) (state : CoordinatorState)
      (hi : s.standing i = .queued (ticket, kind)) (hf : s.writeQueue.head?.map Prod.fst = some ticket)
      (ht : kind.tryFn s.state = .ok state) :
      Move s i ({ s with state := state, writeQueue := s.writeQueue.tail }.setPhase i (.writeGuard kind))
  | grantWrite (kind : WriteKind) (state : CoordinatorState) (hi : s.standing i = .outside)
      (hq : s.writeQueue = []) (ht : kind.tryFn s.state = .ok state) :
      Move s i ({ s with state := state }.setPhase i (.writeGuard kind))
  | releaseRead (state : CoordinatorState) (hi : s.standing i = .reader)
      (ht : s.state.releaseRead = .ok state) : Move s i ({ s with state := state }.setPhase i .idle).notifyAll
  | releaseWrite (kind : WriteKind) (state : CoordinatorState) (hi : s.standing i = .writer kind)
      (ht : kind.releaseFn s.state = .ok state) : Move s i ({ s with state := state }.setPhase i .idle).notifyAll
  | panicRead (msg : String) (hi : s.standing i = .reader) (ht : ∀ state, s.state.releaseRead ≠ .ok state) :
      Move s i (s.setPhase i (.panicked msg))
  | panicWrite (kind : WriteKind) (msg : String) (hi : s.standing i = .writer kind)
      (ht : ∀ state, kind.releaseFn s.state ≠ .ok state) : Move s i (s.setPhase i (.panicked msg))

lemma tryAcquireRead_cases (state : CoordinatorState) :
    (∃ state', state.tryAcquireRead = .ok state') ∨ state = .writing ∧
    state.tryAcquireRead = .blocked .writing := by
  cases state with
  | writing => exact .inr ⟨rfl, rfl⟩
  | idle => exact .inl ⟨_, rfl⟩
  | reading n => exact .inl ⟨_, rfl⟩
  | refreshing => exact .inl ⟨_, rfl⟩
  | refreshingWithReaders n => exact .inl ⟨_, rfl⟩

lemma waitRead_move {s : Sys ι} {i : ι} (timed expired : Bool) (hi : s.standing i = .outside)
    (hb : s.writeQueue ≠ [] ∨ s.state = .writing) : Move s i (s.waitRead i timed expired) := by
  unfold waitRead
  split
  · exact .leaveRead hi
  · exact .waitRead timed hi hb

lemma readRound_move {s : Sys ι} {i : ι} (timed expired : Bool) (hi : s.standing i = .outside) :
    Move s i (s.readRound i timed expired) := by
  unfold readRound
  by_cases hq : s.writeQueue = []
  · rw [if_neg (by simp [hq])]
    rcases tryAcquireRead_cases s.state with ⟨state, ht⟩ | ⟨hs, ht⟩
    · rw [ht]
      exact .grantRead state hi hq ht
    · rw [ht]
      exact waitRead_move timed expired hi (.inr hs)
  · rw [if_pos hq]
    exact waitRead_move timed expired hi (.inl hq)

lemma tryRead_move {s : Sys ι} {i : ι} (hi : s.standing i = .outside) : Move s i (s.tryRead i) := by
  unfold tryRead
  by_cases hq : s.writeQueue = []
  · rw [if_neg (by simp [hq])]
    rcases tryAcquireRead_cases s.state with ⟨state, ht⟩ | ⟨_, ht⟩
    · rw [ht]
      exact .grantRead state hi hq ht
    · rw [ht]
      exact .stay
  · rw [if_pos hq]
    exact .stay

lemma waitWrite_move {s : Sys ι} {i : ι} {kind : WriteKind} {ticket : ℕ} (timed expired : Bool)
    (hi : s.standing i = .queued (ticket, kind))
    (hb : s.writeQueue.head?.map Prod.fst ≠ some ticket ∨ s.state ≠ .idle) :
    Move s i (s.waitWrite i kind timed ticket expired) := by
  unfold waitWrite
  split
  · exact .giveUp kind ticket hi
  · exact .waitWrite kind timed ticket hi hb

lemma writeRound_move {s : Sys ι} {i : ι} {kind : WriteKind} {ticket : ℕ} (timed expired : Bool)
    (hi : s.standing i = .queued (ticket, kind)) : Move s i (s.writeRound i kind timed ticket expired) := by
  unfold writeRound
  by_cases hf : s.writeQueue.head?.map Prod.fst = some ticket
  · rw [if_neg (by simp [hf])]
    have hidle : ∀ r, kind.tryFn s.state = r → (∀ state, r ≠ .ok state) → s.state ≠ .idle := by
      intro r hr hne hs
      obtain ⟨state, ht⟩ := (tryFn_idle_iff kind s.state).2 hs
      exact hne state (hr.symm.trans ht)
    rcases ht : kind.tryFn s.state with state | state | msg | msg
    · exact .grantQueued kind ticket state hi hf ht
    · exact waitWrite_move timed expired hi (.inr (hidle _ ht (by simp)))
    · exact waitWrite_move timed expired hi (.inr (hidle _ ht (by simp)))
    · exact absurd ht (tryFn_ne_invariantViolation kind s.state msg)
  · rw [if_pos hf]
    exact waitWrite_move timed expired hi (.inl hf)

lemma tryWrite_move {s : Sys ι} {i : ι} (kind : WriteKind) (hi : s.standing i = .outside) :
    Move s i (s.tryWrite i kind) := by
  unfold tryWrite
  by_cases hq : s.writeQueue = []
  · rw [if_neg (by simp [hq])]
    rcases ht : kind.tryFn s.state with state | state | msg | msg
    · exact .grantWrite kind state hi hq ht
    · exact .stay
    · exact .stay
    · exact absurd ht (tryFn_ne_invariantViolation kind s.state msg)
  · rw [if_pos hq]
    exact .stay

lemma releaseRead_move {s : Sys ι} {i : ι} (hi : s.standing i = .reader) : Move s i (s.releaseReadInternal i) := by
  unfold releaseReadInternal
  rcases ht : s.state.releaseRead with state | state | msg | msg
  · exact .releaseRead state hi ht
  · exact .panicRead _ hi (by simp [ht])
  · exact .panicRead _ hi (by simp [ht])
  · exact .panicRead _ hi (by simp [ht])

lemma releaseWrite_move {s : Sys ι} {i : ι} {kind : WriteKind} (hi : s.standing i = .writer kind) :
    Move s i (s.releaseWriteInternal i kind) := by
  unfold releaseWriteInternal
  rcases ht : kind.releaseFn s.state with state | state | msg | msg
  · exact .releaseWrite kind state hi ht
  · exact .panicWrite kind _ hi (by simp [ht])
  · exact .panicWrite kind _ hi (by simp [ht])
  · exact .panicWrite kind _ hi (by simp [ht])

lemma step_moves (s : Sys ι) (e : Event ι) :
    Move s e.caller (s.step e) ∨ ∃ i kind timed ticket expired, e = .enqueue i expired ∧
      s.calls i = .queueing kind timed ticket ∧ Move (s.pushBack i kind timed ticket) i (s.step e) := by
  cases e with
  | acquireRead i timed expired =>
    left
    simp only [step]
    split
    · rename_i hi
      exact readRound_move timed expired (standing_of_calls hi)
    · exact .stay
  | tryAcquireRead i =>
    left
    simp only [step]
    split
    · rename_i hi
      exact tryRead_move (standing_of_calls hi)
    · exact .stay
  | takeTicket i kind timed =>
    left
    simp only [step]
    split
    · rename_i hi
      exact .takeTicket kind timed (standing_of_calls hi)
    · exact .stay
  | enqueue i expired =>
    simp only [step]
    split
    · rename_i kind timed ticket hi
      right
      refine ⟨i, kind, timed, ticket, expired, rfl, hi, ?_⟩
      apply writeRound_move
      simp [pushBack, Phase.standing]
    · exact .inl .stay
  | tryAcquireWriteKind i kind =>
    left
    simp only [step]
    split
    · rename_i hi
      exact tryWrite_move kind (standing_of_calls hi)
    · exact .stay
  | resume i expired =>
    left
    simp only [step]
    split
    · rename_i timed hi
      exact readRound_move timed expired (standing_of_calls hi)
    · rename_i kind timed ticket hi
      exact writeRound_move timed expired (standing_of_calls hi)
    · exact .stay
  | timeOut i =>
    left
    simp only [step]
    split
    · rename_i hi
      exact .leaveRead (standing_of_calls hi)
    · rename_i kind ticket _ hi
      exact .giveUp kind ticket (standing_of_calls hi)
    · exact .stay
  | dropGuard i =>
    left
    simp only [step]
    split
    · rename_i hi
      exact releaseRead_move (standing_of_calls hi)
    · rename_i kind hi
      exact releaseWrite_move (standing_of_calls hi)
    · exact .stay

variable [Fintype ι]

omit [DecidableEq ι] in
lemma readers_eq (s : Sys ι) : s.readers = readersOf s.standing := by
  unfold readers readersOf standing
  congr 1
  apply Finset.filter_congr
  intro i _
  cases s.calls i <;> simp [Phase.standing]

def Lined (s : Sys ι) : Prop := InLine s.writeQueue s.arrivals s.nextTicket s.standing

structure Safe (s : Sys ι) (w : Option (ι × WriteKind)) : Prop where
  permitted : Permitted s.state s.standing w
  line : s.Lined
  sound : ∀ i, s.standing i ≠ .panicked

lemma Safe.update_sound {s : Sys ι} {w : Option (ι × WriteKind)} (h : s.Safe w) (i : ι) {a : Standing}
    (ha : a ≠ .panicked) (j : ι) : Function.update s.standing i a j ≠ .panicked := by
  by_cases hj : j = i
  · subst hj
    rwa [Function.update_self]
  · rw [Function.update_of_ne hj]
    exact h.sound j

omit [Fintype ι] in
lemma pushBack_standing (s : Sys ι) (i : ι) (kind : WriteKind) (timed : Bool) (ticket : ℕ) :
    (s.pushBack i kind timed ticket).standing = Function.update s.standing i (.queued (ticket, kind)) :=
  comp_update Phase.standing s.calls i (.writeWait kind timed ticket true)

omit [DecidableEq ι] in
lemma Lined.front {s : Sys ι} {i : ι} {kind : WriteKind} {ticket : ℕ} (h : s.Lined)
    (hi : s.standing i = .queued (ticket, kind)) (hf : s.writeQueue.head?.map Prod.fst = some ticket) :
    s.writeQueue.head? = some (ticket, kind) := by
  obtain ⟨e, he, ht⟩ := Option.map_eq_some_iff.1 hf
  have hmem : e ∈ s.writeQueue := List.mem_of_head? he
  rw [h.queue_eq, List.mem_filter, decide_eq_true_iff] at hmem
  obtain ⟨_, j, hj⟩ := hmem
  have hji : j = i := by
    apply h.ticket_inj j i ticket
    · rw [hj, ← ht]
      rfl
    · rw [hi]
      rfl
  rw [hji, hi] at hj
  injection hj with hee
  rw [he, hee]

lemma Move.line {s s' : Sys ι} {i : ι} (hm : Move s i s') (h : s.Lined) : s'.Lined := by
  unfold Lined at h ⊢
  cases hm with
  | stay => exact h
  | waitRead timed hi =>
    rw [setPhase_standing]
    exact h.move .outside rfl (by rw [hi]; rfl)
  | leaveRead hi =>
    rw [setPhase_standing]
    exact h.move .outside rfl (by rw [hi]; rfl)
  | waitWrite kind timed ticket hi =>
    have hsame : Function.update s.standing i (Phase.writeWait kind timed ticket false).standing = s.standing := by
      rw [Function.update_eq_self_iff]
      exact hi.symm
    rw [setPhase_standing, hsame]
    exact h
  | grantRead state hi hq ht =>
    rw [setPhase_standing]
    exact h.move .reader rfl (by rw [hi]; rfl)
  | takeTicket kind timed hi =>
    rw [setPhase_standing]
    exact h.takeTicket hi
  | pushBack kind timed ticket hi =>
    rw [pushBack_standing]
    exact h.pushBack (by simp [standing, hi, Phase.standing])
  | giveUp kind ticket hi =>
    rw [Sys.giveUp_standing]
    exact h.leave hi
  | grantQueued kind ticket state hi hf ht =>
    have hline := (h.leave hi).move (.writer kind) rfl
      (show (Function.update s.standing i .outside i).ticket = none by simp [Standing.ticket])
    rw [Function.update_idem] at hline
    rw [setPhase_standing]
    change InLine s.writeQueue.tail _ _ _
    rw [tail_eq_filter h.queue_nodup hf]
    exact hline
  | grantWrite kind state hi hq ht =>
    rw [setPhase_standing]
    exact h.move (.writer kind) rfl (by rw [hi]; rfl)
  | releaseRead state hi ht =>
    rw [notifyAll_standing, setPhase_standing]
    exact h.move .outside rfl (by rw [hi]; rfl)
  | releaseWrite kind state hi ht =>
    rw [notifyAll_standing, setPhase_standing]
    exact h.move .outside rfl (by rw [hi]; rfl)
  | panicRead msg hi ht =>
    rw [setPhase_standing]
    exact h.move .panicked rfl (by rw [hi]; rfl)
  | panicWrite kind msg hi ht =>
    rw [setPhase_standing]
    exact h.move .panicked rfl (by rw [hi]; rfl)

lemma Safe.pushBack {s : Sys ι} {w : Option (ι × WriteKind)} {i : ι} {kind : WriteKind} {timed : Bool} {ticket : ℕ}
    (h : s.Safe w) (hi : s.calls i = .queueing kind timed ticket) : (s.pushBack i kind timed ticket).Safe w := by
  have hst : s.standing i = .ticketed ticket := by simp [standing, hi, Phase.standing]
  refine ⟨?_, (Move.pushBack kind timed ticket hi).line h.line, ?_⟩
  · rw [pushBack_standing]
    exact h.permitted.move _ (by simp) (by simp [hst])
  · rw [pushBack_standing]
    exact h.update_sound i (by simp)

lemma Safe.move {s s' : Sys ι} {w : Option (ι × WriteKind)} {i : ι} (h : s.Safe w) (hm : Move s i s')
    (hb : s'.readers < 2 ^ 32) : ∃ w', s'.Safe w' := by
  have hline := hm.line h.line
  rw [readers_eq] at hb
  cases hm with
  | stay => exact ⟨w, h⟩
  | waitRead timed hi =>
    refine ⟨w, ?_, hline, ?_⟩
    · rw [setPhase_standing]
      exact h.permitted.move .outside (by simp) (by simp [hi])
    · rw [setPhase_standing]
      exact h.update_sound i (by simp [Phase.standing])
  | leaveRead hi =>
    refine ⟨w, ?_, hline, ?_⟩
    · rw [setPhase_standing]
      exact h.permitted.move .outside (by simp) (by simp [hi])
    · rw [setPhase_standing]
      exact h.update_sound i (by simp [Phase.standing])
  | waitWrite kind timed ticket hi =>
    refine ⟨w, ?_, hline, ?_⟩
    · rw [setPhase_standing]
      exact h.permitted.move (.queued (ticket, kind)) (by simp) (by simp [hi])
    · rw [setPhase_standing]
      exact h.update_sound i (by simp [Phase.standing])
  | grantRead state hi hq ht =>
    rw [setPhase_standing] at hb
    change readersOf (Function.update s.standing i .reader) < 2 ^ 32 at hb
    have hcount := readersOf_update s.standing i .reader
    rw [if_neg (by simp [hi]), if_pos rfl] at hcount
    refine ⟨w, ?_, hline, ?_⟩
    · rw [setPhase_standing]
      exact h.permitted.grantRead hi (by omega) ht
    · rw [setPhase_standing]
      exact h.update_sound i (by simp [Phase.standing])
  | takeTicket kind timed hi =>
    refine ⟨w, ?_, hline, ?_⟩
    · rw [setPhase_standing]
      exact h.permitted.move _ (by simp [Phase.standing]) (by simp [hi])
    · rw [setPhase_standing]
      exact h.update_sound i (by simp [Phase.standing])
  | pushBack kind timed ticket hi => exact ⟨w, h.pushBack hi⟩
  | giveUp kind ticket hi =>
    refine ⟨w, ?_, hline, ?_⟩
    · rw [Sys.giveUp_standing]
      exact h.permitted.move _ (by simp) (by simp [hi])
    · rw [Sys.giveUp_standing]
      exact h.update_sound i (by simp)
  | grantQueued kind ticket state hi hf ht =>
    -- the call leaves the queue, and is granted as one from outside
    have hout := h.permitted.move .outside (by simp) (show s.standing i ≠ _ ∧ _ by simp [hi])
    obtain ⟨_, hperm⟩ := hout.grantWrite (Function.update_self i _ _) ht
    rw [Function.update_idem] at hperm
    refine ⟨some (i, kind), ?_, hline, ?_⟩
    · rw [setPhase_standing]
      exact hperm
    · rw [setPhase_standing]
      exact h.update_sound i (by simp [Phase.standing])
  | grantWrite kind state hi hq ht =>
    obtain ⟨_, hperm⟩ := h.permitted.grantWrite hi ht
    refine ⟨some (i, kind), ?_, hline, ?_⟩
    · rw [setPhase_standing]
      exact hperm
    · rw [setPhase_standing]
      exact h.update_sound i (by simp [Phase.standing])
  | releaseRead state hi ht =>
    obtain ⟨state', ht', hperm⟩ := h.permitted.releaseRead hi
    rw [ht] at ht'
    injection ht' with hstate
    subst hstate
    refine ⟨w, ?_, hline, ?_⟩
    · rw [notifyAll_standing, setPhase_standing]
      exact hperm
    · rw [notifyAll_standing, setPhase_standing]
      exact h.update_sound i (by simp [Phase.standing])
  | releaseWrite kind state hi ht =>
    obtain ⟨state', ht', hperm⟩ := h.permitted.releaseWrite hi
    rw [ht] at ht'
    injection ht' with hstate
    subst hstate
    refine ⟨none, ?_, hline, ?_⟩
    · rw [notifyAll_standing, setPhase_standing]
      exact hperm
    · rw [notifyAll_standing, setPhase_standing]
      exact h.update_sound i (by simp [Phase.standing])
  | panicRead msg hi ht =>
    obtain ⟨state', ht', _⟩ := h.permitted.releaseRead hi
    exact absurd ht' (ht state')
  | panicWrite kind msg hi ht =>
    obtain ⟨state', ht', _⟩ := h.permitted.releaseWrite hi
    exact absurd ht' (ht state')

lemma Safe.step {s : Sys ι} {w : Option (ι × WriteKind)} (h : s.Safe w) (e : Event ι)
    (hb : (s.step e).readers < 2 ^ 32) : ∃ w', (s.step e).Safe w' := by
  rcases step_moves s e with hm | ⟨i, kind, timed, ticket, _, _, hi, hm⟩
  · exact h.move hm hb
  · exact (h.pushBack hi).move hm hb

omit [DecidableEq ι] in
lemma new_safe : (new : Sys ι).Safe none := by
  refine ⟨⟨?_, ?_, ?_⟩, ⟨?_, ?_, ?_, ?_, ?_, ?_⟩, ?_⟩ <;>
    simp [new, standing, Phase.standing, Standing.ticket, readersOf, permits]

/-- The live read guards never reach `2 ^ 32` along the run. -/
def Bounded (events : List (Event ι)) : Prop := ∀ n, (run Sys.step Sys.new (events.take n)).readers < 2 ^ 32

lemma Bounded.left {events : List (Event ι)} {e : Event ι} (hb : Bounded (events ++ [e])) : Bounded events := by
  intro n
  by_cases hn : n ≤ events.length
  · have := hb n
    rwa [List.take_append_of_le_length hn] at this
  · have := hb events.length
    rw [List.take_left'] at this
    · rwa [List.take_of_length_le (by omega)]
    · rfl

lemma Bounded.last {events : List (Event ι)}
    (hb : Bounded events) : (run Sys.step Sys.new events).readers < 2 ^ 32 := by
  have := hb events.length
  rwa [List.take_length] at this

lemma run_safe (events : List (Event ι)) (hb : Bounded events) : ∃ w, (run Sys.step Sys.new events).Safe w := by
  induction events using List.reverseRecOn with
  | nil => exact ⟨none, new_safe⟩
  | append_singleton events e ih =>
    obtain ⟨w, h⟩ := ih hb.left
    have hlast := hb.last
    rw [run_snoc] at hlast ⊢
    exact h.step e hlast

/-- The state is what the guards that are out call for, and the queue is the writers that wait. -/
structure Consistent (s : Sys ι) : Prop where
  readers_eq : s.state.readerCount = s.readers
  reading_pos : ∀ n, s.state = .reading n ∨ s.state = .refreshingWithReaders n → 0 < n
  writing_iff : s.state = .writing ↔ ∃! i, s.calls i = .writeGuard .write
  refreshing_iff : (s.state = .refreshing ∨ ∃ n, s.state = .refreshingWithReaders n) ↔
    ∃! i, s.calls i = .writeGuard .refresh
  idle_iff : s.state = .idle ↔ ∀ i, s.calls i ≠ .readGuard ∧ ∀ kind, s.calls i ≠ .writeGuard kind
  no_reader_beside_writer : ∀ i j, s.calls i = .readGuard → s.calls j ≠ .writeGuard .write
  one_writer : ∀ i j kind kind', s.calls i = .writeGuard kind →
    s.calls j = .writeGuard kind' → i = j ∧ kind = kind'
  queue_eq : s.writeQueue = s.arrivals.filter fun e => ∃ i, (s.calls i).standing = .queued e
  arrivals_nodup : (s.arrivals.map Prod.fst).Nodup
  no_panic : ∀ i msg, s.calls i ≠ .panicked msg

/-- Whom the next step may let in: a queued writer from the front, anyone else past an empty queue. -/
structure Orderly (s : Sys ι) (e : Event ι) : Prop where
  read : ∀ i, (s.step e).calls i = .readGuard → s.calls i ≠ .readGuard → s.writeQueue = []
  write : ∀ i kind, (s.step e).calls i = .writeGuard kind → s.calls i ≠ .writeGuard kind →
    (∃ ticket, (s.calls i).standing = .queued (ticket, kind) ∧ s.writeQueue.head? = some (ticket, kind)) ∨
    s.writeQueue = [] ∧ ((s.calls i).standing = .outside ∨ ∃ ticket, (s.calls i).standing = .ticketed ticket)

omit [DecidableEq ι] [Fintype ι] in
lemma standing_reader {s : Sys ι} {i : ι} : s.standing i = .reader ↔ s.calls i = .readGuard := by
  unfold standing
  cases s.calls i <;> simp [Phase.standing]

omit [DecidableEq ι] [Fintype ι] in
lemma standing_writer {s : Sys ι} {i : ι} {kind : WriteKind} :
    s.standing i = .writer kind ↔ s.calls i = .writeGuard kind := by
  unfold standing
  cases s.calls i <;> simp [Phase.standing]

omit [DecidableEq ι] [Fintype ι] in
lemma standing_panicked {s : Sys ι} {i : ι} : s.standing i = .panicked ↔ ∃ msg, s.calls i = .panicked msg := by
  unfold standing
  cases s.calls i <;> simp [Phase.standing]

lemma permits_writing {r : ℕ} {w : Option WriteKind} : permits r w = .writing ↔ w = some .write := by
  rcases w with _ | _ | _ <;> rcases r with _ | r <;> simp [permits]

lemma permits_refreshing {r : ℕ} {w : Option WriteKind} :
    (permits r w = .refreshing ∨ ∃ n, permits r w = .refreshingWithReaders n) ↔ w = some .refresh := by
  rcases w with _ | _ | _ <;> rcases r with _ | r <;> simp [permits]

lemma permits_idle {r : ℕ} {w : Option WriteKind} : permits r w = .idle ↔ r = 0 ∧ w = none := by
  rcases w with _ | _ | _ <;> rcases r with _ | r <;> simp [permits]

lemma permits_pos {r n : ℕ} {w : Option WriteKind}
    (h : permits r w = .reading n ∨ permits r w = .refreshingWithReaders n) : 0 < n := by
  rcases w with _ | _ | _ <;> rcases r with _ | r <;> simp [permits] at h <;> omega

omit [DecidableEq ι] in
lemma Safe.writer_unique {s : Sys ι} {w : Option (ι × WriteKind)} (h : s.Safe w) (kind : WriteKind) :
    w.map Prod.snd = some kind ↔ ∃! i, s.calls i = .writeGuard kind := by
  have hw : ∀ i, s.calls i = .writeGuard kind ↔ w = some (i, kind) := by
    intro i
    rw [← standing_writer]
    exact h.permitted.writer i kind
  constructor
  · intro hs
    obtain ⟨⟨i, k⟩, hi, hk⟩ := Option.map_eq_some_iff.1 hs
    have hkind : k = kind := hk
    subst hkind
    refine ⟨i, (hw i).2 hi, ?_⟩
    intro j hj
    have := (hw j).1 hj
    rw [hi] at this
    simpa using this.symm
  · rintro ⟨i, hi, _⟩
    rw [(hw i).1 hi]
    rfl

omit [DecidableEq ι] in
lemma Safe.consistent {s : Sys ι} {w : Option (ι × WriteKind)} (h : s.Safe w) : Consistent s := by
  have hstate := h.permitted.state_eq
  have hwriter : ∀ i k, s.calls i = .writeGuard k ↔ w = some (i, k) := by
    intro i k
    rw [← standing_writer]
    exact h.permitted.writer i k
  constructor
  · rw [hstate, readers_eq]
    exact readerCount_permits h.permitted.exclusive
  · intro n hn
    rw [hstate] at hn
    exact permits_pos hn
  · rw [hstate, permits_writing]
    exact h.writer_unique .write
  · rw [hstate, permits_refreshing]
    exact h.writer_unique .refresh
  · rw [hstate, permits_idle]
    constructor
    · rintro ⟨hr, hw⟩ i
      constructor
      · intro hi
        have := readersOf_pos (standing_reader.2 hi)
        omega
      · intro kind hi
        rw [(hwriter i kind).1 hi] at hw
        simp at hw
    · intro hnone
      constructor
      · unfold readersOf
        rw [Finset.card_eq_zero, Finset.filter_eq_empty_iff]
        intro i _ hi
        exact (hnone i).1 (standing_reader.1 hi)
      · cases hw : w with
        | none => rfl
        | some p => exact absurd ((hwriter p.1 p.2).2 hw) ((hnone p.1).2 p.2)
  · intro i j hi hj
    have hpos := readersOf_pos (standing_reader.2 hi)
    have := h.permitted.exclusive (by rw [(hwriter j .write).1 hj]; rfl)
    omega
  · intro i j kind kind' hi hj
    have hi' := (hwriter i kind).1 hi
    have hj' := (hwriter j kind').1 hj
    rw [hi'] at hj'
    simpa using hj'
  · exact h.line.queue_eq
  · exact h.line.arrivals_nodup
  · intro i msg hi
    exact h.sound i (standing_panicked.2 ⟨msg, hi⟩)

lemma Move.grants {s s' : Sys ι} {w : Option (ι × WriteKind)} {i : ι} (h : s.Safe w) (hm : Move s i s') :
    s'.standing = s.standing ∨ ∃ a, s'.standing = Function.update s.standing i a ∧
      (a = .reader → s.writeQueue = []) ∧ ∀ kind, a = .writer kind →
        (∃ ticket, s.standing i = .queued (ticket, kind) ∧ s.writeQueue.head? = some (ticket, kind)) ∨
        s.writeQueue = [] ∧ s.standing i = .outside := by
  cases hm with
  | stay => exact .inl rfl
  | waitRead timed hi =>
    right
    exact ⟨_, setPhase_standing _ _ _, by simp [Phase.standing], by simp [Phase.standing]⟩
  | leaveRead hi =>
    right
    exact ⟨_, setPhase_standing _ _ _, by simp [Phase.standing], by simp [Phase.standing]⟩
  | waitWrite kind timed ticket hi =>
    right
    exact ⟨_, setPhase_standing _ _ _, by simp [Phase.standing], by simp [Phase.standing]⟩
  | grantRead state hi hq ht =>
    right
    exact ⟨_, setPhase_standing _ _ _, fun _ => hq, by simp [Phase.standing]⟩
  | takeTicket kind timed hi =>
    right
    exact ⟨_, setPhase_standing _ _ _, by simp [Phase.standing], by simp [Phase.standing]⟩
  | pushBack kind timed ticket hi =>
    right
    exact ⟨_, pushBack_standing _ _ _ _ _, by simp, by simp⟩
  | giveUp kind ticket hi =>
    right
    exact ⟨.outside, Sys.giveUp_standing _ _ _, by simp, by simp⟩
  | grantQueued kind ticket state hi hf ht =>
    right
    refine ⟨_, setPhase_standing _ _ _, by simp [Phase.standing], ?_⟩
    intro kind' hk
    injection hk with hk
    subst hk
    exact .inl ⟨ticket, hi, Lined.front h.line hi hf⟩
  | grantWrite kind state hi hq ht =>
    right
    exact ⟨_, setPhase_standing _ _ _, by simp [Phase.standing], fun _ _ => .inr ⟨hq, hi⟩⟩
  | releaseRead state hi ht =>
    right
    refine ⟨.outside, ?_, by simp, by simp⟩
    rw [notifyAll_standing, setPhase_standing]
    rfl
  | releaseWrite kind state hi ht =>
    right
    refine ⟨.outside, ?_, by simp, by simp⟩
    rw [notifyAll_standing, setPhase_standing]
    rfl
  | panicRead msg hi ht =>
    right
    exact ⟨_, setPhase_standing _ _ _, by simp [Phase.standing], by simp [Phase.standing]⟩
  | panicWrite kind msg hi ht =>
    right
    exact ⟨_, setPhase_standing _ _ _, by simp [Phase.standing], by simp [Phase.standing]⟩

lemma Move.read {s s' : Sys ι} {w : Option (ι × WriteKind)} {i j : ι} (h : s.Safe w) (hm : Move s i s')
    (hj : s'.standing j = .reader) (hn : s.standing j ≠ .reader) : j = i ∧ s.writeQueue = [] := by
  rcases hm.grants h with hs | ⟨a, hs, hr, _⟩
  · rw [hs] at hj
    exact absurd hj hn
  · rw [hs] at hj
    by_cases hji : j = i
    · subst hji
      rw [Function.update_self] at hj
      exact ⟨rfl, hr hj⟩
    · rw [Function.update_of_ne hji] at hj
      exact absurd hj hn

lemma Move.write {s s' : Sys ι} {w : Option (ι × WriteKind)} {i j : ι} {kind : WriteKind} (h : s.Safe w)
    (hm : Move s i s') (hj : s'.standing j = .writer kind) (hn : s.standing j ≠ .writer kind) :
    j = i ∧ ((∃ ticket, s.standing i = .queued (ticket, kind) ∧ s.writeQueue.head? = some (ticket, kind)) ∨
      s.writeQueue = [] ∧ s.standing i = .outside) := by
  rcases hm.grants h with hs | ⟨a, hs, _, hw⟩
  · rw [hs] at hj
    exact absurd hj hn
  · rw [hs] at hj
    by_cases hji : j = i
    · subst hji
      rw [Function.update_self] at hj
      exact ⟨rfl, hw kind hj⟩
    · rw [Function.update_of_ne hji] at hj
      exact absurd hj hn

omit [Fintype ι] in
lemma pushBack_ne {s : Sys ι} {i j : ι} {kind : WriteKind} {timed : Bool} {ticket : ℕ} {a : Standing}
    (hj : s.standing j ≠ a) (ha : a.ticket = none) : (s.pushBack i kind timed ticket).standing j ≠ a := by
  rw [pushBack_standing]
  by_cases hji : j = i
  · subst hji
    rw [Function.update_self]
    rintro rfl
    simp [Standing.ticket] at ha
  · rwa [Function.update_of_ne hji]

omit [DecidableEq ι] in
lemma Safe.empty_of_front {s : Sys ι} {w : Option (ι × WriteKind)} {i : ι} {kind : WriteKind} {ticket : ℕ}
    (h : s.Safe w) (hi : s.standing i = .ticketed ticket)
    (hf : (s.writeQueue ++ [(ticket, kind)]).head? = some (ticket, kind)) : s.writeQueue = [] := by
  cases hqueue : s.writeQueue with
  | nil => rfl
  | cons e rest =>
    rw [hqueue] at hf
    have hee : e = (ticket, kind) := by simpa using hf
    have hmem : e ∈ s.writeQueue := by simp [hqueue]
    rw [h.line.queue_eq, List.mem_filter] at hmem
    exact absurd (by rw [hee]) (h.line.ticketed_new i ticket hi e hmem.1)

lemma Safe.orderly {s : Sys ι} {w : Option (ι × WriteKind)} (h : s.Safe w) (e : Event ι) : Orderly s e := by
  constructor
  · intro j hj hn
    rw [← standing_reader] at hj
    rw [Ne, ← standing_reader] at hn
    rcases step_moves s e with hm | ⟨i, kind, timed, ticket, expired, rfl, hi, hm⟩
    · exact (hm.read h hj hn).2
    · have hqueue : (s.pushBack i kind timed ticket).writeQueue = s.writeQueue ++ [(ticket, kind)] := rfl
      have hq := (hm.read (h.pushBack hi) hj (pushBack_ne hn rfl)).2
      rw [hqueue] at hq
      simp at hq
  · intro j kind hj hn
    rw [← standing_writer] at hj
    rw [Ne, ← standing_writer] at hn
    rcases step_moves s e with hm | ⟨i, kind', timed, ticket, expired, rfl, hi, hm⟩
    · obtain ⟨rfl, hfront | ⟨hq, hout⟩⟩ := hm.write h hj hn
      · exact .inl hfront
      · exact .inr ⟨hq, .inl hout⟩
    · have hst : s.standing i = .ticketed ticket := by simp [standing, hi, Phase.standing]
      have hqueue : (s.pushBack i kind' timed ticket).writeQueue = s.writeQueue ++ [(ticket, kind')] := rfl
      obtain ⟨rfl, ⟨t, hqi, hf⟩ | ⟨hq, _⟩⟩ := hm.write (h.pushBack hi) hj (pushBack_ne hn rfl)
      · rw [pushBack_standing, Function.update_self] at hqi
        injection hqi with hte
        rw [hqueue, ← hte] at hf
        exact .inr ⟨h.empty_of_front hst hf, .inr ⟨ticket, hst⟩⟩
      · rw [hqueue] at hq
        simp at hq

end Sys

open Sys in
/-- Over every run: the state is what the guards call for, the queue is the waiting writers in their
order, and the next step lets in nobody out of turn. -/
theorem coordinator_safe [Fintype ι] (events : List (Event ι)) (hb : Bounded events) :
    Consistent (run Sys.step Sys.new events) ∧ ∀ e, Orderly (run Sys.step Sys.new events) e := by
  obtain ⟨w, h⟩ := run_safe events hb
  exact ⟨h.consistent, h.orderly⟩

theorem coordinator_safe_sample :
    Sys.Consistent (run Sys.step Sys.new
      [.acquireRead (0 : Fin 2) false false, .takeTicket 1 .refresh true, .enqueue 1 false, .dropGuard 0]) :=
  (coordinator_safe _ (by
    intro n
    refine lt_of_le_of_lt (Finset.card_le_univ _) ?_
    simp)).1

end RepoGraph.DaemonPolicy
