import RepoGraph.Lib.Runs

/-! Index requests, `forget_repo` and `run_gc` on one database path: the coordination slot, its lock,
the registry entry and the store. -/

namespace RepoGraph.DaemonRuntime

open Lib

inductive Request
  | index
  | forget (keepDb : Bool)
  | gc
  deriving DecidableEq, Repr

/-- Where a request stands. From `locked` on it holds the lock of its slot. -/
inductive RequestPhase
  | idle
  | begun (request : Request)
  | missed (request : Request)
  | fetched (request : Request) (slot : ℕ)
  | locked (request : Request) (slot : ℕ)
  | indexing (slot repoUid : ℕ)
  | unregistered (keepDb : Bool) (slot : ℕ)
  | deleted (slot : ℕ)
  | rechecked (slot : ℕ)
  | finished (slot : ℕ)
  deriving DecidableEq, Repr

def RequestPhase.holds : RequestPhase → Option ℕ
  | locked _ slot | indexing slot _ | unregistered _ slot | deleted slot | rechecked slot | finished slot =>
    some slot
  | idle | begun _ | missed _ | fetched _ _ => none

def RequestPhase.writeSection : RequestPhase → Option ℕ
  | locked _ slot | indexing slot _ | unregistered _ slot | deleted slot | rechecked slot => some slot
  | idle | begun _ | missed _ | fetched _ _ | finished _ => none

/-- `slot` is the entry of `db_runtimes` for the path, `registry` the uid registered for the
repository, and `store` the uid whose facts the store holds. -/
structure Coordination (ι : Type) where
  slot : Option ℕ
  nextSlot : ℕ
  lock : ℕ → Option ι
  registry : Option ℕ
  nextUid : ℕ
  store : Option ℕ
  requests : ι → RequestPhase

/-- The flags tell which fallible calls of the step succeed. -/
inductive RequestEvent (ι : Type)
  | startIndex (i : ι) (registered saved : Bool)
  | startForget (i : ι) (keepDb : Bool)
  | startGc (i : ι)
  | lookupSlot (i : ι)
  | createSlot (i : ι)
  | acquireWrite (i : ι)
  | tryAcquireWrite (i : ι) (coordinatorFree : Bool)
  | reconfirm (i : ι) (registered saved : Bool)
  | finishIndex (i : ι)
  | removeEntry (i : ι)
  | unlink (i : ι)
  | dropSlot (i : ι) (named : Bool)
  | recheck (i : ι)
  | release (i : ι)
  deriving DecidableEq, Repr

namespace Coordination

variable {ι : Type} [DecidableEq ι]

def new : Coordination ι :=
  { slot := none, nextSlot := 0, lock := fun _ => none, registry := none, nextUid := 0, store := none
    requests := fun _ => .idle }

def setPhase (s : Coordination ι) (i : ι) (p : RequestPhase) : Coordination ι :=
  { s with requests := Function.update s.requests i p }

/-- `Registry::register`: an entry that is there stays, else one with a fresh uid is made. -/
def register (s : Coordination ι) : Coordination ι :=
  match s.registry with
  | some _ => s
  | none => { s with registry := some s.nextUid, nextUid := s.nextUid + 1 }

def takeLock (s : Coordination ι) (i : ι) (slot : ℕ) : Coordination ι :=
  { s with lock := Function.update s.lock slot (some i) }

def step (s : Coordination ι) : RequestEvent ι → Coordination ι
  | .startIndex i registered saved =>
    match s.requests i with
    | .idle => if !registered then s else if !saved then s.register else s.register.setPhase i (.begun .index)
    | _ => s
  | .startForget i keepDb =>
    match s.requests i, s.registry with
    | .idle, some _ => s.setPhase i (.begun (.forget keepDb))
    | _, _ => s
  | .startGc i =>
    match s.requests i, s.registry with
    | .idle, none => s.setPhase i (.begun .gc)
    | _, _ => s
  | .lookupSlot i =>
    match s.requests i with
    | .begun request =>
      match s.slot with
      | some slot => s.setPhase i (.fetched request slot)
      | none => s.setPhase i (.missed request)
    | _ => s
  | .createSlot i =>
    match s.requests i with
    | .missed request =>
      match s.slot with
      | some slot => s.setPhase i (.fetched request slot)
      | none =>
        { s with slot := some s.nextSlot, nextSlot := s.nextSlot + 1 }.setPhase i (.fetched request s.nextSlot)
    | _ => s
  | .acquireWrite i =>
    match s.requests i with
    | .fetched .index slot =>
      if s.lock slot = none then (s.takeLock i slot).setPhase i (.locked .index slot) else s
    | _ => s
  | .tryAcquireWrite i coordinatorFree =>
    match s.requests i with
    | .fetched (.forget keepDb) slot =>
      if s.lock slot = none ∧ coordinatorFree then (s.takeLock i slot).setPhase i (.locked (.forget keepDb) slot)
      else s.setPhase i .idle
    | .fetched .gc slot =>
      if s.lock slot = none then (s.takeLock i slot).setPhase i (.locked .gc slot) else s.setPhase i .idle
    | _ => s
  | .reconfirm i registered saved =>
    match s.requests i with
    | .locked .index slot =>
      if !registered then s.setPhase i (.finished slot)
      else if !saved then s.register.setPhase i (.finished slot)
      else { s.register with store := s.register.registry }.setPhase i
        (.indexing slot (s.register.registry.getD 0))
    | _ => s
  | .finishIndex i =>
    match s.requests i with
    | .indexing slot _ => s.setPhase i (.finished slot)
    | _ => s
  | .removeEntry i =>
    match s.requests i with
    | .locked (.forget keepDb) slot => { s with registry := none }.setPhase i (.unregistered keepDb slot)
    | _ => s
  | .unlink i =>
    match s.requests i with
    | .unregistered keepDb slot =>
      { s with store := if keepDb then s.store else none }.setPhase i (.deleted slot)
    | .rechecked slot => { s with store := none }.setPhase i (.finished slot)
    | _ => s
  | .dropSlot i named =>
    match s.requests i with
    | .deleted slot => { s with slot := if named then none else s.slot }.setPhase i (.finished slot)
    | _ => s
  | .recheck i =>
    match s.requests i with
    | .locked .gc slot => s.setPhase i (if s.registry = none then .rechecked slot else .finished slot)
    | _ => s
  | .release i =>
    match s.requests i with
    | .finished slot => { s with lock := Function.update s.lock slot none }.setPhase i .idle
    | _ => s

/-- At most one request is inside its write section, and an index that writes is registered and
keeps its store. -/
structure Exclusive (s : Coordination ι) : Prop where
  one_writer : ∀ i j, (s.requests i).writeSection.isSome → (s.requests j).writeSection.isSome → i = j
  registered : ∀ i slot uid, s.requests i = .indexing slot uid → s.registry = some uid
  no_unlink : ∀ i slot uid, s.requests i = .indexing slot uid → s.store = some uid ∧
    ∀ j, (s.step (.unlink j)).store = s.store

/-- A free lock is taken of a slot that the map does not hold any more. -/
def takesRetired (s : Coordination ι) : RequestEvent ι → Bool
  | .acquireWrite i | .tryAcquireWrite i _ =>
    match s.requests i with
    | .fetched _ slot => (s.lock slot).isNone && s.slot ≠ some slot
    | _ => false
  | _ => false

/-- A lock belongs to the request that holds it, and a write section to the slot of the map. -/
structure Guarded (s : Coordination ι) : Prop where
  held : ∀ i slot, (s.requests i).holds = some slot → s.lock slot = some i
  live : ∀ i slot, (s.requests i).writeSection = some slot → s.slot = some slot
  writing : ∀ i slot uid, s.requests i = .indexing slot uid → s.registry = some uid ∧ s.store = some uid

omit [DecidableEq ι] in
lemma new_guarded : (new : Coordination ι).Guarded := by
  constructor <;> simp [new, RequestPhase.holds, RequestPhase.writeSection]

lemma RequestPhase.holds_of_writeSection {p : RequestPhase} {slot : ℕ} (h : p.writeSection = some slot) :
    p.holds = some slot := by
  cases p <;> simp_all [RequestPhase.holds, RequestPhase.writeSection]

omit [DecidableEq ι] in
lemma Guarded.one_writer {s : Coordination ι} (h : s.Guarded) {i j : ι} {slot slot' : ℕ}
    (hi : (s.requests i).writeSection = some slot) (hj : (s.requests j).writeSection = some slot') : i = j := by
  have hslot : slot' = slot := by
    have := (h.live j slot' hj).symm.trans (h.live i slot hi)
    injection this
  subst hslot
  have hlock := (h.held i slot' (RequestPhase.holds_of_writeSection hi)).symm.trans
    (h.held j slot' (RequestPhase.holds_of_writeSection hj))
  injection hlock

lemma Guarded.move {s s' : Coordination ι} {i : ι} {p : RequestPhase} (h : s.Guarded)
    (hs : s'.requests = Function.update s.requests i p)
    (hheld : ∀ slot, p.holds = some slot → s'.lock slot = some i)
    (hlive : ∀ slot, p.writeSection = some slot → s'.slot = some slot)
    (hwriting : ∀ slot uid, p = .indexing slot uid → s'.registry = some uid ∧ s'.store = some uid)
    (hlock : ∀ j slot, j ≠ i → (s.requests j).holds = some slot → s'.lock slot = s.lock slot)
    (hslot : ∀ j slot, j ≠ i → (s.requests j).writeSection = some slot → s'.slot = s.slot)
    (hkept : ∀ j slot uid, j ≠ i → s.requests j = .indexing slot uid →
      s'.registry = s.registry ∧ s'.store = s.store) :
    s'.Guarded := by
  constructor
  · intro j slot hj
    rw [hs] at hj
    by_cases hji : j = i
    · subst hji
      rw [Function.update_self] at hj
      exact hheld slot hj
    · rw [Function.update_of_ne hji] at hj
      rw [hlock j slot hji hj]
      exact h.held j slot hj
  · intro j slot hj
    rw [hs] at hj
    by_cases hji : j = i
    · subst hji
      rw [Function.update_self] at hj
      exact hlive slot hj
    · rw [Function.update_of_ne hji] at hj
      rw [hslot j slot hji hj]
      exact h.live j slot hj
  · intro j slot uid hj
    rw [hs] at hj
    by_cases hji : j = i
    · subst hji
      rw [Function.update_self] at hj
      exact hwriting slot uid hj
    · rw [Function.update_of_ne hji] at hj
      obtain ⟨hr, hst⟩ := hkept j slot uid hji hj
      rw [hr, hst]
      exact h.writing j slot uid hj

lemma Guarded.setPhase {s : Coordination ι} {i : ι} {p : RequestPhase} (h : s.Guarded)
    (hheld : ∀ slot, p.holds = some slot → (s.requests i).holds = some slot)
    (hlive : ∀ slot, p.writeSection = some slot → (s.requests i).writeSection = some slot)
    (hwriting : ∀ slot uid, p ≠ .indexing slot uid) : (s.setPhase i p).Guarded := by
  apply h.move rfl
  · exact fun slot hp => h.held i slot (hheld slot hp)
  · exact fun slot hp => h.live i slot (hlive slot hp)
  · exact fun slot uid hp => absurd hp (hwriting slot uid)
  · exact fun _ _ _ _ => rfl
  · exact fun _ _ _ _ => rfl
  · exact fun _ _ _ _ _ => ⟨rfl, rfl⟩

omit [DecidableEq ι] in
lemma register_requests (s : Coordination ι) : s.register.requests = s.requests := by
  unfold register
  split <;> rfl

omit [DecidableEq ι] in
lemma register_lock (s : Coordination ι) : s.register.lock = s.lock := by
  unfold register
  split <;> rfl

omit [DecidableEq ι] in
lemma register_slot (s : Coordination ι) : s.register.slot = s.slot := by
  unfold register
  split <;> rfl

omit [DecidableEq ι] in
lemma register_store (s : Coordination ι) : s.register.store = s.store := by
  unfold register
  split <;> rfl

omit [DecidableEq ι] in
lemma register_registry (s : Coordination ι) : ∃ uid, s.register.registry = some uid ∧
    ∀ uid', s.registry = some uid' → uid = uid' := by
  unfold register
  split
  · rename_i uid h
    exact ⟨uid, h, fun uid' h' => by simpa [h] using h'⟩
  · rename_i h
    exact ⟨s.nextUid, rfl, fun uid' h' => by simp [h] at h'⟩

omit [DecidableEq ι] in
lemma Guarded.register {s : Coordination ι} (h : s.Guarded) : s.register.Guarded := by
  obtain ⟨uid, hreg, hsame⟩ := register_registry s
  constructor
  · rw [register_requests, register_lock]
    exact h.held
  · rw [register_requests, register_slot]
    exact h.live
  · intro i slot uid' hi
    rw [register_requests] at hi
    obtain ⟨hr, hst⟩ := h.writing i slot uid' hi
    rw [hreg, hsame uid' hr, register_store, hst]
    exact ⟨rfl, rfl⟩

lemma Guarded.takeLock {s : Coordination ι} {i : ι} {request : Request} {slot : ℕ} (h : s.Guarded)
    (hlock : s.lock slot = none) (hslot : s.slot = some slot) :
    ((s.takeLock i slot).setPhase i (.locked request slot)).Guarded := by
  apply h.move rfl
  · intro slot' hp
    injection hp with hp
    subst hp
    exact Function.update_self _ _ _
  · intro slot' hp
    injection hp with hp
    subst hp
    exact hslot
  · simp
  · intro j slot' _ hj
    have hne : slot' ≠ slot := by
      rintro rfl
      rw [h.held j slot' hj] at hlock
      cases hlock
    exact Function.update_of_ne hne _ _
  · exact fun _ _ _ _ => rfl
  · exact fun _ _ _ _ _ => ⟨rfl, rfl⟩

omit [DecidableEq ι] in
lemma Guarded.alone {s : Coordination ι} {i j : ι} {slot slot' uid : ℕ} (h : s.Guarded)
    (hi : (s.requests i).writeSection = some slot) (hji : j ≠ i) : s.requests j ≠ .indexing slot' uid := by
  intro hj
  apply hji
  exact h.one_writer (by rw [hj]; rfl) hi

lemma Guarded.reconfirm {s : Coordination ι} {i : ι} {slot : ℕ} (h : s.Guarded)
    (hi : s.requests i = .locked .index slot) :
    ({ s.register with store := s.register.registry }.setPhase i
      (.indexing slot (s.register.registry.getD 0))).Guarded := by
  have hreg := h.register
  obtain ⟨uid, hr, _⟩ := register_registry s
  have hi' : s.register.requests i = .locked .index slot := by rw [register_requests, hi]
  have hsection : (s.register.requests i).writeSection = some slot := by rw [hi']; rfl
  apply hreg.move rfl
  · intro slot' hp
    injection hp with hp
    subst hp
    exact hreg.held i _ (by rw [hi']; rfl)
  · intro slot' hp
    injection hp with hp
    subst hp
    exact hreg.live i _ hsection
  · intro slot' uid' hp
    injection hp with _ hp
    rw [hr] at hp
    subst hp
    exact ⟨hr, hr⟩
  · exact fun _ _ _ _ => rfl
  · exact fun _ _ _ _ => rfl
  · exact fun j slot' uid' hji hj => absurd hj (hreg.alone hsection hji)

lemma Guarded.removeEntry {s : Coordination ι} {i : ι} {keepDb : Bool} {slot : ℕ} (h : s.Guarded)
    (hi : s.requests i = .locked (.forget keepDb) slot) :
    ({ s with registry := none }.setPhase i (.unregistered keepDb slot)).Guarded := by
  have hsection : (s.requests i).writeSection = some slot := by rw [hi]; rfl
  apply h.move rfl
  · intro slot' hp
    injection hp with hp
    subst hp
    exact h.held i _ (by rw [hi]; rfl)
  · intro slot' hp
    injection hp with hp
    subst hp
    exact h.live i _ hsection
  · simp
  · exact fun _ _ _ _ => rfl
  · exact fun _ _ _ _ => rfl
  · exact fun j slot' uid' hji hj => absurd hj (h.alone hsection hji)

lemma Guarded.unlink {s : Coordination ι} {i : ι} {slot : ℕ} {p : RequestPhase} (h : s.Guarded) (store : Option ℕ)
    (hi : (s.requests i).writeSection = some slot) (hp : p = .deleted slot ∨ p = .finished slot) :
    ({ s with store := store }.setPhase i p).Guarded := by
  have hholds := h.held i slot (RequestPhase.holds_of_writeSection hi)
  apply h.move rfl
  · intro slot' hp'
    rcases hp with rfl | rfl <;> injection hp' with hp' <;> subst hp' <;> exact hholds
  · intro slot' hp'
    rcases hp with rfl | rfl
    · injection hp' with hp'
      subst hp'
      exact h.live i _ hi
    · cases hp'
  · rcases hp with rfl | rfl <;> simp
  · exact fun _ _ _ _ => rfl
  · exact fun _ _ _ _ => rfl
  · exact fun j slot' uid' hji hj => absurd hj (h.alone hi hji)

lemma Guarded.dropSlot {s : Coordination ι} {i : ι} {slot : ℕ} (h : s.Guarded) (slot' : Option ℕ)
    (hi : s.requests i = .deleted slot) : ({ s with slot := slot' }.setPhase i (.finished slot)).Guarded := by
  have hsection : (s.requests i).writeSection = some slot := by rw [hi]; rfl
  apply h.move rfl
  · intro slot'' hp
    injection hp with hp
    subst hp
    exact h.held i _ (RequestPhase.holds_of_writeSection hsection)
  · intro slot'' hp
    cases hp
  · simp
  · exact fun _ _ _ _ => rfl
  · exact fun j slot'' hji hj => absurd (h.one_writer hj hsection) hji
  · exact fun _ _ _ _ _ => ⟨rfl, rfl⟩

lemma Guarded.createSlot {s : Coordination ι} {i : ι} {request : Request} (h : s.Guarded) (hs : s.slot = none) :
    ({ s with slot := some s.nextSlot, nextSlot := s.nextSlot + 1 }.setPhase i
      (.fetched request s.nextSlot)).Guarded := by
  apply h.move rfl
  · intro slot hp
    cases hp
  · intro slot hp
    cases hp
  · simp
  · exact fun _ _ _ _ => rfl
  · intro j slot _ hj
    have := h.live j slot hj
    rw [hs] at this
    cases this
  · exact fun _ _ _ _ _ => ⟨rfl, rfl⟩

lemma Guarded.release {s : Coordination ι} {i : ι} {slot : ℕ} (h : s.Guarded)
    (hi : s.requests i = .finished slot) :
    ({ s with lock := Function.update s.lock slot none }.setPhase i .idle).Guarded := by
  apply h.move rfl
  · intro slot' hp
    cases hp
  · intro slot' hp
    cases hp
  · simp
  · intro j slot' hji hj
    have hne : slot' ≠ slot := by
      rintro rfl
      have := (h.held j _ hj).symm.trans (h.held i slot' (by rw [hi]; rfl))
      injection this with hji'
      exact hji hji'
    exact Function.update_of_ne hne _ _
  · exact fun _ _ _ _ => rfl
  · exact fun _ _ _ _ _ => ⟨rfl, rfl⟩

omit [DecidableEq ι] in
lemma slot_of_not_takesRetired {s : Coordination ι} {i : ι} {request : Request} {slot : ℕ} {e : RequestEvent ι}
    (ht : s.takesRetired e = false)
    (he : e = .acquireWrite i ∨ ∃ coordinatorFree, e = .tryAcquireWrite i coordinatorFree)
    (hi : s.requests i = .fetched request slot) (hlock : s.lock slot = none) : s.slot = some slot := by
  rcases he with rfl | ⟨coordinatorFree, rfl⟩ <;> simpa [takesRetired, hi, hlock] using ht

lemma Guarded.step {s : Coordination ι} (h : s.Guarded) (e : RequestEvent ι) (ht : s.takesRetired e = false) :
    (s.step e).Guarded := by
  cases e with
  | startIndex i registered saved =>
    simp only [Coordination.step]
    split
    · rename_i hi
      split
      · exact h
      · split
        · exact h.register
        · exact h.register.setPhase (by simp [RequestPhase.holds]) (by simp [RequestPhase.writeSection]) (by simp)
    · exact h
  | startForget i keepDb =>
    simp only [Coordination.step]
    split
    · exact h.setPhase (by simp [RequestPhase.holds]) (by simp [RequestPhase.writeSection]) (by simp)
    · exact h
  | startGc i =>
    simp only [Coordination.step]
    split
    · exact h.setPhase (by simp [RequestPhase.holds]) (by simp [RequestPhase.writeSection]) (by simp)
    · exact h
  | lookupSlot i =>
    simp only [Coordination.step]
    split
    · split
      · exact h.setPhase (by simp [RequestPhase.holds]) (by simp [RequestPhase.writeSection]) (by simp)
      · exact h.setPhase (by simp [RequestPhase.holds]) (by simp [RequestPhase.writeSection]) (by simp)
    · exact h
  | createSlot i =>
    simp only [Coordination.step]
    split
    · split
      · exact h.setPhase (by simp [RequestPhase.holds]) (by simp [RequestPhase.writeSection]) (by simp)
      · rename_i hs
        exact h.createSlot hs
    · exact h
  | acquireWrite i =>
    simp only [Coordination.step]
    split
    · rename_i slot hi
      split
      · rename_i hlock
        exact h.takeLock hlock (slot_of_not_takesRetired ht (.inl rfl) hi hlock)
      · exact h
    · exact h
  | tryAcquireWrite i coordinatorFree =>
    simp only [Coordination.step]
    split
    · rename_i keepDb slot hi
      split
      · rename_i hfree
        exact h.takeLock hfree.1 (slot_of_not_takesRetired ht (.inr ⟨_, rfl⟩) hi hfree.1)
      · exact h.setPhase (by simp [RequestPhase.holds]) (by simp [RequestPhase.writeSection]) (by simp)
    · rename_i slot hi
      split
      · rename_i hlock
        exact h.takeLock hlock (slot_of_not_takesRetired ht (.inr ⟨_, rfl⟩) hi hlock)
      · exact h.setPhase (by simp [RequestPhase.holds]) (by simp [RequestPhase.writeSection]) (by simp)
    · exact h
  | reconfirm i registered saved =>
    simp only [Coordination.step]
    split
    · rename_i slot hi
      split
      · exact h.setPhase (by simp [hi, RequestPhase.holds]) (by simp [RequestPhase.writeSection]) (by simp)
      · split
        · apply h.register.setPhase
          · simp [register_requests, hi, RequestPhase.holds]
          · simp [RequestPhase.writeSection]
          · simp
        · exact h.reconfirm hi
    · exact h
  | finishIndex i =>
    simp only [Coordination.step]
    split
    · rename_i slot uid hi
      exact h.setPhase (by simp [hi, RequestPhase.holds]) (by simp [RequestPhase.writeSection]) (by simp)
    · exact h
  | removeEntry i =>
    simp only [Coordination.step]
    split
    · rename_i keepDb slot hi
      exact h.removeEntry hi
    · exact h
  | unlink i =>
    simp only [Coordination.step]
    split
    · rename_i keepDb slot hi
      exact h.unlink _ (by rw [hi]; rfl) (.inl rfl)
    · rename_i slot hi
      exact h.unlink _ (by rw [hi]; rfl) (.inr rfl)
    · exact h
  | dropSlot i named =>
    simp only [Coordination.step]
    split
    · rename_i slot hi
      exact h.dropSlot _ hi
    · exact h
  | recheck i =>
    simp only [Coordination.step]
    split
    · rename_i slot hi
      split
      · exact h.setPhase (by simp [hi, RequestPhase.holds]) (by simp [hi, RequestPhase.writeSection]) (by simp)
      · exact h.setPhase (by simp [hi, RequestPhase.holds]) (by simp [RequestPhase.writeSection]) (by simp)
    · exact h
  | release i =>
    simp only [Coordination.step]
    split
    · rename_i slot hi
      exact h.release hi
    · exact h

lemma step_unlink_store {s : Coordination ι} {j : ι} (h : (s.requests j).writeSection = none) :
    (s.step (.unlink j)).store = s.store := by
  simp only [Coordination.step]
  split
  · rename_i hj
    simp [hj, RequestPhase.writeSection] at h
  · rename_i hj
    simp [hj, RequestPhase.writeSection] at h
  · rfl

lemma Guarded.exclusive {s : Coordination ι} (h : s.Guarded) : s.Exclusive := by
  constructor
  · intro i j hi hj
    obtain ⟨slot, hi⟩ := Option.isSome_iff_exists.1 hi
    obtain ⟨slot', hj⟩ := Option.isSome_iff_exists.1 hj
    exact h.one_writer hi hj
  · intro i slot uid hi
    exact (h.writing i slot uid hi).1
  · intro i slot uid hi
    refine ⟨(h.writing i slot uid hi).2, fun j => ?_⟩
    by_cases hji : j = i
    · subst hji
      simp [Coordination.step, hi]
    · apply step_unlink_store
      by_contra hne
      obtain ⟨slot', hj⟩ := Option.ne_none_iff_exists'.1 hne
      exact hji (h.one_writer hj (by rw [hi]; rfl))

def TakesLive (events : List (RequestEvent ι)) : Prop :=
  ∀ pre e, pre ++ [e] <+: events → (run Coordination.step Coordination.new pre).takesRetired e = false

lemma run_guarded (events : List (RequestEvent ι)) (ht : TakesLive events) :
    (run Coordination.step Coordination.new events).Guarded := by
  induction events using List.reverseRecOn with
  | nil => exact new_guarded
  | append_singleton events e ih =>
    rw [run_snoc]
    exact (ih fun pre e' h => ht pre e' (h.trans (List.prefix_append _ _))).step e (ht events e List.prefix_rfl)

end Coordination

/-- In a run that takes the locks of live slots only, one request at most is inside its write
section, and an index that writes is registered and keeps its store. -/
theorem write_exclusion {ι : Type} [DecidableEq ι] (events : List (RequestEvent ι))
    (ht : Coordination.TakesLive events) : (run Coordination.step Coordination.new events).Exclusive :=
  (Coordination.run_guarded events ht).exclusive

inductive Requester
  | index
  | forget
  deriving DecidableEq

/-- An index writes while a forget is refused. -/
def indexThenForget : List (RequestEvent Requester) :=
  [.startIndex .index true true, .lookupSlot .index, .createSlot .index, .startForget .forget false,
    .acquireWrite .index, .lookupSlot .forget, .reconfirm .index true true, .tryAcquireWrite .forget true]

theorem write_exclusion_indexThenForget :
    (run Coordination.step Coordination.new indexThenForget).Exclusive :=
  write_exclusion indexThenForget (by
    rw [Coordination.TakesLive, forall_prefix_snoc
      (fun pre e => (run Coordination.step Coordination.new pre).takesRetired e = false)]
    decide)

/-- An index has fetched the slot that a forget drops; it takes the retired lock and writes, and a
second forget on a new slot removes its entry and its store. -/
def indexPastForget : List (RequestEvent Requester) :=
  [.startIndex .index true true, .lookupSlot .index, .createSlot .index, .startForget .forget false,
    .lookupSlot .forget, .tryAcquireWrite .forget true, .removeEntry .forget,
      .unlink .forget, .dropSlot .forget true,
    .release .forget, .acquireWrite .index, .reconfirm .index true true, .startForget .forget false,
    .lookupSlot .forget, .createSlot .forget, .tryAcquireWrite .forget true, .removeEntry .forget, .unlink .forget]

theorem write_not_excluded :
    ¬∀ events : List (RequestEvent Requester), (run Coordination.step Coordination.new events).Exclusive := by
  intro h
  have hone := (h indexPastForget).one_writer .index .forget (by decide) (by decide)
  exact absurd hone (by decide)

end RepoGraph.DaemonRuntime
