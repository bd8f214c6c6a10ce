import RepoGraph.Lib.Runs

/-! Seeding passes of the daemon: the generations of a repository, the one run slot, the cancel flags of the
running passes and the latch of the self-heal. What a pass reads, builds and writes is carried by the events. -/

namespace RepoGraph.DaemonRuntime

open Lib

def seedRequeueMaxAttempts : ℕ := 60

inductive SeedAttempt
  | ran
  | yielded
  | superseded
  | skipped (reason : String)
  deriving DecidableEq, Repr

/-- Where a seeding thread stands. Its guards go in the order `deregistering`, `releasing`. -/
inductive SeedStage
  | bumped
  | scheduled
  | queued
  | admitted
  | slotted
  | loaded
  | registered
  | embedding
  | built
  | writeLocked
  | confirmed
  | deregistering
  | releasing
  | settling
  | unlatching
  | ended
  deriving DecidableEq, Repr

namespace SeedStage

def holdsSlot : SeedStage → Bool
  | slotted | loaded | registered | embedding | built | writeLocked | confirmed | deregistering | releasing => true
  | bumped | scheduled | queued | admitted | settling | unlatching | ended => false

def holdsFlag : SeedStage → Bool
  | registered | embedding | built | writeLocked | confirmed | deregistering => true
  | bumped | scheduled | queued | admitted | slotted | loaded | releasing | settling | unlatching | ended => false

def rechecked : SeedStage → Bool
  | loaded | registered | embedding | built | writeLocked | confirmed => true
  | bumped | scheduled | queued | admitted | slotted | deregistering | releasing | settling
    | unlatching | ended => false

def embeds : SeedStage → Bool
  | embedding | built | writeLocked | confirmed => true
  | bumped | scheduled | queued | admitted | slotted | loaded | registered | deregistering | releasing | settling
  | unlatching | ended => false

def allows (a b : SeedStage) : Bool :=
  a != bumped && a != ended && b != unlatching && b != ended && (!b.holdsSlot || a.holdsSlot) &&
    (!b.holdsFlag || a.holdsFlag) &&
    (!b.rechecked || a.rechecked) && (!b.embeds || a.embeds)

lemma holdsSlot_of_holdsFlag {a : SeedStage} (h : a.holdsFlag = true) : a.holdsSlot = true := by
  cases a <;> first | rfl | exact absurd h Bool.false_ne_true

lemma holdsFlag_of_embeds {a : SeedStage} (h : a.embeds = true) : a.holdsFlag = true := by
  cases a <;> first | rfl | exact absurd h Bool.false_ne_true

lemma holdsSlot_of_rechecked {a : SeedStage} (h : a.rechecked = true) : a.holdsSlot = true := by
  cases a <;> first | rfl | exact absurd h Bool.false_ne_true

end SeedStage

/-- `heal` tells a re-seed that a read scheduled from the pass of a write, `attempts` counts the attempts that are
left, and `retention` whether the thread chained the retention pass. -/
structure SeedThread (ρ : Type) where
  repo : ρ
  heal : Bool
  generation : ℕ
  attempts : ℕ
  stage : SeedStage
  outcome : Option SeedAttempt
  retention : Bool
  deriving DecidableEq, Repr

namespace SeedThread

variable {ρ : Type} (t : SeedThread ρ)

def reach (stage : SeedStage) : SeedThread ρ := { t with stage }

def leave (stage : SeedStage) (outcome : SeedAttempt) : SeedThread ρ := { t with stage, outcome := some outcome }

def finish (retention : Bool) : SeedThread ρ :=
  { t with stage := if t.heal then .unlatching else .ended, retention }

def settle : SeedThread ρ :=
  match t.outcome with
  | some .yielded => { t with stage := .queued, attempts := t.attempts - 1 }
  | some .superseded => t.finish false
  | some .ran | some (.skipped _) | none => t.finish true

@[simp] lemma reach_stage (stage : SeedStage) : (t.reach stage).stage = stage := rfl

@[simp] lemma leave_stage (stage : SeedStage)
    (outcome : SeedAttempt) : (t.leave stage outcome).stage = stage := rfl

end SeedThread

/-- `running` names the thread whose flag is registered for a database, `cancelled` is the flag of a thread's
latest pass, and `published` lists the generations whose vectors were written, the newest first. -/
structure SeedCoordinator (ι ρ δ : Type) where
  generations : ρ → ℕ
  runSlot : Option ι
  running : δ → Option ι
  cancelled : ι → Bool
  reseedScheduled : δ → Bool
  threads : ι → Option (SeedThread ρ)
  published : List (ρ × ℕ)

inductive BuildEnd
  | built
  | cancelled
  | skipped (reason : String)
  deriving DecidableEq, Repr

/-- `result` of `publish` tells why the vectors were not written, if so. -/
inductive SeedEvent (ι ρ δ : Type)
  | spawnAutoSeed (i : ι) (repo : ρ) (enabled : Bool)
  | requestCancel (i : ι)
  | forgetCancels (db : δ)
  | scheduleReseed (i : ι) (repo : ρ) (enabled : Bool)
  | readGeneration (i : ι)
  | startAttempt (i : ι)
  | tryAcquireRunSlot (i : ι)
  | recheck (i : ι)
  | skip (i : ι) (reason : String)
  | registerRunning (i : ι)
  | confirm (i : ι)
  | build (i : ι) (result : BuildEnd)
  | tryAcquireWrite (i : ι) (free : Bool)
  | checkGeneration (i : ι)
  | publish (i : ι) (result : Except String Unit)
  | deregister (i : ι)
  | releaseRunSlot (i : ι)
  | settle (i : ι)
  | clearReseed (i : ι)

namespace SeedCoordinator

variable {ι ρ δ : Type} [DecidableEq ι] [DecidableEq ρ] [DecidableEq δ] (db : ρ → δ)

def new : SeedCoordinator ι ρ δ :=
  { generations := fun _ => 0, runSlot := none, running := fun _ => none, cancelled := fun _ => false,
    reseedScheduled := fun _ => false, threads := fun _ => none, published := [] }

def setThread (s : SeedCoordinator ι ρ δ) (i : ι) (t : SeedThread ρ) : SeedCoordinator ι ρ δ :=
  { s with threads := Function.update s.threads i (some t) }

def start (s : SeedCoordinator ι ρ δ) (i : ι) (s' : SeedCoordinator ι ρ δ) : SeedCoordinator ι ρ δ :=
  match s.threads i with
  | some _ => s
  | none => s'

def act (s : SeedCoordinator ι ρ δ) (i : ι) (stage : SeedStage)
    (f : SeedThread ρ → SeedCoordinator ι ρ δ) : SeedCoordinator ι ρ δ :=
  match s.threads i with
  | some t => if t.stage = stage then f t else s
  | none => s

def bumpGeneration (s : SeedCoordinator ι ρ δ) (repo : ρ) : SeedCoordinator ι ρ δ :=
  { s with generations := Function.update s.generations repo (s.generations repo + 1) }

def requestCancelForDb (s : SeedCoordinator ι ρ δ) (d : δ) : SeedCoordinator ι ρ δ :=
  { s with cancelled := match s.running d with
                        | some i => Function.update s.cancelled i true
                        | none => s.cancelled }

def registerRunning (s : SeedCoordinator ι ρ δ) (i : ι) (d : δ) : SeedCoordinator ι ρ δ :=
  { s with running := Function.update s.running d (some i), cancelled := Function.update s.cancelled i false }

def isCurrent (s : SeedCoordinator ι ρ δ) (t : SeedThread ρ) : Bool := s.generations t.repo == t.generation

def step (s : SeedCoordinator ι ρ δ) : SeedEvent ι ρ δ → SeedCoordinator ι ρ δ
  | .spawnAutoSeed i repo enabled => s.start i <|
    if enabled then
      (s.bumpGeneration repo).setThread i
        ⟨repo, false, s.generations repo + 1, seedRequeueMaxAttempts, .bumped, none, false⟩
    -- with seeding switched off the trigger chains the retention pass itself
    else s.setThread i ⟨repo, false, s.generations repo, 0, .ended, none, true⟩
  | .requestCancel i => s.act i .bumped fun t => (s.requestCancelForDb (db t.repo)).setThread i (t.reach .queued)
  | .forgetCancels d => s.requestCancelForDb d
  | .scheduleReseed i repo enabled => s.start i <|
    if enabled && !s.reseedScheduled (db repo) then
      { s with reseedScheduled := Function.update s.reseedScheduled (db repo) true }.setThread i
        ⟨repo, true, 0, seedRequeueMaxAttempts, .scheduled, none, false⟩
    else s
  | .readGeneration i => s.act i .scheduled fun t =>
    s.setThread i { t with generation := s.generations t.repo, stage := .queued }
  | .startAttempt i => s.act i .queued fun t =>
    if t.attempts = 0 then s.setThread i (t.finish true)
    else s.setThread i (if s.isCurrent t then t.reach .admitted else t.leave .settling .superseded)
  | .tryAcquireRunSlot i => s.act i .admitted fun t =>
    match s.runSlot with
    | none => { s with runSlot := some i }.setThread i (t.reach .slotted)
    | some _ => s.setThread i (t.leave .settling .yielded)
  | .recheck i => s.act i .slotted fun t =>
    s.setThread i (if s.isCurrent t then t.reach .loaded else t.leave .releasing .superseded)
  | .skip i reason => s.act i .loaded fun t => s.setThread i (t.leave .releasing (.skipped reason))
  | .registerRunning i => s.act i .loaded fun t =>
    (s.registerRunning i (db t.repo)).setThread i (t.reach .registered)
  | .confirm i => s.act i .registered fun t =>
    s.setThread i (if s.isCurrent t then t.reach .embedding else t.leave .deregistering .superseded)
  | .build i result => s.act i .embedding fun t =>
    match result with
    | .built => s.setThread i (t.reach .built)
    | .cancelled => if s.cancelled i then s.setThread i (t.leave .deregistering .superseded) else s
    | .skipped reason => s.setThread i (t.leave .deregistering (.skipped reason))
  | .tryAcquireWrite i free => s.act i .built fun t =>
    s.setThread i (if free then t.reach .writeLocked else t.leave .deregistering .yielded)
  | .checkGeneration i => s.act i .writeLocked fun t =>
    s.setThread i (if s.isCurrent t then t.reach .confirmed else t.leave .deregistering .superseded)
  | .publish i result => s.act i .confirmed fun t =>
    match result with
    | .ok () => { s with published := (t.repo, t.generation) :: s.published }.setThread i
      (t.leave .deregistering .ran)
    | .error reason => s.setThread i (t.leave .deregistering (.skipped reason))
  | .deregister i => s.act i .deregistering fun t =>
    { s with running := Function.update s.running (db t.repo) none }.setThread i (t.reach .releasing)
  | .releaseRunSlot i => s.act i .releasing fun t => { s with runSlot := none }.setThread i (t.reach .settling)
  | .settle i => s.act i .settling fun t => s.setThread i t.settle
  | .clearReseed i => s.act i .unlatching fun t =>
    { s with reseedScheduled := Function.update s.reseedScheduled (db t.repo) false }.setThread i (t.reach .ended)

def reachesNewest (s : SeedCoordinator ι ρ δ) (d : δ) : Bool :=
  match s.running d with
  | some i =>
    match s.threads i with
    | some t => !t.heal && s.isCurrent t
    | none => false
  | none => false

/-- The event cancels the newest pass of a repository: it comes from a trigger that another one has overtaken, or
from a forget. -/
def cancelsNewest (s : SeedCoordinator ι ρ δ) : SeedEvent ι ρ δ → Bool
  | .requestCancel i =>
    match s.threads i with
    | some t => decide (t.stage = .bumped) && s.reachesNewest (db t.repo)
    | none => false
  | .forgetCancels d => s.reachesNewest d
  | _ => false

/-- A trigger for the repository has bumped its generation and will cancel the running pass. -/
def Cancels (s : SeedCoordinator ι ρ δ) (repo : ρ) : Prop :=
  ∃ j u, s.threads j = some u ∧ u.stage = .bumped ∧ u.repo = repo

/-- One pass at a time builds; the vectors of a repository are written in the order of the generations; a pass that
builds for an outdated generation is cancelled or about to be; and a database has one self-heal at most. -/
structure Safe (s : SeedCoordinator ι ρ δ) : Prop where
  one_pass : ∀ i j t u, s.threads i = some t → s.threads j = some u → t.stage.holdsSlot = true →
    u.stage.holdsSlot = true → i = j
  in_order : s.published.Pairwise fun new old => new.1 = old.1 → old.2 ≤ new.2
  outdated_stops : ∀ i t, s.threads i = some t → t.stage.embeds = true → t.generation < s.generations t.repo →
    s.cancelled i = true ∨ s.Cancels t.repo
  one_heal : ∀ i j t u, s.threads i = some t → s.threads j = some u → t.heal = true → u.heal = true →
    t.stage ≠ .ended → u.stage ≠ .ended → db t.repo = db u.repo → i = j

structure Grounded (s : SeedCoordinator ι ρ δ) (i : ι) (t : SeedThread ρ) : Prop where
  slot : t.stage.holdsSlot = true → s.runSlot = some i
  flag : t.stage.holdsFlag = true → s.running (db t.repo) = some i
  current : t.generation ≤ s.generations t.repo
  newest : t.stage.rechecked = true → ∀ g, (t.repo, g) ∈ s.published → g ≤ t.generation
  latched : t.heal = true → t.stage ≠ .ended → s.reseedScheduled (db t.repo) = true
  unlatches : t.stage = .unlatching → t.heal = true

structure Kept (s : SeedCoordinator ι ρ δ) : Prop where
  grounded : ∀ i t, s.threads i = some t → s.Grounded db i t
  outdated : ∀ i t, s.threads i = some t → t.stage.embeds = true → t.generation < s.generations t.repo →
    s.cancelled i = true ∨ s.Cancels t.repo
  one_heal : ∀ i j t u, s.threads i = some t → s.threads j = some u → t.heal = true → u.heal = true →
    t.stage ≠ .ended → u.stage ≠ .ended → db t.repo = db u.repo → i = j
  published_le : ∀ r g, (r, g) ∈ s.published → g ≤ s.generations r
  in_order : s.published.Pairwise fun new old => new.1 = old.1 → old.2 ≤ new.2

structure Inner (s : SeedCoordinator ι ρ δ) (i : ι) (t t' : SeedThread ρ) : Prop where
  repo : t'.repo = t.repo
  heal : t'.heal = t.heal
  generation : t'.generation = t.generation
  bumped : t.stage ≠ .bumped
  ended : t.stage ≠ .ended
  slot : t'.stage.holdsSlot = true → t.stage.holdsSlot = true
  flag : t'.stage.holdsFlag = true → t.stage.holdsFlag = true
  rechecked : t'.stage.rechecked = true → t.stage.rechecked = true ∨ t.generation = s.generations t.repo
  embeds : t'.stage.embeds = true → t.stage.embeds = true ∨ t.generation = s.generations t.repo
  unlatches : t'.stage = .unlatching → t'.heal = true
  superseded : t.generation = s.generations t.repo → (t.stage.holdsFlag = true → s.cancelled i = false) →
    t.outcome ≠ some .superseded → t'.outcome ≠ some .superseded ∧ (t'.stage = .ended → t'.retention = true)

inductive Move (s : SeedCoordinator ι ρ δ) : SeedEvent ι ρ δ → SeedCoordinator ι ρ δ → Prop
  | stay {e : SeedEvent ι ρ δ} : Move s e s
  | inner {e : SeedEvent ι ρ δ} (i : ι) (t t' : SeedThread ρ) : s.threads i = some t → s.Inner i t t' →
    Move s e (s.setThread i t')
  | bump {e : SeedEvent ι ρ δ} (i : ι) (repo : ρ) : s.threads i = none →
      Move s e ((s.bumpGeneration repo).setThread i
      ⟨repo, false, s.generations repo + 1, seedRequeueMaxAttempts, .bumped, none, false⟩)
  | switchedOff {e : SeedEvent ι ρ δ} (i : ι) (repo : ρ) : s.threads i = none →
      Move s e (s.setThread i ⟨repo, false, s.generations repo, 0, .ended, none, true⟩)
  | cancel (i : ι) (t : SeedThread ρ) : s.threads i = some t → t.stage = .bumped →
      Move s (.requestCancel i) ((s.requestCancelForDb (db t.repo)).setThread i (t.reach .queued))
  | forget (d : δ) : Move s (.forgetCancels d) (s.requestCancelForDb d)
  | schedule {e : SeedEvent ι ρ δ} (i : ι) (repo : ρ) : s.threads i = none → s.reseedScheduled (db repo) = false →
      Move s e ({ s with reseedScheduled := Function.update s.reseedScheduled (db repo) true }.setThread i
        ⟨repo, true, 0, seedRequeueMaxAttempts, .scheduled, none, false⟩)
  | read {e : SeedEvent ι ρ δ} (i : ι) (t : SeedThread ρ) : s.threads i = some t → t.stage = .scheduled →
      Move s e (s.setThread i { t with generation := s.generations t.repo, stage := .queued })
  | takeSlot {e : SeedEvent ι ρ δ} (i : ι) (t : SeedThread ρ) : s.threads i = some t →
      t.stage = .admitted → s.runSlot = none →
      Move s e ({ s with runSlot := some i }.setThread i (t.reach .slotted))
  | register {e : SeedEvent ι ρ δ} (i : ι) (t : SeedThread ρ) : s.threads i = some t → t.stage = .loaded →
      Move s e ((s.registerRunning i (db t.repo)).setThread i (t.reach .registered))
  | write {e : SeedEvent ι ρ δ} (i : ι) (t : SeedThread ρ) : s.threads i = some t → t.stage = .confirmed →
      Move s e ({ s with published := (t.repo, t.generation) :: s.published }.setThread i
        (t.leave .deregistering .ran))
  | deregister {e : SeedEvent ι ρ δ} (i : ι) (t : SeedThread ρ) : s.threads i = some t → t.stage = .deregistering →
      Move s e ({ s with running := Function.update s.running (db t.repo) none }.setThread i (t.reach .releasing))
  | release {e : SeedEvent ι ρ δ} (i : ι) (t : SeedThread ρ) : s.threads i = some t → t.stage = .releasing →
      Move s e ({ s with runSlot := none }.setThread i (t.reach .settling))
  | clear {e : SeedEvent ι ρ δ} (i : ι) (t : SeedThread ρ) : s.threads i = some t → t.stage = .unlatching →
      Move s e ({ s with reseedScheduled := Function.update s.reseedScheduled (db t.repo) false }.setThread i
        (t.reach .ended))

variable {db} {s : SeedCoordinator ι ρ δ} {i : ι} {t t' : SeedThread ρ}

omit [DecidableEq ι] [DecidableEq ρ] [DecidableEq δ] in
lemma act_move {P : SeedCoordinator ι ρ δ → Prop} {stage : SeedStage} {f : SeedThread ρ → SeedCoordinator ι ρ δ}
    (hstay : P s) (hact : ∀ t, s.threads i = some t → t.stage = stage → P (f t)) : P (s.act i stage f) := by
  rw [act]
  split
  · rename_i t hi
    split
    · rename_i hstage
      exact hact t hi hstage
    · exact hstay
  · exact hstay

omit [DecidableEq ι] [DecidableEq ρ] [DecidableEq δ] in
lemma isCurrent_iff : s.isCurrent t = true ↔ t.generation = s.generations t.repo := by
  rw [isCurrent, beq_iff_eq, eq_comm]

omit [DecidableEq ι] [DecidableEq ρ] [DecidableEq δ] in
lemma start_move {P : SeedCoordinator ι ρ δ → Prop} {s' : SeedCoordinator ι ρ δ} (hstay : P s)
    (hnew : s.threads i = none → P s') : P (s.start i s') := by
  rw [start]
  split
  · exact hstay
  · rename_i hi
    exact hnew hi

omit [DecidableEq ι] [DecidableEq ρ] [DecidableEq δ] in
lemma Inner.within {a b : SeedStage} {outcome : Option SeedAttempt} (ha : t.stage = a) (hab : a.allows b = true)
    (hout : outcome = some .superseded → t.generation = s.generations t.repo →
      (t.stage.holdsFlag = true → s.cancelled i = false) → t.outcome = some .superseded) :
    s.Inner i t { t with stage := b, outcome } := by
  subst ha
  simp only [SeedStage.allows, Bool.and_eq_true, bne_iff_ne, ne_eq, Bool.or_eq_true, Bool.not_eq_true'] at hab
  obtain ⟨⟨⟨⟨⟨⟨⟨hbumped, hended⟩, hlatch⟩, hlive⟩, hslot⟩, hflag⟩, hrechecked⟩, hembeds⟩ := hab
  refine ⟨rfl, rfl, rfl, hbumped, hended, ?_, ?_, ?_, ?_, fun h => absurd h hlatch, ?_⟩
  · intro h
    exact hslot.resolve_left (by simpa using h)
  · intro h
    exact hflag.resolve_left (by simpa using h)
  · intro h
    exact .inl (hrechecked.resolve_left (by simpa using h))
  · intro h
    exact .inl (hembeds.resolve_left (by simpa using h))
  · intro hcurrent hcancelled houtcome
    exact ⟨fun h => houtcome (hout h hcurrent hcancelled), fun h => absurd h hlive⟩

omit [DecidableEq ι] [DecidableEq ρ] [DecidableEq δ] in
lemma Inner.reach {a b : SeedStage} (ha : t.stage = a) (hab : a.allows b = true) : s.Inner i t (t.reach b) :=
  .within ha hab fun h _ _ => h

omit [DecidableEq ι] [DecidableEq ρ] [DecidableEq δ] in
lemma Inner.leave {a b : SeedStage} {outcome : SeedAttempt} (ha : t.stage = a) (hab : a.allows b = true)
    (hout : outcome ≠ .superseded) : s.Inner i t (t.leave b outcome) :=
  .within ha hab fun h _ _ => absurd (Option.some.inj h) hout

omit [DecidableEq ι] [DecidableEq ρ] [DecidableEq δ] in
lemma Inner.check {a b c : SeedStage} (ha : t.stage = a) (hab : s.isCurrent t = true → s.Inner i t (t.reach b))
    (hac : a.allows c = true) :
    s.Inner i t (if s.isCurrent t then t.reach b else t.leave c .superseded) := by
  split
  · rename_i hcurrent
    exact hab hcurrent
  · rename_i hcurrent
    exact .within ha hac fun _ h _ => absurd (isCurrent_iff.mpr h) hcurrent

omit [DecidableEq ι] [DecidableEq ρ] [DecidableEq δ] in
lemma Inner.recheck (hstage : t.stage = .slotted)
    (hcurrent : s.isCurrent t = true) : s.Inner i t (t.reach .loaded) :=
  { repo := rfl, heal := rfl, generation := rfl, bumped := by simp [hstage], ended := by simp [hstage],
    slot := fun _ => by rw [hstage]; rfl, flag := fun h => absurd h Bool.false_ne_true,
    rechecked := fun _ => .inr (isCurrent_iff.mp hcurrent), embeds := fun h => absurd h Bool.false_ne_true,
    unlatches := fun h => absurd h (by simp),
    superseded := fun _ _ h => ⟨h, fun h => absurd h (by simp)⟩ }

omit [DecidableEq ι] [DecidableEq ρ] [DecidableEq δ] in
lemma Inner.confirm (hstage : t.stage = .registered) (hcurrent : s.isCurrent t = true) :
    s.Inner i t (t.reach .embedding) :=
  { repo := rfl, heal := rfl, generation := rfl, bumped := by simp [hstage], ended := by simp [hstage],
    slot := fun _ => by rw [hstage]; rfl, flag := fun _ => by rw [hstage]; rfl,
    rechecked := fun _ => .inr (isCurrent_iff.mp hcurrent), embeds := fun _ => .inr (isCurrent_iff.mp hcurrent),
    unlatches := fun h => absurd h (by simp),
    superseded := fun _ _ h => ⟨h, fun h => absurd h (by simp)⟩ }

omit [DecidableEq ι] [DecidableEq ρ] [DecidableEq δ] in
lemma Inner.finish {retention : Bool} (hbumped : t.stage ≠ .bumped) (hended : t.stage ≠ .ended)
    (hretention : retention = false → t.outcome = some .superseded) : s.Inner i t (t.finish retention) := by
  have hstage : (t.finish retention).stage = .unlatching ∧ t.heal = true ∨
      (t.finish retention).stage = .ended := by
    rw [SeedThread.finish]
    cases t.heal
    · exact .inr rfl
    · exact .inl ⟨rfl, rfl⟩
  refine ⟨rfl, rfl, rfl, hbumped, hended, ?_, ?_, ?_, ?_, ?_, ?_⟩
  · rcases hstage with ⟨h, -⟩ | h <;> simp [h, SeedStage.holdsSlot]
  · rcases hstage with ⟨h, -⟩ | h <;> simp [h, SeedStage.holdsFlag]
  · rcases hstage with ⟨h, -⟩ | h <;> simp [h, SeedStage.rechecked]
  · rcases hstage with ⟨h, -⟩ | h <;> simp [h, SeedStage.embeds]
  · rcases hstage with ⟨-, hheal⟩ | h
    · exact fun _ => hheal
    · simp [h]
  · intro _ _ hout
    refine ⟨hout, fun _ => ?_⟩
    by_contra hr
    exact hout (hretention (by simpa [SeedThread.finish] using hr))

omit [DecidableEq ι] [DecidableEq ρ] [DecidableEq δ] in
lemma Inner.settle (hstage : t.stage = .settling) : s.Inner i t t.settle := by
  have hbumped : t.stage ≠ .bumped := by simp [hstage]
  have hended : t.stage ≠ .ended := by simp [hstage]
  rw [SeedThread.settle]
  split
  · exact ⟨rfl, rfl, rfl, hbumped, hended, fun h => absurd h Bool.false_ne_true,
      fun h => absurd h Bool.false_ne_true,
      fun h => absurd h Bool.false_ne_true, fun h => absurd h Bool.false_ne_true, fun h => absurd h (by simp),
      fun _ _ h => ⟨h, fun h => absurd h (by simp)⟩⟩
  · rename_i hout
    exact .finish hbumped hended fun _ => hout
  all_goals exact .finish hbumped hended fun h => absurd h.symm Bool.false_ne_true

variable (db) in
lemma step_move (e : SeedEvent ι ρ δ) : s.Move db e (s.step db e) := by
  cases e with
  | spawnAutoSeed i repo enabled =>
    refine start_move .stay fun hi => ?_
    split
    · exact .bump i repo hi
    · exact .switchedOff i repo hi
  | requestCancel i => exact act_move .stay fun t hi hstage => .cancel i t hi hstage
  | forgetCancels d => exact .forget d
  | scheduleReseed i repo enabled =>
    refine start_move .stay fun hi => ?_
    split
    · rename_i hfree
      rw [Bool.and_eq_true, Bool.not_eq_true'] at hfree
      exact .schedule i repo hi hfree.2
    · exact .stay
  | readGeneration i => exact act_move .stay fun t hi hstage => .read i t hi hstage
  | startAttempt i =>
    refine act_move .stay fun t hi hstage => ?_
    split
    · exact .inner i t _ hi (.finish (by simp [hstage]) (by simp [hstage]) fun h =>
        absurd h.symm Bool.false_ne_true)
    · exact .inner i t _ hi (.check hstage (fun _ => .reach hstage rfl) rfl)
  | tryAcquireRunSlot i =>
    refine act_move .stay fun t hi hstage => ?_
    split
    · rename_i hfree
      exact .takeSlot i t hi hstage hfree
    · exact .inner i t _ hi (.leave hstage rfl (by simp))
  | recheck i =>
    exact act_move .stay fun t hi hstage => .inner i t _ hi (.check hstage (.recheck hstage) rfl)
  | skip i reason => exact act_move .stay fun t hi hstage => .inner i t _ hi (.leave hstage rfl (by simp))
  | registerRunning i => exact act_move .stay fun t hi hstage => .register i t hi hstage
  | confirm i =>
    exact act_move .stay fun t hi hstage => .inner i t _ hi (.check hstage (.confirm hstage) rfl)
  | build i result =>
    refine act_move .stay fun t hi hstage => ?_
    split
    · exact .inner i t _ hi (.reach hstage rfl)
    · split
      · rename_i hcancelled
        refine .inner i t _ hi (.within hstage rfl fun _ _ h => ?_)
        rw [hstage] at h
        exact absurd (h rfl) (by simp [hcancelled])
      · exact .stay
    · exact .inner i t _ hi (.leave hstage rfl (by simp))
  | tryAcquireWrite i free =>
    refine act_move .stay fun t hi hstage => ?_
    split
    · exact .inner i t _ hi (.reach hstage rfl)
    · exact .inner i t _ hi (.leave hstage rfl (by simp))
  | checkGeneration i =>
    exact act_move .stay fun t hi hstage => .inner i t _ hi (.check hstage (fun _ => .reach hstage rfl) rfl)
  | publish i result =>
    refine act_move .stay fun t hi hstage => ?_
    split
    · exact .write i t hi hstage
    · exact .inner i t _ hi (.leave hstage rfl (by simp))
  | deregister i => exact act_move .stay fun t hi hstage => .deregister i t hi hstage
  | releaseRunSlot i => exact act_move .stay fun t hi hstage => .release i t hi hstage
  | settle i => exact act_move .stay fun t hi hstage => .inner i t _ hi (.settle hstage)
  | clearReseed i => exact act_move .stay fun t hi hstage => .clear i t hi hstage

omit [DecidableEq ι] [DecidableEq ρ] [DecidableEq δ] in
lemma new_kept : (new : SeedCoordinator ι ρ δ).Kept db := by
  constructor <;> simp [new]

omit [DecidableEq ι] [DecidableEq ρ] [DecidableEq δ] in
lemma Kept.alone (h : s.Kept db) (hi : s.threads i = some t) (hslot : t.stage.holdsSlot = true)
    {j : ι} {u : SeedThread ρ} (hj : s.threads j = some u) (hother : u.stage.holdsSlot = true) : j = i :=
  Option.some.inj (((h.grounded j u hj).slot hother).symm.trans ((h.grounded i t hi).slot hslot))

variable {s' : SeedCoordinator ι ρ δ}

omit [DecidableEq ρ] [DecidableEq δ] in
lemma Cancels.update {repo : ρ} (h : s.Cancels repo)
    (hthreads : s'.threads = Function.update s.threads i (some t'))
    (hbumped : ∀ t, s.threads i = some t → t.stage ≠ .bumped) : s'.Cancels repo := by
  obtain ⟨j, u, hj, hstage, hrepo⟩ := h
  refine ⟨j, u, ?_, hstage, hrepo⟩
  have hji : j ≠ i := by
    rintro rfl
    exact hbumped u hj hstage
  rw [hthreads, Function.update_of_ne hji, hj]

omit [DecidableEq ρ] [DecidableEq δ] in
lemma Kept.advance (h : s.Kept db) (hthreads : s'.threads = Function.update s.threads i (some t'))
    (hown : s'.Grounded db i t')
    (hothers : ∀ j u, j ≠ i → s.threads j = some u → s.Grounded db j u → s'.Grounded db j u)
    (hembeds : t'.stage.embeds = true → t'.generation < s'.generations t'.repo →
      s'.cancelled i = true ∨ s'.Cancels t'.repo)
    (houtdated : ∀ j u, j ≠ i → s.threads j = some u → u.stage.embeds = true →
      u.generation < s'.generations u.repo → s'.cancelled j = true ∨ s'.Cancels u.repo)
    (hheal : t'.heal = true → t'.stage ≠ .ended → ∀ j u, j ≠ i → s.threads j = some u → u.heal = true →
      u.stage ≠ .ended → db u.repo ≠ db t'.repo)
    (hle : ∀ r g, (r, g) ∈ s'.published → g ≤ s'.generations r)
    (horder : s'.published.Pairwise fun new old => new.1 = old.1 → old.2 ≤ new.2) : s'.Kept db := by
  have hsame : s'.threads i = some t' := by rw [hthreads, Function.update_self]
  have hother : ∀ j, j ≠ i → s'.threads j = s.threads j := fun j hji => by rw [hthreads, Function.update_of_ne hji]
  refine ⟨?_, ?_, ?_, hle, horder⟩
  · intro j u hj
    by_cases hji : j = i
    · subst hji
      obtain rfl : t' = u := Option.some.inj (hsame.symm.trans hj)
      exact hown
    · rw [hother j hji] at hj
      exact hothers j u hji hj (h.grounded j u hj)
  · intro j u hj
    by_cases hji : j = i
    · subst hji
      obtain rfl : t' = u := Option.some.inj (hsame.symm.trans hj)
      exact hembeds
    · rw [hother j hji] at hj
      exact houtdated j u hji hj
  · intro j k u v hj hk hju hkv huend hvend hdb
    by_cases hji : j = i
    · subst hji
      obtain rfl : t' = u := Option.some.inj (hsame.symm.trans hj)
      by_contra hjk
      rw [hother k (Ne.symm hjk)] at hk
      exact hheal hju huend k v (Ne.symm hjk) hk hkv hvend hdb.symm
    · rw [hother j hji] at hj
      by_cases hki : k = i
      · subst hki
        obtain rfl : t' = v := Option.some.inj (hsame.symm.trans hk)
        exact absurd hdb (hheal hkv hvend j u hji hj hju huend)
      · rw [hother k hki] at hk
        exact h.one_heal j k u v hj hk hju hkv huend hvend hdb

omit [DecidableEq ρ] [DecidableEq δ] in
lemma Kept.move (h : s.Kept db) (hi : s.threads i = some t)
    (hthreads : s'.threads = Function.update s.threads i (some t'))
    (hbumped : t.stage ≠ .bumped) (hgenerations : s'.generations = s.generations)
    (hcancelled : ∀ j, j ≠ i → s'.cancelled j = s.cancelled j) (hown : s'.Grounded db i t')
    (hothers : ∀ j u, j ≠ i → s.threads j = some u → s.Grounded db j u → s'.Grounded db j u)
    (hembeds : t'.stage.embeds = true → t'.generation < s.generations t'.repo →
      s'.cancelled i = true ∨ s'.Cancels t'.repo)
    (hrepo : t'.repo = t.repo) (hheal : t'.heal = true → t'.stage ≠ .ended → t.heal = true ∧ t.stage ≠ .ended)
    (hle : ∀ r g, (r, g) ∈ s'.published → g ≤ s'.generations r)
    (horder : s'.published.Pairwise fun new old => new.1 = old.1 → old.2 ≤ new.2) : s'.Kept db := by
  have hstands : ∀ u, s.threads i = some u → u.stage ≠ .bumped := by
    intro u hu
    obtain rfl : t = u := Option.some.inj (hi.symm.trans hu)
    exact hbumped
  refine h.advance hthreads hown hothers (by rwa [hgenerations]) ?_ ?_ hle horder
  · intro j u hji hj hembedsu hlt
    rw [hgenerations] at hlt
    rw [hcancelled j hji]
    exact (h.outdated j u hj hembedsu hlt).imp_right fun hc => hc.update hthreads hstands
  · intro hh hlive j u hji hj hu huend hdb
    obtain ⟨hth, htend⟩ := hheal hh hlive
    rw [hrepo] at hdb
    exact hji (h.one_heal j i u t hj hi hu hth huend htend hdb)

omit [DecidableEq ι] [DecidableEq ρ] [DecidableEq δ] in
lemma Grounded.keep (h : s.Grounded db i t) (hslot : t.stage.holdsSlot = true → s'.runSlot = s.runSlot)
    (hflag : t.stage.holdsFlag = true → s'.running (db t.repo) = s.running (db t.repo))
    (hle : s.generations t.repo ≤ s'.generations t.repo)
    (hnewest : t.stage.rechecked = true → ∀ g, (t.repo, g) ∈ s'.published → (t.repo, g) ∈ s.published)
    (hlatched : t.heal = true → t.stage ≠ .ended →
      s'.reseedScheduled (db t.repo) = s.reseedScheduled (db t.repo)) :
    s'.Grounded db i t :=
  { slot := fun hs => (hslot hs).trans (h.slot hs)
    flag := fun hf => (hflag hf).trans (h.flag hf)
    current := h.current.trans hle
    newest := fun hr g hg => h.newest hr g (hnewest hr g hg)
    latched := fun hh hlive => (hlatched hh hlive).trans (h.latched hh hlive)
    unlatches := h.unlatches }

omit [DecidableEq ρ] [DecidableEq δ] in
lemma Kept.inner (h : s.Kept db) (hi : s.threads i = some t)
    (hinner : s.Inner i t t') : (s.setThread i t').Kept db := by
  have hground := h.grounded i t hi
  refine h.move hi rfl hinner.bumped rfl (fun _ _ => rfl) ?_ (fun _ _ _ _ hg =>
    hg.keep (fun _ => rfl) (fun _ => rfl) le_rfl
    (fun _ _ hg => hg) fun _ _ => rfl) ?_ hinner.repo ?_ h.published_le h.in_order
  · refine ⟨?_, ?_, ?_, ?_, ?_, hinner.unlatches⟩
    · intro hs
      exact hground.slot (hinner.slot hs)
    · intro hf
      rw [hinner.repo]
      exact hground.flag (hinner.flag hf)
    · rw [hinner.generation, hinner.repo]
      exact hground.current
    · intro hr g hg
      rw [hinner.repo] at hg
      rw [hinner.generation]
      rcases hinner.rechecked hr with hr | hcurrent
      · exact hground.newest hr g hg
      · rw [hcurrent]
        exact h.published_le _ _ hg
    · intro hh _
      rw [hinner.repo]
      exact hground.latched (hinner.heal ▸ hh) hinner.ended
  · intro he hlt
    rw [hinner.generation, hinner.repo] at hlt
    rw [hinner.repo]
    rcases hinner.embeds he with he | hcurrent
    · refine (h.outdated i t hi he hlt).imp_right fun hc => hc.update rfl ?_
      intro u hu
      obtain rfl : t = u := Option.some.inj (hi.symm.trans hu)
      exact hinner.bumped
    · exact absurd hcurrent hlt.ne
  · intro hh _
    exact ⟨hinner.heal ▸ hh, hinner.ended⟩

omit [DecidableEq δ] in
lemma Kept.bump (h : s.Kept db) (repo : ρ) (hi : s.threads i = none) : ((s.bumpGeneration repo).setThread i
    ⟨repo, false, s.generations repo + 1, seedRequeueMaxAttempts, .bumped, none, false⟩).Kept db := by
  have hle : ∀ r, s.generations r ≤ Function.update s.generations repo (s.generations repo + 1) r := by
    intro r
    by_cases hr : r = repo
    · subst hr
      rw [Function.update_self]
      exact Nat.le_succ _
    · rw [Function.update_of_ne hr]
  refine h.advance rfl ?_ (fun j u _ _ hg => hg.keep (fun _ => rfl) (fun _ => rfl) (hle u.repo) (fun _ _ hg => hg)
    fun _ _ => rfl) (fun he => absurd he Bool.false_ne_true) ?_ (fun hh => absurd hh Bool.false_ne_true)
    (fun r g hg => (h.published_le r g hg).trans (hle r)) h.in_order
  · refine ⟨fun h => absurd h Bool.false_ne_true, fun h => absurd h Bool.false_ne_true, ?_,
      fun h => absurd h Bool.false_ne_true, fun h => absurd h Bool.false_ne_true, fun h => absurd h (by simp)⟩
    change s.generations repo + 1 ≤ Function.update s.generations repo (s.generations repo + 1) repo
    rw [Function.update_self]
  · intro j u hji hj he hlt
    by_cases hrepo : u.repo = repo
    · right
      refine ⟨i, _, Function.update_self .., rfl, hrepo.symm⟩
    · change u.generation < Function.update s.generations repo (s.generations repo + 1) u.repo at hlt
      rw [Function.update_of_ne hrepo] at hlt
      refine (h.outdated j u hj he hlt).imp_right fun hc => hc.update rfl ?_
      intro t ht
      rw [hi] at ht
      cases ht

omit [DecidableEq ρ] [DecidableEq δ] in
lemma Kept.switchedOff (h : s.Kept db) (repo : ρ) (hi : s.threads i = none) :
    (s.setThread i ⟨repo, false, s.generations repo, 0, .ended, none, true⟩).Kept db := by
  refine h.advance rfl ⟨fun h => absurd h Bool.false_ne_true, fun h => absurd h Bool.false_ne_true, le_rfl,
    fun h => absurd h Bool.false_ne_true, fun h => absurd h Bool.false_ne_true, fun h => absurd h (by simp)⟩
    (fun _ _ _ _ hg => hg.keep (fun _ => rfl) (fun _ => rfl) le_rfl (fun _ _ hg => hg) fun _ _ => rfl)
    (fun he => absurd he Bool.false_ne_true) ?_ (fun hh => absurd hh Bool.false_ne_true) h.published_le h.in_order
  intro j u _ hj he hlt
  refine (h.outdated j u hj he hlt).imp_right fun hc => hc.update rfl ?_
  intro t ht
  rw [hi] at ht
  cases ht

omit [DecidableEq ρ] in
lemma Kept.schedule (h : s.Kept db) (repo : ρ) (hi : s.threads i = none)
    (hfree : s.reseedScheduled (db repo) = false) :
    ({ s with reseedScheduled := Function.update s.reseedScheduled (db repo) true }.setThread i
      ⟨repo, true, 0, seedRequeueMaxAttempts, .scheduled, none, false⟩).Kept db := by
  have hnone : ∀ j u, s.threads j = some u → u.heal = true → u.stage ≠ .ended → db u.repo ≠ db repo := by
    intro j u hj hu hend hdb
    have hlatched := (h.grounded j u hj).latched hu hend
    rw [hdb, hfree] at hlatched
    cases hlatched
  refine h.advance rfl ?_ ?_ (fun he => absurd he Bool.false_ne_true) ?_
    (fun _ _ j u _ hj hu hend => hnone j u hj hu hend) h.published_le h.in_order
  · refine ⟨fun h => absurd h Bool.false_ne_true, fun h => absurd h Bool.false_ne_true, Nat.zero_le _,
      fun h => absurd h Bool.false_ne_true, fun _ _ => ?_, fun h => absurd h (by simp)⟩
    exact Function.update_self ..
  · intro j u _ hj hg
    refine hg.keep (fun _ => rfl) (fun _ => rfl) le_rfl (fun _ _ hg => hg) fun hu hend => ?_
    exact Function.update_of_ne (hnone j u hj hu hend) ..
  · intro j u _ hj he hlt
    refine (h.outdated j u hj he hlt).imp_right fun hc => hc.update rfl ?_
    intro t ht
    rw [hi] at ht
    cases ht

omit [DecidableEq ρ] [DecidableEq δ] in
lemma Kept.read (h : s.Kept db) (hi : s.threads i = some t) (hstage : t.stage = .scheduled) :
    (s.setThread i { t with generation := s.generations t.repo, stage := .queued }).Kept db := by
  refine h.move hi rfl (by simp [hstage]) rfl (fun _ _ => rfl) ?_ (fun _ _ _ _ hg => hg.keep (fun _ => rfl)
    (fun _ => rfl) le_rfl (fun _ _ hg => hg) fun _ _ => rfl) (fun he => absurd he Bool.false_ne_true) rfl
    (fun hh _ => ⟨hh, by simp [hstage]⟩) h.published_le h.in_order
  exact ⟨fun h => absurd h Bool.false_ne_true, fun h => absurd h Bool.false_ne_true, le_rfl,
    fun h => absurd h Bool.false_ne_true, fun hh _ => (h.grounded i t hi).latched hh (by simp [hstage]),
    fun h => absurd h (by simp)⟩

omit [DecidableEq ρ] [DecidableEq δ] in
lemma Kept.takeSlot (h : s.Kept db) (hi : s.threads i = some t) (hstage : t.stage = .admitted)
    (hfree : s.runSlot = none) :
    ({ s with runSlot := some i }.setThread i (t.reach .slotted)).Kept db := by
  have hground := h.grounded i t hi
  refine h.move hi rfl (by simp [hstage]) rfl (fun _ _ => rfl) ?_ ?_ (fun he => absurd he Bool.false_ne_true) rfl
    (fun hh _ => ⟨hh, by simp [hstage]⟩) h.published_le h.in_order
  · exact ⟨fun _ => rfl, fun h => absurd h Bool.false_ne_true, hground.current,
      fun h => absurd h Bool.false_ne_true, fun hh _ => hground.latched hh (by simp [hstage]),
      fun h => absurd h (by simp)⟩
  · intro j u _ hj hg
    refine hg.keep (fun hs => ?_) (fun _ => rfl) le_rfl (fun _ _ hg => hg) fun _ _ => rfl
    have hheld := hg.slot hs
    rw [hfree] at hheld
    cases hheld

omit [DecidableEq ρ] in
lemma Kept.register (h : s.Kept db) (hi : s.threads i = some t) (hstage : t.stage = .loaded) :
    ((s.registerRunning i (db t.repo)).setThread i (t.reach .registered)).Kept db := by
  have hground := h.grounded i t hi
  have hslot : t.stage.holdsSlot = true := by rw [hstage]; rfl
  refine h.move hi rfl (by simp [hstage]) rfl (fun j hji => Function.update_of_ne hji ..) ?_ ?_
    (fun he => absurd he Bool.false_ne_true) rfl (fun hh _ => ⟨hh, by simp [hstage]⟩) h.published_le h.in_order
  · exact ⟨fun _ => hground.slot hslot, fun _ => Function.update_self .., hground.current,
      fun _ => hground.newest (by rw [hstage]; rfl), fun hh _ => hground.latched hh (by simp [hstage]),
      fun h => absurd h (by simp)⟩
  · intro j u hji hj hg
    refine hg.keep (fun _ => rfl) (fun hf => ?_) le_rfl (fun _ _ hg => hg) fun _ _ => rfl
    exact absurd (h.alone hi hslot hj (SeedStage.holdsSlot_of_holdsFlag hf)) hji

omit [DecidableEq ρ] [DecidableEq δ] in
lemma Kept.write (h : s.Kept db) (hi : s.threads i = some t) (hstage : t.stage = .confirmed) :
    ({ s with published := (t.repo, t.generation) :: s.published }.setThread i (t.leave .deregistering .ran)).Kept
      db := by
  have hground := h.grounded i t hi
  have hslot : t.stage.holdsSlot = true := by rw [hstage]; rfl
  refine h.move hi rfl (by simp [hstage]) rfl (fun _ _ => rfl) ?_ ?_ (fun he => absurd he Bool.false_ne_true) rfl
    (fun hh _ => ⟨hh, by simp [hstage]⟩) ?_ ?_
  · exact ⟨fun _ => hground.slot hslot, fun _ => hground.flag (by rw [hstage]; rfl), hground.current,
      fun h => absurd h Bool.false_ne_true, fun hh _ => hground.latched hh (by simp [hstage]),
      fun h => absurd h (by simp)⟩
  · intro j u hji hj hg
    refine hg.keep (fun _ => rfl) (fun _ => rfl) le_rfl (fun hr => ?_) fun _ _ => rfl
    exact absurd (h.alone hi hslot hj (SeedStage.holdsSlot_of_rechecked hr)) hji
  · intro r g hg
    rcases List.mem_cons.mp hg with heq | hg
    · obtain ⟨rfl, rfl⟩ := Prod.mk.inj heq
      exact hground.current
    · exact h.published_le r g hg
  · refine List.pairwise_cons.mpr ⟨?_, h.in_order⟩
    rintro ⟨r, g⟩ hg hrepo
    obtain rfl : t.repo = r := hrepo
    exact hground.newest (by rw [hstage]; rfl) g hg

omit [DecidableEq ρ] in
lemma Kept.deregister (h : s.Kept db) (hi : s.threads i = some t) (hstage : t.stage = .deregistering) :
    ({ s with running := Function.update s.running (db t.repo) none }.setThread i (t.reach .releasing)).Kept
      db := by
  have hground := h.grounded i t hi
  have hslot : t.stage.holdsSlot = true := by rw [hstage]; rfl
  refine h.move hi rfl (by simp [hstage]) rfl (fun _ _ => rfl) ?_ ?_ (fun he => absurd he Bool.false_ne_true) rfl
    (fun hh _ => ⟨hh, by simp [hstage]⟩) h.published_le h.in_order
  · exact ⟨fun _ => hground.slot hslot, fun h => absurd h Bool.false_ne_true, hground.current,
      fun h => absurd h Bool.false_ne_true, fun hh _ => hground.latched hh (by simp [hstage]),
      fun h => absurd h (by simp)⟩
  · intro j u hji hj hg
    refine hg.keep (fun _ => rfl) (fun hf => ?_) le_rfl (fun _ _ hg => hg) fun _ _ => rfl
    exact absurd (h.alone hi hslot hj (SeedStage.holdsSlot_of_holdsFlag hf)) hji

omit [DecidableEq ρ] [DecidableEq δ] in
lemma Kept.release (h : s.Kept db) (hi : s.threads i = some t) (hstage : t.stage = .releasing) :
    ({ s with runSlot := none }.setThread i (t.reach .settling)).Kept db := by
  have hground := h.grounded i t hi
  refine h.move hi rfl (by simp [hstage]) rfl (fun _ _ => rfl) ?_ ?_ (fun he => absurd he Bool.false_ne_true) rfl
    (fun hh _ => ⟨hh, by simp [hstage]⟩) h.published_le h.in_order
  · exact ⟨fun h => absurd h Bool.false_ne_true, fun h => absurd h Bool.false_ne_true, hground.current,
      fun h => absurd h Bool.false_ne_true, fun hh _ => hground.latched hh (by simp [hstage]),
      fun h => absurd h (by simp)⟩
  · intro j u hji hj hg
    refine hg.keep (fun hs => ?_) (fun _ => rfl) le_rfl (fun _ _ hg => hg) fun _ _ => rfl
    exact absurd (h.alone hi (by rw [hstage]; rfl) hj hs) hji

omit [DecidableEq ρ] in
lemma Kept.clear (h : s.Kept db) (hi : s.threads i = some t) (hstage : t.stage = .unlatching) :
    ({ s with reseedScheduled := Function.update s.reseedScheduled (db t.repo) false }.setThread i
      (t.reach .ended)).Kept db := by
  have hground := h.grounded i t hi
  refine h.move hi rfl (by simp [hstage]) rfl (fun _ _ => rfl) ?_ ?_ (fun he => absurd he Bool.false_ne_true) rfl
    (fun hh _ => ⟨hh, by simp [hstage]⟩) h.published_le h.in_order
  · exact ⟨fun h => absurd h Bool.false_ne_true, fun h => absurd h Bool.false_ne_true, hground.current,
      fun h => absurd h Bool.false_ne_true, fun _ hlive => absurd rfl hlive,
      fun h => absurd h (by simp)⟩
  · intro j u hji hj hg
    refine hg.keep (fun _ => rfl) (fun _ => rfl) le_rfl (fun _ _ hg => hg) fun hu hend => ?_
    refine Function.update_of_ne (fun hdb => hji ?_) ..
    exact h.one_heal j i u t hj hi hu (hground.unlatches hstage) hend (by simp [hstage]) hdb

omit [DecidableEq ρ] [DecidableEq δ] in
lemma requestCancelForDb_cancelled (d : δ) (j : ι) :
    (s.requestCancelForDb d).cancelled j = true ↔ s.cancelled j = true ∨ s.running d = some j := by
  rw [requestCancelForDb]
  cases hrunning : s.running d with
  | none => simp
  | some k =>
    by_cases hjk : j = k
    · simp [hjk]
    · simp [hjk, Ne.symm hjk]

omit [DecidableEq ρ] [DecidableEq δ] in
lemma Kept.forget (h : s.Kept db) (d : δ) : (s.requestCancelForDb d).Kept db := by
  refine ⟨fun j u hj => (h.grounded j u hj).keep (fun _ => rfl)
    (fun _ => rfl) le_rfl (fun _ _ hg => hg) fun _ _ => rfl, ?_, h.one_heal, h.published_le, h.in_order⟩
  intro j u hj he hlt
  exact (h.outdated j u hj he hlt).imp_left fun hc => (requestCancelForDb_cancelled d j).mpr (.inl hc)

omit [DecidableEq ρ] [DecidableEq δ] in
lemma Kept.cancel (h : s.Kept db) (hi : s.threads i = some t) (hstage : t.stage = .bumped) :
    ((s.requestCancelForDb (db t.repo)).setThread i (t.reach .queued)).Kept db := by
  have hground := h.grounded i t hi
  refine h.advance rfl ?_ (fun _ _ _ _ hg =>
    hg.keep (fun _ => rfl) (fun _ => rfl) le_rfl (fun _ _ hg => hg) fun _ _ => rfl)
    (fun he => absurd he Bool.false_ne_true) ?_ ?_ h.published_le h.in_order
  · exact ⟨fun h => absurd h Bool.false_ne_true, fun h => absurd h Bool.false_ne_true, hground.current,
      fun h => absurd h Bool.false_ne_true, fun hh _ => hground.latched hh (by simp [hstage]),
      fun h => absurd h (by simp)⟩
  · intro j u hji hj he hlt
    change (s.requestCancelForDb (db t.repo)).cancelled j = true ∨ _
    rw [requestCancelForDb_cancelled]
    rcases h.outdated j u hj he hlt with hc | ⟨k, v, hk, hv, hrepo⟩
    · exact .inl (.inl hc)
    · by_cases hki : k = i
      · subst hki
        obtain rfl : t = v := Option.some.inj (hi.symm.trans hk)
        rw [hrepo]
        exact .inl (.inr ((h.grounded j u hj).flag (SeedStage.holdsFlag_of_embeds he)))
      · exact .inr ⟨k, v, (Function.update_of_ne hki ..).trans hk, hv, hrepo⟩
  · intro hh _ j u hji hj hu hend hdb
    exact hji (h.one_heal j i u t hj hi hu hh hend (by simp [hstage]) hdb)

lemma Kept.of_move {e : SeedEvent ι ρ δ} (h : s.Kept db) (hmove : s.Move db e s') : s'.Kept db := by
  cases hmove with
  | stay => exact h
  | inner i t t' hi hinner => exact h.inner hi hinner
  | bump i repo hi => exact h.bump repo hi
  | switchedOff i repo hi => exact h.switchedOff repo hi
  | cancel i t hi hstage => exact h.cancel hi hstage
  | forget d => exact h.forget d
  | schedule i repo hi hfree => exact h.schedule repo hi hfree
  | read i t hi hstage => exact h.read hi hstage
  | takeSlot i t hi hstage hfree => exact h.takeSlot hi hstage hfree
  | register i t hi hstage => exact h.register hi hstage
  | write i t hi hstage => exact h.write hi hstage
  | deregister i t hi hstage => exact h.deregister hi hstage
  | release i t hi hstage => exact h.release hi hstage
  | clear i t hi hstage => exact h.clear hi hstage

lemma run_kept (events : List (SeedEvent ι ρ δ)) : (run (step db) (new : SeedCoordinator ι ρ δ) events).Kept db :=
  run_invariant (fun _ (s : SeedCoordinator ι ρ δ) => s.Kept db) new_kept (fun _ _ e h =>
    h.of_move (step_move db e)) events

omit [DecidableEq ι] [DecidableEq ρ] [DecidableEq δ] in
lemma Kept.safe (h : s.Kept db) : s.Safe db :=
  ⟨fun _ _ _ _ hi hj ht hu => h.alone hj hu hi ht, h.in_order, h.outdated, h.one_heal⟩

/-- In every interleaving of triggers, passes, self-heals and forgets. -/
theorem seeding_safe (events : List (SeedEvent ι ρ δ)) :
    (run (step db) (new : SeedCoordinator ι ρ δ) events).Safe db :=
  (run_kept events).safe

/-- The thread carries the newest generation of its repository, and is not turned away. -/
structure Newest (s : SeedCoordinator ι ρ δ) (i : ι) (t : SeedThread ρ) : Prop where
  trigger : t.heal = false
  current : t.generation = s.generations t.repo
  wanted : t.outcome ≠ some .superseded
  spared : t.stage.holdsFlag = true → s.cancelled i = false
  chained : t.stage = .ended → t.retention = true

/-- Every repository that was triggered has a thread that chained the retention pass for its newest generation, or
still will. -/
def Carried (s : SeedCoordinator ι ρ δ) : Prop :=
  ∀ repo, s.generations repo ≠ 0 → ∃ i t, s.threads i = some t ∧ t.repo = repo ∧ s.Newest i t

omit [DecidableEq ρ] [DecidableEq δ] in
lemma Carried.move (h : s.Carried) (hthreads : s'.threads = Function.update s.threads i (some t'))
    (hgenerations : s'.generations = s.generations)
    (hspared : ∀ j u, s.threads j = some u → s.Newest j u → s.cancelled j = false → s'.cancelled j = false)
    (hown : ∀ t, s.threads i = some t → s.Newest i t → t'.repo = t.repo ∧ s'.Newest i t') : s'.Carried := by
  intro repo htriggered
  rw [hgenerations] at htriggered
  obtain ⟨j, u, hj, hrepo, hnewest⟩ := h repo htriggered
  by_cases hji : j = i
  · subst hji
    obtain ⟨hsame, hnewest'⟩ := hown u hj hnewest
    exact ⟨j, t', by rw [hthreads, Function.update_self], hsame.trans hrepo, hnewest'⟩
  · refine ⟨j, u, by rw [hthreads, Function.update_of_ne hji, hj], hrepo, hnewest.trigger, ?_, hnewest.wanted,
      fun hf => hspared j u hj hnewest (hnewest.spared hf), hnewest.chained⟩
    rw [hgenerations]
    exact hnewest.current

omit [DecidableEq ρ] [DecidableEq δ] in
lemma Newest.inner (h : s.Newest i t) (hinner : s.Inner i t t') : (s.setThread i t').Newest i t' := by
  obtain ⟨hwanted, hchained⟩ := hinner.superseded h.current h.spared h.wanted
  refine ⟨hinner.heal.trans h.trigger, ?_, hwanted, fun hf => h.spared (hinner.flag hf), hchained⟩
  rw [hinner.generation, hinner.repo]
  exact h.current

omit [DecidableEq ρ] [DecidableEq δ] in
lemma Newest.not_cancelled {d : δ} (h : s.Newest i t) (hi : s.threads i = some t)
    (hcancels : s.reachesNewest d = false)
    (hfalse : s.cancelled i = false) : (s.requestCancelForDb d).cancelled i = false := by
  by_contra hc
  rcases (requestCancelForDb_cancelled d i).mp (by simpa using hc) with hc | hrunning
  · rw [hfalse] at hc
    cases hc
  · rw [reachesNewest, hrunning] at hcancels
    simp only [hi, h.trigger, Bool.not_false, Bool.true_and] at hcancels
    exact absurd (isCurrent_iff.mpr h.current) (by simp [hcancels])

omit [DecidableEq ι] [DecidableEq ρ] [DecidableEq δ] in
lemma Newest.advance (h : s.Newest i t) (hheal : t'.heal = t.heal)
    (hcurrent : t'.generation = s'.generations t'.repo)
    (hwanted : t'.outcome ≠ some .superseded) (hspared : t'.stage.holdsFlag = true → s'.cancelled i = false)
    (hlive : t'.stage ≠ .ended) : s'.Newest i t' :=
  ⟨hheal.trans h.trigger, hcurrent, hwanted, hspared, fun hend => absurd hend hlive⟩

omit [DecidableEq δ] in
lemma Carried.bump (h : s.Carried) (repo : ρ) (hi : s.threads i = none) : ((s.bumpGeneration repo).setThread i
    ⟨repo, false, s.generations repo + 1, seedRequeueMaxAttempts, .bumped, none, false⟩).Carried := by
  intro r htriggered
  by_cases hr : r = repo
  · subst hr
    refine ⟨i, ⟨r, false, s.generations r + 1, seedRequeueMaxAttempts, .bumped, none, false⟩,
      Function.update_self ..,
      rfl, rfl, ?_, by simp, fun hf => absurd hf Bool.false_ne_true, fun hend => absurd hend (by simp)⟩
    change s.generations r + 1 = Function.update s.generations r (s.generations r + 1) r
    rw [Function.update_self]
  · have hsame : ((s.bumpGeneration repo).setThread i
        ⟨repo, false, s.generations repo + 1, seedRequeueMaxAttempts, .bumped, none, false⟩).generations r =
        s.generations r := Function.update_of_ne hr ..
    rw [hsame] at htriggered
    obtain ⟨j, u, hj, hrepo, hnewest⟩ := h r htriggered
    have hji : j ≠ i := by
      rintro rfl
      rw [hi] at hj
      cases hj
    refine ⟨j, u, (Function.update_of_ne hji ..).trans hj, hrepo, hnewest.trigger, ?_,
      hnewest.wanted, hnewest.spared, hnewest.chained⟩
    rw [hrepo, hsame, hnewest.current, hrepo]

lemma Carried.of_move {e : SeedEvent ι ρ δ} (h : s.Carried) (hkept : s.Kept db) (hmove : s.Move db e s')
    (hcancels : s.cancelsNewest db e = false) : s'.Carried := by
  cases hmove with
  | stay => exact h
  | inner i t t' hi hinner =>
    refine h.move rfl rfl (fun _ _ _ _ hc => hc) fun u hu hnewest => ?_
    obtain rfl : t = u := Option.some.inj (hi.symm.trans hu)
    exact ⟨hinner.repo, hnewest.inner hinner⟩
  | bump i repo hi => exact h.bump repo hi
  | switchedOff i repo hi =>
    refine h.move rfl rfl (fun _ _ _ _ hc => hc) fun u hu => ?_
    rw [hi] at hu
    cases hu
  | cancel i t hi hstage =>
    rw [cancelsNewest, hi] at hcancels
    simp only [hstage, decide_true, Bool.true_and] at hcancels
    refine h.move rfl rfl (fun j u hj hnewest hc => hnewest.not_cancelled hj hcancels hc) fun u hu hnewest => ?_
    obtain rfl : t = u := Option.some.inj (hi.symm.trans hu)
    exact ⟨rfl, hnewest.advance rfl hnewest.current hnewest.wanted (fun hf => absurd hf Bool.false_ne_true)
      (by simp)⟩
  | forget d =>
    intro repo htriggered
    obtain ⟨j, u, hj, hrepo, hnewest⟩ := h repo htriggered
    exact ⟨j, u, hj, hrepo, hnewest.trigger, hnewest.current, hnewest.wanted,
      fun hf => hnewest.not_cancelled hj hcancels (hnewest.spared hf), hnewest.chained⟩
  | schedule i repo hi hfree =>
    refine h.move rfl rfl (fun _ _ _ _ hc => hc) fun u hu => ?_
    rw [hi] at hu
    cases hu
  | read i t hi hstage =>
    refine h.move rfl rfl (fun _ _ _ _ hc => hc) fun u hu hnewest => ?_
    obtain rfl : t = u := Option.some.inj (hi.symm.trans hu)
    exact ⟨rfl, hnewest.advance rfl rfl hnewest.wanted (fun hf => absurd hf Bool.false_ne_true) (by simp)⟩
  | takeSlot i t hi hstage hfree =>
    refine h.move rfl rfl (fun _ _ _ _ hc => hc) fun u hu hnewest => ?_
    obtain rfl : t = u := Option.some.inj (hi.symm.trans hu)
    exact ⟨rfl, hnewest.advance rfl hnewest.current hnewest.wanted (fun hf => absurd hf Bool.false_ne_true)
      (by simp)⟩
  | register i t hi hstage =>
    refine h.move rfl rfl ?_ fun u hu hnewest => ?_
    · intro j u _ _ hc
      change Function.update s.cancelled i false j = false
      by_cases hji : j = i
      · rw [hji, Function.update_self]
      · rw [Function.update_of_ne hji, hc]
    · obtain rfl : t = u := Option.some.inj (hi.symm.trans hu)
      exact ⟨rfl, hnewest.advance rfl hnewest.current hnewest.wanted (fun _ => Function.update_self ..) (by simp)⟩
  | write i t hi hstage =>
    refine h.move rfl rfl (fun _ _ _ _ hc => hc) fun u hu hnewest => ?_
    obtain rfl : t = u := Option.some.inj (hi.symm.trans hu)
    refine ⟨rfl, hnewest.advance rfl hnewest.current (by simp [SeedThread.leave])
      (fun _ => hnewest.spared ?_) (by simp)⟩
    rw [hstage]
    rfl
  | deregister i t hi hstage =>
    refine h.move rfl rfl (fun _ _ _ _ hc => hc) fun u hu hnewest => ?_
    obtain rfl : t = u := Option.some.inj (hi.symm.trans hu)
    exact ⟨rfl, hnewest.advance rfl hnewest.current hnewest.wanted (fun hf => absurd hf Bool.false_ne_true)
      (by simp)⟩
  | release i t hi hstage =>
    refine h.move rfl rfl (fun _ _ _ _ hc => hc) fun u hu hnewest => ?_
    obtain rfl : t = u := Option.some.inj (hi.symm.trans hu)
    exact ⟨rfl, hnewest.advance rfl hnewest.current hnewest.wanted (fun hf => absurd hf Bool.false_ne_true)
      (by simp)⟩
  | clear i t hi hstage =>
    refine h.move rfl rfl (fun _ _ _ _ hc => hc) fun u hu hnewest => ?_
    obtain rfl : t = u := Option.some.inj (hi.symm.trans hu)
    have hheal := (hkept.grounded i t hi).unlatches hstage
    rw [hnewest.trigger] at hheal
    cases hheal

lemma run_carried (events : List (SeedEvent ι ρ δ))
    (h : ∀ pre e, pre ++ [e] <+: events →
      (run (step db) (new : SeedCoordinator ι ρ δ) pre).cancelsNewest db e = false) :
    (run (step db) (new : SeedCoordinator ι ρ δ) events).Carried := by
  induction events using List.reverseRecOn with
  | nil => exact fun repo htriggered => absurd rfl htriggered
  | append_singleton events e ih =>
    rw [run_snoc]
    have hpre := ih fun pre e' hp => h pre e' (hp.trans (List.prefix_append _ _))
    exact hpre.of_move (run_kept events) (step_move db e) (h events e List.prefix_rfl)

/-- In a run whose cancels never reach the newest pass of a repository, the retention pass follows every trigger:
once the threads of the repository have ended, the trigger of its newest generation has chained it. -/
theorem retention_follows (events : List (SeedEvent ι ρ δ))
    (h : ∀ pre e, pre ++ [e] <+: events →
      (run (step db) (new : SeedCoordinator ι ρ δ) pre).cancelsNewest db e = false)
    (repo : ρ) (htriggered : (run (step db) (new : SeedCoordinator ι ρ δ) events).generations repo ≠ 0)
    (hended : ∀ i t, (run (step db) (new : SeedCoordinator ι ρ δ) events).threads i = some t → t.repo = repo →
      t.stage = .ended) :
    ∃ i t, (run (step db) (new : SeedCoordinator ι ρ δ) events).threads i = some t ∧
      t.repo = repo ∧ t.heal = false ∧
      t.generation = (run (step db) (new : SeedCoordinator ι ρ δ) events).generations repo ∧
      t.retention = true := by
  obtain ⟨i, t, hi, hrepo, hnewest⟩ := run_carried events h repo htriggered
  have hcurrent := hnewest.current.trans (congrArg _ hrepo)
  exact ⟨i, t, hi, hrepo, hnewest.trigger, hcurrent, hnewest.chained (hended i t hi hrepo)⟩

inductive SeedCaller
  | first
  | second
  deriving DecidableEq

def SeedCaller.trigger (i : SeedCaller) : List (SeedEvent SeedCaller Unit Unit) :=
  [.spawnAutoSeed i () true, .requestCancel i]

def SeedCaller.start (i : SeedCaller) : List (SeedEvent SeedCaller Unit Unit) :=
  [.startAttempt i, .tryAcquireRunSlot i, .recheck i, .registerRunning i, .confirm i]

def SeedCaller.stop (i : SeedCaller) (result : BuildEnd) : List (SeedEvent SeedCaller Unit Unit) :=
  [.build i result, .deregister i, .releaseRunSlot i, .settle i]

/-- The second trigger comes while the pass of the first builds. -/
def secondOvertakes : List (SeedEvent SeedCaller Unit Unit) :=
  SeedCaller.first.trigger ++ SeedCaller.first.start ++ SeedCaller.second.trigger ++
    SeedCaller.first.stop .cancelled ++ SeedCaller.second.start ++ SeedCaller.second.stop (.skipped "no corpus")

theorem retention_follows_second :
    ∃ i t, (run (step id) new secondOvertakes).threads i = some t ∧ t.repo = () ∧ t.heal = false ∧
      t.generation = (run (step id) new secondOvertakes).generations () ∧ t.retention = true := by
  refine @retention_follows _ _ _ _ _ _ id secondOvertakes ((forall_prefix_snoc _ _).mpr (by decide))
    () (by decide) ?_
  intro i t hi _
  have hstage : ∀ i, ((run (step id) new secondOvertakes).threads i).map (·.stage) = some .ended := by
    intro i
    cases i <;> decide
  have ht := hstage i
  rw [hi] at ht
  exact Option.some.inj ht

/-- A trigger that cancels late hits the pass of a newer one: then no thread chains the retention pass. -/
example : ∀ i, ((run (step id) new ([SeedEvent.spawnAutoSeed .first () true] ++ SeedCaller.second.trigger ++
    SeedCaller.second.start ++ [.requestCancel .first] ++ SeedCaller.second.stop .cancelled ++
    [.startAttempt .first, .settle .first])).threads i).map (fun t => (t.stage, t.retention)) =
      some (.ended, false) := by
  intro i
  cases i <;> decide

end SeedCoordinator

end RepoGraph.DaemonRuntime
