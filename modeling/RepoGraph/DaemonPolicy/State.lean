import Mathlib.Data.Nat.Basic
import Mathlib.Tactic

/-! The state machine of a repository coordinator, without locks and queues. -/

namespace RepoGraph.DaemonPolicy

inductive CoordinatorState
  | idle
  | reading (n : ℕ)
  | writing
  | refreshing
  | refreshingWithReaders (n : ℕ)
  deriving DecidableEq, Repr

inductive TransitionResult
  | ok (state : CoordinatorState)
  | blocked (state : CoordinatorState)
  | conflict (msg : String)
  | invariantViolation (msg : String)
  deriving DecidableEq, Repr

namespace CoordinatorState

def display : CoordinatorState → String
  | idle => "Idle"
  | reading n => "Reading(" ++ toString n ++ ")"
  | writing => "Writing"
  | refreshing => "Refreshing"
  | refreshingWithReaders n => "RefreshingWithReaders(" ++ toString n ++ ")"

def increment (n : ℕ) : ℕ := (n + 1) % 2 ^ 32

def tryAcquireRead : CoordinatorState → TransitionResult
  | idle => .ok (reading 1)
  | reading n => .ok (reading (increment n))
  | refreshing => .ok (refreshingWithReaders 1)
  | refreshingWithReaders n => .ok (refreshingWithReaders (increment n))
  | writing => .blocked writing

def releaseRead (s : CoordinatorState) : TransitionResult :=
  match s with
  | reading n =>
    if n = 1 then .ok idle
    else if n > 1 then .ok (reading (n - 1))
    else .invariantViolation "Reading(0) is invalid state"
  | refreshingWithReaders n =>
    if n = 1 then .ok refreshing
    else if n > 1 then .ok (refreshingWithReaders (n - 1))
    else .invariantViolation ("cannot release read while " ++ s.display)
  | _ => .invariantViolation ("cannot release read while " ++ s.display)

def tryAcquireWrite (s : CoordinatorState) : TransitionResult :=
  match s with
  | idle => .ok writing
  | reading _ => .blocked s
  | writing | refreshing | refreshingWithReaders _ => .conflict "another write operation is in progress"

def releaseWrite (s : CoordinatorState) : TransitionResult :=
  match s with
  | writing => .ok idle
  | _ => .invariantViolation ("cannot release write while " ++ s.display)

def tryAcquireRefresh (s : CoordinatorState) : TransitionResult :=
  match s with
  | idle => .ok refreshing
  | reading _ => .blocked s
  | writing | refreshing | refreshingWithReaders _ => .conflict "another write operation is in progress"

def releaseRefresh (s : CoordinatorState) : TransitionResult :=
  match s with
  | refreshing => .ok idle
  | refreshingWithReaders n => .ok (reading n)
  | _ => .invariantViolation ("cannot release refresh while " ++ s.display)

def canRead : CoordinatorState → Bool
  | idle | reading _ | refreshing | refreshingWithReaders _ => true
  | writing => false

def readerCount : CoordinatorState → ℕ
  | reading n | refreshingWithReaders n => n
  | idle | writing | refreshing => 0

end CoordinatorState

inductive WriteKind
  | write
  | refresh
  deriving DecidableEq, Repr

def WriteKind.tryFn : WriteKind → CoordinatorState → TransitionResult
  | .write => CoordinatorState.tryAcquireWrite
  | .refresh => CoordinatorState.tryAcquireRefresh

def WriteKind.releaseFn : WriteKind → CoordinatorState → TransitionResult
  | .write => CoordinatorState.releaseWrite
  | .refresh => CoordinatorState.releaseRefresh

namespace CoordinatorState

def permits : ℕ → Option WriteKind → CoordinatorState
  | 0, none => idle
  | n + 1, none => reading (n + 1)
  | _, some .write => writing
  | 0, some .refresh => refreshing
  | n + 1, some .refresh => refreshingWithReaders (n + 1)

lemma tryAcquireRead_permits {r : ℕ} {w : Option WriteKind} {s : CoordinatorState} (hr : r + 1 < 2 ^ 32)
    (h : (permits r w).tryAcquireRead = .ok s) : w ≠ some .write ∧ s = permits (r + 1) w := by
  have hinc : ∀ n, n + 1 + 1 < 2 ^ 32 → increment (n + 1) = n + 1 + 1 := by
    intro n hn
    exact Nat.mod_eq_of_lt hn
  rcases w with _ | _ | _ <;> rcases r with _ | r <;> simp [permits, tryAcquireRead] at h ⊢
  · exact h.symm
  · rw [← h, hinc r hr]
  · exact h.symm
  · rw [← h, hinc r hr]

lemma tryFn_permits {k : WriteKind} {r : ℕ} {w : Option WriteKind} {s : CoordinatorState}
    (h : k.tryFn (permits r w) = .ok s) : r = 0 ∧ w = none ∧ s = permits 0 (some k) := by
  rcases k <;> rcases w with _ | _ | _ <;> rcases r with _ | r <;>
    simp_all [permits, WriteKind.tryFn, tryAcquireWrite, tryAcquireRefresh]

lemma tryFn_ne_invariantViolation (k : WriteKind) (s : CoordinatorState) (msg : String) :
    k.tryFn s ≠ .invariantViolation msg := by
  rcases k <;> rcases s <;> simp [WriteKind.tryFn, tryAcquireWrite, tryAcquireRefresh]

lemma tryFn_idle_iff (k : WriteKind) (s : CoordinatorState) : (∃ s', k.tryFn s = .ok s') ↔ s = idle := by
  rcases k <;> rcases s <;> simp [WriteKind.tryFn, tryAcquireWrite, tryAcquireRefresh]

lemma releaseRead_permits {r : ℕ} {w : Option WriteKind} (h : w ≠ some .write) :
    (permits (r + 1) w).releaseRead = .ok (permits r w) := by
  rcases w with _ | _ | _
  · rcases r with _ | r <;> simp [permits, releaseRead]
  · exact absurd rfl h
  · rcases r with _ | r <;> simp [permits, releaseRead]

lemma releaseFn_permits {k : WriteKind} {r : ℕ} (h : k = .write → r = 0) :
    k.releaseFn (permits r (some k)) = .ok (permits r none) := by
  rcases k
  · rw [h rfl]
    rfl
  · rcases r with _ | r <;> rfl

lemma readerCount_permits {r : ℕ} {w : Option WriteKind} (h : w = some .write → r = 0) :
    (permits r w).readerCount = r := by
  rcases w with _ | _ | _
  · rcases r with _ | r <;> rfl
  · rw [h rfl]
    rfl
  · rcases r with _ | r <;> rfl

end CoordinatorState

end RepoGraph.DaemonPolicy
