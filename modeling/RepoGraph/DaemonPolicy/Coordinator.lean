import Mathlib.Data.Fintype.Basic
import RepoGraph.DaemonPolicy.State

/-! The coordinator as a system of calls. What a call does between taking the mutex and releasing
it, or waiting on the condition variable, is one step. -/

namespace RepoGraph.DaemonPolicy

/-- Where a call stands. A waiting call is `woken` when it was notified and has not run since. -/
inductive Phase
  | idle
  | queueing (kind : WriteKind) (timed : Bool) (ticket : ℕ)
  | readWait (timed woken : Bool)
  | writeWait (kind : WriteKind) (timed : Bool) (ticket : ℕ) (woken : Bool)
  | readGuard
  | writeGuard (kind : WriteKind)
  | panicked (msg : String)
  deriving DecidableEq, Repr

def Phase.wake : Phase → Phase
  | readWait timed _ => readWait timed true
  | writeWait kind timed ticket _ => writeWait kind timed ticket true
  | p => p

/-- The coordinator with the calls on it; `arrivals` records who joined the write queue, and no
step reads it. -/
structure Sys (ι : Type) where
  state : CoordinatorState
  writeQueue : List (ℕ × WriteKind)
  nextTicket : ℕ
  calls : ι → Phase
  arrivals : List (ℕ × WriteKind)

/-- `expired` tells what a timed call finds when it compares its deadline with the clock. -/
inductive Event (ι : Type)
  | acquireRead (i : ι) (timed expired : Bool)
  | tryAcquireRead (i : ι)
  | takeTicket (i : ι) (kind : WriteKind) (timed : Bool)
  | enqueue (i : ι) (expired : Bool)
  | tryAcquireWriteKind (i : ι) (kind : WriteKind)
  | resume (i : ι) (expired : Bool)
  | timeOut (i : ι)
  | dropGuard (i : ι)
  deriving DecidableEq, Repr

def Event.caller {ι : Type} : Event ι → ι
  | acquireRead i _ _ | tryAcquireRead i | takeTicket i _ _ | enqueue i _ | tryAcquireWriteKind i _ | resume i _
  | timeOut i | dropGuard i => i

namespace Sys

variable {ι : Type} [DecidableEq ι]

def new : Sys ι :=
  { state := .idle, writeQueue := [], nextTicket := 1, calls := fun _ => .idle, arrivals := [] }

def setPhase (s : Sys ι) (i : ι) (p : Phase) : Sys ι := { s with calls := Function.update s.calls i p }

def notifyAll (s : Sys ι) : Sys ι := { s with calls := fun j => (s.calls j).wake }

def panic (s : Sys ι) (i : ι) (entry msg : String) : Sys ι :=
  s.setPhase i (.panicked (entry ++ " invariant violation: " ++ msg))

def waitRead (s : Sys ι) (i : ι) (timed expired : Bool) : Sys ι :=
  if timed && expired then s.setPhase i .idle else s.setPhase i (.readWait timed false)

def readRound (s : Sys ι) (i : ι) (timed expired : Bool) : Sys ι :=
  if s.writeQueue ≠ [] then s.waitRead i timed expired
  else
    match s.state.tryAcquireRead with
    | .ok state => { s with state := state }.setPhase i .readGuard
    | .blocked _ => s.waitRead i timed expired
    | .conflict msg | .invariantViolation msg =>
      s.panic i (if timed then "acquire_read_timeout" else "acquire_read") msg

def tryRead (s : Sys ι) (i : ι) : Sys ι :=
  if s.writeQueue ≠ [] then s
  else
    match s.state.tryAcquireRead with
    | .ok state => { s with state := state }.setPhase i .readGuard
    | .blocked _ => s
    | .conflict msg | .invariantViolation msg => s.panic i "try_acquire_read" msg

def giveUp (s : Sys ι) (i : ι) (ticket : ℕ) : Sys ι :=
  ({ s with writeQueue := s.writeQueue.filter fun e => e.1 ≠ ticket }.setPhase i .idle).notifyAll

def waitWrite (s : Sys ι) (i : ι) (kind : WriteKind) (timed : Bool) (ticket : ℕ) (expired : Bool) : Sys ι :=
  if timed && expired then s.giveUp i ticket else s.setPhase i (.writeWait kind timed ticket false)

def writeRound (s : Sys ι) (i : ι) (kind : WriteKind) (timed : Bool) (ticket : ℕ) (expired : Bool) : Sys ι :=
  if s.writeQueue.head?.map Prod.fst ≠ some ticket then s.waitWrite i kind timed ticket expired
  else
    match kind.tryFn s.state with
    | .ok state => { s with state := state, writeQueue := s.writeQueue.tail }.setPhase i (.writeGuard kind)
    | .blocked _ | .conflict _ => s.waitWrite i kind timed ticket expired
    | .invariantViolation msg => s.panic i (if timed then "acquire_write_timeout" else "acquire_write") msg

def pushBack (s : Sys ι) (i : ι) (kind : WriteKind) (timed : Bool) (ticket : ℕ) : Sys ι :=
  { s with writeQueue := s.writeQueue ++ [(ticket, kind)], arrivals := s.arrivals ++ [(ticket, kind)] }.setPhase i
    (.writeWait kind timed ticket true)

def tryWrite (s : Sys ι) (i : ι) (kind : WriteKind) : Sys ι :=
  if s.writeQueue ≠ [] then s
  else
    match kind.tryFn s.state with
    | .ok state => { s with state := state }.setPhase i (.writeGuard kind)
    | .blocked _ | .conflict _ => s
    | .invariantViolation msg => s.panic i "try_acquire_write" msg

def releaseReadInternal (s : Sys ι) (i : ι) : Sys ι :=
  match s.state.releaseRead with
  | .ok state => ({ s with state := state }.setPhase i .idle).notifyAll
  | .invariantViolation msg => s.panic i "release_read" msg
  | .blocked _ | .conflict _ => s.setPhase i (.panicked "release_read unexpected result")

def releaseWriteInternal (s : Sys ι) (i : ι) (kind : WriteKind) : Sys ι :=
  match kind.releaseFn s.state with
  | .ok state => ({ s with state := state }.setPhase i .idle).notifyAll
  | .invariantViolation msg => s.panic i "release_write" msg
  | .blocked _ | .conflict _ => s.setPhase i (.panicked "release_write unexpected result")

/-- An event that its call cannot make where it stands changes nothing. -/
def step (s : Sys ι) : Event ι → Sys ι
  | .acquireRead i timed expired =>
    match s.calls i with
    | .idle => s.readRound i timed expired
    | _ => s
  | .tryAcquireRead i =>
    match s.calls i with
    | .idle => s.tryRead i
    | _ => s
  | .takeTicket i kind timed =>
    match s.calls i with
    | .idle => { s with nextTicket := s.nextTicket + 1 }.setPhase i (.queueing kind timed s.nextTicket)
    | _ => s
  | .enqueue i expired =>
    match s.calls i with
    | .queueing kind timed ticket => (s.pushBack i kind timed ticket).writeRound i kind timed ticket expired
    | _ => s
  | .tryAcquireWriteKind i kind =>
    match s.calls i with
    | .idle => s.tryWrite i kind
    | _ => s
  | .resume i expired =>
    match s.calls i with
    | .readWait timed true => s.readRound i timed expired
    | .writeWait kind timed ticket true => s.writeRound i kind timed ticket expired
    | _ => s
  | .timeOut i =>
    match s.calls i with
    | .readWait true _ => s.setPhase i .idle
    | .writeWait _ true ticket _ => s.giveUp i ticket
    | _ => s
  | .dropGuard i =>
    match s.calls i with
    | .readGuard => s.releaseReadInternal i
    | .writeGuard kind => s.releaseWriteInternal i kind
    | _ => s

variable [Fintype ι]

def readers (s : Sys ι) : ℕ := (Finset.univ.filter fun i => s.calls i = .readGuard).card

end Sys

end RepoGraph.DaemonPolicy
