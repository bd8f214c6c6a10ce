import RepoGraph.LiveGraph.WholeGraph

/-! Shortest paths over the strict call graph: a breadth-first search over the confirmed calls of the
resident IRs, and the walk back along the parents it has recorded. -/

namespace RepoGraph.LiveGraph

open Lib Ir TrustModel GraphAlgorithms

structure PathAnswer where
  nodes : List String
  edges : List (String × String)
  contributingEpochs : BTreeMap String ℕ

def pathCancelCheckInterval : ℕ := 256

def addOwned (owner : HashMap String String) (e : Σ _ : String, Slot) : HashMap String String :=
  e.2.defines.keys.foldl (fun owner k => owner.insert k e.1) owner

def owner (g : LiveGraph) : HashMap String String := g.slots.entries.foldl addOwned ∅

structure CallGraph where
  adj : HashMap String (List (String × String))
  known : BTreeSet String

def CallGraph.neighbors (calls : CallGraph) (node : String) : List (String × String) :=
  calls.adj[node]?.getD []

def addCall (pid : String) (calls : CallGraph) (e : IrEdge) : CallGraph :=
  if e.basis = .syntaxConfirmedCall then
    { adj := calls.adj.insert e.src.asStr (calls.neighbors e.src.asStr ++ [(e.dst.asStr, pid)])
      known := (calls.known.insert e.src.asStr).insert e.dst.asStr }
  else calls

def addCalls (calls : CallGraph) (e : Σ _ : String, Slot) : CallGraph :=
  match e.2.ir with
  | some ir => ir.edges.foldl (addCall e.1) calls
  | none => calls

def callGraph (g : LiveGraph) : CallGraph :=
  g.slots.entries.foldl addCalls ⟨∅, .ofList g.owner.keys⟩

def fullyExpandable (g : LiveGraph) (node : String) : Bool :=
  match g.owner[node]? with
  | some pid => ((g.slot pid).map fun s => s.ir.isSome && statusFreshness s.status = .fresh).getD false
  | none => false

structure Search where
  visited : BTreeSet String
  parent : HashMap String (String × String)
  queue : List String
  degraded : Bool
  popsSinceCheck : ℕ
  consulted : ℕ

def Search.start (source : String) : Search where
  visited := .ofList [source]
  parent := ∅
  queue := [source]
  degraded := false
  popsSinceCheck := 0
  consulted := 0

def visitNeighbor (n : String) (st : Search) (neighbor : String × String) : Search :=
  if neighbor.1 ∈ st.visited then st
  else
    { st with
      visited := st.visited.insert neighbor.1
      parent := st.parent.insert neighbor.1 (n, neighbor.2)
      queue := st.queue ++ [neighbor.1] }

def popCheckpoint (interval : ℕ) (cancel : CancelCheck) (st : Search) : ControlFlow × Search :=
  if st.popsSinceCheck + 1 ≥ interval then
    (cancel st.consulted, { st with popsSinceCheck := 0, consulted := st.consulted + 1 })
  else (.cont, { st with popsSinceCheck := st.popsSinceCheck + 1 })

def expand (g : LiveGraph) (n : String) (st : Search) : Search :=
  let st := if g.fullyExpandable n then st else { st with degraded := true }
  (g.callGraph.neighbors n).foldl (visitNeighbor n) st

def searchStep (interval : ℕ) (cancel : CancelCheck) (g : LiveGraph) (target : String) (st : Search) :
    Exec (Search ⊕ Except Cancelled (Bool × Search)) :=
  match st.queue with
  | [] => .ok (.inr (.ok (false, st)))
  | n :: queue =>
    match popCheckpoint interval cancel { st with queue := queue } with
    | (.brk, _) => .ok (.inr (.error .cancelled))
    | (.cont, st) =>
      if n = target then .ok (.inr (.ok (true, st))) else .ok (.inl (g.expand n st))

structure Trace where
  cur : String
  nodesRev : List String
  edgesRev : List (String × String)
  parts : BTreeSet String

def addOwner (g : LiveGraph) (node : String) (parts : BTreeSet String) : BTreeSet String :=
  match g.owner[node]? with
  | some p => parts.insert p
  | none => parts

def Trace.start (g : LiveGraph) (target : String) : Trace := ⟨target, [target], [], g.addOwner target ∅⟩

def Trace.step (g : LiveGraph) (prev pid : String) (t : Trace) : Trace where
  cur := prev
  nodesRev := t.nodesRev ++ [prev]
  edgesRev := t.edgesRev ++ [(prev, t.cur)]
  parts := g.addOwner prev (t.parts.insert pid)

def traceStep (g : LiveGraph) (parent : HashMap String (String × String)) (source : String) (t : Trace) :
    Exec (Trace ⊕ Trace) :=
  match parent[t.cur]? with
  | none => .ok (.inr t)
  | some (prev, pid) =>
    let t := t.step g prev pid
    if prev = source then .ok (.inr t) else .ok (.inl t)

def foundEnvelope (g : LiveGraph) (t : Trace) : Exec (AnswerEnvelope PathAnswer) :=
  let folded := g.foldContributing t.parts.toList
  let languages := orTypeScript folded.languages
  let data := ⟨t.nodesRev.reverse, t.edgesRev.reverse, folded.epochs⟩
  if folded.freshness = .fresh then
    unwrapOr "path exact invariant holds" (AnswerEnvelope.exact data .complete .fresh [] languages)
  else
    unwrapOr "path stale invariant holds" (AnswerEnvelope.stale data folded.freshness [] [] [] languages)

def noPathEnvelope (g : LiveGraph) (source : String) (degraded : Bool) : Exec (AnswerEnvelope PathAnswer) :=
  let languages := orTypeScript
    (((g.owner[source]?.bind g.slot).map fun s => ({s.language} : Finset LanguageSupport)).getD ∅)
  let empty := ⟨[], [], ∅⟩
  if degraded then
    unwrapOr "path partial invariant holds"
      (AnswerEnvelope.incomplete (some empty) [.unresolvedAlias] [] .fresh [] languages)
  else
    unwrapOr "path exact no-path invariant holds"
      (AnswerEnvelope.exact empty .complete .fresh [] languages)

def pathFuel (g : LiveGraph) : ℕ := g.callGraph.known.size + 1

def pathEvery (interval : ℕ) (g : LiveGraph) (source target : String) (cancel : CancelCheck) :
    Exec (Except Cancelled (AnswerEnvelope PathAnswer)) := do
  if source ∉ g.callGraph.known ∨ target ∉ g.callGraph.known then
    .ok (.ok (.unavailable .unresolvedAlias .unavailable ∅))
  else
    match ← loop (searchStep interval cancel g target) g.pathFuel (.start source) with
    | .error e => .ok (.error e)
    | .ok (true, st) => do
      let t ← loop (traceStep g st.parent source) g.pathFuel (.start g target)
      .ok <$> g.foundEnvelope t
    | .ok (false, st) => .ok <$> g.noPathEnvelope source st.degraded

def pathCancellable (g : LiveGraph) (source target : String) (cancel : CancelCheck) :
    Exec (Except Cancelled (AnswerEnvelope PathAnswer)) :=
  pathEvery pathCancelCheckInterval g source target cancel

def path (g : LiveGraph) (source target : String) : Exec (AnswerEnvelope PathAnswer) := do
  unwrapOr "never-breaking checkpoint cannot cancel" (← g.pathCancellable source target (fun _ => .cont))

end RepoGraph.LiveGraph
