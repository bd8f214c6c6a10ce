import RepoGraph.Lib.Exec
import RepoGraph.Lib.Containers

/-! Strongly connected components by an iterative depth-first search with an explicit frame stack.
Stacks are lists with the top first. -/

namespace RepoGraph.GraphAlgorithms

open Lib

inductive ControlFlow
  | cont
  | brk
  deriving DecidableEq, Repr

abbrev CancelCheck := ℕ → ControlFlow

inductive Cancelled
  | cancelled
  deriving DecidableEq, Repr

def cancelCheckInterval : ℕ := 256

structure DirectedEdge where
  source : String
  target : String
  deriving DecidableEq, Repr

structure Scc where
  members : List String
  deriving DecidableEq, Repr

namespace Scc

def size (c : Scc) : ℕ := c.members.length

def isCycle (c : Scc) : Bool := c.members.length > 1

end Scc

structure SccResult where
  allSccs : List Scc
  cycles : List Scc
  nodeCount : ℕ
  edgeCount : ℕ
  deriving DecidableEq, Repr

inductive Phase
  | entering
  | neighbors
  | finishing
  deriving DecidableEq, Repr

structure Frame where
  node : String
  neighborIdx : ℕ
  phase : Phase
  deriving DecidableEq, Repr

abbrev Adjacency := HashMap String (List String)

structure TarjanState where
  indexCounter : ℕ
  stack : List String
  onStack : Finset String
  indices : HashMap String ℕ
  lowlinks : HashMap String ℕ
  result : List Scc
  stepsSinceCheck : ℕ
  consulted : ℕ

def TarjanState.initial : TarjanState where
  indexCounter := 0
  stack := []
  onStack := ∅
  indices := ∅
  lowlinks := ∅
  result := []
  stepsSinceCheck := 0
  consulted := 0

def index (m : HashMap String ℕ) (k : String) : Exec ℕ := expect "no entry found for key" m[k]?

def neighborsOf (adjacency : Adjacency) (node : String) : List String := adjacency[node]?.getD []

def checkpoint (interval : ℕ) (cancel : CancelCheck) (st : TarjanState) : ControlFlow × TarjanState :=
  if st.stepsSinceCheck + 1 ≥ interval then
    (cancel st.consulted, { st with stepsSinceCheck := 0, consulted := st.consulted + 1 })
  else (.cont, { st with stepsSinceCheck := st.stepsSinceCheck + 1 })

def enterNode (st : TarjanState) (frame : Frame) (rest : List Frame) : TarjanState × List Frame :=
  if frame.node ∈ st.indices then (st, rest)
  else
    ({ st with
        indices := st.indices.insert frame.node st.indexCounter
        lowlinks := st.lowlinks.insert frame.node st.indexCounter
        indexCounter := st.indexCounter + 1
        stack := frame.node :: st.stack
        onStack := insert frame.node st.onStack },
      { frame with phase := .neighbors } :: rest)

def processNeighbor (adjacency : Adjacency) (st : TarjanState) (frame : Frame) (rest : List Frame) :
    Exec (TarjanState × List Frame) :=
  match (neighborsOf adjacency frame.node)[frame.neighborIdx]? with
  | some neighbor =>
    let advanced := { frame with neighborIdx := frame.neighborIdx + 1 }
    if neighbor ∉ st.indices then
      .ok (st, ⟨neighbor, 0, .entering⟩ :: advanced :: rest)
    else if neighbor ∈ st.onStack then do
      let neighborIndex ← index st.indices neighbor
      let currentLowlink ← index st.lowlinks frame.node
      if neighborIndex < currentLowlink then
        .ok ({ st with lowlinks := st.lowlinks.insert frame.node neighborIndex }, advanced :: rest)
      else .ok (st, advanced :: rest)
    else .ok (st, advanced :: rest)
  | none => .ok (st, { frame with phase := .finishing } :: rest)

def updateParentLowlink (st : TarjanState) (node : String) : List Frame → Exec TarjanState
  | [] => .ok st
  | parentFrame :: _ =>
    if parentFrame.phase = .neighbors then do
      let childLowlink ← index st.lowlinks node
      let parentLowlink ← index st.lowlinks parentFrame.node
      if childLowlink < parentLowlink then
        .ok { st with lowlinks := st.lowlinks.insert parentFrame.node childLowlink }
      else .ok st
    else .ok st

def popComponent (node : String) : List String → Finset String → List String →
    Exec (List String × List String × Finset String)
  | [], _, _ => .error (.panic "stack should not be empty")
  | popped :: stack, onStack, members =>
    if popped = node then .ok (members ++ [popped], stack, onStack.erase popped)
    else popComponent node stack (onStack.erase popped) (members ++ [popped])

def finishNode (st : TarjanState) (frame : Frame) (rest : List Frame) :
    Exec (TarjanState × List Frame) := do
  let st ← updateParentLowlink st frame.node rest
  let lowlink ← index st.lowlinks frame.node
  let nodeIndex ← index st.indices frame.node
  if lowlink = nodeIndex then
    let (members, stack, onStack) ← popComponent frame.node st.stack st.onStack []
    .ok ({ st with stack := stack, onStack := onStack, result := st.result ++ [⟨members.reverse⟩] }, rest)
  else .ok (st, rest)

def stepFrame (adjacency : Adjacency) (st : TarjanState) (frame : Frame) (rest : List Frame) :
    Exec (TarjanState × List Frame) :=
  match frame.phase with
  | .entering => .ok (enterNode st frame rest)
  | .neighbors => processNeighbor adjacency st frame rest
  | .finishing => finishNode st frame rest

def visitStep (interval : ℕ) (adjacency : Adjacency) (cancel : CancelCheck) :
    TarjanState × List Frame → Exec ((TarjanState × List Frame) ⊕ (ControlFlow × TarjanState))
  | (st, []) => .ok (.inr (.cont, st))
  | (st, frame :: rest) =>
    match checkpoint interval cancel st with
    | (.brk, st) => .ok (.inr (.brk, st))
    | (.cont, st) => .inl <$> stepFrame adjacency st frame rest

def tarjanVisit (fuel interval : ℕ) (adjacency : Adjacency) (cancel : CancelCheck) (start : String)
    (st : TarjanState) : Exec (ControlFlow × TarjanState) :=
  loop (visitStep interval adjacency cancel) fuel (st, [⟨start, 0, .entering⟩])

def visitAll (fuel interval : ℕ) (adjacency : Adjacency) (cancel : CancelCheck) :
    List String → TarjanState → Exec (ControlFlow × TarjanState)
  | [], st => .ok (.cont, st)
  | start :: rest, st =>
    if start ∈ st.indices then visitAll fuel interval adjacency cancel rest st
    else do
      match ← tarjanVisit fuel interval adjacency cancel start st with
      | (.brk, st) => .ok (.brk, st)
      | (.cont, st) => visitAll fuel interval adjacency cancel rest st

def pushTarget (adjacency : Adjacency) (edge : DirectedEdge) : Adjacency :=
  adjacency.insert edge.source (neighborsOf adjacency edge.source ++ [edge.target])

def buildAdjacency (edges : List DirectedEdge) : Adjacency := edges.foldl pushTarget ∅

def collectNodes (edges : List DirectedEdge) : HashSet String :=
  edges.foldl (fun nodes edge => (nodes.insert edge.source).insert edge.target) ∅

def ensureEntry (adjacency : Adjacency) (node : String) : Adjacency :=
  adjacency.insert node (neighborsOf adjacency node)

def visitFuel (nodeCount edgeCount : ℕ) : ℕ := 3 * nodeCount + 2 * edgeCount + 2

def findSccsEvery (interval : ℕ) (edges : List DirectedEdge) (cancel : CancelCheck) :
    Exec (Except Cancelled SccResult) := do
  let allNodes := collectNodes edges
  -- The nodes of an extensional set are listed in ascending order.
  let sortedNodes := allNodes.toList
  let adjacency := sortedNodes.foldl ensureEntry (buildAdjacency edges)
  let nodeCount := allNodes.size
  let edgeCount := edges.length
  match ← visitAll (visitFuel nodeCount edgeCount) interval adjacency cancel sortedNodes .initial with
  | (.brk, _) => .ok (.error .cancelled)
  | (.cont, st) => .ok (.ok ⟨st.result, st.result.filter Scc.isCycle, nodeCount, edgeCount⟩)

def findSccsCancellable (edges : List DirectedEdge) (cancel : CancelCheck) :
    Exec (Except Cancelled SccResult) :=
  findSccsEvery cancelCheckInterval edges cancel

def findSccs (edges : List DirectedEdge) : Exec SccResult := do
  unwrapOr "never-breaking checkpoint cannot cancel" (← findSccsCancellable edges (fun _ => .cont))

end RepoGraph.GraphAlgorithms
