import RepoGraph.Lib.Cycles
import RepoGraph.Lib.Exec
import RepoGraph.Lib.Folds

/-! The walk of a cycle: a depth-first search over the edges among its members that stops at the first edge back
into its own path. Paths and cursors are lists with the top first. -/

namespace RepoGraph.Agent

open Lib Lib.Digraph

def edgeCap : ℕ := 200

/-- The edges among the members of a cycle, in order and up to the cap; the flag tells a cut. -/
def intraCycleEdges (memberIds : List String) (allEdges : List (String × String)) :
    List (String × String) × Bool :=
  let members : HashSet String := Std.ExtTreeSet.ofList memberIds compare
  let kept : BTreeSet (String × String) := allEdges.foldl (fun kept edge =>
    if edge.1 = edge.2 then kept
    else if edge.1 ∈ members ∧ edge.2 ∈ members then kept.insert edge
    else kept) ∅
  (kept.toList.take edgeCap, decide (kept.size > edgeCap))

abbrev WalkAdjacency := HashMap String (List String)

def walkNeighbours (adj : WalkAdjacency) (node : String) : List String := adj[node]?.getD []

def pushEdge (memberIds : HashSet String) (adj : WalkAdjacency) (edge : String × String) : WalkAdjacency :=
  if edge.1 ∈ memberIds ∧ edge.2 ∈ memberIds then
    adj.insert edge.1 (walkNeighbours adj edge.1 ++ [edge.2])
  else adj

def walkAdjacency (memberIds : HashSet String) (edges : List (String × String)) : WalkAdjacency :=
  (edges.foldl (pushEdge memberIds) ∅).map fun _ targets => sortBy compare targets

structure CycleSearch where
  path : List String
  onPath : HashSet String
  cursor : List ℕ
  visited : HashSet String

def cycleStep (neighbours : String → List String) (s : CycleSearch) :
    Exec (CycleSearch ⊕ (Option (List String) × HashSet String)) :=
  match s.path with
  | [] => .ok (.inr (none, s.visited))
  | node :: path =>
    match s.cursor with
    | [] => .error (.panic "called `Option::unwrap()` on a `None` value")
    | i :: cursor =>
      match (neighbours node)[i]? with
      | some next =>
        if next ∈ s.onPath then
          let walk := s.path.reverse
          match walk.idxOf? next with
          | none => .error (.panic "called `Option::unwrap()` on a `None` value")
          | some start => .ok (.inr (some (walk.drop start), s.visited))
        else if next ∉ s.visited then
          .ok (.inl
            { s with
              path := next :: s.path
              onPath := s.onPath.insert next
              cursor := 0 :: (i + 1) :: cursor })
        else .ok (.inl { s with cursor := (i + 1) :: cursor })
      | none =>
        .ok (.inl { path, onPath := s.onPath.erase node, cursor, visited := s.visited.insert node })

section Rounds

variable {neighbours : String → List String} {path : List String} {cursor : List ℕ} {node next : String} {i : ℕ}
  {onPath visited : HashSet String}

lemma cycleStep_pop (hend : (neighbours node)[i]? = none) :
    cycleStep neighbours ⟨node :: path, onPath, i :: cursor, visited⟩ =
      .ok (.inl ⟨path, onPath.erase node, cursor, visited.insert node⟩) := by
  unfold cycleStep
  dsimp only
  rw [hend]

lemma cycleStep_back (hnext : (neighbours node)[i]? = some next) (hpath : next ∈ onPath) :
    cycleStep neighbours ⟨node :: path, onPath, i :: cursor, visited⟩ =
      match (node :: path).reverse.idxOf? next with
      | none => .error (.panic "called `Option::unwrap()` on a `None` value")
      | some start => .ok (.inr (some ((node :: path).reverse.drop start), visited)) := by
  unfold cycleStep
  dsimp only
  rw [hnext]
  exact if_pos hpath

lemma cycleStep_push (hnext : (neighbours node)[i]? = some next) (hpath : next ∉ onPath)
    (hvisited : next ∉ visited) :
    cycleStep neighbours ⟨node :: path, onPath, i :: cursor, visited⟩ =
      .ok (.inl ⟨next :: node :: path, onPath.insert next, 0 :: (i + 1) :: cursor, visited⟩) := by
  unfold cycleStep
  dsimp only
  rw [hnext]
  exact (if_neg hpath).trans (if_pos hvisited)

lemma cycleStep_skip (hnext : (neighbours node)[i]? = some next) (hpath : next ∉ onPath)
    (hvisited : next ∈ visited) :
    cycleStep neighbours ⟨node :: path, onPath, i :: cursor, visited⟩ =
      .ok (.inl ⟨node :: path, onPath, (i + 1) :: cursor, visited⟩) := by
  unfold cycleStep
  dsimp only
  rw [hnext]
  exact (if_neg hpath).trans (if_neg (not_not.mpr hvisited))

end Rounds

def dfsFindCycle (fuel : ℕ) (neighbours : String → List String) (start : String) (visited : HashSet String) :
    Exec (Option (List String) × HashSet String) :=
  loop (cycleStep neighbours) fuel
    { path := [start], onPath := Std.ExtTreeSet.ofList [start] compare, cursor := [0], visited }

def searchStarts (fuel : ℕ) (neighbours : String → List String) :
    List String → HashSet String → Exec (Option (List String))
  | [], _ => .ok none
  | start :: rest, visited =>
    if start ∈ visited then searchStarts fuel neighbours rest visited
    else do
      match ← dfsFindCycle fuel neighbours start visited with
      | (some ring, _) => .ok (some ring)
      | (none, visited) => searchStarts fuel neighbours rest visited

def walkFuel (neighbours : String → List String) (members : List (String × String)) : ℕ :=
  (members.map fun m => (neighbours m.1).length + 2).sum + 1

def findCycleWalk (members edges : List (String × String)) : Exec (Option (List String)) := do
  let memberIds : HashSet String := Std.ExtTreeSet.ofList (members.map Prod.fst) compare
  let display : HashMap String String := members.foldl (fun display m => display.insert m.1 m.2) ∅
  let neighbours := walkNeighbours (walkAdjacency memberIds edges)
  let starts := sortBy (fun a b => (compare a.2 b.2).then (compare a.1 b.1)) members
  let ring ← searchStarts (walkFuel neighbours members) neighbours (starts.map Prod.fst) ∅
  return ring.map fun ring => ring.map fun id => display[id]?.getD id

end RepoGraph.Agent
