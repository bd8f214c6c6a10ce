import RepoGraph.Lib.Walks

/-! Directed cycles of a relation: rings of distinct nodes, and the sets of nodes that a search has settled. -/

namespace RepoGraph.Lib.Digraph

open Relation

variable {V : Type} {E E' : V → V → Prop}

def Cyclic (E : V → V → Prop) : Prop := ∃ v, TransGen E v v

structure IsRing (E : V → V → Prop) (ring : List V) : Prop where
  nodup : ring.Nodup
  chain : ring.IsChain E
  closing : ∃ u v, ring.getLast? = some u ∧ ring.head? = some v ∧ E u v

lemma IsRing.cyclic {ring : List V} (h : IsRing E ring) : Cyclic E := by
  obtain ⟨u, v, hlast, hhead, hedge⟩ := h.closing
  have hwalk : IsWalk E v u ring := ⟨h.chain, hhead, hlast⟩
  exact ⟨v, TransGen.tail' hwalk.reach hedge⟩

lemma Cyclic.mono (hmono : ∀ u v, E u v → E' u v) (h : Cyclic E) : Cyclic E' := by
  obtain ⟨v, hv⟩ := h
  exact ⟨v, TransGen.mono hmono v v hv⟩

/-- Where no node has an edge to itself, a cycle is two nodes that reach each other. -/
lemma cyclic_iff_mutual (hirrefl : ∀ v, ¬ E v v) : Cyclic E ↔ ∃ u v, u ≠ v ∧ Mutual E u v := by
  constructor
  · rintro ⟨v, hv⟩
    obtain ⟨w, hedge, hreach⟩ := TransGen.head'_iff.mp hv
    refine ⟨v, w, ?_, ReflTransGen.single hedge, hreach⟩
    rintro rfl
    exact hirrefl v hedge
  · rintro ⟨u, v, hne, huv, hvu⟩
    rcases ReflTransGen.cases_head huv with rfl | ⟨w, hedge, hreach⟩
    · exact absurd rfl hne
    · exact ⟨u, TransGen.head' hedge (hreach.trans hvu)⟩

lemma IsComponent.reach_inside {c : List V} (h : IsComponent E c) {u v : V} (hu : u ∈ c) (hv : v ∈ c) :
    Reach (fun a b => E a b ∧ a ≠ b ∧ a ∈ c ∧ b ∈ c) u v := by
  obtain ⟨huv, -⟩ := (h.mem_iff u hu v).mp hv
  induction huv with
  | refl => exact .refl
  | @tail w v hreach hedge ih =>
    have hback : Reach E v u := ((h.mem_iff u hu v).mp hv).2
    have hw : w ∈ c := (h.mem_iff u hu w).mpr ⟨hreach, hback.head hedge⟩
    by_cases hne : w = v
    · exact hne ▸ ih hw
    · exact (ih hw).tail ⟨hedge, hne, hw, hv⟩

/-- A component of more than one node has a cycle that needs no edge from a node to itself. -/
lemma IsComponent.cyclic {c : List V} (h : IsComponent E c) {u v : V} (hu : u ∈ c) (hv : v ∈ c) (hne : u ≠ v) :
    Cyclic fun a b => E a b ∧ a ≠ b ∧ a ∈ c ∧ b ∈ c := by
  rw [cyclic_iff_mutual fun w hw => hw.2.1 rfl]
  exact ⟨u, v, hne, h.reach_inside hu hv, h.reach_inside hv hu⟩

structure Settled (E : V → V → Prop) (S : V → Prop) : Prop where
  closed : Closed E S
  acyclic : ∀ u, S u → ¬ TransGen E u u

lemma settled_empty (E : V → V → Prop) : Settled E fun _ => False := ⟨fun _ _ h => h.elim, fun _ h => h.elim⟩

lemma Settled.insert {S S' : V → Prop} {n : V} (h : Settled E S) (hn : ¬ S n) (hout : ∀ v, E n v → S v)
    (hS : ∀ v, S' v ↔ v = n ∨ S v) : Settled E S' := by
  constructor
  · intro u v hu hedge
    rw [hS] at hu ⊢
    rcases hu with rfl | hu
    · exact .inr (hout v hedge)
    · exact .inr (h.closed u v hu hedge)
  · intro u hu
    rcases (hS u).mp hu with rfl | hu
    · intro hcycle
      obtain ⟨w, hedge, hreach⟩ := TransGen.head'_iff.mp hcycle
      exact hn (h.closed.reach (hout w hedge) hreach)
    · exact h.acyclic u hu

end RepoGraph.Lib.Digraph
