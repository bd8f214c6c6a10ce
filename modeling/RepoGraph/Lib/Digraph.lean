import Mathlib.Data.List.Nodup
import Mathlib.Logic.Relation
import Mathlib.Tactic

/-! Reachability and strongly connected components of a relation. -/

namespace RepoGraph.Lib.Digraph

open Relation

variable {V : Type} (E : V → V → Prop)

abbrev Reach := ReflTransGen E

def Mutual (u v : V) : Prop := Reach E u v ∧ Reach E v u

def Closed (S : V → Prop) : Prop := ∀ u v, S u → E u v → S v

structure IsComponent (c : List V) : Prop where
  nonempty : c ≠ []
  mem_iff : ∀ u ∈ c, ∀ v, v ∈ c ↔ Mutual E u v

structure IsPartition (node : V → Prop) (cs : List (List V)) : Prop where
  nodup : cs.flatten.Nodup
  mem_iff : ∀ v, v ∈ cs.flatten ↔ node v
  component : ∀ c ∈ cs, IsComponent E c

def IsComponentSet (S : Set V) : Prop := S.Nonempty ∧ ∀ u ∈ S, ∀ v, v ∈ S ↔ Mutual E u v

variable {E}

lemma Mutual.symm {u v : V} (h : Mutual E u v) : Mutual E v u := ⟨h.2, h.1⟩

lemma Mutual.trans {u v w : V} (huv : Mutual E u v) (hvw : Mutual E v w) : Mutual E u w :=
  ⟨huv.1.trans hvw.1, hvw.2.trans huv.2⟩

lemma Mutual.mono {E' : V → V → Prop} (h : ∀ u v, E u v → E' u v) {u v : V} (huv : Mutual E u v) :
    Mutual E' u v :=
  ⟨ReflTransGen.mono h u v huv.1, ReflTransGen.mono h v u huv.2⟩

lemma Mutual.exists_edge {u v : V} (h : Mutual E u v) (hne : u ≠ v) : ∃ w, E u w := by
  rcases h.1.cases_head with rfl | ⟨w, hw, -⟩
  · exact absurd rfl hne
  · exact ⟨w, hw⟩

lemma Closed.reach {S : V → Prop} (hS : Closed E S) {u v : V} (hu : S u) (h : Reach E u v) : S v := by
  induction h with
  | refl => exact hu
  | tail _ he ih => exact hS _ _ ih he

lemma isComponent_of_closed {S : V → Prop} {c : List V} {r : V} (hS : Closed E S) (hr : r ∈ c)
    (hmutual : ∀ u ∈ c, Mutual E r u) (hdisjoint : ∀ u ∈ c, ¬ S u)
    (hedge : ∀ u ∈ c, ∀ v, E u v → v ∈ c ∨ S v) : IsComponent E c := by
  refine ⟨List.ne_nil_of_mem hr, ?_⟩
  intro u hu v
  constructor
  · intro hv
    exact (hmutual u hu).symm.trans (hmutual v hv)
  · rintro ⟨huv, hvu⟩
    have hclosed : Closed E (fun w => w ∈ c ∨ S w) := by
      rintro a b (ha | ha) hab
      · exact hedge a ha b hab
      · exact Or.inr (hS a b ha hab)
    rcases hclosed.reach (Or.inl hu) huv with hv | hv
    · exact hv
    · exact (hdisjoint u hu (hS.reach hv hvu)).elim

lemma IsComponent.congr {c c' : List V} (h : IsComponent E c) (hmem : ∀ v, v ∈ c' ↔ v ∈ c) :
    IsComponent E c' := by
  obtain ⟨r, hr⟩ := List.exists_mem_of_ne_nil c h.nonempty
  refine ⟨List.ne_nil_of_mem ((hmem r).mpr hr), ?_⟩
  intro u hu v
  rw [hmem]
  exact h.mem_iff u ((hmem u).mp hu) v

lemma isComponentSet_iff {c : List V} : IsComponent E c ↔ IsComponentSet E {v | v ∈ c} := by
  constructor
  · intro h
    exact ⟨List.exists_mem_of_ne_nil c h.nonempty, h.mem_iff⟩
  · rintro ⟨⟨v, hv⟩, hmem⟩
    exact ⟨List.ne_nil_of_mem hv, hmem⟩

lemma IsComponentSet.eq_of_mem {S T : Set V} (hS : IsComponentSet E S) (hT : IsComponentSet E T) {u : V}
    (huS : u ∈ S) (huT : u ∈ T) : S = T := by
  ext v
  rw [hS.2 u huS, hT.2 u huT]

lemma IsComponentSet.subset_of_mem {E' : V → V → Prop} (h : ∀ u v, E u v → E' u v) {S T : Set V}
    (hS : IsComponentSet E S) (hT : IsComponentSet E' T) {u : V} (huS : u ∈ S) (huT : u ∈ T) : S ⊆ T := by
  intro v hv
  rw [hT.2 u huT]
  exact ((hS.2 u huS v).mp hv).mono h

lemma IsPartition.share_iff {node : V → Prop} {cs : List (List V)} (h : IsPartition E node cs)
    {u v : V} (hu : node u) : (∃ c ∈ cs, u ∈ c ∧ v ∈ c) ↔ Mutual E u v := by
  constructor
  · rintro ⟨c, hc, huc, hvc⟩
    exact ((h.component c hc).mem_iff u huc v).mp hvc
  · intro huv
    obtain ⟨c, hc, huc⟩ := List.mem_flatten.mp ((h.mem_iff u).mpr hu)
    exact ⟨c, hc, huc, ((h.component c hc).mem_iff u huc v).mpr huv⟩

lemma IsPartition.count_eq_one [DecidableEq V] {node : V → Prop} {cs : List (List V)}
    (h : IsPartition E node cs) {v : V} (hv : node v) : cs.flatten.count v = 1 :=
  List.count_eq_one_of_mem h.nodup ((h.mem_iff v).mpr hv)

end RepoGraph.Lib.Digraph
