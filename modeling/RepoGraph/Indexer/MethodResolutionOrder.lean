import RepoGraph.Indexer.SelfCalls
import RepoGraph.Lib.C3
import Mathlib.Data.List.TakeWhile

/-! The binding of a Python self call against the order in which Python looks a method up: the walk goes by
depth, and Python's linearisation may come to a deep ancestor before a shallow one. -/

namespace RepoGraph.Indexer

open Lib Lib.Text Lib.Layers

variable (index : ResolverIndex)

def basesOf (c : ResolverNode) : List ResolverNode := c.superclasses.filterMap (uniqueClassByName index)

def BasesNamed (c : ResolverNode) : Prop := ∀ name ∈ c.superclasses, ∃ base, NamesClass index name base

/-- Python's order of a class whose superclass names all denote one class. -/
def PythonOrder (c : ResolverNode) (order : List ResolverNode) : Prop :=
  C3.Linearises (basesOf index) c order ∧ ∀ x ∈ order, BasesNamed index x

def earlier (order : List ResolverNode) (c : ResolverNode) : List ResolverNode := order.takeWhile (· ≠ c)

variable {index} {c own : ResolverNode} {order : List ResolverNode} {enclosingClass method callerFile uid : String}

lemma mem_basesOf (keyed : KeyedByUid index) {base : ResolverNode} : base ∈ basesOf index c ↔
    Base index c base := by
  unfold basesOf Base
  simp only [List.mem_filterMap, uniqueClassByName_eq_some keyed]

lemma steps_iff_reflTransGen {V : Type} {E : V → V → Prop} {u v : V} :
    (∃ n, Steps E n u v) ↔ Relation.ReflTransGen E u v := by
  constructor
  · rintro ⟨n, h⟩
    induction h with
    | refl => exact .refl
    | tail _ hedge ih => exact ih.tail hedge
  · intro h
    induction h with
    | refl => exact ⟨0, .refl u⟩
    | tail _ hedge ih =>
      obtain ⟨n, hn⟩ := ih
      exact ⟨n + 1, hn.tail hedge⟩

lemma PythonOrder.mem_iff (keyed : KeyedByUid index) (h : PythonOrder index own order) :
    c ∈ order ↔ ∃ n, Steps (Base index) n own c := by
  have hbases : (fun u v => v ∈ basesOf index u) = Base index := by
    funext u v
    exact propext (mem_basesOf keyed)
  rw [h.1.mem_iff, hbases, steps_iff_reflTransGen]

def classC : ResolverNode := pythonNode "c" "C" "C" "CLASS" []
end RepoGraph.Indexer
