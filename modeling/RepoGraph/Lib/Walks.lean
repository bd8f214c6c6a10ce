import RepoGraph.Lib.Digraph

/-! Walks of a relation, and the layers of a breadth-first search: the nodes in the order of their
discovery never go down in depth, and no walk comes to a node before the search does. -/

namespace RepoGraph.Lib.Digraph

open Relation

variable {V : Type}

structure IsWalk (E : V → V → Prop) (u v : V) (nodes : List V) : Prop where
  chain : nodes.IsChain E
  head : nodes.head? = some u
  last : nodes.getLast? = some v

structure IsShortestWalk (E : V → V → Prop) (u v : V) (nodes : List V) : Prop extends IsWalk E u v nodes where
  nodup : nodes.Nodup
  least : ∀ other, IsWalk E u v other → nodes.length ≤ other.length

variable {E : V → V → Prop} {u v x : V} {nodes : List V}

lemma IsWalk.single (E : V → V → Prop) (u : V) : IsWalk E u u [u] :=
  ⟨List.isChain_singleton u, rfl, rfl⟩

lemma IsWalk.ne_nil (h : IsWalk E u v nodes) : nodes ≠ [] := by
  rintro rfl
  cases h.head

lemma IsWalk.cons (hx : E x u) (h : IsWalk E u v nodes) : IsWalk E x v (x :: nodes) := by
  refine ⟨List.isChain_cons.mpr ⟨?_, h.chain⟩, rfl, ?_⟩
  · intro y hy
    rw [h.head] at hy
    exact Option.some.inj hy ▸ hx
  · rw [List.getLast?_cons, h.last]
    rfl

lemma IsWalk.cases (h : IsWalk E u v nodes) :
    (u = v ∧ nodes = [u]) ∨ ∃ w rest, E u w ∧ IsWalk E w v rest ∧ nodes = u :: rest := by
  match nodes, h with
  | [], h => exact absurd rfl h.ne_nil
  | [a], h =>
    obtain rfl := Option.some.inj h.head
    exact Or.inl ⟨Option.some.inj h.last, rfl⟩
  | a :: b :: rest, h =>
    obtain rfl := Option.some.inj h.head
    obtain ⟨hedge, hchain⟩ := List.isChain_cons_cons.mp h.chain
    refine Or.inr ⟨b, b :: rest, hedge, ⟨hchain, rfl, ?_⟩, rfl⟩
    rw [← h.last, List.getLast?_cons_cons]

lemma IsWalk.reach (h : IsWalk E u v nodes) : Reach E u v := by
  induction nodes generalizing u with
  | nil => exact absurd rfl h.ne_nil
  | cons a nodes ih =>
    rcases h.cases with ⟨rfl, -⟩ | ⟨w, rest, hedge, hwalk, heq⟩
    · exact .refl
    · obtain ⟨-, rfl⟩ := List.cons.inj heq
      exact .head hedge (ih hwalk)

lemma IsWalk.zip_tail (h : IsWalk E u v nodes) : ∀ e ∈ nodes.zip nodes.tail, E e.1 e.2 := by
  induction nodes generalizing u with
  | nil => simp
  | cons a nodes ih =>
    rcases h.cases with ⟨-, heq⟩ | ⟨w, rest, hedge, hwalk, heq⟩
    · obtain ⟨-, rfl⟩ := List.cons.inj heq
      simp
    · obtain ⟨rfl, rfl⟩ := List.cons.inj heq
      obtain ⟨b, rest, rfl⟩ := List.exists_cons_of_ne_nil hwalk.ne_nil
      obtain rfl := Option.some.inj hwalk.head
      intro e he
      rcases List.mem_cons.mp he with rfl | he
      · exact hedge
      · exact ih hwalk e he

/-- The nodes that were found, in the order of their discovery: `popped` are expanded and `queue` wait. Every node
but the source has the node that it was found from. -/
structure Layered (E : V → V → Prop) (source : V) (popped queue : List V) (prev : V → Option V) (depth : V → ℕ) :
    Prop where
  root : depth source = 0
  start : source ∈ popped ++ queue
  sorted : (popped ++ queue).Pairwise (depth · ≤ depth ·)
  linked : ∀ v ∈ popped ++ queue, v ≠ source → ∃ u ∈ popped ++ queue, prev v = some u ∧
    E u v ∧ depth v = depth u + 1
  closed : ∀ u ∈ popped, ∀ v, E u v → v ∈ popped ++ queue ∧ depth v ≤ depth u + 1
  near : ∀ u ∈ queue, ∀ v ∈ popped ++ queue, depth v ≤ depth u + 1

namespace Layered

variable {source target n : V} {popped queue fresh : List V} {prev prev' : V → Option V} {depth : V → ℕ}

lemma init (E : V → V → Prop) (source : V) (prev : V → Option V) : Layered E source []
    [source] prev fun _ => 0 := by
  refine ⟨rfl, by simp, by simp, ?_, by simp, by simp⟩
  intro v hv hne
  exact absurd (List.mem_singleton.mp hv) hne

lemma expand [DecidableEq V] (h : Layered E source popped (n :: queue) prev depth)
    (hdisjoint : ∀ v ∈ fresh, v ∉ popped ++ n :: queue) (hfresh : ∀ v ∈ fresh, E n v)
    (hall : ∀ v, E n v → v ∈ popped ++ n :: queue ∨ v ∈ fresh)
    (hprev : ∀ v, prev' v = if v ∈ fresh then some n else prev v) :
    Layered E source (popped ++ [n]) (queue ++ fresh) prev' fun v =>
      if v ∈ fresh then depth n + 1 else depth v := by
  have horder : popped ++ [n] ++ (queue ++ fresh) = (popped ++ n :: queue) ++ fresh := by simp
  have hn : n ∈ popped ++ n :: queue := by simp
  have hold : ∀ v ∈ popped ++ n :: queue, (if v ∈ fresh then depth n + 1 else depth v) = depth v := by
    intro v hv
    exact if_neg fun hf => hdisjoint v hf hv
  have hnear : ∀ v ∈ popped ++ n :: queue, depth v ≤ depth n + 1 := h.near n List.mem_cons_self
  have hdepth : ∀ v ∈ popped ++ n :: queue ++ fresh,
      (if v ∈ fresh then depth n + 1 else depth v) ≤ depth n + 1 := by
    intro v hv
    split
    · exact le_rfl
    · rename_i hf
      exact hnear v ((List.mem_append.mp hv).resolve_right hf)
  constructor
  · rw [hold source h.start]
    exact h.root
  · rw [horder]
    exact List.mem_append_left _ h.start
  · rw [horder, List.pairwise_append]
    refine ⟨?_, ?_, ?_⟩
    · exact h.sorted.imp_of_mem fun {a b} ha hb hab => by rwa [hold a ha, hold b hb]
    · exact List.pairwise_of_forall_mem_list fun a ha b hb => by simp [ha, hb]
    · intro a ha b hb
      rw [hold a ha, if_pos hb]
      exact hnear a ha
  · rw [horder]
    intro v hv hne
    by_cases hf : v ∈ fresh
    · refine ⟨n, List.mem_append_left _ hn, by rw [hprev, if_pos hf], hfresh v hf, ?_⟩
      rw [if_pos hf, hold n hn]
    · have hv := (List.mem_append.mp hv).resolve_right hf
      obtain ⟨u, hu, hlink, hedge, hd⟩ := h.linked v hv hne
      refine ⟨u, List.mem_append_left _ hu, by rw [hprev, if_neg hf, hlink], hedge, ?_⟩
      rw [hold v hv, hold u hu, hd]
  · rw [horder]
    intro u hu v hedge
    rcases List.mem_append.mp hu with hu | hu
    · obtain ⟨hv, hd⟩ := h.closed u hu v hedge
      refine ⟨List.mem_append_left _ hv, ?_⟩
      rw [hold v hv, hold u (List.mem_append_left _ hu)]
      exact hd
    · obtain rfl := List.mem_singleton.mp hu
      rw [hold u hn]
      have hv := List.mem_append.mpr (hall v hedge)
      exact ⟨hv, hdepth v hv⟩
  · rw [horder]
    intro u hu v hv
    have hle : depth n ≤ if u ∈ fresh then depth n + 1 else depth u := by
      split
      · omega
      · rename_i hf
        have hu := (List.mem_append.mp hu).resolve_right hf
        have hsorted := (List.pairwise_append.mp h.sorted).2.1
        exact (List.pairwise_cons.mp hsorted).1 u hu
    have hv := hdepth v hv
    omega

lemma mem_popped (h : Layered E source popped (target :: queue) prev depth) (hx : x ∈ popped ++ target :: queue)
    (hlt : depth x < depth target) : x ∈ popped := by
  rcases List.mem_append.mp hx with hx | hx
  · exact hx
  have hsorted := List.pairwise_cons.mp (List.pairwise_append.mp h.sorted).2.1
  rcases List.mem_cons.mp hx with rfl | hx
  · omega
  · have hle := hsorted.1 x hx
    omega

lemma depth_le (h : Layered E source popped (target :: queue) prev depth) (hwalk : IsWalk E u target nodes)
    (hu : u ∈ popped ++ target :: queue) : depth target + 1 ≤ depth u + nodes.length := by
  induction nodes generalizing u with
  | nil => exact absurd rfl hwalk.ne_nil
  | cons a nodes ih =>
    rw [List.length_cons]
    by_cases hlt : depth u < depth target
    · rcases hwalk.cases with ⟨rfl, -⟩ | ⟨w, rest, hedge, hrest, heq⟩
      · omega
      · obtain ⟨-, rfl⟩ := List.cons.inj heq
        obtain ⟨hw, hd⟩ := h.closed u (h.mem_popped hu hlt) w hedge
        have hle := ih hrest hw
        omega
    · omega

lemma least (h : Layered E source popped (target :: queue) prev depth) (hwalk : IsWalk E source target nodes) :
    depth target + 1 ≤ nodes.length := by
  have hle := h.depth_le hwalk h.start
  rw [h.root] at hle
  omega

end Layered

end RepoGraph.Lib.Digraph
