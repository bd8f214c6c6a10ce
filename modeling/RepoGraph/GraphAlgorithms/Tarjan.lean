import RepoGraph.Lib.Digraph
import RepoGraph.GraphAlgorithms.Scc

/-! The search invariant. The node stack splits into one segment per open frame: the frame's node
with the finished nodes above it, all mutually reachable. -/

namespace RepoGraph.GraphAlgorithms.Tarjan

open Lib Lib.Digraph

variable (adj : String → List String)

def Edge (u v : String) : Prop := v ∈ adj u

/-- An edge target that the segment with inner nodes `inner` has accounted for: it is finished,
inside the segment, or further down the stack and seen by the segment's lowlink. -/
def Covered (idx : String → ℕ) (bound : ℕ) (done inner below : List String) (w : String) : Prop :=
  w ∈ done ∨ w ∈ inner ∨ (w ∈ below ∧ bound ≤ idx w)

/-- The stack segment of frame node `p`, whose first `k` neighbours are processed: `xs` lies on top
of `p`, and `below` is the rest of the stack. -/
structure Segment (idx low : String → ℕ) (done : List String) (p : String) (k : ℕ)
    (xs below : List String) : Prop where
  back : ∀ y ∈ xs, Reach (Edge adj) y p
  forth : ∀ y ∈ xs, Reach (Edge adj) p y
  low_le : low p ≤ idx p
  low_reach : ∃ w ∈ p :: below, low p = idx w ∧ Reach (Edge adj) p w
  inner_edges : ∀ y ∈ xs, ∀ w ∈ adj y, Covered idx (low p) done (p :: xs) below w
  own_edges : ∀ w ∈ (adj p).take k, Covered idx (low p) done (p :: xs) below w

inductive Suspended (idx low : String → ℕ) (done : List String) :
    String → List Frame → List String → Prop
  | nil {child} : Suspended idx low done child [] []
  | cons {child p k xs below fs} : (adj p)[k]? = some child →
      Segment adj idx low done p k xs below → Suspended idx low done p fs below →
      Suspended idx low done child (⟨p, k + 1, .neighbors⟩ :: fs) (xs ++ p :: below)

variable {adj} {idx low idx' low' : String → ℕ} {done done' : List String}

lemma Covered.mono {bound bound' : ℕ} {inner inner' below below' : List String} {w : String}
    (h : Covered idx bound done inner below w) (hdone : done ⊆ done') (hinner : inner ⊆ inner')
    (hbelow : w ∈ below → bound ≤ idx w → w ∈ inner' ∨ (w ∈ below' ∧ bound' ≤ idx' w)) :
    Covered idx' bound' done' inner' below' w := by
  rcases h with h | h | ⟨h, hb⟩
  · exact Or.inl (hdone h)
  · exact Or.inr (Or.inl (hinner h))
  · exact Or.inr (hbelow h hb)

lemma Covered.of_mem_stack {p w : String} {xs below : List String} (hw : w ∈ xs ++ p :: below)
    (hle : low p ≤ idx w) : Covered idx (low p) done (p :: xs) below w := by
  rcases List.mem_append.mp hw with hw | hw
  · exact Or.inr (Or.inl (by simp [hw]))
  · rcases List.mem_cons.mp hw with rfl | hw
    · exact Or.inr (Or.inl (by simp))
    · exact Or.inr (Or.inr ⟨hw, hle⟩)

lemma Segment.congr {p : String} {k : ℕ} {xs below : List String}
    (h : Segment adj idx low done p k xs below) (hdone : done ⊆ done')
    (hidx : ∀ v ∈ xs ++ p :: below, idx' v = idx v) (hlow : low' p = low p) :
    Segment adj idx' low' done' p k xs below := by
  have hp : idx' p = idx p := hidx p (by simp)
  have hbelow : ∀ w ∈ below, idx' w = idx w := fun w hw => hidx w (by simp [hw])
  have hcov : ∀ w, Covered idx (low p) done (p :: xs) below w →
      Covered idx' (low' p) done' (p :: xs) below w := by
    intro w hw
    refine hw.mono hdone (List.Subset.refl _) ?_
    intro hb hle
    exact Or.inr ⟨hb, by rw [hlow, hbelow w hb]; exact hle⟩
  refine ⟨h.back, h.forth, by rw [hlow, hp]; exact h.low_le, ?_,
    fun y hy w hw => hcov w (h.inner_edges y hy w hw), fun w hw => hcov w (h.own_edges w hw)⟩
  obtain ⟨w, hw, he, hr⟩ := h.low_reach
  refine ⟨w, hw, ?_, hr⟩
  rw [hlow, he, hidx w (by simp only [List.mem_append]; exact Or.inr hw)]

lemma Suspended.congr {child : String} {fs : List Frame} {stack : List String}
    (h : Suspended adj idx low done child fs stack) (hdone : done ⊆ done')
    (hidx : ∀ v ∈ stack, idx' v = idx v) (hlow : ∀ v ∈ stack, low' v = low v) :
    Suspended adj idx' low' done' child fs stack := by
  induction h with
  | nil => exact .nil
  | cons hk hseg _ ih =>
    refine .cons hk (hseg.congr hdone hidx (hlow _ (by simp))) (ih ?_ ?_)
    · intro v hv
      exact hidx v (by simp [hv])
    · intro v hv
      exact hlow v (by simp [hv])

lemma Suspended.reach {child : String} {fs : List Frame} {stack : List String}
    (h : Suspended adj idx low done child fs stack) : ∀ w ∈ stack, Reach (Edge adj) w child := by
  induction h with
  | nil => simp
  | @cons child p k xs below fs hk hseg _ ih =>
    have he : Reach (Edge adj) p child := .single (List.mem_of_getElem? hk)
    intro w hw
    rcases List.mem_append.mp hw with hw | hw
    · exact (hseg.back w hw).trans he
    · rcases List.mem_cons.mp hw with rfl | hw
      · exact he
      · exact (ih w hw).trans he

lemma Segment.advance {p w : String} {k : ℕ} {xs below : List String}
    (h : Segment adj idx low done p k xs below) (hk : (adj p)[k]? = some w)
    (hw : Covered idx (low p) done (p :: xs) below w) :
    Segment adj idx low done p (k + 1) xs below := by
  refine ⟨h.back, h.forth, h.low_le, h.low_reach, h.inner_edges, ?_⟩
  intro v hv
  rw [List.take_add_one, hk] at hv
  rcases List.mem_append.mp hv with hv | hv
  · exact h.own_edges v hv
  · have he : v = w := by simpa using hv
    exact he ▸ hw

lemma Segment.lower {p w : String} {k : ℕ} {xs below : List String}
    (h : Segment adj idx low done p k xs below) (hw : w ∈ below) (hr : Reach (Edge adj) p w)
    (hlow : low' p = idx w) (hle : idx w ≤ low p) : Segment adj idx low' done p k xs below := by
  have hcov : ∀ v, Covered idx (low p) done (p :: xs) below v →
      Covered idx (low' p) done (p :: xs) below v := by
    intro v hv
    refine hv.mono (List.Subset.refl _) (List.Subset.refl _) ?_
    intro hb hb'
    exact Or.inr ⟨hb, by omega⟩
  refine ⟨h.back, h.forth, ?_, ⟨w, List.mem_cons_of_mem _ hw, hlow, hr⟩,
    fun y hy v hv => hcov v (h.inner_edges y hy v hv), fun v hv => hcov v (h.own_edges v hv)⟩
  have := h.low_le
  omega

lemma Segment.mem_below {p w : String} {k : ℕ} {xs below : List String}
    (h : Segment adj idx low done p k xs below) (hxs : ∀ v ∈ xs, idx p < idx v)
    (hw : w ∈ xs ++ p :: below) (hlt : idx w < low p) : w ∈ below := by
  have hle := h.low_le
  rcases List.mem_append.mp hw with hw | hw
  · have := hxs w hw
    omega
  · rcases List.mem_cons.mp hw with rfl | hw
    · omega
    · exact hw

lemma Segment.all_edges {p : String} {k : ℕ} {xs below : List String}
    (h : Segment adj idx low done p k xs below) (hk : (adj p).length ≤ k) :
    ∀ y ∈ p :: xs, ∀ w ∈ adj y, Covered idx (low p) done (p :: xs) below w := by
  intro y hy w hw
  rcases List.mem_cons.mp hy with rfl | hy
  · exact h.own_edges w (by rw [List.take_of_length_le hk]; exact hw)
  · exact h.inner_edges y hy w hw

/-- A finished segment whose lowlink is its own index is a strongly connected component. -/
lemma Segment.isComponent {p : String} {k : ℕ} {xs below : List String}
    (h : Segment adj idx low done p k xs below) (hk : (adj p).length ≤ k) (hroot : low p = idx p)
    (hbelow : ∀ w ∈ below, idx w < idx p) (hclosed : Closed (Edge adj) (· ∈ done))
    (hdisjoint : ∀ v ∈ p :: xs, v ∉ done) :
    IsComponent (Edge adj) (p :: xs) ∧ Closed (Edge adj) (fun v => v ∈ p :: xs ∨ v ∈ done) := by
  have hedge : ∀ u ∈ p :: xs, ∀ v, Edge adj u v → v ∈ p :: xs ∨ v ∈ done := by
    intro u hu v hv
    rcases h.all_edges hk u hu v hv with hd | hi | ⟨hb, hle⟩
    · exact Or.inr hd
    · exact Or.inl hi
    · have := hbelow v hb
      omega
  refine ⟨isComponent_of_closed hclosed List.mem_cons_self ?_ hdisjoint hedge, ?_⟩
  · intro u hu
    rcases List.mem_cons.mp hu with rfl | hu
    · exact ⟨.refl, .refl⟩
    · exact ⟨h.forth u hu, h.back u hu⟩
  · rintro u v (hu | hu) huv
    · exact hedge u hu v huv
    · exact Or.inr (hclosed u v hu huv)

lemma Segment.low_under {p c : String} {k kc : ℕ} {xs xsc below : List String} {fs : List Frame}
    (hp : Segment adj idx low done p k xs below) (hfs : Suspended adj idx low done p fs below)
    (hc : Segment adj idx low done c kc xsc (xs ++ p :: below)) (hroot : low c ≠ idx c) :
    ∃ w ∈ xs ++ p :: below, low c = idx w ∧ Reach (Edge adj) c w ∧ Reach (Edge adj) w p := by
  obtain ⟨w, hw, hlw, hcw⟩ := hc.low_reach
  have hw : w ∈ xs ++ p :: below := by
    rcases List.mem_cons.mp hw with rfl | hw
    · exact (hroot hlw).elim
    · exact hw
  refine ⟨w, hw, hlw, hcw, ?_⟩
  rcases List.mem_append.mp hw with hw | hw
  · exact hp.back w hw
  · rcases List.mem_cons.mp hw with rfl | hw
    · exact .refl
    · exact hfs.reach w hw

lemma Segment.absorb {p c : String} {k kc : ℕ} {xs xsc below : List String} {fs : List Frame}
    (hp : Segment adj idx low done p k xs below) (hfs : Suspended adj idx low done p fs below)
    (hc : Segment adj idx low done c kc xsc (xs ++ p :: below)) (hkc : (adj c).length ≤ kc)
    (hk : (adj p)[k]? = some c) (hsorted : (xs ++ p :: below).Pairwise (fun a b => idx b < idx a))
    (hroot : low c ≠ idx c) (hlow : low' p = min (low p) (low c)) :
    Segment adj idx low' done p (k + 1) (xsc ++ c :: xs) below := by
  have hpc : Reach (Edge adj) p c := .single (List.mem_of_getElem? hk)
  obtain ⟨w, hw, hlw, hcw, hwp⟩ := hp.low_under hfs hc hroot
  have hcp : Reach (Edge adj) c p := hcw.trans hwp
  have hcov : ∀ v, Covered idx (low c) done (c :: xsc) (xs ++ p :: below) v →
      Covered idx (low' p) done (p :: (xsc ++ c :: xs)) below v := by
    intro v hv
    refine hv.mono (List.Subset.refl _) (by intro u hu; simp at hu ⊢; tauto) ?_
    intro hb hle
    rcases List.mem_append.mp hb with hb | hb
    · exact Or.inl (by simp [hb])
    · rcases List.mem_cons.mp hb with rfl | hb
      · exact Or.inl (by simp)
      · exact Or.inr ⟨hb, by omega⟩
  have hcov' : ∀ v, Covered idx (low p) done (p :: xs) below v →
      Covered idx (low' p) done (p :: (xsc ++ c :: xs)) below v := by
    intro v hv
    refine hv.mono (List.Subset.refl _) (by intro u hu; simp at hu ⊢; tauto) ?_
    intro hb hle
    exact Or.inr ⟨hb, by omega⟩
  refine ⟨?_, ?_, ?_, ?_, ?_, ?_⟩
  · intro y hy
    rcases List.mem_append.mp hy with hy | hy
    · exact (hc.back y hy).trans hcp
    · rcases List.mem_cons.mp hy with rfl | hy
      · exact hcp
      · exact hp.back y hy
  · intro y hy
    rcases List.mem_append.mp hy with hy | hy
    · exact hpc.trans (hc.forth y hy)
    · rcases List.mem_cons.mp hy with rfl | hy
      · exact hpc
      · exact hp.forth y hy
  · have := hp.low_le
    omega
  · rcases Nat.lt_or_ge (low c) (low p) with hlt | hge
    · refine ⟨w, ?_, by omega, hpc.trans hcw⟩
      rcases List.mem_append.mp hw with hw | hw
      · have := (List.pairwise_append.mp hsorted).2.2 w hw p (by simp)
        have := hp.low_le
        omega
      · exact hw
    · obtain ⟨u, hu, hlu, hr⟩ := hp.low_reach
      exact ⟨u, hu, by omega, hr⟩
  · intro y hy v hv
    rcases List.mem_append.mp hy with hy | hy
    · exact hcov v (hc.all_edges hkc y (by simp [hy]) v hv)
    · rcases List.mem_cons.mp hy with rfl | hy
      · exact hcov v (hc.all_edges hkc y (by simp) v hv)
      · exact hcov' v (hp.inner_edges y hy v hv)
  · intro v hv
    rw [List.take_add_one, hk] at hv
    rcases List.mem_append.mp hv with hv | hv
    · exact hcov' v (hp.own_edges v hv)
    · have he : v = c := by simpa using hv
      exact Or.inr (Or.inl (by simp [he]))

end RepoGraph.GraphAlgorithms.Tarjan
