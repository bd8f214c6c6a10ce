import Mathlib.Tactic

/-! The layers of a search that goes level by level: the nodes of one depth, and the nodes of all depths up
to it. -/

namespace RepoGraph.Lib.Layers

variable {V W : Type}

inductive Steps (E : V → V → Prop) : ℕ → V → V → Prop
  | refl (u : V) : Steps E 0 u u
  | tail {n : ℕ} {u v w : V} : Steps E n u v → E v w → Steps E (n + 1) u w

def AtDepth (E : V → V → Prop) (source v : V) (d : ℕ) : Prop := Steps E d source v ∧ ∀ n < d, ¬ Steps E n source v

structure Layer (E : V → V → Prop) (source : V) (d : ℕ) (frontier seen : List V) : Prop where
  nodup : frontier.Nodup
  mem_frontier : ∀ v, v ∈ frontier ↔ AtDepth E source v d
  mem_seen : ∀ v, v ∈ seen ↔ ∃ n ≤ d, Steps E n source v

variable {E : V → V → Prop} {source u v : V} {d n : ℕ} {frontier next seen : List V}

lemma AtDepth.unique (h : AtDepth E source v d) (h' : AtDepth E source v n) : d = n := by
  rcases Nat.lt_trichotomy d n with hlt | rfl | hlt
  · exact absurd h.1 (h'.2 d hlt)
  · rfl
  · exact absurd h'.1 (h.2 n hlt)

lemma Steps.exists_atDepth (h : Steps E n source v) : ∃ d ≤ n, AtDepth E source v d := by
  induction n using Nat.strong_induction_on with
  | _ n ih =>
    by_cases hless : ∃ m < n, Steps E m source v
    · obtain ⟨m, hm, hsteps⟩ := hless
      obtain ⟨d, hd, hat⟩ := ih m hm hsteps
      exact ⟨d, by omega, hat⟩
    · push Not at hless
      exact ⟨n, le_rfl, h, hless⟩

lemma AtDepth.pred (h : AtDepth E source v (d + 1)) : ∃ u, AtDepth E source u d ∧ E u v := by
  obtain ⟨hsteps, hleast⟩ := h
  cases hsteps with
  | @tail _ _ u _ hu hedge =>
    refine ⟨u, ⟨hu, fun n hn hless => ?_⟩, hedge⟩
    apply hleast (n + 1)
    · omega
    · exact .tail hless hedge

lemma atDepth_zero : AtDepth E source v 0 ↔ v = source := by
  constructor
  · rintro ⟨hsteps, -⟩
    cases hsteps
    rfl
  · rintro rfl
    exact ⟨.refl v, fun n hn => absurd hn (Nat.not_lt_zero n)⟩

lemma atDepth_succ : AtDepth E source v (d + 1) ↔
    (∀ n ≤ d, ¬ AtDepth E source v n) ∧ ∃ u, AtDepth E source u d ∧ E u v := by
  constructor
  · intro h
    refine ⟨fun n hn hat => ?_, h.pred⟩
    have heq := hat.unique h
    omega
  · rintro ⟨hnone, u, hu, hedge⟩
    refine ⟨.tail hu.1 hedge, fun n hn hsteps => ?_⟩
    obtain ⟨m, hm, hat⟩ := hsteps.exists_atDepth
    exact hnone m (by omega) hat

lemma AtDepth.above (h : AtDepth E source v n) (hd : d ≤ n) : ∃ u, AtDepth E source u d := by
  induction n generalizing v with
  | zero =>
    obtain rfl : d = 0 := by omega
    exact ⟨v, h⟩
  | succ n ih =>
    rcases Nat.eq_or_lt_of_le hd with rfl | hlt
    · exact ⟨v, h⟩
    · obtain ⟨u, hu, -⟩ := h.pred
      exact ih hu (by omega)

lemma Layer.init (E : V → V → Prop) (source : V) : Layer E source 0 [source] [source] := by
  have hzero : ∀ v, Steps E 0 source v ↔ v = source := by
    intro v
    constructor
    · intro h
      cases h
      rfl
    · rintro rfl
      exact .refl v
  constructor
  · exact List.nodup_singleton source
  · intro v
    rw [List.mem_singleton, AtDepth, hzero]
    exact ⟨fun h => ⟨h, fun n hn => absurd hn (Nat.not_lt_zero n)⟩, And.left⟩
  · intro v
    rw [List.mem_singleton]
    constructor
    · rintro rfl
      exact ⟨0, le_rfl, .refl v⟩
    · rintro ⟨n, hn, hsteps⟩
      obtain rfl : n = 0 := by omega
      exact (hzero v).mp hsteps

theorem Layer.step (h : Layer E source d frontier seen) (hnodup : next.Nodup)
    (hnext : ∀ v, v ∈ next ↔ v ∉ seen ∧ ∃ u ∈ frontier, E u v) :
    Layer E source (d + 1) next (seen ++ next) := by
  have hfrontier : ∀ v, v ∈ next ↔ AtDepth E source v (d + 1) := by
    intro v
    rw [hnext, h.mem_seen]
    constructor
    · rintro ⟨hunseen, u, hu, hedge⟩
      refine ⟨.tail ((h.mem_frontier u).mp hu).1 hedge, fun n hn hsteps => ?_⟩
      exact hunseen ⟨n, by omega, hsteps⟩
    · intro hat
      obtain ⟨u, hu, hedge⟩ := hat.pred
      refine ⟨?_, u, (h.mem_frontier u).mpr hu, hedge⟩
      rintro ⟨n, hn, hsteps⟩
      exact hat.2 n (by omega) hsteps
  refine ⟨hnodup, hfrontier, ?_⟩
  intro v
  rw [List.mem_append, h.mem_seen, hfrontier]
  constructor
  · rintro (⟨n, hn, hsteps⟩ | hat)
    · exact ⟨n, by omega, hsteps⟩
    · exact ⟨d + 1, le_rfl, hat.1⟩
  · rintro ⟨n, hn, hsteps⟩
    obtain ⟨m, hm, hat⟩ := hsteps.exists_atDepth
    rcases Nat.lt_or_ge d m with hlt | hle
    · obtain rfl : m = d + 1 := by omega
      exact Or.inr hat
    · exact Or.inl ⟨m, hle, hat.1⟩

lemma Layer.nothing_below (h : Layer E source d [] seen) (hn : d ≤ n) : ¬ AtDepth E source v n := by
  induction n, hn using Nat.le_induction generalizing v with
  | base =>
    intro hat
    simpa using (h.mem_frontier v).mpr hat
  | succ n hn ih =>
    intro hat
    obtain ⟨u, hu, -⟩ := hat.pred
    exact ih hu

section Simulation

variable {E' : W → W → Prop} {source' : W} {w : W} {R : V → W → Prop}

lemma Steps.simulate (hsource : R source source')
    (hedge : ∀ u v u', R u u' → E u v → ∃ v', E' u' v' ∧ R v v') (h : Steps E n source v) :
    ∃ v', Steps E' n source' v' ∧ R v v' := by
  induction h with
  | refl => exact ⟨source', .refl _, hsource⟩
  | tail _ hstep ih =>
    obtain ⟨u', hu', hR⟩ := ih hsource
    obtain ⟨v', hv', hR'⟩ := hedge _ _ _ hR hstep
    exact ⟨v', .tail hu' hv', hR'⟩

end Simulation

end RepoGraph.Lib.Layers
