import RepoGraph.Lib.Layers

/-! Routes of labelled edges, several of which may join the same nodes, in the order of their weight, then of the
keys of their nodes, then of their labels. The best route to a node goes on from a best route to the node before
it. -/

namespace RepoGraph.Lib

section Lists

variable {α : Type} [LinearOrder α] {l l' : List α} {a a' : α}

lemma append_singleton_lt_iff (h : l.length = l'.length) :
    l ++ [a] < l' ++ [a'] ↔ l < l' ∨ l = l' ∧ a < a' := by
  induction l generalizing l' with
  | nil =>
    obtain rfl : l' = [] := List.length_eq_zero_iff.mp h.symm
    simp [List.cons_lt_cons_iff]
  | cons b l ih =>
    cases l' with
    | nil => simp at h
    | cons b' l' =>
      rw [List.cons_append, List.cons_append, List.cons_lt_cons_iff, List.cons_lt_cons_iff, ih (by simpa using h),
        List.cons.injEq]
      tauto

lemma append_singleton_le (h : l.length = l'.length) (hle : l ≤ l') (a : α) : l ++ [a] ≤ l' ++ [a] := by
  rw [← not_lt, append_singleton_lt_iff h.symm]
  rintro (hlt | ⟨-, hlt⟩)
  · exact absurd hlt (not_lt.mpr hle)
  · exact lt_irrefl a hlt

lemma map_eq_of_keys {β γ δ : Type} {g : β → γ} {key : γ → δ} {l l' : List β}
    (hkeys : ∀ b ∈ l, ∀ b' ∈ l', key (g b) = key (g b') → g b = g b')
    (h : (l.map fun b => key (g b)) = l'.map fun b => key (g b)) : l.map g = l'.map g := by
  induction l generalizing l' with
  | nil => rw [List.map_eq_nil_iff.mp h.symm]
  | cons b l ih =>
    cases l' with
    | nil => cases h
    | cons b' l' =>
      obtain ⟨hhead, htail⟩ := List.cons.inj h
      have hrest := ih (fun c hc c' hc' =>
        hkeys c (List.mem_cons_of_mem _ hc) c' (List.mem_cons_of_mem _ hc')) htail
      rw [List.map_cons, List.map_cons, hrest, hkeys b List.mem_cons_self b' List.mem_cons_self hhead]

end Lists

structure Net (V ε : Type) where
  src : ε → V
  tgt : ε → V
  hop : ε → Prop

namespace Net

variable {V ε κ μ : Type} {G : Net V ε} {u v : V} {es es' : List ε} {e : ε} {n : ℕ}

inductive Route (G : Net V ε) (u : V) : List ε → V → Prop
  | nil : Route G u [] u
  | snoc {es : List ε} {e : ε} (route : Route G u es (G.src e)) (hop : G.hop e) : Route G u (es ++ [e]) (G.tgt e)

def Joined (G : Net V ε) (v w : V) : Prop := ∃ e, G.hop e ∧ G.src e = v ∧ G.tgt e = w

lemma steps_iff_route : Layers.Steps G.Joined n u v ↔ ∃ es, G.Route u es v ∧ es.length = n := by
  constructor
  · intro h
    induction h with
    | refl => exact ⟨[], .nil, rfl⟩
    | tail _ hedge ih =>
      obtain ⟨es, hroute, rfl⟩ := ih
      obtain ⟨e, hop, rfl, rfl⟩ := hedge
      exact ⟨es ++ [e], hroute.snoc hop, List.length_append⟩
  · rintro ⟨es, hroute, rfl⟩
    induction hroute with
    | nil => exact .refl u
    | @snoc es e _ hop ih =>
      rw [List.length_append]
      exact ih.tail ⟨e, hop, rfl, rfl⟩

lemma Route.pred (h : G.Route u es v) (hlength : es.length = n + 1) :
    ∃ es' e, es = es' ++ [e] ∧ G.Route u es' (G.src e) ∧ es'.length = n ∧ G.hop e ∧ G.tgt e = v := by
  cases h with
  | nil => simp at hlength
  | @snoc es' e route hop =>
    rw [List.length_append] at hlength
    exact ⟨es', e, rfl, route, Nat.succ.inj hlength, hop, rfl⟩

lemma Route.eq_of_length_zero (h : G.Route u es v) (hlength : es.length = 0) : es = [] ∧ u = v := by
  cases h with
  | nil => exact ⟨rfl, rfl⟩
  | snoc => simp at hlength

lemma Route.hop_of_mem (h : G.Route u es v) : ∀ e ∈ es, G.hop e := by
  induction h with
  | nil => simp
  | snoc _ hop ih =>
    intro e he
    rcases List.mem_append.mp he with he | he
    · exact ih e he
    · rw [List.mem_singleton.mp he]
      exact hop

structure Ranking (V ε κ μ : Type) where
  weight : ε → ℕ
  key : V → κ
  label : ε → μ

namespace Ranking

variable (R : Ranking V ε κ μ) (G)

def total (es : List ε) : ℕ := (es.map R.weight).sum

def keys (u : V) (es : List ε) : List κ := R.key u :: es.map fun e => R.key (G.tgt e)

def labels (es : List ε) : List μ := es.map R.label

variable {R G}

@[simp] lemma total_snoc : R.total (es ++ [e]) = R.total es + R.weight e := by
  simp [total]

@[simp] lemma keys_snoc : R.keys G u (es ++ [e]) = R.keys G u es ++ [R.key (G.tgt e)] := by
  simp [keys]

@[simp] lemma labels_snoc : R.labels (es ++ [e]) = R.labels es ++ [R.label e] := by
  simp [labels]

@[simp] lemma length_keys : (R.keys G u es).length = es.length + 1 := by
  simp [keys]

@[simp] lemma length_labels : (R.labels es).length = es.length := by
  simp [labels]

lemma getLast?_keys (h : G.Route u es v) : (R.keys G u es).getLast? = some (R.key v) := by
  cases h with
  | nil => rfl
  | snoc => rw [keys_snoc, List.getLast?_concat]

variable [LinearOrder κ] [LinearOrder μ]

def rank (R : Ranking V ε κ μ) (G : Net V ε) (u : V) (es : List ε) : ℕ ×ₗ List κ ×ₗ List μ :=
  toLex (R.total es, toLex (R.keys G u es, R.labels es))

lemma rank_le_iff : R.rank G u es ≤ R.rank G u es' ↔ R.total es < R.total es' ∨ R.total es = R.total es' ∧
    (R.keys G u es < R.keys G u es' ∨ R.keys G u es = R.keys G u es' ∧ R.labels es ≤ R.labels es') := by
  simp only [rank, Prod.Lex.le_iff, ofLex_toLex]

omit [LinearOrder κ] [LinearOrder μ] in
lemma rank_eq_iff : R.rank G u es = R.rank G u es' ↔
    R.total es = R.total es' ∧ R.keys G u es = R.keys G u es' ∧ R.labels es = R.labels es' := by
  simp only [rank, toLex_inj, Prod.mk.injEq]

lemma rank_snoc_le (hlength : es.length = es'.length) (h : R.rank G u es ≤ R.rank G u es') (e : ε) :
    R.rank G u (es ++ [e]) ≤ R.rank G u (es' ++ [e]) := by
  rw [rank_le_iff] at h ⊢
  rw [total_snoc, total_snoc, keys_snoc, keys_snoc, labels_snoc, labels_snoc,
    append_singleton_lt_iff (by simp [hlength])]
  rcases h with hlt | ⟨htotal, hlt | ⟨hkeys, hlabels⟩⟩
  · exact .inl (by omega)
  · exact .inr ⟨by omega, .inl (.inl hlt)⟩
  · exact .inr ⟨by omega, .inr ⟨by rw [hkeys], append_singleton_le (by simp [hlength]) hlabels _⟩⟩

end Ranking

variable [LinearOrder κ] [LinearOrder μ] {R : Ranking V ε κ μ}

structure Least (G : Net V ε) (R : Ranking V ε κ μ) (u : V) (n : ℕ) (v : V) (es : List ε) : Prop where
  route : G.Route u es v
  length : es.length = n
  least : ∀ es', G.Route u es' v → es'.length = n → R.rank G u es ≤ R.rank G u es'

lemma Least.nil : Least G R u 0 u [] := by
  refine ⟨.nil, rfl, fun es' hroute hlength => ?_⟩
  rw [(hroute.eq_of_length_zero hlength).1]

lemma Least.rank_eq (h : Least G R u n v es) (h' : Least G R u n v es') : R.rank G u es = R.rank G u es' :=
  le_antisymm (h.least es' h'.route h'.length) (h'.least es h.route h.length)

theorem Least.snoc {pre : V → List ε} (hop : G.hop e) (hpre : Least G R u n (G.src e) (pre (G.src e)))
    (hleast : ∀ e', G.hop e' → G.tgt e' = G.tgt e → (∃ es, G.Route u es (G.src e') ∧ es.length = n) →
      Least G R u n (G.src e') (pre (G.src e')) ∧
        R.rank G u (pre (G.src e) ++ [e]) ≤ R.rank G u (pre (G.src e') ++ [e'])) :
    Least G R u (n + 1) (G.tgt e) (pre (G.src e) ++ [e]) := by
  refine ⟨hpre.route.snoc hop, by rw [List.length_append, hpre.length]; rfl, fun es' hroute hlength => ?_⟩
  obtain ⟨es', e', rfl, hroute', hlength', hop', htgt⟩ := hroute.pred hlength
  obtain ⟨hbest, hle⟩ := hleast e' hop' htgt ⟨es', hroute', hlength'⟩
  calc R.rank G u (pre (G.src e) ++ [e])
      ≤ R.rank G u (pre (G.src e') ++ [e']) := hle
    _ ≤ R.rank G u (es' ++ [e']) :=
      Ranking.rank_snoc_le (hbest.length.trans hlength'.symm) (hbest.least es' hroute' hlength') e'

lemma rank_le_of_step {es es' : List ε} {e e' : ε} (hroute : G.Route u es (G.src e))
    (hroute' : G.Route u es' (G.src e')) (hkey : R.key (G.src e) = R.key (G.src e') → es = es')
    (h : R.total (es ++ [e]) < R.total (es' ++ [e']) ∨ R.total (es ++ [e]) = R.total (es' ++ [e']) ∧
      (R.keys G u (es ++ [e]) < R.keys G u (es' ++ [e']) ∨
        R.keys G u (es ++ [e]) = R.keys G u (es' ++ [e']) ∧ R.label e ≤ R.label e')) :
    R.rank G u (es ++ [e]) ≤ R.rank G u (es' ++ [e']) := by
  rw [Ranking.rank_le_iff]
  refine h.imp_right (And.imp_right (Or.imp_right fun ⟨hkeys, hlabel⟩ => ⟨hkeys, ?_⟩))
  have hlast : R.keys G u es = R.keys G u es' := by
    rw [Ranking.keys_snoc, Ranking.keys_snoc] at hkeys
    exact (List.append_inj' hkeys rfl).1
  have hsame : R.key (G.src e) = R.key (G.src e') := by
    apply Option.some.inj
    rw [← Ranking.getLast?_keys hroute, ← Ranking.getLast?_keys hroute', hlast]
  obtain rfl := hkey hsame
  rw [Ranking.labels_snoc, Ranking.labels_snoc, ← not_lt, append_singleton_lt_iff rfl]
  rintro (hlt | ⟨-, hlt⟩)
  · exact lt_irrefl _ hlt
  · exact absurd hlt (not_lt.mpr hlabel)

end Net

end RepoGraph.Lib
