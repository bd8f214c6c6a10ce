import RepoGraph.Lib.Containers

/-! Answers that are kept in a table, and queries that go through the state of one. A table is valid when it holds
nothing but true answers; queries that keep it so answer as if there were none. -/

namespace RepoGraph.Lib

section Memo

variable {κ ν : Type} [Ord κ] [Std.TransOrd κ]

def Memo.Valid (f : κ → ν) (table : HashMap κ ν) : Prop := ∀ k v, table[k]? = some v → v = f k

lemma Memo.valid_empty (f : κ → ν) : Valid f (∅ : HashMap κ ν) := by
  intro k v h
  simp at h

lemma Memo.Valid.insert [Std.LawfulEqOrd κ] {f : κ → ν} {table : HashMap κ ν} (h : Valid f table) {k : κ} {v : ν}
    (hv : v = f k) : Valid f (table.insert k v) := by
  intro k' v' hk'
  by_cases heq : k = k'
  · subst heq
    rw [Std.ExtTreeMap.getElem?_insert_self, Option.some_inj] at hk'
    rw [← hk', hv]
  · rw [getElem?_insert_of_ne _ heq] at hk'
    exact h k' v' hk'

end Memo

section Answers

variable {σ ι α : Type}

def answers (step : σ → ι → α × σ) : σ → List ι → List α
  | _, [] => []
  | s, q :: queries => (step s q).1 :: answers step (step s q).2 queries

lemma answers_eq_map {step : σ → ι → α × σ} {inv : σ → Prop} {f : ι → α}
    (hstep : ∀ s q, inv s → (step s q).1 = f q ∧ inv (step s q).2) {s : σ} (hs : inv s) (queries : List ι) :
    answers step s queries = queries.map f := by
  induction queries generalizing s with
  | nil => rfl
  | cons q queries ih =>
    obtain ⟨hanswer, hinv⟩ := hstep s q hs
    rw [answers, List.map_cons, hanswer, ih hinv]

end Answers

end RepoGraph.Lib
