import Mathlib.Tactic

/-! When a concatenation can be taken apart again: at a marker that does not occur, at a run of one kind
of symbols, around a delimiter, and between separators. -/

namespace RepoGraph.Lib.Readback

variable {α : Type}

lemma marker_behind {c : α} {a b x y : List α} (h : a ++ x = b ++ c :: y) (ha : c ∉ a) :
    ∃ k, b = a ++ k ∧ x = k ++ c :: y := by
  rcases List.append_eq_append_iff.mp h with hk | ⟨k, rfl, hk⟩
  · exact hk
  · cases k with
    | nil => exact ⟨[], by simp, by simpa using hk.symm⟩
    | cons e k =>
      obtain ⟨rfl, -⟩ := List.cons.inj hk
      simp at ha

lemma append_marker {c : α} {a b x y : List α} (h : a ++ c :: x = b ++ c :: y) (ha : c ∉ a) (hb : c ∉ b) :
    a = b ∧ x = y := by
  obtain ⟨k, rfl, hk⟩ := marker_behind h ha
  cases k with
  | nil => simpa using hk
  | cons e k =>
    obtain ⟨rfl, -⟩ := List.cons.inj hk
    simp at hb

lemma append_run {q : α → Prop} {c d : α} {a b x y : List α} (h : a ++ c :: x = b ++ d :: y)
    (hx : ∀ z ∈ x, q z) (hc : ¬ q c) (hy : ∀ z ∈ y, q z) (hd : ¬ q d) : a = b ∧ c = d ∧ x = y := by
  rcases List.append_eq_append_iff.mp h with ⟨m, rfl, hm⟩ | ⟨m, rfl, hm⟩
  · cases m with
    | nil => simpa using hm
    | cons e m =>
      obtain ⟨-, rfl⟩ := List.cons.inj hm
      exact (hd (hx d (by simp))).elim
  · cases m with
    | nil => simpa [eq_comm] using hm
    | cons e m =>
      obtain ⟨-, rfl⟩ := List.cons.inj hm
      exact (hc (hy c (by simp))).elim

/-- A delimiter that starts with a symbol of its own cannot be met early without standing in the text before
the other occurrence. -/
lemma infix_of_delimiter {d : α} {D P E m E' : List α} (hd : d ∉ D) (hm : m ≠ [])
    (h : d :: D ++ E = m ++ (d :: D ++ E')) : d :: D <:+: P ++ m := by
  obtain ⟨e, m, rfl⟩ := List.exists_cons_of_ne_nil hm
  obtain ⟨rfl, htail⟩ := List.cons.inj (by simpa using h)
  rcases List.append_eq_append_iff.mp htail with ⟨k, rfl, -⟩ | ⟨k, hk, hrest⟩
  · exact ⟨P, k, by simp⟩
  · cases k with
    | nil => exact ⟨P, [], by simp [hk]⟩
    | cons f k =>
      obtain ⟨rfl, -⟩ := List.cons.inj hrest
      exact (hd (by simp [hk])).elim

lemma append_delimiter {d : α} {D P P' E E' : List α} (hd : d ∉ D) (hP : ¬ d :: D <:+: P)
    (hP' : ¬ d :: D <:+: P') (h : P ++ (d :: D ++ E) = P' ++ (d :: D ++ E')) : P = P' ∧ E = E' := by
  rcases List.append_eq_append_iff.mp h with ⟨m, rfl, hm⟩ | ⟨m, rfl, hm⟩
  · by_cases hnil : m = []
    · subst hnil
      simpa using hm
    · exact (hP' (infix_of_delimiter hd hnil hm)).elim
  · by_cases hnil : m = []
    · subst hnil
      simpa [eq_comm] using hm
    · exact (hP (infix_of_delimiter hd hnil hm)).elim

lemma intercalate_injective [DecidableEq α] {c : α} {ls ls' : List (List α)}
    (h : [c].intercalate ls = [c].intercalate ls') (hls : ∀ l ∈ ls, l ≠ [] ∧ c ∉ l)
    (hls' : ∀ l ∈ ls', l ≠ [] ∧ c ∉ l) : ls = ls' := by
  have hnil : ∀ ls : List (List α), (∀ l ∈ ls, l ≠ [] ∧ c ∉ l) → [c].intercalate ls = [] → ls = [] := by
    intro ls hls hnil
    cases ls with
    | nil => rfl
    | cons l ls =>
      refine absurd ?_ (hls l (by simp)).1
      cases ls with
      | nil => simpa using hnil
      | cons l' ls => simp [List.intercalate_cons_cons] at hnil
  by_cases he : ls = []
  · subst he
    exact (hnil ls' hls' (by simpa using h.symm)).symm
  · have he' : ls' ≠ [] := by
      rintro rfl
      exact he (hnil ls hls (by simpa using h))
    rw [← List.splitOn_intercalate c (fun l hl => (hls l hl).2) he, h,
      List.splitOn_intercalate c (fun l hl => (hls' l hl).2) he']

lemma mem_intercalate {c x : α} {ls : List (List α)} (h : x ∈ [c].intercalate ls) :
    x = c ∨ ∃ l ∈ ls, x ∈ l := by
  induction ls with
  | nil => simp at h
  | cons l ls ih =>
    cases ls with
    | nil => exact Or.inr ⟨l, by simp, by simpa using h⟩
    | cons l' ls =>
      rw [List.intercalate_cons_cons] at h
      simp only [List.mem_append, List.mem_singleton] at h
      rcases h with (hx | hx) | hx
      · exact Or.inr ⟨l, by simp, hx⟩
      · exact Or.inl hx
      · rcases ih hx with hx | ⟨k, hk, hx⟩
        · exact Or.inl hx
        · exact Or.inr ⟨k, by simp [hk], hx⟩

def OnlyAfter (b c : α) (l : List α) : Prop := ∀ u v, l = u ++ c :: v → ∃ u', u = u' ++ [b]

namespace OnlyAfter

variable {b c : α} {l l' : List α}

lemma of_not_mem (h : c ∉ l) : OnlyAfter b c l := by
  rintro u v rfl
  simp at h

lemma append (h : OnlyAfter b c l) (h' : OnlyAfter b c l') : OnlyAfter b c (l ++ l') := by
  intro u v he
  rcases List.append_eq_append_iff.mp he with ⟨m, rfl, hm⟩ | ⟨m, rfl, hm⟩
  · obtain ⟨u', rfl⟩ := h' m v hm
    exact ⟨l ++ u', by simp⟩
  · cases m with
    | nil => exact (h' [] v (by simpa using hm.symm)).imp (by simp)
    | cons e m =>
      obtain ⟨rfl, -⟩ := List.cons.inj hm
      exact h u m rfl

lemma intercalate {sep : List α} (hsep : OnlyAfter b c sep) {ls : List (List α)}
    (h : ∀ l ∈ ls, OnlyAfter b c l) : OnlyAfter b c (sep.intercalate ls) := by
  induction ls with
  | nil => exact of_not_mem (by simp)
  | cons l ls ih =>
    have ih := ih fun k hk => h k (by simp [hk])
    cases ls with
    | nil => simpa using h l (by simp)
    | cons l' ls =>
      rw [List.intercalate_cons_cons]
      exact ((h l (by simp)).append hsep).append ih

end OnlyAfter

end RepoGraph.Lib.Readback
