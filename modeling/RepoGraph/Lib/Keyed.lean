import Mathlib.Data.List.Nodup
import Mathlib.Tactic

/-! Lists of records that are looked up by a key: the first record of a key is the one that counts. -/

namespace RepoGraph.Lib.Keyed

variable {κ α : Type} [DecidableEq κ] (key : α → κ)

def find (k : κ) (l : List α) : Option α := l.find? (key · = k)

def modifyFirst (k : κ) (f : α → α) : List α → List α
  | [] => []
  | a :: l => if key a = k then f a :: l else a :: modifyFirst k f l

def moveLast (k : κ) (l : List α) : List α :=
  match find key k l with
  | some a => l.eraseP (key · = k) ++ [a]
  | none => l

def replaceLast (a : α) (l : List α) : List α := l.filter (key · ≠ key a) ++ [a]

variable {key} {k k' : κ} {a : α} {l : List α}

lemma find_eq_none : find key k l = none ↔ ∀ a ∈ l, key a ≠ k := by
  simp [find, List.find?_eq_none]

lemma key_of_find (h : find key k l = some a) : key a = k := by
  simpa using List.find?_some h

lemma mem_of_find (h : find key k l = some a) : a ∈ l := List.mem_of_find?_eq_some h

lemma find_cons : find key k (a :: l) = if key a = k then some a else find key k l := by
  rw [find, List.find?_cons, find]
  by_cases h : key a = k <;> simp [h]

lemma find_append (l l' : List α) : find key k (l ++ l') = (find key k l).or (find key k l') :=
  List.find?_append

lemma find_eq_some_iff (hnodup : (l.map key).Nodup) : find key k l = some a ↔ a ∈ l ∧ key a = k := by
  constructor
  · intro h
    exact ⟨mem_of_find h, key_of_find h⟩
  · rintro ⟨ha, rfl⟩
    cases hf : find key (key a) l with
    | none => exact absurd rfl (find_eq_none.mp hf a ha)
    | some b => exact congrArg some (List.inj_on_of_nodup_map hnodup (mem_of_find hf) ha (key_of_find hf))

lemma map_modifyFirst {f : α → α} (hf : ∀ a, key (f a) = key a) (k : κ) (l : List α) :
    (modifyFirst key k f l).map key = l.map key := by
  induction l with
  | nil => rfl
  | cons a l ih =>
    rw [modifyFirst]
    split
    · rw [List.map_cons, List.map_cons, hf]
    · rw [List.map_cons, List.map_cons, ih]

lemma find_modifyFirst {f : α → α} (hf : ∀ a, key (f a) = key a) (k k' : κ) (l : List α) :
    find key k' (modifyFirst key k f l) = if k' = k then (find key k l).map f else find key k' l := by
  induction l with
  | nil => simp [modifyFirst, find]
  | cons a l ih =>
    rw [modifyFirst]
    by_cases ha : key a = k
    · rw [if_pos ha, find_cons, find_cons, find_cons, hf]
      by_cases hk : k' = k
      · simp [ha, hk]
      · simp [ha, hk, Ne.symm hk]
    · rw [if_neg ha, find_cons, find_cons, find_cons, ih]
      by_cases hk : k' = k
      · subst hk
        simp [ha]
      · simp [hk]

lemma moveLast_perm (k : κ) (l : List α) : (moveLast key k l).Perm l := by
  rw [moveLast]
  split
  · rename_i a ha
    have hmem : a ∈ l := mem_of_find ha
    have hkey := key_of_find ha
    obtain ⟨b, before, after, hbefore, hb, rfl, heq⟩ :=
      List.exists_of_eraseP (p := (key · = k)) hmem (by simpa using hkey)
    have hab : a = b := by
      have hf : find key k (before ++ b :: after) = some b := by
        have hnone : find key k before = none := find_eq_none.mpr fun c hc => by simpa using hbefore c hc
        rw [find_append, hnone, find_cons, if_pos (by simpa using hb)]
        rfl
      exact Option.some.inj (ha.symm.trans hf)
    subst hab
    rw [heq]
    exact (List.perm_append_comm.trans (by simpa using (@List.perm_middle _ _ before _).symm))
  · exact .refl l

lemma find_of_perm {l l' : List α} (h : l'.Perm l) (hnodup : (l.map key).Nodup) (k : κ) :
    find key k l' = find key k l := by
  have hnodup' : (l'.map key).Nodup := (h.map key).nodup_iff.mpr hnodup
  ext a
  rw [find_eq_some_iff hnodup', find_eq_some_iff hnodup, h.mem_iff]

lemma nodup_replaceLast (hnodup : (l.map key).Nodup) (a : α) : ((replaceLast key a l).map key).Nodup := by
  rw [replaceLast, List.map_append, List.nodup_append]
  refine ⟨hnodup.sublist (List.filter_sublist.map key), by simp, ?_⟩
  intro k hk k' hk'
  obtain ⟨b, hb, rfl⟩ := List.mem_map.mp hk
  have hne := (List.mem_filter.mp hb).2
  simp only [List.map_cons, List.map_nil, List.mem_singleton] at hk'
  subst hk'
  simpa using hne

lemma find_replaceLast (a : α) (k : κ) (l : List α) :
    find key k (replaceLast key a l) = if k = key a then some a else find key k l := by
  rw [replaceLast, find_append]
  by_cases hk : k = key a
  · have hnone : find key k (l.filter (key · ≠ key a)) = none := by
      refine find_eq_none.mpr fun b hb => ?_
      have hne := (List.mem_filter.mp hb).2
      rw [hk]
      simpa using hne
    rw [hnone, if_pos hk, find_cons, if_pos hk.symm]
    rfl
  · have hkeep : find key k (l.filter (key · ≠ key a)) = find key k l := by
      rw [find, find, List.find?_filter]
      congr 1
      funext b
      by_cases hb : key b = k
      · simp [hb, hk]
      · simp [hb]
    have hlast : find key k [a] = none := find_eq_none.mpr (by simpa using Ne.symm hk)
    rw [hkeep, hlast, if_neg hk, Option.or_none]

lemma nodup_append_of_absent (hnodup : (l.map key).Nodup) (habsent : find key (key a) l = none) :
    ((l ++ [a]).map key).Nodup := by
  rw [List.map_append, List.nodup_append]
  refine ⟨hnodup, by simp, ?_⟩
  intro k hk k' hk'
  obtain ⟨b, hb, rfl⟩ := List.mem_map.mp hk
  simp only [List.map_cons, List.map_nil, List.mem_singleton] at hk'
  subst hk'
  exact find_eq_none.mp habsent b hb

lemma find_append_of_absent (habsent : find key (key a) l = none) (k : κ) :
    find key k (l ++ [a]) = if k = key a then some a else find key k l := by
  rw [find_append, find_cons]
  by_cases hk : k = key a
  · rw [hk, habsent, if_pos rfl, if_pos rfl]
    rfl
  · rw [if_neg (Ne.symm hk), if_neg hk]
    simp [find]

end RepoGraph.Lib.Keyed
