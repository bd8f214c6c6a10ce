import RepoGraph.Lib.Containers
import RepoGraph.Lib.Exec

/-! Tables of totals. A key without a row has the total zero; a list of changes is added up key by key, and a
table that checks its rows takes the changes one after the other. -/

namespace RepoGraph.Lib.Tally

open Std

variable {κ ν ε : Type} [DecidableEq κ] [AddCommGroup ν]

section Changes

def changeAt (changes : List (κ × ν)) (k : κ) : ν := (changes.map fun c => if c.1 = k then c.2 else 0).sum

@[simp] lemma changeAt_nil (k : κ) : changeAt ([] : List (κ × ν)) k = 0 := rfl

lemma changeAt_cons (c : κ × ν) (changes : List (κ × ν)) (k : κ) :
    changeAt (c :: changes) k = (if c.1 = k then c.2 else 0) + changeAt changes k := by
  rw [changeAt, List.map_cons, List.sum_cons]
  rfl

lemma changeAt_append (changes changes' : List (κ × ν)) (k : κ) :
    changeAt (changes ++ changes') k = changeAt changes k + changeAt changes' k := by
  rw [changeAt, List.map_append, List.sum_append]
  rfl

lemma changeAt_of_notMem {changes : List (κ × ν)} {k : κ} (h : k ∉ changes.map Prod.fst) :
    changeAt changes k = 0 := by
  apply List.sum_eq_zero
  intro v hv
  obtain ⟨c, hmem, rfl⟩ := List.mem_map.mp hv
  exact if_neg fun he => h (List.mem_map.mpr ⟨c, hmem, he⟩)

lemma changeAt_of_mem {changes : List (κ × ν)} (h : (changes.map Prod.fst).Nodup) {k : κ} {d : ν}
    (hmem : (k, d) ∈ changes) : changeAt changes k = d := by
  induction changes with
  | nil => simp at hmem
  | cons c changes ih =>
    obtain ⟨hc, hnodup⟩ := List.nodup_cons.mp h
    rw [changeAt_cons]
    rcases List.mem_cons.mp hmem with rfl | hmem
    · rw [if_pos rfl, changeAt_of_notMem hc, add_zero]
    · have hne : c.1 ≠ k := fun he => hc (List.mem_map.mpr ⟨(k, d), hmem, he.symm⟩)
      rw [if_neg hne, ih hnodup hmem, zero_add]

end Changes

variable [Ord κ] [TransOrd κ] [LawfulEqOrd κ]

def total (t : BTreeMap κ ν) (k : κ) : ν := t[k]?.getD 0

def bump (t : BTreeMap κ ν) (c : κ × ν) : BTreeMap κ ν := t.insert c.1 (total t c.1 + c.2)

def tally (changes : List (κ × ν)) : BTreeMap κ ν := changes.foldl bump ∅

lemma total_insert (t : BTreeMap κ ν) (k k' : κ) (v : ν) :
    total (t.insert k v) k' = if k = k' then v else total t k' := by
  rw [total, getElem?_insert]
  by_cases h : k = k'
  · rw [if_pos h, if_pos h, Option.getD_some]
  · rw [if_neg h, if_neg h]
    rfl

lemma total_bump (t : BTreeMap κ ν) (c : κ × ν) (k : κ) :
    total (bump t c) k = total t k + if c.1 = k then c.2 else 0 := by
  rw [bump, total_insert]
  by_cases h : c.1 = k
  · rw [if_pos h, if_pos h, h]
  · rw [if_neg h, if_neg h, add_zero]

lemma total_tally (changes : List (κ × ν)) (k : κ) : total (tally changes) k = changeAt changes k := by
  have hfold : ∀ (changes : List (κ × ν)) (t : BTreeMap κ ν),
      total (changes.foldl bump t) k = total t k + changeAt changes k := by
    intro changes
    induction changes with
    | nil =>
      intro t
      simp
    | cons c changes ih =>
      intro t
      rw [List.foldl_cons, ih, total_bump, changeAt_cons, add_assoc]
  have hempty : total (∅ : BTreeMap κ ν) k = 0 := by simp [total]
  rw [tally, hfold, hempty, zero_add]

omit [DecidableEq κ] [AddCommGroup ν] in
lemma nodup_keys_toList (t : BTreeMap κ ν) : (t.toList.map Prod.fst).Nodup := by
  rw [List.Nodup, List.pairwise_map]
  refine ExtTreeMap.distinct_keys_toList.imp fun hne he => hne ?_
  rw [he]
  exact ReflCmp.compare_self

lemma changeAt_toList (t : BTreeMap κ ν) (k : κ) : changeAt t.toList k = total t k := by
  rw [total]
  cases hk : t[k]? with
  | some v =>
    exact changeAt_of_mem (nodup_keys_toList t) (ExtTreeMap.mem_toList_iff_getElem?_eq_some.mpr hk)
  | none =>
    apply changeAt_of_notMem
    intro hmem
    obtain ⟨c, hc, rfl⟩ := List.mem_map.mp hmem
    rw [ExtTreeMap.mem_toList_iff_getElem?_eq_some.mp hc] at hk
    cases hk

lemma changeAt_toList_tally (changes : List (κ × ν)) (k : κ) :
    changeAt (tally changes).toList k = changeAt changes k := by
  rw [changeAt_toList, total_tally]

section Adjust

variable (statement : ℕ → Except ε Unit) (rejected : ε) (accepts : ν → Bool)

/-- UPDATE of the row of the key, or INSERT of a new one, with the check of the table. -/
def adjustRow (t : BTreeMap κ ν) (c : κ × ν) : Except ε (BTreeMap κ ν) :=
  let row := match t[c.1]? with
    | some v => v + c.2
    | none => c.2
  if accepts row then .ok (t.insert c.1 row) else .error rejected

variable [DecidableEq ν]

/-- The changes in their order; a change of zero runs no statement. -/
def adjust : ℕ → List (κ × ν) → BTreeMap κ ν → Except ε (BTreeMap κ ν)
  | _, [], t => .ok t
  | i, c :: changes, t =>
    if c.2 = 0 then adjust (i + 1) changes t
    else do
      statement i
      let t ← adjustRow rejected accepts t c
      adjust (i + 1) changes t

variable {statement rejected accepts}

omit [DecidableEq ν] [DecidableEq κ] [LawfulEqOrd κ] in
lemma adjustRow_eq (t : BTreeMap κ ν) (c : κ × ν) (h : accepts (total t c.1 + c.2)) :
    adjustRow rejected accepts t c = .ok (bump t c) := by
  have hrow : (match t[c.1]? with
      | some v => v + c.2
      | none => c.2) = total t c.1 + c.2 := by
    rw [total]
    cases t[c.1]? with
    | none => exact (zero_add _).symm
    | some v => rfl
  simp only [adjustRow, hrow, if_pos h]
  rfl

lemma adjust_spec {changes : List (κ × ν)} (hkeys : (changes.map Prod.fst).Nodup) (i : ℕ) (t : BTreeMap κ ν)
    (haccepts : ∀ c ∈ changes, accepts (total t c.1 + c.2)) :
    Ensures (adjust statement rejected accepts i changes t)
      (fun t' => ∀ k, total t' k = total t k + changeAt changes k) (fun e => ∃ j, statement j = .error e) := by
  induction changes generalizing i t with
  | nil =>
    intro k
    simp
  | cons c changes ih =>
    obtain ⟨hc, hkeys⟩ := List.nodup_cons.mp hkeys
    by_cases hzero : c.2 = 0
    · simp only [adjust, changeAt_cons, hzero, ite_self, zero_add]
      exact ih hkeys (i + 1) t fun c' hc' => haccepts c' (List.mem_cons_of_mem _ hc')
    · have hbumped : ∀ c' ∈ changes, accepts (total (bump t c) c'.1 + c'.2) := by
        intro c' hc'
        have hne : c.1 ≠ c'.1 := fun he => hc (List.mem_map.mpr ⟨c', hc', he.symm⟩)
        rw [total_bump, if_neg hne, add_zero]
        exact haccepts c' (List.mem_cons_of_mem _ hc')
      simp only [adjust, if_neg hzero]
      cases hstatement : statement i with
      | error e => exact ⟨i, hstatement⟩
      | ok u =>
        rw [adjustRow_eq t c (haccepts c List.mem_cons_self)]
        refine (ih hkeys (i + 1) (bump t c) hbumped).mono (fun t' ht' k => ?_) fun _ h => h
        rw [ht' k, total_bump, changeAt_cons, add_assoc]

variable {κ' : Type} [DecidableEq κ'] [Ord κ'] [TransOrd κ'] [LawfulEqOrd κ']

omit [DecidableEq ν] [Ord κ] [TransOrd κ] [LawfulEqOrd κ] [Ord κ'] [TransOrd κ'] [LawfulEqOrd κ'] in
lemma changeAt_map_key {key : κ' → κ} (hkey : Function.Injective key) (changes : List (κ' × ν)) (k : κ') :
    changeAt (changes.map fun c => (key c.1, c.2)) (key k) = changeAt changes k := by
  simp only [changeAt, List.map_map, Function.comp_def, hkey.eq_iff]

lemma adjust_tally_spec {key : κ' → κ} (hkey : Function.Injective key) (changes : List (κ' × ν)) (i : ℕ)
    (t : BTreeMap κ ν) (haccepts : ∀ k, accepts (total t (key k) + changeAt changes k)) :
    Ensures (adjust statement rejected accepts i ((tally changes).toList.map fun c => (key c.1, c.2)) t)
      (fun t' => ∀ k, total t' (key k) = total t (key k) + changeAt changes k)
      (fun e => ∃ j, statement j = .error e) := by
  have hnodup := nodup_keys_toList (tally changes)
  have hkeys : (((tally changes).toList.map fun c => (key c.1, c.2)).map Prod.fst).Nodup := by
    rw [List.map_map, show (Prod.fst ∘ fun c : κ' × ν => (key c.1, c.2)) = key ∘ Prod.fst from rfl, ← List.map_map]
    exact hnodup.map hkey
  refine (adjust_spec hkeys i t fun c hc => ?_).mono (fun t' ht' k => ?_) fun _ h => h
  · obtain ⟨⟨k, d⟩, hmem, rfl⟩ := List.mem_map.mp hc
    have hd : changeAt changes k = d := by rw [← changeAt_toList_tally, changeAt_of_mem hnodup hmem]
    rw [← hd]
    exact haccepts k
  · rw [ht' (key k), changeAt_map_key hkey, changeAt_toList_tally]

end Adjust

section Counters

lemma sum_values (m : BTreeMap κ ℕ) {ks : List κ} (hks : ks.Nodup) (hmem : ∀ k, m[k]?.isSome → k ∈ ks) :
    (m.toList.map Prod.snd).sum = (ks.map fun k => m[k]?.getD 0).sum := by
  have hvalues : m.toList.map Prod.snd = (m.toList.map Prod.fst).map fun k => m[k]?.getD 0 := by
    rw [List.map_map]
    refine List.map_congr_left fun e he => ?_
    rw [Function.comp_apply, ExtTreeMap.mem_toList_iff_getElem?_eq_some.mp he, Option.getD_some]
  rw [hvalues, ← List.sum_toFinset _ (nodup_keys_toList m), ← List.sum_toFinset _ hks]
  apply Finset.sum_subset
  · intro k hk
    obtain ⟨e, he, rfl⟩ := List.mem_map.mp (List.mem_toFinset.mp hk)
    exact List.mem_toFinset.mpr (hmem _ (by rw [ExtTreeMap.mem_toList_iff_getElem?_eq_some.mp he]; rfl))
  · intro k _ hk
    cases hkey : m[k]? with
    | none => rfl
    | some v =>
      exact absurd (List.mem_toFinset.mpr (List.mem_map.mpr
        ⟨(k, v), ExtTreeMap.mem_toList_iff_getElem?_eq_some.mpr hkey, rfl⟩)) hk

def countUp (m : BTreeMap κ ℕ) (k : κ) : BTreeMap κ ℕ := m.insert k (m[k]?.getD 0 + 1)

lemma getD_countUp (m : BTreeMap κ ℕ) (k k' : κ) :
    (countUp m k)[k']?.getD 0 = m[k']?.getD 0 + if k = k' then 1 else 0 := by
  rw [countUp, getElem?_insert]
  by_cases h : k = k'
  · rw [if_pos h, if_pos h, Option.getD_some, h]
  · rw [if_neg h, if_neg h, add_zero]

lemma sum_countUp (m : BTreeMap κ ℕ) (k : κ) {ks : List κ} (hks : ks.Nodup) :
    (ks.map fun k' => (countUp m k)[k']?.getD 0).sum =
      (ks.map fun k' => m[k']?.getD 0).sum + if k ∈ ks then 1 else 0 := by
  simp only [getD_countUp, List.sum_map_add, Nat.add_left_cancel_iff]
  induction ks with
  | nil => rfl
  | cons k' ks ih =>
    obtain ⟨hk', hks⟩ := List.nodup_cons.mp hks
    rw [List.map_cons, List.sum_cons, ih hks]
    by_cases h : k = k'
    · rw [if_pos h, h, if_neg hk', if_pos List.mem_cons_self]
    · simp [h]

lemma sum_values_countUp (m : BTreeMap κ ℕ) (k : κ) :
    ((countUp m k).toList.map Prod.snd).sum = (m.toList.map Prod.snd).sum + 1 := by
  let ks := (k :: m.toList.map Prod.fst).dedup
  have hkeys : ∀ k', m[k']?.isSome → k' ∈ ks := by
    intro k' hk'
    obtain ⟨v, hv⟩ := Option.isSome_iff_exists.mp hk'
    exact List.mem_dedup.mpr (List.mem_cons_of_mem _
      (List.mem_map.mpr ⟨(k', v), ExtTreeMap.mem_toList_iff_getElem?_eq_some.mpr hv, rfl⟩))
  have hcounted : ∀ k', (countUp m k)[k']?.isSome → k' ∈ ks := by
    intro k' hk'
    rw [countUp, getElem?_insert] at hk'
    split at hk'
    · exact List.mem_dedup.mpr (by simp [*])
    · exact hkeys k' hk'
  rw [sum_values _ (List.nodup_dedup _) hkeys, sum_values _ (List.nodup_dedup _) hcounted,
    sum_countUp m k (List.nodup_dedup _), if_pos (List.mem_dedup.mpr List.mem_cons_self)]

end Counters

end RepoGraph.Lib.Tally
