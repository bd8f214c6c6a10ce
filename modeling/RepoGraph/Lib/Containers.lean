import Mathlib.Data.List.AList
import Mathlib.Data.List.Sort
import Mathlib.Data.Finset.Card
import Mathlib.Tactic

/-! Finite maps and sets. A `BTreeMap` is iterated in the order of its keys; a `HashMap` is read
through its keys only. -/

namespace RepoGraph.Lib

open Std

abbrev BTreeMap (κ ν : Type) [Ord κ] := ExtTreeMap κ ν compare
abbrev BTreeSet (κ : Type) [Ord κ] := ExtTreeSet κ compare
abbrev HashMap (κ ν : Type) [Ord κ] := ExtTreeMap κ ν compare
abbrev HashSet (κ : Type) [Ord κ] := ExtTreeSet κ compare

instance pairOrd {κ ν : Type} [Ord κ] [Ord ν] : Ord (κ × ν) := lexOrd

instance pairTransOrd {κ ν : Type} [Ord κ] [Ord ν] [TransOrd κ] [TransOrd ν] : TransOrd (κ × ν) :=
  inferInstanceAs (TransCmp (compareLex (compareOn Prod.fst) (compareOn Prod.snd)))

instance pairLawfulEqOrd {κ ν : Type} [Ord κ] [Ord ν] [LawfulEqOrd κ] [LawfulEqOrd ν] :
    LawfulEqOrd (κ × ν) where
  compare_self {p} := by
    change compareLex (compareOn Prod.fst) (compareOn Prod.snd) p p = .eq
    simp [compareLex, compareOn]
  eq_of_compare {p q} h := by
    change compareLex (compareOn Prod.fst) (compareOn Prod.snd) p q = .eq at h
    simp only [compareLex, compareOn, Ordering.then_eq_eq, Std.compare_eq_iff_eq] at h
    exact Prod.ext h.1 h.2

def sortBy {α : Type} (cmp : α → α → Ordering) (l : List α) : List α :=
  l.insertionSort (fun a b => (cmp a b).isLE)

lemma sortBy_perm {α : Type} (cmp : α → α → Ordering) (l : List α) : (sortBy cmp l).Perm l :=
  l.perm_insertionSort _

variable {κ ν : Type} [Ord κ] [TransOrd κ] [LawfulEqOrd κ]

lemma getElem?_insert [DecidableEq κ] (m : BTreeMap κ ν) (k k' : κ) (v : ν) :
    (m.insert k v)[k']? = if k = k' then some v else m[k']? := by
  simp [ExtTreeMap.getElem?_insert]

lemma getElem?_insert_of_ne (m : BTreeMap κ ν) {k k' : κ} (h : k ≠ k') (v : ν) :
    (m.insert k v)[k']? = m[k']? := by
  classical
  simp [getElem?_insert, h]

lemma nodup_toList (s : BTreeSet κ) : s.toList.Nodup := by
  refine s.distinct_toList.imp ?_
  intro a b hab he
  exact hab (by simp [he])

lemma toFinset_toList_card [DecidableEq κ] (s : BTreeSet κ) : s.toList.toFinset.card = s.size := by
  rw [List.toFinset_card_of_nodup (nodup_toList s), ExtTreeSet.length_toList]

lemma length_le_size [DecidableEq κ] {s : BTreeSet κ} {l : List κ} (hl : l.Nodup) (h : ∀ v ∈ l, v ∈ s) :
    l.length ≤ s.size := by
  rw [← toFinset_toList_card, ← List.toFinset_card_of_nodup hl]
  refine Finset.card_le_card ?_
  intro v hv
  exact List.mem_toFinset.mpr (ExtTreeSet.mem_toList.mpr (h v (List.mem_toFinset.mp hv)))

lemma size_eq_length [DecidableEq κ] {s : BTreeSet κ} {l : List κ} (hl : l.Nodup) (h : ∀ v, v ∈ s ↔ v ∈ l) :
    s.size = l.length := by
  rw [← toFinset_toList_card, ← List.toFinset_card_of_nodup hl]
  congr 1
  ext v
  rw [List.mem_toFinset, List.mem_toFinset, ExtTreeSet.mem_toList, h]

lemma exists_ne_of_one_lt_size [DecidableEq κ] {s : BTreeSet κ} (h : 1 < s.size) (a : κ) : ∃ b ∈ s, b ≠ a := by
  rw [← toFinset_toList_card] at h
  obtain ⟨b, hb, hne⟩ := Finset.exists_mem_ne h a
  exact ⟨b, ExtTreeSet.mem_toList.mp (List.mem_toFinset.mp hb), hne⟩

lemma size_lt_of_subset [DecidableEq κ] {s t : BTreeSet κ} (hsub : ∀ v ∈ s, v ∈ t) (hne : s ≠ t) :
    s.size < t.size := by
  rw [← toFinset_toList_card, ← toFinset_toList_card]
  refine Finset.card_lt_card (Finset.ssubset_iff_subset_ne.mpr ⟨?_, ?_⟩)
  · intro v hv
    exact List.mem_toFinset.mpr (ExtTreeSet.mem_toList.mpr (hsub v (by simpa using hv)))
  · intro he
    refine hne (ExtTreeSet.ext_mem fun v => ?_)
    rw [← ExtTreeSet.mem_toList, ← List.mem_toFinset, he, List.mem_toFinset, ExtTreeSet.mem_toList]

lemma ofList_toList_set [DecidableEq κ] (s : BTreeSet κ) : ExtTreeSet.ofList s.toList compare = s := by
  refine ExtTreeSet.ext_mem fun k => ?_
  rw [ExtTreeSet.mem_ofList, List.contains_iff_mem, ExtTreeSet.mem_toList]

lemma ofList_toList_map [DecidableEq κ] (m : BTreeMap κ ν) : ExtTreeMap.ofList m.toList compare = m := by
  refine ExtTreeMap.ext_getElem? fun k => ?_
  cases hk : m[k]? with
  | some v =>
    exact ExtTreeMap.getElem?_ofList_of_mem ReflCmp.compare_self ExtTreeMap.distinct_keys_toList
      (ExtTreeMap.mem_toList_iff_getElem?_eq_some.mpr hk)
  | none =>
    refine ExtTreeMap.getElem?_ofList_of_contains_eq_false ?_
    rw [Bool.eq_false_iff, Ne, List.contains_iff_mem, List.mem_map]
    rintro ⟨⟨k', v⟩, hmem, rfl⟩
    simp [ExtTreeMap.mem_toList_iff_getElem?_eq_some.mp hmem] at hk

end RepoGraph.Lib
