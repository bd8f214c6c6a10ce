import RepoGraph.Lib.Containers

/-! Folds whose result is read through a law: the first entry of least or of greatest key, and the concatenation
without repetitions. -/

namespace RepoGraph.Lib

variable {α β : Type}

section Best

variable {le better : α → α → Prop} [DecidableRel better]

lemma foldl_best (hrefl : ∀ a, le a a) (htrans : ∀ a b c, le a b → le b c → le a c)
    (htake : ∀ best b, better best b → le b best) (hkeep : ∀ best b, ¬ better best b → le best b)
    (l : List α) (a : α) :
    let r := l.foldl (fun best b => if better best b then b else best) a
    r ∈ a :: l ∧ ∀ b ∈ a :: l, le r b := by
  induction l generalizing a with
  | nil => simpa using hrefl a
  | cons c l ih =>
    by_cases hc : better a c
    · obtain ⟨hmem, hle⟩ := ih c
      simp only [List.foldl_cons, if_pos hc]
      refine ⟨List.mem_cons_of_mem _ hmem, ?_⟩
      intro b hb
      rcases List.mem_cons.mp hb with rfl | hb
      · exact htrans _ c _ (hle c List.mem_cons_self) (htake _ _ hc)
      · exact hle b hb
    · obtain ⟨hmem, hle⟩ := ih a
      simp only [List.foldl_cons, if_neg hc]
      refine ⟨by grind, ?_⟩
      intro b hb
      rcases List.mem_cons.mp hb with rfl | hb
      · exact hle b List.mem_cons_self
      · rcases List.mem_cons.mp hb with rfl | hb
        · exact htrans _ a _ (hle a List.mem_cons_self) (hkeep _ _ hc)
        · exact hle b (List.mem_cons_of_mem _ hb)

end Best

section MinByKey

variable {key : α → ℕ}

def minByKey (key : α → ℕ) : List α → Option α
  | [] => none
  | a :: l => some (l.foldl (fun best b => if key b < key best then b else best) a)

def lastMaxByKey (key : α → ℕ) : List α → Option α
  | [] => none
  | a :: l => some (l.foldl (fun best b => if key best ≤ key b then b else best) a)

lemma minByKey_eq_none {l : List α} : minByKey key l = none ↔ l = [] := by
  cases l with
  | nil => simp [minByKey]
  | cons a l => simp [minByKey]

lemma minByKey_spec {l : List α} {a : α} (h : minByKey key l = some a) : a ∈ l ∧ ∀ b ∈ l, key a ≤ key b := by
  cases l with
  | nil => simp [minByKey] at h
  | cons c l =>
    obtain rfl := Option.some.inj h
    exact @foldl_best _ (fun a b => key a ≤ key b) _ _ (fun a => le_refl _) (fun _ _ _ => le_trans)
      (fun _ _ h => h.le) (fun _ _ h => not_lt.mp h) l c

lemma lastMaxByKey_eq_none {l : List α} : lastMaxByKey key l = none ↔ l = [] := by
  cases l with
  | nil => simp [lastMaxByKey]
  | cons a l => simp [lastMaxByKey]

lemma lastMaxByKey_spec {l : List α} {a : α} (h : lastMaxByKey key l = some a) : a ∈ l ∧
    ∀ b ∈ l, key b ≤ key a := by
  cases l with
  | nil => simp [lastMaxByKey] at h
  | cons c l =>
    obtain rfl := Option.some.inj h
    exact @foldl_best _ (fun a b => key b ≤ key a) _ _ (fun a => le_refl _) (fun _ _ _ hab hbc => le_trans hbc hab)
      (fun _ _ h => h) (fun _ _ h => (not_le.mp h).le) l c

lemma le_key_minByKey {l : List α} {a : α} (h : minByKey key l = some a) (n : ℕ) :
    n ≤ key a ↔ ∀ b ∈ l, n ≤ key b := by
  obtain ⟨hmem, hle⟩ := minByKey_spec h
  exact ⟨fun hn b hb => hn.trans (hle b hb), fun hn => hn a hmem⟩

end MinByKey

section LeastBy

variable {κ : Type}

def leastBy [LT κ] [DecidableLT κ] (key : α → κ) : List α → Option α
  | [] => none
  | a :: l => some (l.foldl (fun best b => if key b < key best then b else best) a)

lemma leastBy_eq_none [LT κ] [DecidableLT κ] {key : α → κ} {l : List α} : leastBy key l = none ↔ l = [] := by
  cases l with
  | nil => simp [leastBy]
  | cons a l => simp [leastBy]

lemma leastBy_spec [LinearOrder κ] {key : α → κ} {l : List α} {a : α} (h : leastBy key l = some a) :
    a ∈ l ∧ ∀ b ∈ l, key a ≤ key b := by
  cases l with
  | nil => simp [leastBy] at h
  | cons c l =>
    obtain rfl := Option.some.inj h
    exact @foldl_best _ (fun a b => key a ≤ key b) _ _ (fun a => le_refl _) (fun _ _ _ => le_trans)
      (fun _ _ h => h.le) (fun _ _ h => not_lt.mp h) l c

end LeastBy

section LongestBy

def longestBy (p : α → Bool) (key : α → ℕ) (l : List α) : Option α × ℕ :=
  l.foldl (fun best a => if p a then (if key a > best.2 then (some a, key a) else best) else best) (none, 0)

variable {p : α → Bool} {key : α → ℕ}

lemma longestBy_spec (p : α → Bool) (key : α → ℕ) (l : List α) :
    (∀ a ∈ l, p a → key a ≤ (longestBy p key l).2) ∧
      ((longestBy p key l = (none, 0)) ∨ ∃ a ∈ l, p a ∧ longestBy p key l = (some a, key a)) := by
  induction l using List.reverseRecOn with
  | nil => simp [longestBy]
  | append_singleton l a ih =>
    obtain ⟨hle, hbest⟩ := ih
    have hsnoc : longestBy p key (l ++ [a]) = if p a then (if key a > (longestBy p key l).2 then (some a, key a)
        else longestBy p key l) else longestBy p key l := by
      rw [longestBy, List.foldl_append]
      rfl
    have hkept : longestBy p key l = (none, 0) ∨
        ∃ b ∈ l ++ [a], p b ∧ longestBy p key l = (some b, key b) :=
      hbest.imp_right fun ⟨b, hb, h⟩ => ⟨b, List.mem_append_left _ hb, h⟩
    rw [hsnoc]
    simp only [List.mem_append, List.mem_singleton, or_imp, forall_and, forall_eq]
    by_cases ha : p a
    · rw [if_pos ha]
      by_cases hlt : key a > (longestBy p key l).2
      · rw [if_pos hlt]
        refine ⟨⟨fun b hb hpb => (hle b hb hpb).trans hlt.le, fun _ => le_refl _⟩, .inr ⟨a, by simp, ha, rfl⟩⟩
      · rw [if_neg hlt]
        refine ⟨⟨hle, fun _ => by omega⟩, ?_⟩
        simpa using hkept
    · rw [if_neg ha]
      refine ⟨⟨hle, fun h => absurd h ha⟩, ?_⟩
      simpa using hkept

lemma longestBy_eq_some {l : List α} {a : α} (h : (longestBy p key l).1 = some a) :
    a ∈ l ∧ p a ∧ ∀ b ∈ l, p b → key b ≤ key a := by
  obtain ⟨hle, hnone | ⟨b, hb, hpb, heq⟩⟩ := longestBy_spec p key l
  · rw [hnone] at h
    exact absurd h (by simp)
  · rw [heq] at h hle
    obtain rfl := Option.some.inj h
    exact ⟨hb, hpb, hle⟩

lemma longestBy_eq_none {l : List α} (h : (longestBy p key l).1 = none) {a : α} (ha : a ∈ l) (hpa : p a) :
    key a = 0 := by
  obtain ⟨hle, hnone | ⟨b, hb, hpb, heq⟩⟩ := longestBy_spec p key l
  · have hkey := hle a ha hpa
    rw [hnone] at hkey
    exact Nat.le_zero.mp hkey
  · rw [heq] at h
    exact absurd h (by simp)

end LongestBy

section Nub

variable [DecidableEq α]

def nubOnto (out more : List α) : List α := more.foldl (fun out a => if a ∈ out then out else out ++ [a]) out

@[simp] lemma nubOnto_nil (out : List α) : nubOnto out [] = out := rfl

lemma nubOnto_cons (out : List α) (a : α) (l : List α) :
    nubOnto out (a :: l) = nubOnto (if a ∈ out then out else out ++ [a]) l := rfl

lemma nubOnto_append (out l l' : List α) : nubOnto out (l ++ l') = nubOnto (nubOnto out l) l' := by
  rw [nubOnto, List.foldl_append]
  rfl

lemma mem_nubOnto {out l : List α} {a : α} : a ∈ nubOnto out l ↔ a ∈ out ∨ a ∈ l := by
  induction l generalizing out with
  | nil => simp
  | cons b l ih =>
    rw [nubOnto_cons, ih]
    by_cases hb : b ∈ out
    · rw [if_pos hb]
      grind
    · rw [if_neg hb]
      grind

lemma nodup_nubOnto {out : List α} (h : out.Nodup) (l : List α) : (nubOnto out l).Nodup := by
  induction l generalizing out with
  | nil => exact h
  | cons b l ih =>
    rw [nubOnto_cons]
    apply ih
    split
    · exact h
    · rename_i hb
      exact List.nodup_append.mpr ⟨h, by simp, by grind⟩

lemma prefix_nubOnto (out l : List α) : out <+: nubOnto out l := by
  induction l generalizing out with
  | nil => exact List.prefix_refl out
  | cons b l ih =>
    rw [nubOnto_cons]
    split
    · exact ih out
    · exact (List.prefix_append out [b]).trans (ih _)

lemma nubOnto_sublist (out l : List α) : (nubOnto out l).Sublist (out ++ l) := by
  induction l generalizing out with
  | nil => simp
  | cons b l ih =>
    rw [nubOnto_cons]
    split
    · exact (ih out).trans ((List.Sublist.refl out).append (List.sublist_cons_self b l))
    · simpa using ih (out ++ [b])

lemma nubOnto_nubOnto (out acc l : List α) : nubOnto out (nubOnto acc l) = nubOnto (nubOnto out acc) l := by
  induction l generalizing acc with
  | nil => rfl
  | cons a l ih =>
    rw [nubOnto_cons, nubOnto_cons, ih]
    by_cases ha : a ∈ acc
    · rw [if_pos ha, if_pos (mem_nubOnto.mpr (Or.inr ha))]
    · rw [if_neg ha, nubOnto_append]
      rfl

lemma nubOnto_flatMap (gs : List β) (f : β → List α) (out : List α) :
    nubOnto out (gs.flatMap fun g => nubOnto [] (f g)) = nubOnto out (gs.flatMap f) := by
  induction gs generalizing out with
  | nil => rfl
  | cons g gs ih =>
    rw [List.flatMap_cons, List.flatMap_cons, nubOnto_append, nubOnto_append, nubOnto_nubOnto, ih]
    rfl

lemma nubOnto_perm {l l' : List α} (h : ∀ a, a ∈ l ↔ a ∈ l') : (nubOnto [] l).Perm (nubOnto [] l') := by
  rw [List.perm_ext_iff_of_nodup (nodup_nubOnto List.nodup_nil l) (nodup_nubOnto List.nodup_nil l')]
  intro a
  rw [mem_nubOnto, mem_nubOnto, h]

end Nub

section Sorting

variable {cmp : α → α → Ordering}

lemma pairwise_sortBy [Std.TransCmp cmp] (l : List α) : (sortBy cmp l).Pairwise (fun a b => (cmp a b).isLE) := by
  have : Std.Total (fun a b : α => (cmp a b).isLE = true) := ⟨fun a b => by
    cases h : cmp a b with
    | lt => simp
    | eq => simp
    | gt => simp [Std.OrientedCmp.lt_of_gt h]⟩
  have : IsTrans α (fun a b : α => (cmp a b).isLE = true) := ⟨fun _ _ _ => Std.TransCmp.isLE_trans⟩
  exact List.pairwise_insertionSort _ l

lemma sortBy_eq_of_perm [Std.TransCmp cmp] {l l' : List α} (h : l.Perm l')
    (hties : ∀ a ∈ l, ∀ b ∈ l, cmp a b = .eq → a = b) : sortBy cmp l = sortBy cmp l' := by
  refine List.Perm.eq_of_pairwise ?_ (pairwise_sortBy l) (pairwise_sortBy l')
    ((sortBy_perm _ l).trans (h.trans (sortBy_perm _ l').symm))
  intro a b ha hb hab hba
  exact hties a ((sortBy_perm _ l).mem_iff.mp ha) b (h.mem_iff.mpr ((sortBy_perm _ l').mem_iff.mp hb))
    (Std.OrientedCmp.isLE_antisymm hab hba)

lemma sortBy_compare_eq [Ord α] [Std.TransOrd α] [Std.LawfulEqOrd α] {l l' : List α} (h : l.Perm l') :
    sortBy compare l = sortBy compare l' :=
  sortBy_eq_of_perm h fun _ _ _ _ => Std.LawfulEqCmp.eq_of_compare

lemma pair_sublist_sortBy {l : List α} {a b : α} (htie : cmp a b = .eq) (h : [a, b].Sublist l) :
    [a, b].Sublist (sortBy cmp l) :=
  List.pair_sublist_insertionSort (by simp [htie]) h

def sortedSet [Ord α] [Std.TransOrd α] (l : List α) : List α := (Std.ExtTreeSet.ofList l compare).toList

lemma ordered_sortedSet [Ord α] [Std.TransOrd α] (l : List α) :
    (sortedSet l).Pairwise fun a b => compare a b = .lt := Std.ExtTreeSet.ordered_toList

lemma mem_sortedSet [DecidableEq α] [Ord α] [Std.TransOrd α] [Std.LawfulEqOrd α] {l : List α} {a : α} :
    a ∈ sortedSet l ↔ a ∈ l := by
  rw [sortedSet, Std.ExtTreeSet.mem_toList, Std.ExtTreeSet.mem_ofList, List.contains_iff_mem]

lemma eq_of_ordered_of_mem_iff [Ord α] [Std.TransOrd α] [Std.LawfulEqOrd α] {l l' : List α}
    (h : l.Pairwise fun a b => compare a b = .lt) (h' : l'.Pairwise fun a b => compare a b = .lt)
    (hmem : ∀ a, a ∈ l ↔ a ∈ l') : l = l' := by
  have hirrefl : Std.Irrefl (fun a b : α => compare a b = .lt) := ⟨fun a => by simp⟩
  have hasymm : Std.Antisymm (fun a b : α => compare a b = .lt) :=
    ⟨fun a b hab hba => absurd (Std.OrientedCmp.gt_of_lt hab) (by simp [hba])⟩
  exact List.Pairwise.eq_of_mem_iff h h' fun {a} => hmem a

lemma sortedSet_congr [DecidableEq α] [Ord α] [Std.TransOrd α] [Std.LawfulEqOrd α] {l l' : List α}
    (h : ∀ a, a ∈ l ↔ a ∈ l') : sortedSet l = sortedSet l' := by
  apply eq_of_ordered_of_mem_iff (ordered_sortedSet l) (ordered_sortedSet l')
  intro a
  rw [mem_sortedSet, mem_sortedSet, h]

lemma nubOnto_sortBy [DecidableEq α] [Ord α] [Std.TransOrd α] [Std.LawfulEqOrd α] (l : List α) :
    nubOnto [] (sortBy compare l) = sortedSet l := by
  apply eq_of_ordered_of_mem_iff ?_ (ordered_sortedSet l) ?_
  · have hsorted := ((@pairwise_sortBy α compare _ l).sublist (nubOnto_sublist [] _)).and
      (nodup_nubOnto List.nodup_nil _)
    refine hsorted.imp fun {a b} hab => ?_
    cases hcmp : compare a b with
    | lt => rfl
    | eq => exact absurd (Std.LawfulEqCmp.eq_of_compare hcmp) hab.2
    | gt => simp [hcmp] at hab
  · intro a
    rw [mem_nubOnto, mem_sortedSet, (sortBy_perm _ l).mem_iff]
    simp

lemma ordered_sortBy_key [Ord β] [Std.TransOrd β] [Std.LawfulEqOrd β] (key : α → β) {l : List α}
    (h : (l.map key).Nodup) :
    ((sortBy (fun a b => compare (key a) (key b)) l).map key).Pairwise fun a b => compare a b = .lt := by
  have htrans : Std.TransCmp fun a b : α => compare (key a) (key b) :=
    inferInstanceAs (Std.TransCmp (compareOn key))
  have hdistinct : ((sortBy (fun a b => compare (key a) (key b)) l).map key).Nodup :=
    ((sortBy_perm _ l).map key).nodup_iff.mpr h
  rw [List.pairwise_map]
  refine ((pairwise_sortBy l).and (List.pairwise_map.mp hdistinct)).imp ?_
  rintro a b ⟨hle, hne⟩
  cases hcmp : compare (key a) (key b) with
  | lt => rfl
  | eq => exact absurd (Std.LawfulEqCmp.eq_of_compare hcmp) hne
  | gt => simp [hcmp] at hle

lemma filter_dedup_sortBy [DecidableEq α] [Ord α] [Std.TransOrd α] [Std.LawfulEqOrd α] {l l' : List α}
    {p : α → Bool} (h : ∀ a, a ∈ l' ↔ a ∈ l ∧ p a) :
    ((sortBy compare l).dedup).filter p = sortedSet l' := by
  apply eq_of_ordered_of_mem_iff ?_ (ordered_sortedSet l') ?_
  · have hsorted := ((@pairwise_sortBy α compare _ l).sublist (List.dedup_sublist _)).and (List.nodup_dedup _)
    refine (hsorted.imp fun {a b} hab => ?_).filter p
    cases hcmp : compare a b with
    | lt => rfl
    | eq => exact absurd (Std.LawfulEqCmp.eq_of_compare hcmp) hab.2
    | gt => simp [hcmp] at hab
  · intro a
    rw [mem_sortedSet, h, List.mem_filter, List.mem_dedup, (sortBy_perm _ l).mem_iff]

lemma not_pair_sublist_swap {l : List α} (hl : l.Nodup) {a b : α} (hne : a ≠ b) (h : [a, b].Sublist l) :
    ¬ [b, a].Sublist l := by
  induction l with
  | nil => simp at h
  | cons c l ih =>
    obtain ⟨hc, hl⟩ := List.nodup_cons.mp hl
    intro h'
    cases h with
    | cons _ h =>
      cases h' with
      | cons _ h' => exact ih hl h h'
      | cons_cons _ h' => exact hc (h.subset (by simp))
    | cons_cons _ h =>
      cases h' with
      | cons _ h' => exact hc (h'.subset (by simp))
      | cons_cons _ h' => exact hne rfl

end Sorting

section Keyed

variable [DecidableEq α] [Ord α] [Std.TransOrd α] [Std.LawfulEqOrd α]

lemma ofList_perm {l l' : List (α × β)} (h : l.Perm l') (hkeys : l.Pairwise fun a b => a.1 ≠ b.1) :
    Std.ExtTreeMap.ofList l compare = Std.ExtTreeMap.ofList l' compare := by
  have hdistinct : ∀ l : List (α × β), (l.Pairwise fun a b => a.1 ≠ b.1) →
      l.Pairwise fun a b => ¬ compare a.1 b.1 = .eq := by
    intro l hl
    refine hl.imp fun hab => ?_
    simpa using hab
  have hkeys' : l'.Pairwise fun a b => a.1 ≠ b.1 := (h.pairwise_iff fun hab => hab.symm).mp hkeys
  refine Std.ExtTreeMap.ext_getElem? fun k => ?_
  by_cases hk : ∃ v, (k, v) ∈ l
  · obtain ⟨v, hv⟩ := hk
    rw [Std.ExtTreeMap.getElem?_ofList_of_mem (k := k) (by simp) (hdistinct l hkeys) hv,
      Std.ExtTreeMap.getElem?_ofList_of_mem (k := k) (by simp) (hdistinct l' hkeys') (h.mem_iff.mp hv)]
  · have hnone : ∀ l'' : List (α × β), (¬ ∃ v, (k, v) ∈ l'') →
        (Std.ExtTreeMap.ofList l'' compare)[k]? = none := by
      intro l'' hno
      refine Std.ExtTreeMap.getElem?_eq_none ?_
      rw [Std.ExtTreeMap.mem_ofList, List.contains_iff_mem, List.mem_map]
      rintro ⟨⟨k', v⟩, hmem, rfl⟩
      exact hno ⟨v, hmem⟩
    rw [hnone l hk, hnone l' fun ⟨v, hv⟩ => hk ⟨v, h.mem_iff.mpr hv⟩]

omit [DecidableEq α] in
lemma getElem?_foldl_insert_of_notMem {l : List (α × β)} {k : α} (h : k ∉ l.map Prod.fst) (m : BTreeMap α β) :
    (l.foldl (fun m a => m.insert a.1 a.2) m)[k]? = m[k]? := by
  induction l generalizing m with
  | nil => rfl
  | cons a l ih =>
    rw [List.map_cons, List.mem_cons, not_or] at h
    obtain ⟨hne, hrest⟩ := h
    rw [List.foldl_cons, ih hrest, getElem?_insert_of_ne _ (Ne.symm hne)]

lemma getElem?_foldl_insert_of_unique {l : List (α × β)} {k : α} {v : β} (h : (k, v) ∈ l)
    (hunique : ∀ v', (k, v') ∈ l → v' = v) (m : BTreeMap α β) :
    (l.foldl (fun m a => m.insert a.1 a.2) m)[k]? = some v := by
  induction l generalizing m with
  | nil => simp at h
  | cons a l ih =>
    rw [List.foldl_cons]
    by_cases hagain : k ∈ l.map Prod.fst
    · obtain ⟨⟨k', v'⟩, hmem, rfl⟩ := List.mem_map.mp hagain
      obtain rfl := hunique v' (List.mem_cons_of_mem _ hmem)
      exact ih hmem (fun v'' hv'' => hunique v'' (List.mem_cons_of_mem _ hv'')) _
    · rw [getElem?_foldl_insert_of_notMem hagain]
      rcases List.mem_cons.mp h with rfl | h
      · rw [getElem?_insert, if_pos rfl]
      · exact absurd (List.mem_map_of_mem h) hagain

lemma getElem?_foldl_insert {l : List (α × β)} (hkeys : (l.map Prod.fst).Nodup) {k : α} {v : β} (h : (k, v) ∈ l)
    (m : BTreeMap α β) : (l.foldl (fun m a => m.insert a.1 a.2) m)[k]? = some v := by
  apply getElem?_foldl_insert_of_unique h
  intro v' hv'
  exact congrArg Prod.snd (List.inj_on_of_nodup_map hkeys hv' h rfl)

lemma getElem?_foldl_group {γ : Type} (key : γ → α) (merge : β → γ → β) (zero : β) (l : List γ) (m : BTreeMap α β)
    (k : α) : (l.foldl (fun m c => m.insert (key c) (merge (m[key c]?.getD zero) c)) m)[k]? =
      if l.filter (key · = k) = [] then m[k]?
      else some ((l.filter (key · = k)).foldl merge (m[k]?.getD zero)) := by
  induction l generalizing m with
  | nil => simp
  | cons c l ih =>
    rw [List.foldl_cons, ih, getElem?_insert, List.filter_cons]
    by_cases hk : key c = k
    · subst hk
      simp only [decide_true, if_true, if_false, reduceCtorEq, List.foldl_cons, Option.getD_some]
      split
      · rename_i hnil
        rw [hnil]
        rfl
      · rfl
    · simp [hk]

end Keyed

lemma keys_filterMap_sublist {κ ν : Type} (key : α → κ) (g : α → Option ν) (l : List α) :
    ((l.filterMap fun a => (g a).map (key a, ·)).map Prod.fst).Sublist (l.map key) := by
  induction l with
  | nil => exact List.Sublist.slnil
  | cons a l ih =>
    cases hg : g a with
    | none => simpa [List.filterMap_cons, hg] using ih.cons (key a)
    | some v => simpa [List.filterMap_cons, hg] using ih.cons_cons (key a)

section Counts

lemma countP_eq_sum (p : α → Bool) (l : List α) : l.countP p = (l.map fun a => (p a).toNat).sum := by
  induction l with
  | nil => rfl
  | cons a l ih =>
    rw [List.countP_cons, ih, List.map_cons, List.sum_cons, add_comm]
    cases p a <;> rfl

lemma countP_add {p q r : α → Bool} {l : List α} (h : ∀ a ∈ l, (p a).toNat = (q a).toNat + (r a).toNat) :
    l.countP p = l.countP q + l.countP r := by
  rw [countP_eq_sum p, countP_eq_sum q, countP_eq_sum r, ← List.sum_map_add, List.map_congr_left h]

lemma filter_perm_append {p q r : α → Bool} {l : List α} (h : ∀ a ∈ l, (p a).toNat = (q a).toNat + (r a).toNat) :
    (l.filter p).Perm (l.filter q ++ l.filter r) := by
  induction l with
  | nil => exact .nil
  | cons a l ih =>
    have ha := h a List.mem_cons_self
    have hl := ih fun b hb => h b (List.mem_cons_of_mem a hb)
    rw [List.filter_cons, List.filter_cons, List.filter_cons]
    cases hp : p a <;> cases hq : q a <;> cases hr : r a
    all_goals simp only [hp, hq, hr, Bool.toNat_false, Bool.toNat_true] at ha
    all_goals first | omega | skip
    · exact hl
    · exact (hl.cons a).trans List.perm_middle.symm
    · exact hl.cons a

lemma existsUnique_of_nodup_flatMap {l : List β} {f : β → List α} (h : (l.flatMap f).Nodup)
    {a : α} (ha : a ∈ l.flatMap f) :
    ∃! i : Fin l.length, a ∈ f (l.get i) := by
  obtain ⟨-, hdisjoint⟩ := List.nodup_flatMap.mp h
  obtain ⟨b, hb, hab⟩ := List.mem_flatMap.mp ha
  obtain ⟨i, rfl⟩ := List.get_of_mem hb
  refine ⟨i, hab, fun j haj => ?_⟩
  rw [List.pairwise_iff_get] at hdisjoint
  rcases lt_trichotomy i j with hlt | heq | hgt
  · exact absurd haj (hdisjoint i j hlt hab)
  · exact heq.symm
  · exact absurd hab (hdisjoint j i hgt haj)

lemma sum_countP [DecidableEq β] (key : α → β) (q : α → Bool) (l : List α) {ks : List β} (h : ks.Nodup) :
    (ks.map fun k => l.countP fun a => key a == k && q a).sum = l.countP fun a => ks.contains (key a) && q a := by
  induction ks with
  | nil => simp
  | cons k ks ih =>
    obtain ⟨hk, hks⟩ := List.nodup_cons.mp h
    rw [List.map_cons, List.sum_cons, ih hks]
    refine (countP_add fun a _ => ?_).symm
    by_cases hkey : key a = k
    · simp [hkey, hk]
    · simp [hkey]

lemma sum_by_key [DecidableEq β] {key : α → β} {l : List α} {ks : List β} (h : ks.Nodup)
    (hmem : ∀ a ∈ l, key a ∈ ks)
    (f : α → ℕ) : (ks.map fun k => ((l.filter (key · = k)).map f).sum).sum = (l.map f).sum := by
  induction l with
  | nil => simp
  | cons a l ih =>
    have hsplit : ∀ k, (((a :: l).filter (key · = k)).map f).sum =
        (if k = key a then f a else 0) + ((l.filter (key · = k)).map f).sum := by
      intro k
      by_cases hk : key a = k
      · simp [hk]
      · simp [hk, Ne.symm hk]
    have hone : (ks.map fun k => if k = key a then f a else 0).sum = f a := by
      rw [← List.sum_toFinset _ h, Finset.sum_ite_eq', if_pos (List.mem_toFinset.mpr (hmem a List.mem_cons_self))]
    simp only [hsplit]
    rw [List.sum_map_add, hone, ih fun b hb => hmem b (List.mem_cons_of_mem _ hb), List.map_cons, List.sum_cons]

lemma countP_of_unique {p : α → Bool} {l : List α} (h : l.Pairwise fun a b => p a = true → p b = false) :
    l.countP p = (l.any p).toNat := by
  induction l with
  | nil => rfl
  | cons a l ih =>
    obtain ⟨ha, hl⟩ := List.pairwise_cons.mp h
    rw [List.countP_cons, List.any_cons, ih hl]
    cases hp : p a with
    | false => simp
    | true =>
      have hnone : l.any p = false := List.any_eq_false.mpr fun b hb => by simp [ha b hb hp]
      simp [hnone]

end Counts

lemma getElem?_foldl_modify (f : ℕ → α → α) {idxs : List ℕ} (hidxs : idxs.Nodup) (turn : ℕ) (xs : List α) (i : ℕ) :
    ((idxs.zipIdx turn).foldl (fun xs j => xs.modify j.1 (f j.2)) xs)[i]? =
      xs[i]?.map fun a => if i ∈ idxs then f (turn + idxs.idxOf i) a else a := by
  induction idxs generalizing turn xs with
  | nil => simp
  | cons j idxs ih =>
    obtain ⟨hj, hrest⟩ := List.nodup_cons.mp hidxs
    rw [List.zipIdx_cons, List.foldl_cons, ih hrest, List.getElem?_modify]
    by_cases hij : j = i
    · subst hij
      simp [hj, Function.comp_def]
    · simp only [if_neg hij, Option.map_eq_map, Option.map_id', List.mem_cons, Ne.symm hij, false_or,
        List.idxOf_cons_ne _ hij, Nat.succ_eq_add_one, Nat.add_assoc, Nat.add_comm 1]

section Chunks

def chunks (n : ℕ) (l : List α) : List (List α) :=
  (List.range ((l.length + n - 1) / n)).map fun i => (l.drop (i * n)).take n

lemma flatten_chunks {n : ℕ} (hn : 0 < n) (l : List α) : (chunks n l).flatten = l := by
  have htake : ∀ k, ((List.range k).map fun i => (l.drop (i * n)).take n).flatten = l.take (k * n) := by
    intro k
    induction k with
    | zero => simp
    | succ k ih =>
      rw [List.range_succ, List.map_append, List.flatten_append, ih, Nat.succ_mul, List.take_add]
      simp
  rw [chunks, htake]
  apply List.take_of_length_le
  have hdiv := Nat.lt_div_mul_add hn (a := l.length + n - 1)
  omega

end Chunks

lemma eq_singleton_iff_of_nodup {l : List α} (h : l.Nodup) {a : α} : l = [a] ↔ ∀ b, b ∈ l ↔ b = a := by
  rw [← List.perm_singleton, List.perm_ext_iff_of_nodup h (List.nodup_singleton a)]
  simp only [List.mem_singleton]

section First

variable {γ : Type} {is : α → Prop} {has : α → γ → Prop} {l : List α} {a : α} {c : γ}

def First (has : α → γ → Prop) (l : List α) (c : γ) : Prop :=
  ∃ skipped a rest, l = skipped ++ a :: rest ∧ (∀ x ∈ skipped, ∀ c, ¬ has x c) ∧ has a c

def Ahead (is : α → Prop) (has : α → γ → Prop) (l : List α) : Prop :=
  ∃ skipped a rest, l = skipped ++ a :: rest ∧ (∀ x ∈ skipped, ∀ c, ¬ has x c) ∧ is a

lemma mem_find?_ne_nil [DecidableEq γ] {f : α → List γ} :
    (∃ hits, (l.map f).find? (· ≠ []) = some hits ∧ c ∈ hits) ↔ First (fun a c => c ∈ f a) l c := by
  simp only [First, List.find?_eq_some_iff_append, List.map_eq_append_iff, List.map_eq_cons_iff]
  constructor
  · rintro ⟨_, ⟨-, _, _, ⟨skipped, _, rfl, rfl, a, rest, rfl, rfl, -⟩, hskipped⟩, hc⟩
    refine ⟨skipped, a, rest, rfl, fun x hx c hcx => ?_, hc⟩
    have hnil : f x = [] := by simpa using hskipped (f x) (List.mem_map_of_mem hx)
    rw [hnil] at hcx
    simp at hcx
  · rintro ⟨skipped, a, rest, rfl, hskipped, hc⟩
    refine ⟨f a, ⟨by simpa using List.ne_nil_of_mem hc, _, _,
      ⟨skipped, _, rfl, rfl, a, rest, rfl, rfl, rfl⟩, ?_⟩, hc⟩
    intro hits hhits
    obtain ⟨x, hx, rfl⟩ := List.mem_map.mp hhits
    simpa using List.eq_nil_iff_forall_not_mem.mpr (hskipped x hx)

lemma ahead_cons : Ahead is has (a :: l) ↔ is a ∨ (∀ c, ¬ has a c) ∧ Ahead is has l := by
  constructor
  · rintro ⟨skipped, b, rest, heq, hskipped, hb⟩
    rcases List.cons_eq_append_iff.mp heq with ⟨rfl, hcons⟩ | ⟨more, rfl, rfl⟩
    · obtain ⟨rfl, -⟩ := List.cons.inj hcons
      exact Or.inl hb
    · obtain ⟨hnone, hmore⟩ := List.forall_mem_cons.mp hskipped
      exact Or.inr ⟨hnone, more, b, rest, rfl, hmore, hb⟩
  · rintro (ha | ⟨hnone, skipped, b, rest, rfl, hskipped, hb⟩)
    · exact ⟨[], a, l, rfl, by simp, ha⟩
    · exact ⟨a :: skipped, b, rest, rfl, List.forall_mem_cons.mpr ⟨hnone, hskipped⟩, hb⟩

lemma first_iff_ahead : First has l c ↔ Ahead (has · c) has l := Iff.rfl

lemma first_cons : First has (a :: l) c ↔ has a c ∨ (∀ c, ¬ has a c) ∧ First has l c := by
  simp only [first_iff_ahead, ahead_cons]

lemma first_or {all : γ → Prop} (hapart : ∀ a, is a → ∀ c, ¬ has a c) :
    First (fun a c => has a c ∨ is a ∧ all c) l c ↔
      Ahead is has l ∧ all c ∨ ¬ (Ahead is has l ∧ ∃ c, all c) ∧ First has l c := by
  induction l with
  | nil => simp [First, Ahead]
  | cons a l ih =>
    rw [first_cons, ih, ahead_cons, first_cons]
    by_cases ha : is a
    · have hnone := hapart a ha
      by_cases hall : ∃ c, all c
      · simp [ha, hnone, hall]
      · simp_all
    · by_cases hsome : ∃ c, has a c
      · have hnot : ¬ ∀ c, ¬ has a c := by simpa using hsome
        simp [ha, hnot]
      · have hnone : ∀ c, ¬ has a c := by simpa using hsome
        simp [ha, hnone]

end First

lemma findSome?_eq_some_of_pairwise {R : α → α → Prop} (hR : ∀ a b, R a b → ¬ R b a)
    {f : α → Option β} {l : List α} (hl : l.Pairwise R) {b : β} :
    l.findSome? f = some b ↔ ∃ a ∈ l, f a = some b ∧ ∀ c ∈ l, R c a → f c = none := by
  rw [List.findSome?_eq_some_iff]
  constructor
  · rintro ⟨before, a, after, rfl, ha, hbefore⟩
    refine ⟨a, by simp, ha, fun c hc hca => ?_⟩
    rcases List.mem_append.mp hc with hc | hc
    · exact hbefore c hc
    · have hafter := (List.pairwise_cons.mp (List.pairwise_append.mp hl).2.1).1
      rcases List.mem_cons.mp hc with rfl | hc
      · exact absurd hca (hR _ _ hca)
      · exact absurd hca (hR _ _ (hafter c hc))
  · rintro ⟨a, ha, hfound, hfirst⟩
    obtain ⟨before, after, rfl⟩ := List.append_of_mem ha
    refine ⟨before, a, after, rfl, hfound, fun c hc => hfirst c (List.mem_append_left _ hc) ?_⟩
    exact (List.pairwise_append.mp hl).2.2 c hc a List.mem_cons_self

lemma foldl_filter_key {σ κ : Type} {f : σ → α → σ} {g : κ → α → κ} {key : σ → κ} {touches : α → Bool}
    (hskip : ∀ s a, touches a = false → key (f s a) = key s)
    (hstep : ∀ s a, touches a = true → key (f s a) = g (key s) a)
    (l : List α) (s : σ) : key (l.foldl f s) = (l.filter touches).foldl g (key s) := by
  induction l generalizing s with
  | nil => rfl
  | cons a l ih =>
    rw [List.foldl_cons, ih]
    cases ha : touches a with
    | false => rw [List.filter_cons_of_neg (by simp [ha]), hskip s a ha]
    | true => rw [List.filter_cons_of_pos ha, List.foldl_cons, hstep s a ha]

lemma forall₂_filterMap {γ : Type} {R : α → β → Prop} {Q : β → γ → Prop} {f : α → Option γ}
    {l : List α} {l' : List β} (h : List.Forall₂ R l l') (hf : ∀ a b, R a b → ∃ c, f a = some c ∧ Q b c) :
    List.Forall₂ Q l' (l.filterMap f) := by
  induction h with
  | nil => exact .nil
  | cons hab _ ih =>
    obtain ⟨c, hc, hq⟩ := hf _ _ hab
    rw [List.filterMap_cons_some hc]
    exact .cons hq ih

lemma agree_of_filterMap_eq {f g : α → Option β} {l : List α} (hle : ∀ a ∈ l, ∀ b, f a = some b → g a = some b)
    (h : l.filterMap f = l.filterMap g) : ∀ a ∈ l, f a = g a := by
  induction l with
  | nil => simp
  | cons a l ih =>
    obtain ⟨ha, hle⟩ := List.forall_mem_cons.mp hle
    rw [List.forall_mem_cons]
    cases hf : f a with
    | some b =>
      have hg := ha b hf
      rw [List.filterMap_cons_some hf, List.filterMap_cons_some hg] at h
      exact ⟨hg.symm, ih hle (List.cons.inj h).2⟩
    | none =>
      cases hg : g a with
      | none =>
        rw [List.filterMap_cons_none hf, List.filterMap_cons_none hg] at h
        exact ⟨rfl, ih hle h⟩
      | some b =>
        have hcount : l.countP (fun a => (f a).isSome) ≤ l.countP (fun a => (g a).isSome) := by
          refine List.countP_mono_left fun a ha hsome => ?_
          obtain ⟨b, hb⟩ := Option.isSome_iff_exists.mp hsome
          rw [hle a ha b hb]
          rfl
        have hlength := congrArg List.length h
        rw [List.filterMap_cons_none hf, List.filterMap_cons_some hg, List.length_cons,
          List.length_filterMap_eq_countP, List.length_filterMap_eq_countP] at hlength
        omega

lemma eq_of_filterMap_eq {f g : α → Option β} {l : List α} (hsome : ∀ a ∈ l, (f a).isSome = (g a).isSome)
    (h : l.filterMap f = l.filterMap g) : ∀ a ∈ l, f a = g a := by
  induction l with
  | nil => simp
  | cons a l ih =>
    obtain ⟨ha, hsome⟩ := List.forall_mem_cons.mp hsome
    rw [List.forall_mem_cons]
    cases hf : f a with
    | none =>
      have hg : g a = none := by simpa [hf] using ha
      rw [List.filterMap_cons_none hf, List.filterMap_cons_none hg] at h
      exact ⟨hg.symm, ih hsome h⟩
    | some b =>
      obtain ⟨c, hg⟩ : ∃ c, g a = some c := Option.isSome_iff_exists.mp (by rw [← ha, hf]; rfl)
      rw [List.filterMap_cons_some hf, List.filterMap_cons_some hg] at h
      obtain ⟨rfl, hrest⟩ := List.cons.inj h
      exact ⟨hg.symm, ih hsome hrest⟩

lemma forall₂_iff_of_forall₂ {R S : α → β → Prop} {C : α → Prop} {l : List α} {l' : List β}
    (h : List.Forall₂ R l l') (hiff : ∀ a b, R a b → (S a b ↔ C a)) : List.Forall₂ S l l' ↔ ∀ a ∈ l, C a := by
  induction h with
  | nil => simp
  | cons hab _ ih => rw [List.forall₂_cons, List.forall_mem_cons, hiff _ _ hab, ih]

end RepoGraph.Lib
