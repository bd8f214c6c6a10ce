import RepoGraph.Lib.Containers

/-! A hash map whose iteration order is observed. Its entries stand in the order of the table's
buckets; an insertion may rearrange them at will, and a change of a value in place keeps them. -/

namespace RepoGraph.Lib

abbrev IterMap (κ ν : Type) := AList (fun _ : κ => ν)

lemma flatMap_perm_of_one {α β : Type} {f : α → List β} {l l' : List α} (h : l.Perm l')
    (hone : ∀ a ∈ l, ∀ b ∈ l, f a ≠ [] → f b ≠ [] → a = b) : l.flatMap f = l'.flatMap f := by
  induction h with
  | nil => rfl
  | cons a _ ih =>
    rw [List.flatMap_cons, List.flatMap_cons, ih]
    intro b hb c hc
    exact hone b (List.mem_cons_of_mem _ hb) c (List.mem_cons_of_mem _ hc)
  | swap a b l =>
    rw [List.flatMap_cons, List.flatMap_cons, List.flatMap_cons, List.flatMap_cons]
    by_cases ha : f a = []
    · simp [ha]
    · by_cases hb : f b = []
      · simp [hb]
      · rw [hone a (by simp) b (by simp) ha hb]
  | trans hp _ ih₁ ih₂ =>
    rw [ih₁ hone, ih₂]
    intro a ha b hb
    exact hone a (hp.mem_iff.mpr ha) b (hp.mem_iff.mpr hb)

/-- The order in which a table is left by an insertion: any rearrangement of its entries. -/
structure BucketOrder (κ ν : Type) where
  arrange : List (Σ _ : κ, ν) → List (Σ _ : κ, ν)
  perm : ∀ l, (arrange l).Perm l

def BucketOrder.asInserted (κ ν : Type) : BucketOrder κ ν := ⟨id, fun _ => .refl _⟩

namespace IterMap

variable {κ ν : Type}

lemma keys_map_entries (m : IterMap κ ν) (f : κ → ν → ν) :
    (m.entries.map (fun e => (⟨e.1, f e.1 e.2⟩ : Σ _ : κ, ν))).keys = m.entries.keys := by
  simp [List.keys, Function.comp_def]

variable [DecidableEq κ]

def insertIn (o : BucketOrder κ ν) (k : κ) (v : ν) (m : IterMap κ ν) : IterMap κ ν :=
  ⟨o.arrange (m.insert k v).entries, (List.perm_nodupKeys (o.perm _)).mpr (m.insert k v).nodupKeys⟩

def modify (k : κ) (f : ν → ν) (m : IterMap κ ν) : IterMap κ ν :=
  ⟨m.entries.map (fun e => ⟨e.1, if e.1 = k then f e.2 else e.2⟩), by
    have h := keys_map_entries m (fun k' v => if k' = k then f v else v)
    rw [List.NodupKeys, h]
    exact m.nodupKeys⟩

lemma mem_entries {m : IterMap κ ν} {k : κ} {v : ν} :
    (⟨k, v⟩ : Σ _ : κ, ν) ∈ m.entries ↔ m.lookup k = some v :=
  AList.mem_lookup_iff.symm

lemma lookup_insertIn (o : BucketOrder κ ν) (k k' : κ) (v : ν) (m : IterMap κ ν) :
    (m.insertIn o k v).lookup k' = if k' = k then some v else m.lookup k' := by
  have hperm : (m.insertIn o k v).entries.Perm (m.insert k v).entries := o.perm _
  rw [AList.perm_lookup hperm]
  by_cases hk : k' = k
  · subst hk
    rw [if_pos rfl, AList.lookup_insert]
  · rw [if_neg hk, AList.lookup_insert_ne hk]

lemma lookup_modify (k k' : κ) (f : ν → ν) (m : IterMap κ ν) :
    (m.modify k f).lookup k' = (m.lookup k').map (fun v => if k' = k then f v else v) := by
  apply Option.ext
  intro v
  rw [← mem_entries, Option.map_eq_some_iff]
  simp only [modify, List.mem_map]
  constructor
  · rintro ⟨⟨k₁, v₁⟩, hm, he⟩
    obtain ⟨rfl, hv⟩ := Sigma.mk.inj he
    exact ⟨v₁, mem_entries.mp hm, eq_of_heq hv⟩
  · rintro ⟨v₁, hl, he⟩
    exact ⟨⟨k', v₁⟩, mem_entries.mpr hl, by rw [← he]⟩

def entryOrDefault [Inhabited ν] (o : BucketOrder κ ν) (k : κ) (f : ν → ν) (m : IterMap κ ν) : IterMap κ ν :=
  if (m.lookup k).isSome then m.modify k f else m.insertIn o k (f default)

lemma lookup_entryOrDefault [Inhabited ν] (o : BucketOrder κ ν) (k k' : κ) (f : ν → ν) (m : IterMap κ ν) :
    (m.entryOrDefault o k f).lookup k' =
      if k' = k then some (f ((m.lookup k).getD default)) else m.lookup k' := by
  rw [entryOrDefault]
  cases hk : m.lookup k with
  | none => simp [lookup_insertIn]
  | some v =>
    by_cases he : k' = k
    · subst he
      simp [lookup_modify, hk]
    · simp [lookup_modify, he]

section Sum

variable {M : Type} [AddCommMonoid M] {w : ν → M} {f : ν → ν} {d : M}

lemma sum_modify (hf : ∀ v, w (f v) = w v + d) {k : κ} {m : IterMap κ ν} (hk : (m.lookup k).isSome) :
    ((m.modify k f).entries.map fun e => w e.2).sum = (m.entries.map fun e => w e.2).sum + d := by
  obtain ⟨v, hv⟩ := Option.isSome_iff_exists.mp hk
  obtain ⟨front, back, he⟩ := List.append_of_mem (mem_entries.mpr hv)
  have hdistinct := List.pairwise_map.mp m.nodupKeys
  rw [he, List.pairwise_append] at hdistinct
  obtain ⟨-, hback, hfront⟩ := hdistinct
  have hkeep : ∀ l : List (Σ _ : κ, ν), (∀ e ∈ l, e.1 ≠ k) →
      l.map (fun e => w (if e.1 = k then f e.2 else e.2)) = l.map fun e => w e.2 := by
    intro l hl
    refine List.map_congr_left fun e hmem => ?_
    rw [if_neg (hl e hmem)]
  have hfront' := hkeep front fun e hmem => hfront e hmem _ List.mem_cons_self
  have hback' := hkeep back fun e hmem => ((List.pairwise_cons.mp hback).1 e hmem).symm
  simp only [modify, he, List.map_append, List.map_cons, List.map_map, Function.comp_def,
    hfront', hback', if_pos, hf, List.sum_append, List.sum_cons]
  abel

lemma sum_entryOrDefault [Inhabited ν] (h₀ : w default = 0) (hf : ∀ v, w (f v) = w v + d)
    (o : BucketOrder κ ν) (k : κ) (m : IterMap κ ν) :
    ((m.entryOrDefault o k f).entries.map fun e => w e.2).sum = (m.entries.map fun e => w e.2).sum + d := by
  rw [entryOrDefault]
  split
  · rename_i hk
    exact sum_modify hf hk
  · rename_i hk
    have hnone : m.lookup k = none := by simpa using hk
    have hperm : (m.insertIn o k (f default)).entries.Perm (⟨k, f default⟩ :: m.entries) := by
      refine (o.perm _).trans ?_
      rw [AList.entries_insert_of_notMem (AList.lookup_eq_none.mp hnone)]
    rw [(hperm.map _).sum_eq, List.map_cons, List.sum_cons, hf, h₀, zero_add, add_comm]

end Sum

def ofPairs (l : List (κ × ν)) : IterMap κ ν := l.foldl (fun m e => m.insert e.1 e.2) ∅

lemma lookup_ofPairs (l : List (κ × ν)) (k : κ) :
    (ofPairs l).lookup k = (l.reverse.find? (fun e => e.1 = k)).map Prod.snd := by
  induction l using List.reverseRecOn with
  | nil => simp [ofPairs]
  | append_singleton l e ih =>
    rw [ofPairs, List.foldl_append, List.reverse_append]
    change (AList.insert e.1 e.2 (ofPairs l)).lookup k = _
    by_cases hk : e.1 = k
    · subst hk
      simp
    · rw [AList.lookup_insert_ne (fun h => hk h.symm), ih]
      simp [hk]

lemma lookup_ofPairs_eq_some {l : List (κ × ν)} (hkeys : (l.map Prod.fst).Nodup) {k : κ} {v : ν} :
    (ofPairs l).lookup k = some v ↔ (k, v) ∈ l := by
  rw [lookup_ofPairs, Option.map_eq_some_iff]
  constructor
  · rintro ⟨⟨k', v'⟩, hfind, rfl⟩
    obtain rfl : k' = k := by simpa using List.find?_some hfind
    exact List.mem_reverse.mp (List.mem_of_find?_eq_some hfind)
  · intro hmem
    cases hfind : l.reverse.find? (fun e => e.1 = k) with
    | none =>
      have hnone := List.find?_eq_none.mp hfind (k, v) (List.mem_reverse.mpr hmem)
      simp at hnone
    | some e =>
      have he : e.1 = k := by simpa using List.find?_some hfind
      have hmem' := List.mem_reverse.mp (List.mem_of_find?_eq_some hfind)
      have hsame : e = (k, v) := List.inj_on_of_nodup_map hkeys hmem' hmem he
      exact ⟨e, rfl, by rw [hsame]⟩

lemma exists_last (m : IterMap κ ν) {k : κ} {v : ν} (h : m.lookup k = some v) :
    ∃ m' : IterMap κ ν, m'.entries.Perm m.entries ∧ ∃ front, m'.entries = front ++ [⟨k, v⟩] := by
  obtain ⟨front, back, he⟩ := List.append_of_mem (mem_entries.mpr h)
  let e : Σ _ : κ, ν := ⟨k, v⟩
  have hperm : (front ++ back ++ [e]).Perm m.entries := by
    rw [he, List.append_assoc]
    exact (List.perm_append_singleton e back).append_left front
  exact ⟨⟨front ++ back ++ [e], (List.perm_nodupKeys hperm).mpr m.nodupKeys⟩, hperm, front ++ back, rfl⟩

variable {ω : Type}

omit [DecidableEq κ] in
lemma pairwise_keys (m : IterMap κ ν) : m.entries.Pairwise (fun a b => a.1 ≠ b.1) :=
  List.pairwise_map.mp m.nodupKeys

def first (f : ν → Option ω) (m : IterMap κ ν) : Option (κ × ω) :=
  m.entries.findSome? fun e => (f e.2).map (e.1, ·)

lemma lookup_of_first {f : ν → Option ω} {m : IterMap κ ν} {k : κ} {w : ω} (h : m.first f = some (k, w)) :
    ∃ v, m.lookup k = some v ∧ f v = some w := by
  obtain ⟨⟨k', v⟩, hmem, he⟩ := List.exists_of_findSome?_eq_some h
  obtain ⟨w', hw, hpair⟩ := Option.map_eq_some_iff.mp he
  obtain ⟨rfl, rfl⟩ := Prod.mk.inj hpair
  exact ⟨v, mem_entries.mp hmem, hw⟩

lemma first_eq_none {f : ν → Option ω} {m : IterMap κ ν} :
    m.first f = none ↔ ∀ k v, m.lookup k = some v → f v = none := by
  simp only [first, List.findSome?_eq_none_iff, Option.map_eq_none_iff]
  constructor
  · intro h k v hv
    exact h ⟨k, v⟩ (mem_entries.mpr hv)
  · rintro h ⟨k, v⟩ hmem
    exact h k v (mem_entries.mp hmem)

def collect [Ord κ] (f : ν → Option ω) (m : IterMap κ ν) : BTreeMap κ ω :=
  .ofList (m.entries.filterMap fun e => (f e.2).map (e.1, ·))

lemma getElem?_collect [Ord κ] [Std.TransOrd κ] [Std.LawfulEqOrd κ] (f : ν → Option ω) (m : IterMap κ ν)
    (k : κ) : (m.collect f)[k]? = (m.lookup k).bind f := by
  have hdistinct : (m.entries.filterMap fun e => (f e.2).map (e.1, ·)).Pairwise
      (fun a b => ¬ compare a.1 b.1 = .eq) := by
    refine List.Pairwise.filterMap _ ?_ m.pairwise_keys
    intro a b hab x hx y hy
    obtain ⟨v, -, rfl⟩ := Option.map_eq_some_iff.mp hx
    obtain ⟨w, -, rfl⟩ := Option.map_eq_some_iff.mp hy
    simpa using hab
  cases hb : (m.lookup k).bind f with
  | some w =>
    obtain ⟨v, hv, hw⟩ := Option.bind_eq_some_iff.mp hb
    refine Std.ExtTreeMap.getElem?_ofList_of_mem (k := k) (by simp) hdistinct ?_
    exact List.mem_filterMap.mpr ⟨⟨k, v⟩, mem_entries.mpr hv, by simp [hw]⟩
  | none =>
    refine Std.ExtTreeMap.getElem?_eq_none ?_
    rw [collect, Std.ExtTreeMap.mem_ofList, List.contains_iff_mem, List.mem_map]
    rintro ⟨⟨k', w⟩, hmem, rfl⟩
    obtain ⟨⟨k₁, v⟩, hv, he⟩ := List.mem_filterMap.mp hmem
    obtain ⟨w', hw, hpair⟩ := Option.map_eq_some_iff.mp he
    obtain ⟨rfl, rfl⟩ := Prod.mk.inj hpair
    simp [mem_entries.mp hv, hw] at hb

lemma lookup_foldl_group {α β : Type} (o : BucketOrder κ (List β)) (key : α → κ) (val : α → β) (l : List α)
    (m : IterMap κ (List β)) (k : κ) :
    (l.foldl (fun m a => m.entryOrDefault o (key a) (· ++ [val a])) m).lookup k =
      if l.filter (key · = k) = [] then m.lookup k
      else some ((m.lookup k).getD [] ++ (l.filter (key · = k)).map val) := by
  induction l generalizing m with
  | nil => simp
  | cons a l ih =>
    rw [List.foldl_cons, ih, lookup_entryOrDefault, List.filter_cons]
    by_cases hk : key a = k
    · subst hk
      simp only [decide_true, if_true, if_false, reduceCtorEq, List.map_cons]
      split
      · rename_i hnil
        rw [hnil]
        rfl
      · simp only [Option.getD_some, List.append_assoc]
        rfl
    · simp [hk, Ne.symm hk]

lemma lookup_foldl_modify (f : ν → ν) {l : List (Σ _ : κ, ν)} (hl : (l.map Sigma.fst).Nodup)
    (m : IterMap κ ν) (k : κ) :
    (l.foldl (fun m e => m.modify e.1 f) m).lookup k =
      (m.lookup k).map fun v => if k ∈ l.map Sigma.fst then f v else v := by
  induction l generalizing m with
  | nil => simp
  | cons e l ih =>
    obtain ⟨he, hl⟩ := List.nodup_cons.mp hl
    rw [List.foldl_cons, ih hl, lookup_modify, Option.map_map]
    congr 1
    funext v
    simp only [Function.comp_apply, List.map_cons, List.mem_cons]
    by_cases hk : k = e.1
    · subst hk
      simp only [he, true_or, if_true, if_false]
    · simp only [hk, false_or, if_false]

end IterMap

end RepoGraph.Lib
