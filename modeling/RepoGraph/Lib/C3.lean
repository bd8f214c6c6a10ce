import Mathlib.Tactic

/-! The C3 linearisation of a hierarchy of classes: the merge of the linearisations of the bases with the
list of the bases, which takes the first head that is in no tail. -/

namespace RepoGraph.Lib.C3

variable {V : Type}

def Next (seqs : List (List V)) (c : V) : Prop :=
  ∃ before rest after, seqs = before ++ (c :: rest) :: after ∧ (∀ s ∈ seqs, c ∉ s.tail) ∧
    ∀ s ∈ before, ∀ d ∈ s.head?, ∃ t ∈ seqs, d ∈ t.tail

section Heads

variable {seqs : List (List V)} {c d : V} {s : List V}

lemma Next.unique (h : Next seqs c) (h' : Next seqs d) : c = d := by
  obtain ⟨before, rest, after, hseqs, htails, hbefore⟩ := h
  obtain ⟨before', rest', after', hseqs', htails', hbefore'⟩ := h'
  rcases List.append_eq_append_iff.mp (hseqs.symm.trans hseqs') with ⟨mid, rfl, hmid⟩ | ⟨mid, rfl, hmid⟩
  · cases mid with
    | nil => exact (List.cons.inj (List.cons.inj hmid).1).1
    | cons s mid =>
      obtain ⟨rfl, -⟩ := List.cons.inj hmid
      obtain ⟨t, ht, hc⟩ := hbefore' (c :: rest) (by simp) c rfl
      exact absurd hc (htails t ht)
  · cases mid with
    | nil => exact ((List.cons.inj (List.cons.inj hmid).1).1).symm
    | cons s mid =>
      obtain ⟨rfl, -⟩ := List.cons.inj hmid
      obtain ⟨t, ht, hd⟩ := hbefore (d :: rest') (by simp) d rfl
      exact absurd hd (htails' t ht)

lemma Next.not_nil (h : Next seqs c) : ¬ ∀ s ∈ seqs, s = [] := by
  obtain ⟨before, rest, after, rfl, -⟩ := h
  intro hnil
  simpa using hnil (c :: rest) (by simp)

lemma exists_order_of_base {b : V} {bs : List V} {orders : List (List V)} (hlen : orders.length = bs.length)
    (hb : b ∈ bs) : ∃ l, (b, l) ∈ bs.zip orders := by
  induction bs generalizing orders with
  | nil => simp at hb
  | cons b' bs ih =>
    cases orders with
    | nil => simp at hlen
    | cons l orders =>
      rcases List.mem_cons.mp hb with rfl | hb
      · exact ⟨l, List.mem_cons_self ..⟩
      · obtain ⟨l', hl'⟩ := ih (by simpa using hlen) hb
        exact ⟨l', List.mem_cons_of_mem _ hl'⟩

lemma exists_base_of_order {bs : List V} {orders : List (List V)} (hlen : orders.length = bs.length)
    (hs : s ∈ orders) : ∃ b, (b, s) ∈ bs.zip orders := by
  induction bs generalizing orders with
  | nil =>
    obtain rfl := List.eq_nil_of_length_eq_zero hlen
    simp at hs
  | cons b bs ih =>
    cases orders with
    | nil => simp at hlen
    | cons l orders =>
      rcases List.mem_cons.mp hs with rfl | hs
      · exact ⟨b, List.mem_cons_self ..⟩
      · obtain ⟨b', hb'⟩ := ih (by simpa using hlen) hs
        exact ⟨b', List.mem_cons_of_mem _ hb'⟩

end Heads

variable [DecidableEq V]

def dropHead (c : V) (s : List V) : List V := if s.head? = some c then s.tail else s

inductive Merge : List (List V) → List V → Prop
  | nil {seqs : List (List V)} : (∀ s ∈ seqs, s = []) → Merge seqs []
  | cons {seqs : List (List V)} {c : V} {order : List V} :
      Next seqs c → Merge (seqs.map (dropHead c)) order → Merge seqs (c :: order)

inductive Linearises (bases : V → List V) : V → List V → Prop
  | mk {c : V} {orders : List (List V)} {order : List V} : orders.length = (bases c).length →
      (∀ p ∈ (bases c).zip orders, Linearises bases p.1 p.2) → Merge (orders ++ [bases c]) order →
      Linearises bases c (c :: order)

variable {bases : V → List V} {seqs : List (List V)} {c d x : V} {order order' s : List V}

lemma mem_dropHead (hc : c ∉ s.tail) : x ∈ s ↔ x = c ∧ s.head? = some c ∨ x ∈ dropHead c s := by
  unfold dropHead
  cases s with
  | nil => simp
  | cons y s =>
    by_cases hy : y = c
    · subst hy
      simp
    · simp [hy]

lemma Next.mem_iff (h : Next seqs c) :
    (∃ s ∈ seqs, x ∈ s) ↔ x = c ∨ ∃ s ∈ seqs.map (dropHead c), x ∈ s := by
  obtain ⟨before, rest, after, hseqs, htails, -⟩ := h
  constructor
  · rintro ⟨s, hs, hx⟩
    rcases (mem_dropHead (htails s hs)).mp hx with ⟨rfl, -⟩ | hx
    · exact Or.inl rfl
    · exact Or.inr ⟨_, List.mem_map_of_mem hs, hx⟩
  · rintro (rfl | ⟨t, ht, hx⟩)
    · exact ⟨x :: rest, by rw [hseqs]; simp, List.mem_cons_self ..⟩
    · obtain ⟨s, hs, rfl⟩ := List.mem_map.mp ht
      exact ⟨s, hs, (mem_dropHead (htails s hs)).mpr (Or.inr hx)⟩

lemma Merge.mem_iff (h : Merge seqs order) : x ∈ order ↔ ∃ s ∈ seqs, x ∈ s := by
  induction h with
  | nil hnil =>
    constructor
    · intro hx
      exact absurd hx List.not_mem_nil
    · rintro ⟨s, hs, hx⟩
      rwa [hnil s hs] at hx
  | cons hnext _ ih => rw [List.mem_cons, ih, hnext.mem_iff]

theorem Linearises.mem_iff (h : Linearises bases c order) :
    x ∈ order ↔ Relation.ReflTransGen (fun u v => v ∈ bases u) c x := by
  induction h with
  | @mk c orders order hlen horders hmerge ih =>
    rw [List.mem_cons, hmerge.mem_iff]
    constructor
    · rintro (rfl | ⟨s, hs, hx⟩)
      · exact .refl
      · rcases List.mem_append.mp hs with hs | hs
        · obtain ⟨b, hb⟩ := exists_base_of_order hlen hs
          exact .head (List.of_mem_zip hb).1 ((ih _ hb).mp hx)
        · obtain rfl := List.mem_singleton.mp hs
          exact .single hx
    · intro hreach
      rcases hreach.cases_head with rfl | ⟨b, hb, hrest⟩
      · exact Or.inl rfl
      · obtain ⟨l, hl⟩ := exists_order_of_base hlen hb
        exact Or.inr ⟨l, List.mem_append_left _ (List.of_mem_zip hl).2, (ih _ hl).mpr hrest⟩

lemma Merge.unique (h : Merge seqs order) (h' : Merge seqs order') : order = order' := by
  induction h generalizing order' with
  | nil hnil =>
    cases h' with
    | nil => rfl
    | cons hnext => exact absurd hnil hnext.not_nil
  | cons hnext _ ih =>
    cases h' with
    | nil hnil => exact absurd hnil hnext.not_nil
    | cons hnext' hrest' =>
      obtain rfl := hnext.unique hnext'
      rw [ih hrest']

lemma orders_unique {bs : List V} {orders orders' : List (List V)} (hlen : orders.length = bs.length)
    (hlen' : orders'.length = bs.length) (h : ∀ p ∈ bs.zip orders, ∀ l, Linearises bases p.1 l → p.2 = l)
    (h' : ∀ p ∈ bs.zip orders', Linearises bases p.1 p.2) : orders = orders' := by
  induction bs generalizing orders orders' with
  | nil => rw [List.eq_nil_of_length_eq_zero hlen, List.eq_nil_of_length_eq_zero hlen']
  | cons b bs ih =>
    match orders, orders', hlen, hlen' with
    | l :: orders, l' :: orders', hlen, hlen' =>
      rw [List.zip_cons_cons] at h h'
      have hhead : l = l' := h (b, l) (List.mem_cons_self ..) l' (h' (b, l') (List.mem_cons_self ..))
      have htail : orders = orders' := by
        apply ih (by simpa using hlen) (by simpa using hlen')
        · exact fun p hp => h p (List.mem_cons_of_mem _ hp)
        · exact fun p hp => h' p (List.mem_cons_of_mem _ hp)
      rw [hhead, htail]

theorem Linearises.unique (h : Linearises bases c order) (h' : Linearises bases c order') : order = order' := by
  induction h generalizing order' with
  | @mk c orders order hlen _ hmerge ih =>
    cases h' with
    | @mk _ orders' order' hlen' horders' hmerge' =>
      obtain rfl := orders_unique hlen hlen' (fun p hp l hl => ih p hp hl) horders'
      rw [hmerge.unique hmerge']

end RepoGraph.Lib.C3
