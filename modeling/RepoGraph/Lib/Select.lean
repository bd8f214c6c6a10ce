import RepoGraph.Lib.Containers
import RepoGraph.Lib.Exec

/-! What a query gives: the rows that a condition selects, in some order, each read into a value. -/

namespace RepoGraph.Lib

variable {α β γ ε : Type}

def select (cmp : α → α → Ordering) (sel : α → Bool) (read : α → Except ε β) (rows : List α) : Except ε (List β) :=
  (sortBy cmp (rows.filter sel)).mapM read

variable {cmp : α → α → Ordering} {sel scope : α → Bool} {read : α → Except ε β} {rows : List α}

lemma mem_select {bs : List β} (h : select cmp sel read rows = .ok bs) {b : β} :
    b ∈ bs ↔ ∃ a ∈ rows, sel a ∧ read a = .ok b := by
  rw [mem_mapM h]
  simp only [(sortBy_perm cmp _).mem_iff, List.mem_filter, and_assoc]

lemma select_returns_iff : (∃ bs, select cmp sel read rows = .ok bs) ↔ ∀ a ∈ rows, sel a →
    ∃ b, read a = .ok b := by
  have hmem : ∀ a, a ∈ sortBy cmp (rows.filter sel) ↔ a ∈ rows ∧ sel a := fun a => by
    rw [(sortBy_perm cmp _).mem_iff, List.mem_filter]
  constructor
  · rintro ⟨bs, h⟩ a ha hsel
    exact of_mapM h ((hmem a).mpr ⟨ha, hsel⟩)
  · intro h
    exact exists_mapM fun a ha => h a ((hmem a).mp ha).1 ((hmem a).mp ha).2

lemma mapM_eq_filterMap {f : α → Except ε β} {l : List α} {bs : List β} (h : l.mapM f = .ok bs) :
    bs = l.filterMap fun a => (f a).toOption := by
  induction mapM_eq_ok.mp h with
  | nil => rfl
  | cons hb hrest ih =>
    rw [List.filterMap_cons_some (by rw [hb]; rfl), ← ih (mapM_eq_ok.mpr hrest)]

lemma select_perm {bs : List β} (h : select cmp sel read rows = .ok bs) :
    bs.Perm ((rows.filter sel).filterMap fun a => (read a).toOption) := by
  rw [mapM_eq_filterMap h]
  exact (sortBy_perm cmp _).filterMap _

/-- Two conditions on what is read select the same values only if they select the same rows. -/
lemma select_same_iff (hread : ∀ a b a', read a = .ok b → read a' = .ok b → sel a = sel a' ∧ scope a = scope a') :
    (∃ bs, select cmp scope read rows = .ok bs ∧ select cmp sel read rows = .ok bs) ↔
      ∀ a ∈ rows, (sel a ↔ scope a) ∧ (scope a → ∃ b, read a = .ok b) := by
  constructor
  · rintro ⟨bs, hscope, hsel⟩ a ha
    have hof : ∀ {p : α → Bool}, select cmp p read rows = .ok bs → p a → ∃ b, read a = .ok b ∧ b ∈ bs := by
      intro p hp hpa
      obtain ⟨b, hb⟩ := select_returns_iff.mp ⟨bs, hp⟩ a ha hpa
      exact ⟨b, hb, (mem_select hp).mpr ⟨a, ha, hpa, hb⟩⟩
    refine ⟨⟨fun h => ?_, fun h => ?_⟩, fun h => (hof hscope h).imp fun b hb => hb.1⟩
    · obtain ⟨b, hb, hmem⟩ := hof hsel h
      obtain ⟨a', -, ha', hb'⟩ := (mem_select hscope).mp hmem
      rw [(hread a b a' hb hb').2]
      exact ha'
    · obtain ⟨b, hb, hmem⟩ := hof hscope h
      obtain ⟨a', -, ha', hb'⟩ := (mem_select hsel).mp hmem
      rw [(hread a b a' hb hb').1]
      exact ha'
  · intro h
    obtain ⟨bs, hbs⟩ : ∃ bs, select cmp scope read rows = .ok bs := select_returns_iff.mpr fun a ha => (h a ha).2
    refine ⟨bs, hbs, ?_⟩
    rw [← hbs, select, select]
    congr 2
    exact List.filter_congr fun a ha => Bool.eq_iff_iff.mpr (h a ha).1

/-- A narrow query against the part of a wide one that a condition on its values picks out, where a value of the
narrow query belongs to one row. -/
lemma select_part_iff {wide : α → Bool} {part : β → Bool} {inPart : α → Bool} {g : β → γ}
    (hpart : ∀ a b, read a = .ok b → part b = inPart a)
    (hkey : ∀ a ∈ rows, ∀ a' ∈ rows, sel a ∨ wide a → sel a' ∨ wide a' →
      ∀ b b', read a = .ok b → read a' = .ok b' → g b = g b' → a = a') :
    (∃ bs cs, select cmp wide read rows = .ok bs ∧ select cmp sel (fun a => (read a).map g) rows = .ok cs ∧
        cs.Perm ((bs.filter part).map g)) ↔
      (∀ a ∈ rows, wide a → ∃ b, read a = .ok b) ∧ ∀ a ∈ rows, sel a ↔ wide a ∧ inPart a := by
  have hmap : ∀ {a c}, (read a).map g = .ok c ↔ ∃ b, read a = .ok b ∧ g b = c := fun {a c} => map_eq_ok
  constructor
  · rintro ⟨bs, cs, hwide, hsel, hperm⟩
    refine ⟨select_returns_iff.mp ⟨bs, hwide⟩, fun a ha => ⟨fun h => ?_, fun ⟨hw, hin⟩ => ?_⟩⟩
    · obtain ⟨c, hc⟩ := select_returns_iff.mp ⟨cs, hsel⟩ a ha h
      have hmem : c ∈ (bs.filter part).map g := hperm.mem_iff.mp ((mem_select hsel).mpr ⟨a, ha, h, hc⟩)
      obtain ⟨b', hb', rfl⟩ := List.mem_map.mp hmem
      obtain ⟨hb', hin⟩ := List.mem_filter.mp hb'
      obtain ⟨a', ha', hw, hread'⟩ := (mem_select hwide).mp hb'
      obtain ⟨b, hread, hg⟩ := hmap.mp hc
      obtain rfl := hkey a ha a' ha' (.inl h) (.inr hw) b b' hread hread' hg
      exact ⟨hw, by rw [← hpart a b' hread']; exact hin⟩
    · obtain ⟨b, hread⟩ := select_returns_iff.mp ⟨bs, hwide⟩ a ha hw
      have hmem : g b ∈ cs := hperm.mem_iff.mpr (List.mem_map_of_mem (List.mem_filter.mpr
        ⟨(mem_select hwide).mpr ⟨a, ha, hw, hread⟩, by rw [hpart a b hread]; exact hin⟩))
      obtain ⟨a', ha', hs, hc⟩ := (mem_select hsel).mp hmem
      obtain ⟨b', hread', hg⟩ := hmap.mp hc
      obtain rfl := hkey a ha a' ha' (.inr hw) (.inl hs) b b' hread hread' hg.symm
      exact hs
  · rintro ⟨hreads, hiff⟩
    have hnarrow : ∀ a ∈ rows, sel a → ∃ c, (read a).map g = .ok c := fun a ha hs =>
      (hreads a ha ((hiff a ha).mp hs).1).imp' g fun b hb => hmap.mpr ⟨b, hb, rfl⟩
    obtain ⟨bs, hbs⟩ : ∃ bs, select cmp wide read rows = .ok bs := select_returns_iff.mpr hreads
    obtain ⟨cs, hcs⟩ : ∃ cs, select cmp sel (fun a => (read a).map g) rows = .ok cs :=
      select_returns_iff.mpr hnarrow
    refine ⟨bs, cs, hbs, hcs, (select_perm hcs).trans ?_⟩
    refine .trans ?_ (((select_perm hbs).filter part).map g).symm
    have hsame : rows.filter sel = rows.filter fun a => wide a && inPart a :=
      List.filter_congr fun a ha => Bool.eq_iff_iff.mpr ((hiff a ha).trans (by simp))
    rw [hsame, List.filterMap_filter, List.filterMap_filter, List.filter_filterMap, List.map_filterMap]
    refine .of_eq (List.filterMap_congr fun a _ => ?_)
    by_cases hw : wide a
    · cases hread : read a with
      | error e => simp [Except.map, Except.toOption]
      | ok b => cases hin : inPart a <;> simp [hw, hin, Except.map, Except.toOption, hpart a b hread]
    · simp [hw]

end RepoGraph.Lib
