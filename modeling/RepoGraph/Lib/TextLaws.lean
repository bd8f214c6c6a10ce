import RepoGraph.Lib.Text

/-! Laws of the operations on text, and slices of a text by byte offsets: a slice that leaves the text or
cuts a character is none. -/

namespace RepoGraph.Lib.Text

lemma forall_mem_of_all {α : Type*} {p : α → Prop} [DecidablePred p] {xs : List α} (h : xs.all (p ·) = true) :
    ∀ x ∈ xs, p x := by
  simpa using h

section Cancel

lemma append_right_unique {a b ending : String} (h : a ++ ending = b ++ ending) : a = b := by
  apply String.toList_inj.mp
  simpa [← String.toList_inj] using h

lemma append_left_unique {front a b : String} (h : front ++ a = front ++ b) : a = b := by
  apply String.toList_inj.mp
  simpa [← String.toList_inj] using h

lemma startsWith_iff {s start : String} : startsWith s start ↔ ∃ rest, s = start ++ rest := by
  unfold startsWith
  rw [List.isPrefixOf_iff_prefix]
  constructor
  · rintro ⟨rest, hrest⟩
    refine ⟨.ofList rest, String.toList_inj.mp ?_⟩
    rw [String.toList_append, String.toList_ofList, hrest]
  · rintro ⟨rest, rfl⟩
    rw [String.toList_append]
    exact List.prefix_append _ _

lemma endsWith_iff {s ending : String} : endsWith s ending ↔ ∃ front, s = front ++ ending := by
  unfold endsWith
  rw [List.isSuffixOf_iff_suffix]
  constructor
  · rintro ⟨front, hfront⟩
    refine ⟨.ofList front, String.toList_inj.mp ?_⟩
    rw [String.toList_append, String.toList_ofList, hfront]
  · rintro ⟨front, rfl⟩
    rw [String.toList_append]
    exact List.suffix_append _ _

lemma stripSuffix_eq_some {s ending rest : String} : stripSuffix s ending = some rest ↔ s = rest ++ ending := by
  unfold stripSuffix
  constructor
  · intro h
    split at h
    · rename_i hends
      obtain ⟨front, rfl⟩ := endsWith_iff.mp hends
      obtain rfl := Option.some.inj h
      simp
    · simp at h
  · rintro rfl
    rw [if_pos (endsWith_iff.mpr ⟨rest, rfl⟩)]
    simp

lemma stripPrefix_eq_some {s start rest : String} : stripPrefix s start = some rest ↔ s = start ++ rest := by
  unfold stripPrefix
  constructor
  · intro h
    split at h
    · rename_i hstarts
      obtain ⟨tail, rfl⟩ := startsWith_iff.mp hstarts
      obtain rfl := Option.some.inj h
      simp
    · simp at h
  · rintro rfl
    rw [if_pos (startsWith_iff.mpr ⟨rest, rfl⟩)]
    simp

lemma middle_or_overlap {before rest front after : String} (h : before ++ rest = front ++ after) :
    (∃ mid, rest = mid ++ after) ∨ ∃ overlap, overlap ≠ "" ∧ before = front ++ overlap ∧
    after = overlap ++ rest := by
  have hlists : before.toList ++ rest.toList = front.toList ++ after.toList := by
    rw [← String.toList_append, h, String.toList_append]
  have hofList : ∀ {s t : String} {l : List Char}, s.toList = t.toList ++ l → s = t ++ .ofList l := by
    intro s t l hs
    apply String.toList_inj.mp
    rw [String.toList_append, String.toList_ofList, hs]
  have hofList' : ∀ {s t : String} {l : List Char}, s.toList = l ++ t.toList → s = .ofList l ++ t := by
    intro s t l hs
    apply String.toList_inj.mp
    rw [String.toList_append, String.toList_ofList, hs]
  rcases List.append_eq_append_iff.mp hlists with ⟨mid, -, hrest⟩ | ⟨overlap, hbefore, hafter⟩
  · exact Or.inl ⟨.ofList mid, hofList' hrest⟩
  · cases overlap with
    | nil => exact Or.inl ⟨"", by rw [hofList' hafter]; rfl⟩
    | cons c overlap =>
      refine Or.inr ⟨.ofList (c :: overlap), ?_, hofList hbefore, hofList' hafter⟩
      rw [Ne, ← String.toList_inj, String.toList_ofList]
      simp

lemma exists_middle {before rest front after : String} (h : before ++ rest = front ++ after)
    (hlen : before.length + after.length ≤ (before ++ rest).length) : ∃ mid, rest = mid ++ after := by
  rcases middle_or_overlap h with hmid | ⟨overlap, hne, rfl, rfl⟩
  · exact hmid
  · have hpos : 0 < overlap.length := by
      rw [← String.length_toList, List.length_pos_iff, Ne, String.toList_eq_nil_iff]
      exact hne
    simp only [String.length_append] at hlen
    omega

lemma exists_middle_of_utf8ByteSize {before rest front after : String} (h : before ++ rest = front ++ after)
    (hlen : before.utf8ByteSize + after.utf8ByteSize ≤ (before ++ rest).utf8ByteSize) :
    ∃ mid, rest = mid ++ after := by
  rcases middle_or_overlap h with hmid | ⟨overlap, hne, rfl, rfl⟩
  · exact hmid
  · have hpos : 0 < overlap.utf8ByteSize := by
      rw [Nat.pos_iff_ne_zero, Ne, String.utf8ByteSize_eq_zero_iff]
      exact hne
    simp only [String.utf8ByteSize_append] at hlen
    omega

end Cancel

section Splitting

variable {c : Char}

lemma splitFirst_eq_some {l a b : List Char} : splitFirst c l = some (a, b) ↔ l = a ++ c :: b ∧ c ∉ a := by
  induction l generalizing a with
  | nil => simp [splitFirst]
  | cons x l ih =>
    rw [splitFirst]
    by_cases hx : x = c
    · rw [if_pos hx]
      constructor
      · intro h
        obtain ⟨rfl, rfl⟩ := Prod.mk.inj (Option.some.inj h)
        simp [hx]
      · rintro ⟨hl, hc⟩
        cases a with
        | nil => rw [(List.cons.inj hl).2]
        | cons y a =>
          obtain ⟨rfl, -⟩ := List.cons.inj hl
          exact absurd (List.mem_cons_self ..) (hx ▸ hc)
    · rw [if_neg hx]
      constructor
      · intro h
        obtain ⟨⟨a', b'⟩, hsplit, heq⟩ := Option.map_eq_some_iff.mp h
        obtain ⟨rfl, rfl⟩ := Prod.mk.inj heq
        obtain ⟨rfl, hc⟩ := ih.mp hsplit
        exact ⟨rfl, by simp [hc, Ne.symm hx]⟩
      · rintro ⟨hl, hc⟩
        cases a with
        | nil => exact absurd (List.cons.inj hl).1 hx
        | cons y a =>
          obtain ⟨rfl, htail⟩ := List.cons.inj hl
          rw [ih.mpr ⟨htail, fun h => hc (List.mem_cons_of_mem _ h)⟩]
          rfl

lemma splitFirst_eq_none {l : List Char} : splitFirst c l = none ↔ c ∉ l := by
  induction l with
  | nil => simp [splitFirst]
  | cons x l ih =>
    rw [splitFirst]
    by_cases hx : x = c
    · simp [hx]
    · simp [hx, ih, Ne.symm hx]

lemma splitOnce_eq_some {s a b : String} :
    splitOnce s c = some (a, b) ↔ s = a ++ String.singleton c ++ b ∧ c ∉ a.toList := by
  unfold splitOnce
  rw [Option.map_eq_some_iff]
  constructor
  · rintro ⟨⟨p, q⟩, hsplit, heq⟩
    obtain ⟨rfl, rfl⟩ := Prod.mk.inj heq
    obtain ⟨hl, hc⟩ := splitFirst_eq_some.mp hsplit
    refine ⟨String.toList_inj.mp ?_, by rwa [String.toList_ofList]⟩
    simp [hl]
  · rintro ⟨rfl, hc⟩
    refine ⟨(a.toList, b.toList), splitFirst_eq_some.mpr ⟨?_, hc⟩, ?_⟩
    · simp
    · simp

lemma splitOnce_eq_none {s : String} : splitOnce s c = none ↔ c ∉ s.toList := by
  rw [splitOnce, Option.map_eq_none_iff, splitFirst_eq_none]

lemma splitLast_eq_some {l a b : List Char} : splitLast c l = some (a, b) ↔ l = a ++ c :: b ∧ c ∉ b := by
  unfold splitLast
  rw [Option.map_eq_some_iff]
  constructor
  · rintro ⟨⟨p, q⟩, hsplit, heq⟩
    obtain ⟨rfl, rfl⟩ := Prod.mk.inj heq
    obtain ⟨hl, hc⟩ := splitFirst_eq_some.mp hsplit
    refine ⟨?_, by simpa using hc⟩
    rw [← List.reverse_reverse l, hl]
    simp
  · rintro ⟨rfl, hc⟩
    refine ⟨(b.reverse, a.reverse), splitFirst_eq_some.mpr ⟨by simp, by simpa using hc⟩, ?_⟩
    simp

lemma rsplitOnce_eq_some {s a b : String} :
    rsplitOnce s c = some (a, b) ↔ s = a ++ String.singleton c ++ b ∧ c ∉ b.toList := by
  unfold rsplitOnce
  rw [Option.map_eq_some_iff]
  constructor
  · rintro ⟨⟨p, q⟩, hsplit, heq⟩
    obtain ⟨rfl, rfl⟩ := Prod.mk.inj heq
    obtain ⟨hl, hc⟩ := splitLast_eq_some.mp hsplit
    refine ⟨String.toList_inj.mp ?_, by rwa [String.toList_ofList]⟩
    simp [hl]
  · rintro ⟨rfl, hc⟩
    refine ⟨(a.toList, b.toList), splitLast_eq_some.mpr ⟨?_, hc⟩, ?_⟩
    · simp
    · simp

lemma rsplitOnce_eq_none {s : String} : rsplitOnce s c = none ↔ c ∉ s.toList := by
  rw [rsplitOnce, splitLast, Option.map_eq_none_iff, Option.map_eq_none_iff, splitFirst_eq_none, List.mem_reverse]

lemma splitAll_of_not_mem {l : List Char} (h : c ∉ l) : splitAll c l = [l] := by
  induction l with
  | nil => rfl
  | cons x l ih =>
    rw [List.mem_cons, not_or] at h
    rw [splitAll, if_neg (Ne.symm h.1), ih h.2]

lemma splitAll_intercalate {pieces : List (List Char)} (hne : pieces ≠ []) (h : ∀ p ∈ pieces, c ∉ p) :
    splitAll c (List.intercalate [c] pieces) = pieces := by
  induction pieces with
  | nil => exact absurd rfl hne
  | cons p pieces ih =>
    obtain ⟨hp, hpieces⟩ := List.forall_mem_cons.mp h
    cases pieces with
    | nil => rw [List.intercalate_singleton, splitAll_of_not_mem hp]
    | cons q pieces =>
      rw [List.intercalate_cons_cons, List.append_assoc, List.singleton_append, splitAll_append,
        splitAll_of_not_mem hp, ih (by simp) hpieces]
      rfl

lemma toList_join (c : Char) (pieces : List String) :
    (join (String.singleton c) pieces).toList = List.intercalate [c] (pieces.map String.toList) := by
  simp [join]

lemma join_append_singleton {pieces : List String} (hne : pieces ≠ []) (c : Char) (last : String) :
    join (String.singleton c) (pieces ++ [last]) = join (String.singleton c) pieces ++
      String.singleton c ++ last := by
  apply String.toList_inj.mp
  rw [String.toList_append, String.toList_append, toList_join, toList_join, List.map_append,
    intercalate_append (by simpa using hne) (by simp)]
  simp

lemma join_cons (piece : String) {pieces : List String} (hne : pieces ≠ []) (c : Char) :
    join (String.singleton c) (piece :: pieces) = piece ++ String.singleton c ++
      join (String.singleton c) pieces := by
  obtain ⟨next, more, rfl⟩ := List.exists_cons_of_ne_nil hne
  apply String.toList_inj.mp
  rw [String.toList_append, String.toList_append, toList_join, toList_join, List.map_cons, List.map_cons,
    List.intercalate_cons_cons]
  simp

lemma split_join {pieces : List String} (hne : pieces ≠ []) (h : ∀ p ∈ pieces, c ∉ p.toList) :
    split (join (String.singleton c) pieces) c = pieces := by
  have hlists : ∀ l ∈ pieces.map String.toList, c ∉ l := by
    intro l hl
    obtain ⟨p, hp, rfl⟩ := List.mem_map.mp hl
    exact h p hp
  rw [split, toList_join, splitAll_intercalate (by simpa using hne) hlists, List.map_map]
  simp [Function.comp_def]

lemma join_split (s : String) (c : Char) : join (String.singleton c) (split s c) = s := by
  apply String.toList_inj.mp
  rw [toList_join, split, List.map_map]
  simp [Function.comp_def, intercalate_splitAll]

lemma not_mem_of_mem_splitAll {l p : List Char} (h : p ∈ splitAll c l) : c ∉ p := by
  induction l generalizing p with
  | nil =>
    obtain rfl : p = [] := by simpa [splitAll] using h
    simp
  | cons x l ih =>
    rw [splitAll] at h
    split at h
    · rcases List.mem_cons.mp h with rfl | h
      · simp
      · exact ih h
    · rename_i hx
      obtain ⟨piece, pieces, hl⟩ := List.exists_cons_of_ne_nil (splitAll_ne_nil c l)
      rw [hl] at h ih
      rcases List.mem_cons.mp h with rfl | h
      · simp [Ne.symm hx, ih (List.mem_cons_self ..)]
      · exact ih (List.mem_cons_of_mem _ h)

lemma not_mem_of_mem_split {s p : String} (h : p ∈ split s c) : c ∉ p.toList := by
  obtain ⟨l, hl, rfl⟩ := List.mem_map.mp h
  rw [String.toList_ofList]
  exact not_mem_of_mem_splitAll hl

lemma split_eq_iff {s : String} {pieces : List String} :
    split s c = pieces ↔ pieces ≠ [] ∧ (∀ p ∈ pieces, c ∉ p.toList) ∧ s = join (String.singleton c) pieces := by
  constructor
  · rintro rfl
    exact ⟨by simp [split, splitAll_ne_nil], fun p hp => not_mem_of_mem_split hp, (join_split s c).symm⟩
  · rintro ⟨hne, hfree, rfl⟩
    exact split_join hne hfree

end Splitting

section ByteSlices

def byteLen (l : List Char) : ℕ := (l.map Char.utf8Size).sum

def dropBytes : ℕ → List Char → Option (List Char)
  | 0, l => some l
  | _ + 1, [] => none
  | n + 1, c :: l => if c.utf8Size ≤ n + 1 then dropBytes (n + 1 - c.utf8Size) l else none

def takeBytes : ℕ → List Char → Option (List Char)
  | 0, _ => some []
  | _ + 1, [] => none
  | n + 1, c :: l =>
    if c.utf8Size ≤ n + 1 then (takeBytes (n + 1 - c.utf8Size) l).map (c :: ·) else none

def slice (s : String) (lo hi : ℕ) : Option String :=
  if lo ≤ hi then (dropBytes lo s.toList).bind fun rest => (takeBytes (hi - lo) rest).map String.ofList else none

@[simp] lemma byteLen_nil : byteLen [] = 0 := rfl

@[simp] lemma byteLen_cons (c : Char) (l : List Char) : byteLen (c :: l) = c.utf8Size + byteLen l := by
  simp [byteLen]

@[simp] lemma byteLen_append (l m : List Char) : byteLen (l ++ m) = byteLen l + byteLen m := by
  simp [byteLen]

lemma byteLen_eq_zero {l : List Char} : byteLen l = 0 ↔ l = [] := by
  cases l with
  | nil => simp
  | cons c l =>
    have hpos := c.utf8Size_pos
    rw [byteLen_cons]
    simp only [reduceCtorEq, iff_false]
    omega

lemma byteLen_ofList (l : List Char) : (String.ofList l).utf8ByteSize = byteLen l := by
  induction l with
  | nil => rfl
  | cons c l ih =>
    have hcons : String.ofList (c :: l) = String.singleton c ++ String.ofList l := by
      apply String.toList_inj.mp
      simp
    rw [hcons, String.utf8ByteSize_append, ih, String.utf8ByteSize_singleton, byteLen_cons]

lemma utf8ByteSize_eq (s : String) : s.utf8ByteSize = byteLen s.toList := by
  rw [← byteLen_ofList, String.ofList_toList]

lemma takeBytes_eq_some {n : ℕ} {l p : List Char} : takeBytes n l = some p ↔ p <+: l ∧ byteLen p = n := by
  fun_induction takeBytes n l generalizing p with
  | case1 l =>
    rw [byteLen_eq_zero]
    constructor
    · rintro ⟨⟩
      simp
    · rintro ⟨-, rfl⟩
      rfl
  | case2 n =>
    simp only [reduceCtorEq, List.prefix_nil, false_iff, not_and]
    rintro rfl
    simp
  | case3 n c l hle ih =>
    constructor
    · intro h
      obtain ⟨q, hq, rfl⟩ := Option.map_eq_some_iff.mp h
      obtain ⟨hbegins, hlen⟩ := ih.mp hq
      refine ⟨List.cons_prefix_cons.mpr ⟨rfl, hbegins⟩, ?_⟩
      rw [byteLen_cons]
      omega
    · rintro ⟨hbegins, hlen⟩
      cases p with
      | nil => simp at hlen
      | cons d q =>
        obtain ⟨rfl, htail⟩ := List.cons_prefix_cons.mp hbegins
        rw [byteLen_cons] at hlen
        rw [ih.mpr ⟨htail, by omega⟩]
        rfl
  | case4 n c l hlt =>
    simp only [reduceCtorEq, false_iff, not_and]
    intro hbegins hlen
    cases p with
    | nil => simp at hlen
    | cons d q =>
      obtain ⟨rfl, -⟩ := List.cons_prefix_cons.mp hbegins
      rw [byteLen_cons] at hlen
      omega

lemma dropBytes_eq_some {n : ℕ} {l r : List Char} :
    dropBytes n l = some r ↔ ∃ p, l = p ++ r ∧ byteLen p = n := by
  fun_induction dropBytes n l with
  | case1 l =>
    simp only [byteLen_eq_zero]
    constructor
    · rintro ⟨⟩
      exact ⟨[], rfl, rfl⟩
    · rintro ⟨p, rfl, rfl⟩
      rfl
  | case2 n =>
    simp only [reduceCtorEq, false_iff, not_exists, not_and]
    intro p hp hlen
    obtain ⟨rfl, -⟩ := List.append_eq_nil_iff.mp hp.symm
    simp at hlen
  | case3 n c l hle ih =>
    rw [ih]
    constructor
    · rintro ⟨p, hl, hlen⟩
      refine ⟨c :: p, by rw [hl, List.cons_append], ?_⟩
      rw [byteLen_cons, hlen]
      exact Nat.add_sub_cancel' hle
    · rintro ⟨p, hp, hlen⟩
      cases p with
      | nil => simp at hlen
      | cons d q =>
        obtain ⟨rfl, htail⟩ := List.cons.inj hp
        rw [byteLen_cons] at hlen
        exact ⟨q, htail, by omega⟩
  | case4 n c l hlt =>
    simp only [reduceCtorEq, false_iff, not_exists, not_and]
    intro p hp hlen
    cases p with
    | nil => simp at hlen
    | cons d q =>
      obtain ⟨rfl, -⟩ := List.cons.inj hp
      rw [byteLen_cons] at hlen
      omega

theorem slice_eq_some {s mid : String} {lo hi : ℕ} :
    slice s lo hi = some mid ↔
      ∃ before after, s = before ++ mid ++ after ∧ lo = before.utf8ByteSize ∧
        hi = before.utf8ByteSize + mid.utf8ByteSize := by
  unfold slice
  constructor
  · intro h
    split at h
    · rename_i hle
      obtain ⟨rest, hdrop, htake⟩ := Option.bind_eq_some_iff.mp h
      obtain ⟨p, hl, hlo⟩ := dropBytes_eq_some.mp hdrop
      obtain ⟨m, hm, rfl⟩ := Option.map_eq_some_iff.mp htake
      obtain ⟨⟨after, rfl⟩, hlen⟩ := takeBytes_eq_some.mp hm
      refine ⟨.ofList p, .ofList after, String.toList_inj.mp ?_, ?_, ?_⟩
      · simp [hl]
      · rw [byteLen_ofList, hlo]
      · rw [byteLen_ofList, byteLen_ofList]
        omega
    · simp at h
  · rintro ⟨before, after, rfl, rfl, rfl⟩
    have hdrop : dropBytes before.utf8ByteSize (before ++ mid ++ after).toList = some (mid ++ after).toList := by
      apply dropBytes_eq_some.mpr
      exact ⟨before.toList, by simp, (utf8ByteSize_eq before).symm⟩
    have htake : takeBytes mid.utf8ByteSize (mid ++ after).toList = some mid.toList := by
      apply takeBytes_eq_some.mpr
      exact ⟨by simp, (utf8ByteSize_eq mid).symm⟩
    rw [if_pos (Nat.le_add_right ..), hdrop, Option.bind_some, Nat.add_sub_cancel_left, htake, Option.map_some,
      String.ofList_toList]

lemma beginning_unique {a b a' b' : String} (h : a ++ b = a' ++ b') (hsize : a.utf8ByteSize = a'.utf8ByteSize) :
    a = a' := by
  have htake : ∀ x y : String, takeBytes x.utf8ByteSize (x ++ y).toList = some x.toList := by
    intro x y
    exact takeBytes_eq_some.mpr ⟨by simp, (utf8ByteSize_eq x).symm⟩
  have hsame := htake a b
  rw [h, hsize, htake a' b'] at hsame
  exact String.toList_inj.mp (Option.some.inj hsame).symm

end ByteSlices

end RepoGraph.Lib.Text
