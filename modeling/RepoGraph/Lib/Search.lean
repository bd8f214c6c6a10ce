import Mathlib.Data.List.DropRight
import RepoGraph.Lib.TextLaws

/-! Search for a pattern in a text, and trimming. A gap, which shares no character with the pattern, cuts a
search in two. -/

namespace RepoGraph.Lib.Text

section Trim

def isWhitespace (c : Char) : Bool :=
  let n := c.toNat
  (9 ≤ n && n ≤ 13) || n = 0x20 || n = 0x85 || n = 0xA0 || n = 0x1680 ||
    (0x2000 ≤ n && n ≤ 0x200A) || n = 0x2028 || n = 0x2029 || n = 0x202F || n = 0x205F || n = 0x3000

def trimEndBy (p : Char → Bool) (s : String) : String := .ofList (s.toList.rdropWhile p)

def trimBy (p : Char → Bool) (s : String) : String := trimEndBy p (.ofList (s.toList.dropWhile p))

def trim (s : String) : String := trimBy isWhitespace s

def splitWhitespace (s : String) : List String :=
  ((s.toList.splitOnP isWhitespace).filter (· ≠ [])).map String.ofList

def IsSolid (p : Char → Bool) (s : String) : Prop :=
  (∃ c rest, s.toList = c :: rest ∧ p c = false) ∧ ∃ front c, s.toList = front ++ [c] ∧ p c = false

variable {p : Char → Bool} {s w w' : String}

lemma IsSolid.append {t : String} (hs : IsSolid p s) (mid : String)
    (ht : IsSolid p t) : IsSolid p (s ++ mid ++ t) := by
  obtain ⟨⟨c, rest, hc, hpc⟩, -⟩ := hs
  obtain ⟨-, front, d, hd, hpd⟩ := ht
  refine ⟨⟨c, rest ++ mid.toList ++ t.toList, ?_, hpc⟩, s.toList ++ mid.toList ++ front, d, ?_, hpd⟩
  · rw [String.toList_append, String.toList_append, hc]
    simp
  · rw [String.toList_append, String.toList_append, hd]
    simp

lemma rdropWhile_append_of_last {front l : List Char} {c : Char} (hc : p c = false) :
    (front ++ [c] ++ l).rdropWhile p = front ++ [c] ++ l.rdropWhile p := by
  induction l using List.reverseRecOn with
  | nil => simp [hc]
  | append_singleton l d ih =>
    rw [← List.append_assoc]
    cases hd : p d with
    | true => rw [List.rdropWhile_concat_pos _ _ _ hd, List.rdropWhile_concat_pos _ _ _ hd, ih]
    | false => rw [List.rdropWhile_concat_neg _ _ _ (by simp [hd]),
      List.rdropWhile_concat_neg _ _ _ (by simp [hd]), List.append_assoc]

lemma trimBy_solid (hs : IsSolid p s) (hw : ∀ c ∈ w.toList, p c) (rest : String) :
    trimBy p (w ++ s ++ rest) = s ++ trimEndBy p rest := by
  obtain ⟨⟨c, tail, hc, hpc⟩, front, d, hd, hpd⟩ := hs
  apply String.toList_inj.mp
  have hdrop : (w ++ s ++ rest).toList.dropWhile p = s.toList ++ rest.toList := by
    rw [String.toList_append, String.toList_append, List.append_assoc, List.dropWhile_append_of_pos hw, hc,
      List.cons_append, List.dropWhile_cons_of_neg (by simp [hpc])]
  rw [trimBy, trimEndBy, trimEndBy, String.toList_ofList, String.toList_ofList, hdrop, hd,
    rdropWhile_append_of_last hpd, ← hd, String.toList_append, String.toList_ofList]

lemma trimBy_core (hs : IsSolid p s) (hw : ∀ c ∈ w.toList, p c) (hw' : ∀ c ∈ w'.toList, p c) :
    trimBy p (w ++ s ++ w') = s := by
  rw [trimBy_solid hs hw, trimEndBy, List.rdropWhile_eq_nil_iff.mpr hw']
  simp

lemma trimBy_spec (p : Char → Bool) (s : String) :
    ∃ w w', s = w ++ trimBy p s ++ w' ∧ (∀ c ∈ w.toList, p c) ∧ ∀ c ∈ w'.toList, p c := by
  let core := s.toList.dropWhile p
  refine ⟨.ofList (s.toList.takeWhile p), .ofList (core.rtakeWhile p), ?_, ?_, ?_⟩
  · apply String.toList_inj.mp
    have hends : core.rdropWhile p ++ core.rtakeWhile p = core := by
      rw [List.rdropWhile, List.rtakeWhile, ← List.reverse_append,
        List.takeWhile_append_dropWhile, List.reverse_reverse]
    simp only [trimBy, trimEndBy, String.toList_append, String.toList_ofList, List.append_assoc]
    rw [hends, List.takeWhile_append_dropWhile]
  · intro c hc
    rw [String.toList_ofList] at hc
    exact List.mem_takeWhile_imp hc
  · intro c hc
    rw [String.toList_ofList, List.rtakeWhile, List.mem_reverse] at hc
    exact List.mem_takeWhile_imp hc

lemma trimStartUpTo_spec (start : String) (n : ℕ) (s : String) :
    ∃ taken, s = taken ++ trimStartUpTo start n s ∧ ∀ c ∈ taken.toList, c ∈ start.toList := by
  induction n generalizing s with
  | zero => exact ⟨"", by simp [trimStartUpTo], by simp⟩
  | succ n ih =>
    rw [trimStartUpTo]
    cases hstrip : stripPrefix s start with
    | none => exact ⟨"", by simp, by simp⟩
    | some rest =>
      obtain ⟨taken, htaken, hmem⟩ := ih rest
      refine ⟨start ++ taken, ?_, ?_⟩
      · rw [stripPrefix_eq_some.mp hstrip, String.append_assoc, ← htaken]
      · intro c hc
        rw [String.toList_append, List.mem_append] at hc
        exact hc.elim id (hmem c)

lemma trimStart_once {start rest : String} (hstart : start ≠ "") (hrest : startsWith rest start = false) :
    trimStart (start ++ rest) start = rest := by
  have hstrip : stripPrefix (start ++ rest) start = some rest := stripPrefix_eq_some.mpr rfl
  have hnone : stripPrefix rest start = none := by simp [stripPrefix, hrest]
  have hpos : 0 < (start ++ rest).toList.length := by
    rw [List.length_pos_iff, String.toList_append]
    simp [hstart]
  obtain ⟨n, hn⟩ := Nat.exists_eq_succ_of_ne_zero hpos.ne'
  rw [trimStart, hn]
  cases n with
  | zero => simp only [trimStartUpTo, hstrip]
  | succ n => simp only [trimStartUpTo, hstrip, hnone]

lemma trimStart_of_not_startsWith {start s : String} (h : startsWith s start = false) : trimStart s start = s := by
  have hnone : stripPrefix s start = none := by simp [stripPrefix, h]
  rw [trimStart]
  cases s.toList.length with
  | zero => rfl
  | succ n => simp only [trimStartUpTo, hnone]

end Trim

section FirstOccurrence

variable {p u v gap l a b : List Char} {c : Char}

lemma isPrefixOf_append_cons (hc : c ∉ p) : p.isPrefixOf (u ++ c :: v) = p.isPrefixOf u := by
  induction p generalizing u with
  | nil => simp
  | cons x p ih =>
    obtain ⟨hx, hp⟩ := List.ne_and_not_mem_of_not_mem_cons hc
    cases u with
    | nil => simp [List.isPrefixOf, Ne.symm hx]
    | cons y u => simp [List.isPrefixOf, ih hp]

lemma splitFirstSeq_eq_append (hp : p ≠ []) (h : splitFirstSeq p l = some (a, b)) : l = a ++ p ++ b := by
  induction l generalizing a with
  | nil => simp [splitFirstSeq, hp] at h
  | cons x l ih =>
    rw [splitFirstSeq] at h
    split at h
    · rename_i hbegins
      obtain ⟨rest, hrest⟩ := List.isPrefixOf_iff_prefix.mp hbegins
      obtain ⟨rfl, rfl⟩ := Prod.mk.inj (Option.some.inj h)
      rw [← hrest]
      simp
    · obtain ⟨⟨a', b'⟩, hsplit, heq⟩ := Option.map_eq_some_iff.mp h
      obtain ⟨rfl, rfl⟩ := Prod.mk.inj heq
      rw [ih hsplit]
      simp

lemma splitFirstSeq_isSome : (splitFirstSeq p l).isSome ↔ p <:+: l := by
  induction l with
  | nil =>
    rw [splitFirstSeq, List.infix_nil]
    split <;> simp_all
  | cons x l ih =>
    rw [splitFirstSeq, List.infix_cons_iff, ← List.isPrefixOf_iff_prefix, ← ih]
    split
    · rename_i hbegins
      simp [hbegins]
    · rename_i hbegins
      simp [hbegins]

lemma splitFirstSeq_append_cons (hp : p ≠ []) (hc : c ∉ p) : splitFirstSeq p (u ++ c :: v) =
    (splitFirstSeq p u).elim ((splitFirstSeq p v).map fun q => (u ++ c :: q.1, q.2)) fun q =>
      some (q.1, q.2 ++ c :: v) := by
  induction u with
  | nil =>
    have hbegins : p.isPrefixOf (c :: v) = false := by
      have := isPrefixOf_append_cons (u := []) (v := v) hc
      rw [List.nil_append] at this
      rw [this]
      cases p with
      | nil => exact absurd rfl hp
      | cons x p => rfl
    simp only [List.nil_append, splitFirstSeq, hbegins, if_neg hp]
    simp
  | cons x u ih =>
    have hbegins : p.isPrefixOf (x :: (u ++ c :: v)) = p.isPrefixOf (x :: u) := by
      rw [← List.cons_append, isPrefixOf_append_cons hc]
    rw [List.cons_append, splitFirstSeq, splitFirstSeq, hbegins, ih]
    split
    · rename_i hfound
      have hlen := (List.isPrefixOf_iff_prefix.mp hfound).length_le
      rw [← List.cons_append, List.drop_append_of_le_length hlen]
      rfl
    · cases splitFirstSeq p u with
      | none => cases splitFirstSeq p v <;> rfl
      | some q => rfl

lemma splitFirstSeq_gap (hp : p ≠ []) (hgap : ∀ c ∈ gap, c ∉ p)
    (hne : gap ≠ []) : splitFirstSeq p (u ++ gap ++ v) =
    (splitFirstSeq p u).elim ((splitFirstSeq p v).map fun q => (u ++ gap ++ q.1, q.2)) fun q =>
      some (q.1, q.2 ++ gap ++ v) := by
  have hskip : ∀ gap : List Char, (∀ c ∈ gap, c ∉ p) →
      splitFirstSeq p (gap ++ v) = (splitFirstSeq p v).map fun q => (gap ++ q.1, q.2) := by
    intro gap hgap
    induction gap with
    | nil => simp
    | cons c gap ih =>
      obtain ⟨hc, hgap⟩ := List.forall_mem_cons.mp hgap
      have hcut := splitFirstSeq_append_cons (u := []) (v := gap ++ v) hp hc
      rw [List.nil_append] at hcut
      rw [List.cons_append, hcut, ih hgap, splitFirstSeq, if_neg hp, Option.map_map]
      rfl
  obtain ⟨c, gap, rfl⟩ := List.exists_cons_of_ne_nil hne
  obtain ⟨hc, hgap⟩ := List.forall_mem_cons.mp hgap
  rw [List.append_assoc, List.cons_append, splitFirstSeq_append_cons hp hc, hskip gap hgap]
  cases splitFirstSeq p u with
  | none => simp [Function.comp_def]
  | some q => simp

lemma splitAllSeq_skip (k : ℕ) (l : List Char) : splitAllSeq p k l = splitAllSeq p 0 (l.drop k) := by
  induction k generalizing l with
  | zero => rfl
  | succ k ih =>
    cases l with
    | nil => simp [splitAllSeq]
    | cons x l => rw [splitAllSeq, ih, List.drop_succ_cons]

lemma splitAllSeq_eq (hp : p ≠ []) (l : List Char) : splitAllSeq p 0 l =
    (splitFirstSeq p l).elim [l] fun q => q.1 :: splitAllSeq p 0 q.2 := by
  induction l with
  | nil => simp [splitAllSeq, splitFirstSeq, hp]
  | cons x l ih =>
    rw [splitAllSeq, splitFirstSeq]
    split
    · obtain ⟨n, hn⟩ := Nat.exists_eq_succ_of_ne_zero (List.length_pos_iff.mpr hp).ne'
      rw [splitAllSeq_skip, hn, Nat.succ_sub_one]
      rfl
    · rw [ih]
      cases splitFirstSeq p l <;> rfl

end FirstOccurrence

section Strings

def splitOnceStr (s sep : String) : Option (String × String) :=
  (splitFirstSeq sep.toList s.toList).map fun p => (.ofList p.1, .ofList p.2)

def findStr (s pattern : String) : Option ℕ := (splitOnceStr s pattern).map fun p => p.1.utf8ByteSize

def findChar (s : String) (c : Char) : Option ℕ := (splitOnce s c).map fun p => p.1.utf8ByteSize

def beforeFirst (s sep : String) : String := (splitOnceStr s sep).elim s Prod.fst

def containsBefore (s pattern sep : String) : Bool := containsStr (beforeFirst s sep) pattern

def IsGap (sep gap : String) : Prop := gap ≠ "" ∧ ∀ c ∈ gap.toList, c ∉ sep.toList

variable {s sep pattern gap u v a b : String}

lemma containsStr_eq (s pattern : String) : containsStr s pattern = (splitOnceStr s pattern).isSome := by
  simp [containsStr, splitOnceStr]

lemma splitOnceStr_eq_append (hsep : sep ≠ "") (h : splitOnceStr s sep = some (a, b)) : s = a ++ sep ++ b := by
  obtain ⟨⟨x, y⟩, hsplit, heq⟩ := Option.map_eq_some_iff.mp h
  obtain ⟨rfl, rfl⟩ := Prod.mk.inj heq
  apply String.toList_inj.mp
  rw [splitFirstSeq_eq_append (by simpa using hsep) hsplit]
  simp

lemma splitOnceStr_gap (hsep : sep ≠ "") (hgap : IsGap sep gap) (u v : String) : splitOnceStr (u ++ gap ++ v) sep =
    (splitOnceStr u sep).elim ((splitOnceStr v sep).map fun q => (u ++ gap ++ q.1, q.2)) fun q =>
      some (q.1, q.2 ++ gap ++ v) := by
  have hcut := splitFirstSeq_gap (u := u.toList) (v := v.toList) (p := sep.toList) (by simpa using hsep) hgap.2
    (by simpa using hgap.1)
  simp only [splitOnceStr, String.toList_append, hcut]
  cases splitFirstSeq sep.toList u.toList with
  | none =>
    simp only [Option.elim_none, Option.map_none, Option.map_map]
    congr 1
    funext q
    simp [String.append_assoc]
  | some q => simp [String.append_assoc]

lemma containsStr_gap (hpattern : pattern ≠ "") (hgap : IsGap pattern gap) (u v : String) :
    containsStr (u ++ gap ++ v) pattern = (containsStr u pattern || containsStr v pattern) := by
  rw [containsStr_eq, containsStr_eq, containsStr_eq, splitOnceStr_gap hpattern hgap]
  cases splitOnceStr u pattern <;> simp

theorem containsBefore_gap (hsep : sep ≠ "") (hpattern : pattern ≠ "") (hgap : IsGap sep gap)
    (hgap' : IsGap pattern gap) (u v : String) : containsBefore (u ++ gap ++ v) pattern sep =
      (containsBefore u pattern sep || (!containsStr u sep && containsBefore v pattern sep)) := by
  rw [containsBefore, beforeFirst, splitOnceStr_gap hsep hgap, containsBefore, beforeFirst, containsStr_eq u sep]
  cases hu : splitOnceStr u sep with
  | some q => simp
  | none =>
    rw [containsBefore, beforeFirst]
    cases splitOnceStr v sep with
    | some q => simp [containsStr_gap hpattern hgap']
    | none => simp [containsStr_gap hpattern hgap']

lemma splitStr_eq (hsep : sep ≠ "") (s : String) :
    splitStr s sep = (splitOnceStr s sep).elim [s] fun q => q.1 :: splitStr q.2 sep := by
  rw [splitStr, splitAllSeq_eq (by simpa using hsep), splitOnceStr]
  cases splitFirstSeq sep.toList s.toList with
  | none => simp
  | some q => simp [splitStr]

lemma containsStr_of_piece (h : containsStr v pattern) (hv : s = u ++ v ++ a) : containsStr s pattern := by
  rw [containsStr, splitFirstSeq_isSome] at h ⊢
  rw [hv, String.toList_append, String.toList_append]
  exact h.trans (List.infix_append _ _ _)

lemma pieces_contain (hsep : sep ≠ "") (s pattern : String) :
    ((splitStr s sep)[0]?.any (containsStr · pattern)) = containsBefore s pattern sep ∧
      ((splitStr s sep)[1]?.any (containsStr · pattern)) =
        (splitOnceStr s sep).any fun q => containsBefore q.2 pattern sep := by
  rw [splitStr_eq hsep, containsBefore, beforeFirst]
  cases splitOnceStr s sep with
  | none => simp
  | some q =>
    rw [Option.elim_some, splitStr_eq hsep]
    simp only [Option.any_some, containsBefore, beforeFirst]
    cases splitOnceStr q.2 sep <;> simp

lemma containsStr_of_containsBefore (hsep : sep ≠ "") (h : containsBefore s pattern sep) :
    containsStr s pattern := by
  rw [containsBefore, beforeFirst] at h
  cases hs : splitOnceStr s sep with
  | none =>
    rw [hs] at h
    exact h
  | some q =>
    rw [hs] at h
    refine @containsStr_of_piece s pattern "" q.1 (sep ++ q.2) h ?_
    rw [splitOnceStr_eq_append hsep hs, String.append_assoc]
    simp

end Strings

end RepoGraph.Lib.Text
