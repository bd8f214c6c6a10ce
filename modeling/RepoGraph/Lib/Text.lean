import Mathlib.Tactic

/-! String searching and splitting, on the list of characters of a string. -/

namespace RepoGraph.Lib.Text

def splitFirst (c : Char) : List Char → Option (List Char × List Char)
  | [] => none
  | x :: xs => if x = c then some ([], xs) else (splitFirst c xs).map (fun p => (x :: p.1, p.2))

def splitLast (c : Char) (l : List Char) : Option (List Char × List Char) :=
  (splitFirst c l.reverse).map (fun p => (p.2.reverse, p.1.reverse))

def splitAll (c : Char) : List Char → List (List Char)
  | [] => [[]]
  | x :: xs =>
    if x = c then [] :: splitAll c xs
    else
      match splitAll c xs with
      | [] => [[x]]
      | piece :: pieces => (x :: piece) :: pieces

def splitFirstSeq (sep : List Char) : List Char → Option (List Char × List Char)
  | [] => if sep = [] then some ([], []) else none
  | x :: xs =>
    if sep.isPrefixOf (x :: xs) then some ([], (x :: xs).drop sep.length)
    else (splitFirstSeq sep xs).map (fun p => (x :: p.1, p.2))

/-- The pieces between the occurrences of a pattern, from left to right; the first argument counts the
characters of an occurrence still to be skipped. -/
def splitAllSeq (sep : List Char) : ℕ → List Char → List (List Char)
  | _, [] => [[]]
  | skip + 1, _ :: xs => splitAllSeq sep skip xs
  | 0, x :: xs =>
    if sep.isPrefixOf (x :: xs) then [] :: splitAllSeq sep (sep.length - 1) xs
    else
      match splitAllSeq sep 0 xs with
      | [] => [[x]]
      | piece :: pieces => (x :: piece) :: pieces

def startsWith (s start : String) : Bool := start.toList.isPrefixOf s.toList

def endsWith (s ending : String) : Bool := ending.toList.isSuffixOf s.toList

def stripSuffix (s ending : String) : Option String :=
  if endsWith s ending then some (.ofList (s.toList.take (s.toList.length - ending.toList.length)))
  else none

def stripPrefix (s start : String) : Option String :=
  if startsWith s start then some (.ofList (s.toList.drop start.toList.length)) else none

def trimStartUpTo (start : String) : ℕ → String → String
  | 0, s => s
  | n + 1, s =>
    match stripPrefix s start with
    | some rest => trimStartUpTo start n rest
    | none => s

/-- `trim_start_matches`: the text is at least as long as the number of patterns it starts with. -/
def trimStart (s start : String) : String := trimStartUpTo start s.toList.length s

def contains (s : String) (c : Char) : Bool := s.toList.contains c

def containsStr (s pattern : String) : Bool := (splitFirstSeq pattern.toList s.toList).isSome

def replaceAll (s : String) (c by_ : Char) : String := .ofList (s.toList.map fun x => if x = c then by_ else x)

def splitStr (s sep : String) : List String := (splitAllSeq sep.toList 0 s.toList).map String.ofList

def beforeLast (s sep : String) : Option String :=
  (splitFirstSeq sep.toList.reverse s.toList.reverse).map fun p => .ofList p.2.reverse

def splitOnce (s : String) (c : Char) : Option (String × String) :=
  (splitFirst c s.toList).map (fun p => (.ofList p.1, .ofList p.2))

def rsplitOnce (s : String) (c : Char) : Option (String × String) :=
  (splitLast c s.toList).map (fun p => (.ofList p.1, .ofList p.2))

def split (s : String) (c : Char) : List String := (splitAll c s.toList).map String.ofList

def join (separator : String) (pieces : List String) : String :=
  .ofList (List.intercalate separator.toList (pieces.map String.toList))

def replaceFirst (s : String) (c : Char) (by_ : String) : String :=
  match splitFirst c s.toList with
  | some (before, after) => .ofList (before ++ by_.toList ++ after)
  | none => s

section SplitAll

lemma splitAll_ne_nil (c : Char) (l : List Char) : splitAll c l ≠ [] := by
  cases l with
  | nil => simp [splitAll]
  | cons x xs =>
    unfold splitAll
    split
    · simp
    · split <;> simp

lemma splitAll_append (c : Char) (q r : List Char) : splitAll c (q ++ c :: r) = splitAll c q ++ splitAll c r := by
  induction q with
  | nil => simp [splitAll]
  | cons x q ih =>
    rw [List.cons_append, splitAll, splitAll, ih]
    split
    · rfl
    · obtain ⟨piece, pieces, hq⟩ := List.exists_cons_of_ne_nil (splitAll_ne_nil c q)
      rw [hq]
      rfl

lemma intercalate_splitAll (c : Char) (l : List Char) : List.intercalate [c] (splitAll c l) = l := by
  induction l with
  | nil => rfl
  | cons x l ih =>
    obtain ⟨piece, pieces, hl⟩ := List.exists_cons_of_ne_nil (splitAll_ne_nil c l)
    rw [splitAll, hl]
    rw [hl] at ih
    split
    · rename_i hx
      rw [List.intercalate_cons_of_ne_nil (by simp), ih, hx]
      rfl
    · cases pieces with
      | nil =>
        rw [List.intercalate_singleton] at ih ⊢
        rw [ih]
      | cons next more =>
        rw [List.intercalate_cons_of_ne_nil (by simp)] at ih ⊢
        rw [List.cons_append, List.cons_append, ih]

lemma intercalate_append {c : Char} {l m : List (List Char)} (hl : l ≠ []) (hm : m ≠ []) :
    List.intercalate [c] (l ++ m) = List.intercalate [c] l ++ c :: List.intercalate [c] m := by
  induction l with
  | nil => exact absurd rfl hl
  | cons x l ih =>
    rw [List.cons_append, List.intercalate_cons_of_ne_nil (by simp [hm])]
    cases l with
    | nil => simp
    | cons y l =>
      rw [ih (by simp), List.intercalate_cons_cons]
      simp only [List.append_assoc, List.cons_append]

lemma splitAll_proper_prefix_iff (c : Char) (q l : List Char) :
    splitAll c q <+: splitAll c l ∧ splitAll c q ≠ splitAll c l ↔ ∃ r, l = q ++ c :: r := by
  constructor
  · rintro ⟨⟨rest, hrest⟩, hne⟩
    have hnil : rest ≠ [] := by
      rintro rfl
      exact hne (by simpa using hrest)
    refine ⟨List.intercalate [c] rest, ?_⟩
    rw [← intercalate_splitAll c l, ← hrest, intercalate_append (splitAll_ne_nil c q) hnil,
      intercalate_splitAll]
  · rintro ⟨r, rfl⟩
    rw [splitAll_append]
    exact ⟨List.prefix_append _ _, fun h => splitAll_ne_nil c r (List.append_right_eq_self.mp h.symm)⟩

end SplitAll

end RepoGraph.Lib.Text
