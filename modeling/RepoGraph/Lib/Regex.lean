import Mathlib.Tactic

/-! Regular expressions matched by backtracking: the leftmost match, and of the matches that start there the one
that repeats most. What is repeated is one class of characters. -/

namespace RepoGraph.Lib

inductive Regex
  | empty
  | char (p : Char → Bool)
  | many (p : Char → Bool)
  | seq (r q : Regex)
  | optional (r : Regex)
  | group (r : Regex)
  | atEnd

namespace Regex

variable {α : Type}

def runMany (p : Char → Bool) (k : List Char → Option α) : List Char → Option α
  | [] => k []
  | c :: s => if p c then (runMany p k s).or (k (c :: s)) else k (c :: s)

def run : Regex → List Char → List (List Char) → (List Char → List (List Char) → Option α) → Option α
  | .empty, s, groups, k => k s groups
  | .char _, [], _, _ => none
  | .char p, c :: s, groups, k => if p c then k s groups else none
  | .many p, s, groups, k => runMany p (fun rest => k rest groups) s
  | .seq r q, s, groups, k => r.run s groups fun rest groups => q.run rest groups k
  | .optional r, s, groups, k => (r.run s groups k).or (k s groups)
  | .group r, s, groups, k =>
    r.run s groups fun rest groups => k rest (groups ++ [s.take (s.length - rest.length)])
  | .atEnd, s, groups, k => if s = [] then k s groups else none

def matchAt (r : Regex) (s : List Char) : Option (List Char × List (List Char)) :=
  r.run s [] fun rest groups => some (rest, groups)

/-- The groups of the matches from left to right; the first argument counts the characters of a match still to be
skipped. -/
def scan (r : Regex) : ℕ → List Char → List (List (List Char))
  | _, [] => []
  | n + 1, _ :: s => r.scan n s
  | 0, c :: s =>
    match r.matchAt (c :: s) with
    | some (rest, groups) => groups :: r.scan (s.length - rest.length) s
    | none => r.scan 0 s

def capturesIter (r : Regex) (s : String) : List (List String) := (r.scan 0 s.toList).map (·.map String.ofList)

def lit (s : String) : Regex := s.toList.foldr (fun c r => .seq (.char (· == c)) r) .empty

def some1 (p : Char → Bool) : Regex := .seq (.char p) (.many p)

def cat (rs : List Regex) : Regex := rs.foldr .seq .empty

section Run

variable {p q : Char → Bool} {s : List Char} {groups : List (List Char)}
  {k : List Char → List (List Char) → Option α}

@[simp] lemma run_empty : empty.run s groups k = k s groups := rfl

@[simp] lemma run_char_nil : (char p).run [] groups k = none := rfl

lemma run_char_cons (c : Char) : (char p).run (c :: s) groups k = if p c then k s groups else none := rfl

lemma run_many_eq : (many p).run s groups k = runMany p (fun rest => k rest groups) s := rfl

@[simp] lemma run_seq (r q : Regex) :
    (seq r q).run s groups k = r.run s groups fun rest groups => q.run rest groups k := rfl

lemma run_optional (r : Regex) : (optional r).run s groups k = (r.run s groups k).or (k s groups) := rfl

lemma run_group (r : Regex) :
    (group r).run s groups k =
      r.run s groups fun rest groups => k rest (groups ++ [s.take (s.length - rest.length)]) := rfl

@[simp] lemma run_atEnd : atEnd.run s groups k = if s = [] then k s groups else none := rfl

lemma runMany_cons (c : Char) (k : List Char → Option α) :
    runMany p k (c :: s) = if p c then (runMany p k s).or (k (c :: s)) else k (c :: s) := rfl

@[simp] lemma run_cat_nil : (cat []).run s groups k = k s groups := rfl

@[simp] lemma run_cat_cons (r : Regex) (rs : List Regex) :
    (cat (r :: rs)).run s groups k = r.run s groups fun rest groups => (cat rs).run rest groups k := rfl

lemma run_lit (l : String) :
    (lit l).run s groups k = if l.toList <+: s then k (s.drop l.toList.length) groups else none := by
  rw [lit]
  induction l.toList generalizing s with
  | nil => simp
  | cons c l ih =>
    cases s with
    | nil => simp
    | cons d s =>
      rw [List.foldr_cons, run_seq, run_char_cons, ih]
      by_cases hd : d = c
      · subst hd
        simp
      · simp [hd, Ne.symm hd]

lemma run_lit_append (l : String) (s : List Char) : (lit l).run (l.toList ++ s) groups k = k s groups := by
  rw [run_lit, if_pos (List.prefix_append _ _), List.drop_left]

lemma run_many (hk : ∀ c t, p c → k (c :: t) groups = none) :
    (many p).run s groups k = k (s.dropWhile p) groups := by
  rw [run_many_eq]
  induction s with
  | nil => rfl
  | cons c s ih =>
    rw [runMany_cons]
    by_cases hc : p c
    · rw [if_pos hc, ih, hk c s hc, Option.or_none, List.dropWhile_cons_of_pos hc]
    · rw [if_neg hc, List.dropWhile_cons_of_neg hc]

lemma run_many_of_isSome (hk : (k (s.dropWhile p) groups).isSome) :
    (many p).run s groups k = k (s.dropWhile p) groups := by
  rw [run_many_eq]
  induction s with
  | nil => rfl
  | cons c s ih =>
    rw [runMany_cons]
    by_cases hc : p c
    · rw [List.dropWhile_cons_of_pos hc] at hk ⊢
      rw [if_pos hc, ih hk]
      exact Option.or_of_isSome hk
    · rw [if_neg hc, List.dropWhile_cons_of_neg hc]

lemma take_dropWhile_length (p : Char → Bool) (s : List Char) :
    s.take (s.length - (s.dropWhile p).length) = s.takeWhile p := by
  have hlen := congrArg List.length (List.takeWhile_append_dropWhile (p := p) (l := s))
  rw [List.length_append] at hlen
  have htake : s.length - (s.dropWhile p).length = (s.takeWhile p).length := by omega
  have happend : (s.takeWhile p ++ s.dropWhile p).take (s.takeWhile p).length = s.takeWhile p := List.take_left
  rwa [List.takeWhile_append_dropWhile, ← htake] at happend

lemma run_group_some1 (hk : ∀ c t groups, p c → k (c :: t) groups = none) :
    (group (some1 p)).run s groups k =
      if s.takeWhile p = [] then none else k (s.dropWhile p) (groups ++ [s.takeWhile p]) := by
  rw [run_group, some1, run_seq]
  cases s with
  | nil => rfl
  | cons c s =>
    rw [run_char_cons]
    by_cases hc : p c
    · have htake := take_dropWhile_length p (c :: s)
      rw [List.dropWhile_cons_of_pos hc] at htake
      rw [if_pos hc]
      refine (run_many ?_).trans ?_
      · exact fun d t hd => hk d t _ hd
      · rw [htake, List.takeWhile_cons_of_pos hc, if_neg (by simp), List.dropWhile_cons_of_pos hc]
    · rw [if_neg hc, List.takeWhile_cons_of_neg hc, if_pos rfl]

lemma run_group_some1_of_isSome (hs : s.takeWhile p ≠ [])
    (hk : (k (s.dropWhile p) (groups ++ [s.takeWhile p])).isSome) :
    (group (some1 p)).run s groups k = k (s.dropWhile p) (groups ++ [s.takeWhile p]) := by
  rw [run_group, some1, run_seq]
  cases s with
  | nil => simp at hs
  | cons c s =>
    rw [run_char_cons]
    by_cases hc : p c
    · have htake := take_dropWhile_length p (c :: s)
      rw [List.dropWhile_cons_of_pos hc] at htake hk ⊢
      rw [← htake] at hk ⊢
      rw [if_pos hc]
      exact run_many_of_isSome hk
    · rw [List.takeWhile_cons_of_neg hc] at hs
      exact absurd rfl hs

def Refuses (r : Regex) (p : Char → Bool) : Prop :=
  ∀ {β : Type} (c : Char) (t : List Char) (groups : List (List Char))
    (k : List Char → List (List Char) → Option β), p c → r.run (c :: t) groups k = none

lemma refuses_char (h : ∀ c, p c → q c = false) : (char q).Refuses p := by
  intro β c t groups k hc
  rw [run_char_cons, if_neg (by simp [h c hc])]

lemma refuses_lit {l : String} {c : Char} {rest : List Char} (hl : l.toList = c :: rest) (hc : p c = false) :
    (lit l).Refuses p := by
  intro β d t groups k hd
  have hne : ¬ l.toList <+: d :: t := by
    rw [hl, List.cons_prefix_cons]
    rintro ⟨rfl, -⟩
    simp [hc] at hd
  rw [run_lit, if_neg hne]

lemma Refuses.cat {r : Regex} (h : r.Refuses p) (rs : List Regex) : (cat (r :: rs)).Refuses p :=
  fun c t groups _ hc => h c t groups _ hc

lemma run_cat_many {r : Regex} (h : r.Refuses p) (rs : List Regex) :
    (cat (many p :: r :: rs)).run s groups k = (cat (r :: rs)).run (s.dropWhile p) groups k := by
  rw [run_cat_cons, run_many fun c t hc => h.cat rs c t _ _ hc]

lemma dropWhile_append_cons {w : List Char} (hw : ∀ c ∈ w, p c) {d : Char} (hd : p d = false) (x : List Char) :
    (w ++ d :: x).dropWhile p = d :: x := by
  rw [List.dropWhile_append_of_pos hw, List.dropWhile_cons_of_neg (by simp [hd])]

lemma takeWhile_append_cons {w : List Char} (hw : ∀ c ∈ w, p c) {d : Char} (hd : p d = false) (x : List Char) :
    (w ++ d :: x).takeWhile p = w := by
  rw [List.takeWhile_append_of_pos hw, List.takeWhile_cons_of_neg (by simp [hd]), List.append_nil]

lemma run_cat_lit (l : String) (rs : List Regex) (x : List Char) :
    (cat (lit l :: rs)).run (l.toList ++ x) groups k = (cat rs).run x groups k := by
  rw [run_cat_cons, run_lit_append]

lemma run_cat_char (rs : List Regex) {c : Char} (hc : p c) (x : List Char) :
    (cat (char p :: rs)).run (c :: x) groups k = (cat rs).run x groups k := by
  rw [run_cat_cons, run_char_cons, if_pos hc]

lemma run_cat_many_lit {l : String} {c : Char} {rest : List Char} (hl : l.toList = c :: rest) (hc : p c = false)
    {w : List Char} (hw : ∀ c ∈ w, p c) (rs : List Regex) (x : List Char) :
    (cat (many p :: lit l :: rs)).run (w ++ (l.toList ++ x)) groups k = (cat rs).run x groups k := by
  rw [run_cat_many (refuses_lit hl hc), hl, List.cons_append, dropWhile_append_cons hw hc,
    ← List.cons_append, ← hl, run_cat_lit]

lemma run_cat_group {r : Regex} (h : r.Refuses p) {w : List Char} (hne : w ≠ []) (hw : ∀ c ∈ w, p c) {d : Char}
    (hd : p d = false) (rs : List Regex) (x : List Char) :
    (cat (group (some1 p) :: r :: rs)).run (w ++ d :: x) groups k = (cat (r :: rs)).run (d :: x)
      (groups ++ [w]) k := by
  rw [run_cat_cons, run_group_some1 fun c t groups hc => h.cat rs c t _ _ hc,
    takeWhile_append_cons hw hd, if_neg hne, dropWhile_append_cons hw hd]

lemma run_cat_some1_lit {l : String} {c : Char} {rest : List Char} (hl : l.toList = c :: rest) (hc : p c = false)
    {w : List Char} (hne : w ≠ []) (hw : ∀ c ∈ w, p c) (rs : List Regex) (x : List Char) :
    (cat (some1 p :: lit l :: rs)).run (w ++ (l.toList ++ x)) groups k = (cat rs).run x groups k := by
  obtain ⟨d, w, rfl⟩ := List.exists_cons_of_ne_nil hne
  rw [List.forall_mem_cons] at hw
  rw [run_cat_cons, some1, run_seq, List.cons_append, run_char_cons, if_pos hw.1]
  exact run_cat_many_lit hl hc hw.2 rs x

end Run

section Scan

variable {r : Regex} {s u v rest : List Char} {groups : List (List Char)}

lemma scan_eq_drop (r : Regex) (n : ℕ) (s : List Char) : r.scan n s = r.scan 0 (s.drop n) := by
  induction n generalizing s with
  | zero => rfl
  | succ n ih =>
    cases s with
    | nil => rfl
    | cons c s => exact ih s

lemma scan_of_match (hu : u ≠ []) (h : r.matchAt (u ++ rest) = some (rest, groups)) :
    r.scan 0 (u ++ rest) = groups :: r.scan 0 rest := by
  obtain ⟨c, u, rfl⟩ := List.exists_cons_of_ne_nil hu
  rw [List.cons_append] at h ⊢
  rw [scan, h]
  dsimp only
  rw [scan_eq_drop, List.length_append, Nat.add_sub_cancel, List.drop_left]

lemma scan_pass (h : ∀ w, w <:+ u → w ≠ [] → r.matchAt (w ++ v) = none) : r.scan 0 (u ++ v) = r.scan 0 v := by
  induction u with
  | nil => rfl
  | cons c u ih =>
    have hc := h (c :: u) List.suffix_rfl (by simp)
    rw [List.cons_append] at hc ⊢
    rw [scan, hc]
    exact ih fun w hw hne => h w (hw.trans (List.suffix_cons c u)) hne

lemma scan_cons_of_none {c : Char} (h : r.matchAt (c :: s) = none) : r.scan 0 (c :: s) = r.scan 0 s := by
  rw [scan, h]

lemma scan_pass_of_refuses {p : Char → Bool} (h : r.Refuses p) (hu : ∀ c ∈ u, p c) :
    r.scan 0 (u ++ v) = r.scan 0 v := by
  refine scan_pass fun w hw hne => ?_
  obtain ⟨c, w, rfl⟩ := List.exists_cons_of_ne_nil hne
  exact h c _ _ _ (hu c (hw.subset List.mem_cons_self))

end Scan

end Regex

end RepoGraph.Lib
