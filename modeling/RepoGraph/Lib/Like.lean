import RepoGraph.Lib.Text

/-! Matching by a pattern with wildcards, as a database does it: a percent sign stands for any text, an underscore
for any character, and letters of the ASCII range match in either case. -/

namespace RepoGraph.Lib.Like

inductive Step
  | any
  | one
  | literal (c : Char)
  deriving DecidableEq, Repr

def stepOf (c : Char) : Step := if c = '%' then .any else if c = '_' then .one else .literal c

/-- The steps of a pattern; none for a pattern that ends within an escape. -/
def parse (escape : Option Char) : List Char → Option (List Step)
  | [] => some []
  | [c] => if escape = some c then none else some [stepOf c]
  | c :: d :: rest =>
    if escape = some c then (parse escape rest).map (.literal d :: ·)
    else (parse escape (d :: rest)).map (stepOf c :: ·)

/-- The lower case of an ASCII letter; every other character as it is. -/
def fold (c : Char) : Char := c.toLower

def run : List Step → List Char → Bool
  | [], s => s.isEmpty
  | .any :: steps, s => s.tails.any fun t => run steps t
  | .one :: _, [] => false
  | .one :: steps, _ :: s => run steps s
  | .literal _ :: _, [] => false
  | .literal c :: steps, d :: s => fold c = fold d && run steps s

def like (escape : Option Char) (pattern text : List Char) : Bool :=
  match parse escape pattern with
  | some steps => run steps text
  | none => false

def replaceChar (c : Char) (by_ : List Char) (s : List Char) : List Char :=
  s.flatMap fun d => if d = c then by_ else [d]

def escaped (escape : Char) (s : List Char) : List Char :=
  s.flatMap fun c => if c = escape ∨ c = '%' ∨ c = '_' then [escape, c] else [c]

section Run

lemma run_append (steps more : List Step) (s : List Char) :
    run (steps ++ more) s ↔ ∃ q r, s = q ++ r ∧ run steps q ∧ run more r := by
  induction steps generalizing s with
  | nil =>
    constructor
    · intro h
      exact ⟨[], s, rfl, rfl, h⟩
    · rintro ⟨q, r, rfl, hq, hr⟩
      obtain rfl : q = [] := by simpa [run] using hq
      exact hr
  | cons step steps ih =>
    cases step with
    | any =>
      simp only [List.cons_append, run, List.any_eq_true, List.mem_tails]
      constructor
      · rintro ⟨t, ⟨lead, rfl⟩, ht⟩
        obtain ⟨q, r, rfl, hq, hr⟩ := (ih t).mp ht
        exact ⟨lead ++ q, r, by simp, ⟨q, List.suffix_append lead q, hq⟩, hr⟩
      · rintro ⟨q, r, rfl, ⟨t, ⟨lead, rfl⟩, ht⟩, hr⟩
        exact ⟨t ++ r, ⟨lead, by simp⟩, (ih _).mpr ⟨t, r, rfl, ht, hr⟩⟩
    | one =>
      cases s with
      | nil =>
        simp only [List.cons_append, run, Bool.false_eq_true, false_iff]
        rintro ⟨q, r, hqr, hq, -⟩
        obtain ⟨rfl, -⟩ := List.append_eq_nil_iff.mp hqr.symm
        simp [run] at hq
      | cons d s =>
        simp only [List.cons_append, run]
        rw [ih]
        constructor
        · rintro ⟨q, r, rfl, hq, hr⟩
          exact ⟨d :: q, r, rfl, hq, hr⟩
        · rintro ⟨q, r, hqr, hq, hr⟩
          cases q with
          | nil => simp [run] at hq
          | cons d' q =>
            obtain ⟨rfl, rfl⟩ := List.cons.inj hqr
            exact ⟨q, r, rfl, hq, hr⟩
    | literal c =>
      cases s with
      | nil =>
        simp only [List.cons_append, run, Bool.false_eq_true, false_iff]
        rintro ⟨q, r, hqr, hq, -⟩
        obtain ⟨rfl, -⟩ := List.append_eq_nil_iff.mp hqr.symm
        simp [run] at hq
      | cons d s =>
        simp only [List.cons_append, run, Bool.and_eq_true, decide_eq_true_eq]
        rw [ih]
        constructor
        · rintro ⟨hcd, q, r, rfl, hq, hr⟩
          refine ⟨d :: q, r, rfl, ?_, hr⟩
          rw [run, Bool.and_eq_true, decide_eq_true_eq]
          exact ⟨hcd, hq⟩
        · rintro ⟨q, r, hqr, hq, hr⟩
          cases q with
          | nil => simp [run] at hq
          | cons d' q =>
            obtain ⟨rfl, rfl⟩ := List.cons.inj hqr
            rw [run, Bool.and_eq_true, decide_eq_true_eq] at hq
            exact ⟨hq.1, q, r, rfl, hq.2, hr⟩

lemma run_any (s : List Char) : run [.any] s := by
  simp only [run, List.any_eq_true, List.mem_tails]
  exact ⟨[], List.nil_suffix, rfl⟩

lemma run_any_any (s : List Char) : run [.any, .any] s := by
  rw [run, List.any_eq_true]
  exact ⟨s, (List.mem_tails _ _).mpr (List.suffix_refl s), run_any s⟩

lemma run_literals (l s : List Char) : run (l.map .literal) s ↔ s.map fold = l.map fold := by
  induction l generalizing s with
  | nil => simp [run]
  | cons c l ih =>
    cases s with
    | nil => simp [run]
    | cons d s =>
      simp only [List.map_cons, run, Bool.and_eq_true, decide_eq_true_eq, ih, List.cons.injEq]
      exact and_congr_left fun _ => eq_comm

lemma run_self (s : List Char) : run (s.map stepOf) s := by
  induction s with
  | nil => rfl
  | cons c s ih =>
    rw [List.map_cons, stepOf]
    split
    · rw [run, List.any_eq_true]
      exact ⟨s, (List.mem_tails _ _).mpr (List.suffix_cons c s), ih⟩
    · split
      · exact ih
      · simp only [run, decide_true, Bool.true_and]
        exact ih

end Run

section Fold

lemma fold_eq {c d : Char} (hd : d.val.toNat < 65) : fold c = d ↔ c = d := by
  have hA : 'A'.val.toNat = 65 := rfl
  have hZ : 'Z'.val.toNat = 90 := rfl
  constructor
  · intro h
    unfold fold Char.toLower at h
    split at h
    · rename_i hupper
      have hval := congrArg (fun c : Char => c.val.toNat) h
      have hshift : ('a'.val - 'A'.val).toNat = 32 := rfl
      simp only [UInt32.toNat_add, UInt32.le_iff_toNat_le, ge_iff_le] at hval hupper
      omega
    · exact h
  · rintro rfl
    unfold fold Char.toLower
    split
    · rename_i hupper
      simp only [UInt32.le_iff_toNat_le, ge_iff_le] at hupper
      omega
    · rfl

lemma map_fold_eq {l d : List Char} (hd : ∀ c ∈ d, c.val.toNat < 65) : l.map fold = d.map fold ↔ l = d := by
  induction d generalizing l with
  | nil => simp
  | cons c d ih =>
    obtain ⟨hc, hd⟩ := List.forall_mem_cons.mp hd
    cases l with
    | nil => simp
    | cons x l =>
      rw [List.map_cons, List.map_cons, List.cons.injEq, List.cons.injEq, (fold_eq hc).mpr rfl, fold_eq hc, ih hd]

end Fold

section Patterns

lemma parse_none (l : List Char) : parse none l = some (l.map stepOf) := by
  induction l with
  | nil => rfl
  | cons c l ih =>
    cases l with
    | nil => simp [parse]
    | cons d rest => simp [parse, ih]

lemma parse_cons {escape c : Char} (h : c ≠ escape) (l : List Char) :
    parse (some escape) (c :: l) = (parse (some escape) l).map (stepOf c :: ·) := by
  cases l with
  | nil => simp [parse, h.symm]
  | cons d rest => simp [parse, h.symm]

lemma parse_escaped (escape : Char) (l rest : List Char) :
    parse (some escape) (escaped escape l ++ rest) = (parse (some escape) rest).map (l.map .literal ++ ·) := by
  induction l with
  | nil => simp [escaped]
  | cons c l ih =>
    have hsplit : escaped escape (c :: l) =
        (if c = escape ∨ c = '%' ∨ c = '_' then [escape, c] else [c]) ++ escaped escape l := rfl
    rw [hsplit]
    split
    · simp only [List.cons_append, List.nil_append, parse, if_true, ih, Option.map_map]
      rfl
    · rename_i hplain
      have hstep : stepOf c = .literal c := by
        rw [stepOf, if_neg fun h => hplain (.inr (.inl h)), if_neg fun h => hplain (.inr (.inr h))]
      rw [List.singleton_append, List.cons_append, parse_cons fun h => hplain (.inl h), ih, Option.map_map, hstep]
      rfl

lemma replaceChar_eq_escaped (s : List Char) :
    replaceChar '_' ['\\', '_']
      (replaceChar '%' ['\\', '%'] (replaceChar '\\' ['\\', '\\'] s)) = escaped '\\' s := by
  induction s with
  | nil => rfl
  | cons c s ih =>
    have hcons : ∀ (d : Char) (by_ l : List Char) (x : Char),
        replaceChar d by_ (x :: l) = (if x = d then by_ else [x]) ++ replaceChar d by_ l := fun _ _ _ _ => rfl
    have hescaped : escaped '\\' (c :: s) =
        (if c = '\\' ∨ c = '%' ∨ c = '_' then ['\\', c] else [c]) ++ escaped '\\' s := rfl
    rw [hescaped, hcons]
    by_cases hback : c = '\\'
    · subst hback
      simp [hcons, ih]
    · by_cases hany : c = '%'
      · subst hany
        simp [hcons, ih]
      · by_cases hone : c = '_'
        · subst hone
          simp [hcons, ih]
        · simp [hcons, ih, hback, hany, hone]

lemma run_beneath (steps : List Step) {more : List Step} (hmore : ∀ s, run more s) (s : List Char) :
    run (steps ++ .literal '/' :: more) s ↔ ∃ q r, s = q ++ '/' :: r ∧ run steps q := by
  rw [run_append]
  constructor
  · rintro ⟨q, r, rfl, hq, hr⟩
    cases r with
    | nil => simp [run] at hr
    | cons c r =>
      rw [run, Bool.and_eq_true, decide_eq_true_eq] at hr
      obtain rfl := (fold_eq (by decide)).mp hr.1.symm
      exact ⟨q, r, rfl, hq⟩
  · rintro ⟨q, r, rfl, hq⟩
    exact ⟨q, '/' :: r, rfl, hq, by simp [run, hmore]⟩

lemma like_beneath (d s : List Char) :
    like none (d ++ ['/', '%']) s ↔ ∃ q r, s = q ++ '/' :: r ∧ run (d.map stepOf) q := by
  rw [like, parse_none, List.map_append]
  exact run_beneath _ run_any s

lemma like_beneath_twice (d s : List Char) :
    like none (d ++ ['/', '%', '%']) s ↔ ∃ q r, s = q ++ '/' :: r ∧ run (d.map stepOf) q := by
  rw [like, parse_none, List.map_append]
  exact run_beneath _ run_any_any s

lemma like_escaped_beneath (d s : List Char) :
    like (some '\\') (escaped '\\' d ++ ['/', '%']) s ↔ ∃ q r, s = q ++ '/' :: r ∧ q.map fold = d.map fold := by
  have hparse : parse (some '\\') (escaped '\\' d ++ ['/', '%']) = some (d.map .literal ++ [.literal '/', .any]) :=
    parse_escaped '\\' d ['/', '%']
  rw [like, hparse]
  simp only [← run_literals]
  exact run_beneath _ run_any s

lemma map_stepOf {d : List Char} (hplain : ∀ c ∈ d, c ≠ '%' ∧ c ≠ '_') : d.map stepOf = d.map .literal := by
  apply List.map_congr_left
  intro c hc
  rw [stepOf, if_neg (hplain c hc).1, if_neg (hplain c hc).2]

lemma like_ends (d s : List Char) (hplain : ∀ c ∈ d, c ≠ '%' ∧ c ≠ '_') :
    like none ('%' :: d) s ↔ ∃ q r, s = q ++ r ∧ r.map fold = d.map fold := by
  have hsteps : ('%' :: d).map stepOf = [.any] ++ d.map .literal := by
    rw [List.map_cons, List.singleton_append, map_stepOf hplain]
    rfl
  rw [like, parse_none, hsteps]
  simp only [run_append, run_literals, run_any, true_and]

end Patterns

end RepoGraph.Lib.Like
