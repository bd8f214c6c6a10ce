import RepoGraph.Indexer.SettingsStatements

/-! What the searches for names and directories find in a settings file: the assignments that it makes, and
nothing in its other statements. -/

namespace RepoGraph.Indexer

open Lib Lib.Text

section Search

open Regex

variable {rest : List Regex} {u v x y z : List Char}

lemma QuoteMark.isQuote_char (m : QuoteMark) : isQuote m.char := by
  cases m with
  | single => rfl
  | double => rfl

lemma ne_bracket_of_isQuote {c : Char} (h : isQuote c) : c ≠ '(' := by
  rintro rfl
  exact absurd h (by decide)

lemma isWhitespace_eq_false_of_isQuote {c : Char} (h : isQuote c) : isWhitespace c = false := by
  rw [isQuote, Bool.or_eq_true, decide_eq_true_eq, decide_eq_true_eq] at h
  rcases h with rfl | rfl
  · decide
  · decide

lemma ne_of_isWhitespace {c d : Char} (h : isWhitespace c) (hd : isWhitespace d = false) : c ≠ d := by
  rintro rfl
  simp [hd] at h

def Anchored (s : List Char) : Prop :=
  ∃ w x, s = "project".toList ++ (w ++ '(' :: x) ∧ ∀ c ∈ w, isWhitespace c

lemma anchored_of_matchAt {s : List Char} (h : (projectCall rest).matchAt s ≠ none) : Anchored s := by
  rw [matchAt, projectCall, run_cat_cons, run_lit] at h
  split at h
  · rename_i hproject
    obtain ⟨t, rfl⟩ := hproject
    rw [List.drop_left, blanks, run_cat_many (refuses_lit rfl (by decide)), run_cat_cons, run_lit] at h
    split at h
    · rename_i hbracket
      obtain ⟨x, hx⟩ := hbracket
      refine ⟨t.takeWhile isWhitespace, x, ?_, fun c hc => List.mem_takeWhile_imp hc⟩
      change '(' :: x = _ at hx
      rw [hx, List.takeWhile_append_dropWhile]
    · exact absurd rfl h
  · exact absurd rfl h

lemma not_anchored {b : Char} (hy : '(' ∉ y) (hb : isQuote b) : ¬ Anchored (y ++ b :: v) := by
  rintro ⟨w, x, h, hw⟩
  have hmem : b ∉ "project".toList ++ w := by
    rw [List.mem_append, not_or]
    refine ⟨?_, fun hbw => ?_⟩
    · rintro hproject
      have hnone : ∀ c ∈ "project".toList, isQuote c = false := by simp [isQuote]
      simp [hnone b hproject] at hb
    · have hwhite := hw b hbw
      simp [isWhitespace_eq_false_of_isQuote hb] at hwhite
  rw [← List.append_assoc] at h
  rcases List.append_eq_append_iff.mp h with ⟨m, hm, hm'⟩ | ⟨m, hm, hm'⟩
  · cases m with
    | nil => exact ne_bracket_of_isQuote hb (List.cons.inj hm').1
    | cons c m =>
      obtain ⟨rfl, -⟩ := List.cons.inj hm'
      exact hmem (by rw [hm]; simp)
  · cases m with
    | nil => exact ne_bracket_of_isQuote hb (List.cons.inj hm').1.symm
    | cons c m =>
      obtain ⟨rfl, -⟩ := List.cons.inj hm'
      exact hy (by rw [hm]; simp)

lemma scan_pass_quote (hy : '(' ∉ y) {b : Char} (hb : isQuote b) :
    (projectCall rest).scan 0 (y ++ b :: v) = (projectCall rest).scan 0 v := by
  have hpass := scan_pass (r := projectCall rest) (u := y ++ [b]) (v := v) fun w hw hne => by
    by_contra h
    obtain ⟨y', hy'⟩ : ∃ y', w = y' ++ [b] ∧ y' <:+ y := by
      rw [List.suffix_concat_iff] at hw
      rcases hw with rfl | ⟨t, rfl, ht⟩
      · exact absurd rfl hne
      · exact ⟨t, rfl, ht⟩
    obtain ⟨rfl, hsuffix⟩ := hy'
    have hanchored := anchored_of_matchAt h
    rw [List.append_assoc] at hanchored
    exact not_anchored (fun hmem => hy (hsuffix.subset hmem)) hb hanchored
  simpa using hpass

lemma scan_pass_plain (hu : 'p' ∉ u) : (projectCall rest).scan 0 (u ++ v) = (projectCall rest).scan 0 v := by
  have hproject : (lit "project").Refuses (fun c => c ≠ 'p') := refuses_lit (c := 'p') rfl (by decide)
  refine scan_pass_of_refuses (hproject.cat _) fun c hc => ?_
  rw [decide_eq_true_eq]
  rintro rfl
  exact hu hc

end Search

section Assignments

open Regex

variable {α : Type} {rs : List Regex} {groups : List (List Char)} {k : List Char → List (List Char) → Option α}
  {v x : List Char}

lemma Literal.toList_ne_nil (l : Literal) : l.text.toList ≠ [] := by
  simpa using l.quotable.1

lemma Literal.not_isQuote (l : Literal) : ∀ c ∈ l.text.toList, !isQuote c := by
  intro c hc
  simp [(l.quotable.2 c hc).1]

lemma refuses_quote : quote.Refuses fun c => !isQuote c := refuses_char fun c hc => by simpa using hc

lemma refuses_quote_blank : quote.Refuses isWhitespace := by
  refine refuses_char fun c hc => ?_
  by_contra hquote
  simp [isWhitespace_eq_false_of_isQuote (by simpa using hquote)] at hc

lemma run_literal (l : Literal) (rs : List Regex) (x : List Char) :
    (cat (quote :: quotedText :: quote :: rs)).run (l.chars ++ x) groups k =
      (cat rs).run x (groups ++ [l.text.toList]) k := by
  have hmark := l.mark.isQuote_char
  rw [Literal.chars, List.cons_append, quote, run_cat_char _ hmark, List.append_assoc,
    List.singleton_append, quotedText,
    ← quote, run_cat_group refuses_quote l.toList_ne_nil l.not_isQuote (by simp [hmark]),
      quote, run_cat_char _ hmark]

lemma run_blanks_literal (w : Blank) (l : Literal) (rs : List Regex) (x : List Char) :
    (cat (blanks :: quote :: quotedText :: quote :: rs)).run (w.val ++ (l.chars ++ x)) groups k =
      (cat rs).run x (groups ++ [l.text.toList]) k := by
  have hblank := isWhitespace_eq_false_of_isQuote l.mark.isQuote_char
  rw [blanks, run_cat_many refuses_quote_blank, ← run_literal, Literal.chars, List.cons_append,
    dropWhile_append_cons w.property hblank]

lemma run_blanks_lit (w : Blank) {l : String} {c : Char} {rest : List Char} (hl : l.toList = c :: rest)
    (hc : isWhitespace c = false) (rs : List Regex) (x : List Char) :
    (cat (blanks :: lit l :: rs)).run (w.val ++ (l.toList ++ x)) groups k = (cat rs).run x groups k :=
  run_cat_many_lit hl hc w.property rs x

lemma assignChars_append (w : AssignLayout) (r : Reference) (property : String) (value v : List Char) :
    assignChars w r property value ++ v = assignChars w r property (value ++ v) := by
  unfold assignChars
  simp only [List.append_assoc]

lemma assignChars_ne_nil (w : AssignLayout) (r : Reference) (property : String) (value : List Char) :
    assignChars w r property value ≠ [] := by
  unfold assignChars
  simp

lemma run_projectCall (w : AssignLayout) (r : Reference) {l property : String}
    {c d : Char} {rest rest' : List Char}
    (hl : l.toList = c :: rest) (hc : isWhitespace c = false) (hproperty : property.toList = d :: rest')
    (hd : isWhitespace d = false) (rs : List Regex) (value : List Char) :
    (projectCall (lit l :: rs)).run (assignChars w r property value) [] k =
      (cat (lit l :: rs)).run (property.toList ++
        (w.beforeEquals.val ++ ("=".toList ++ (w.afterEquals.val ++ value))))
        [r.written.toList] k := by
  have hopen : "(".toList = ['('] := rfl
  have hclose : ")".toList = [')'] := rfl
  have hdot : ".".toList = ['.'] := rfl
  unfold assignChars
  rw [projectCall, run_cat_lit, run_blanks_lit _ hopen (by decide), run_blanks_literal,
    run_blanks_lit _ hclose (by decide), run_blanks_lit _ hdot (by decide), blanks,
      run_cat_many (refuses_lit hl hc),
    hproperty, List.cons_append, dropWhile_append_cons w.afterDot.property hd]
  rfl

lemma matchAt_renameRe (w : AssignLayout) (r : Reference) (name : Literal) (v : List Char) :
    renameRe.matchAt (assignChars w r "name" (name.chars ++ v)) =
      some (v, [r.written.toList, name.text.toList]) := by
  have hname : "name".toList = ['n', 'a', 'm', 'e'] := rfl
  have hequals : "=".toList = ['='] := rfl
  rw [matchAt, renameRe, run_projectCall w r hname (by decide) hname (by decide), run_cat_lit,
    run_blanks_lit _ hequals (by decide), run_blanks_literal]
  rfl

lemma matchAt_assignRe (w : AssignLayout) (r : Reference) {d : Char} {value : List Char}
    (hd : isWhitespace d = false) (hvalue : ∀ c ∈ d :: value, c ≠ '\n') (hv : ∀ c ∈ v.head?, c = '\n') :
    assignRe.matchAt (assignChars w r "projectDir" (d :: value ++ v)) =
      some (v, [r.written.toList, d :: value]) := by
  have htake : (d :: value ++ v).takeWhile (fun c => decide (c ≠ '\n')) = d :: value ∧
      (d :: value ++ v).dropWhile (fun c => decide (c ≠ '\n')) = v := by
    cases v with
    | nil =>
      rw [List.append_nil, List.takeWhile_eq_self_iff, List.dropWhile_eq_nil_iff]
      exact ⟨fun c hc => by simpa using hvalue c hc, fun c hc => by simpa using hvalue c hc⟩
    | cons e v =>
      obtain rfl : e = '\n' := hv e (by simp)
      have hall : ∀ c ∈ d :: value, decide (c ≠ '\n') := fun c hc => by simpa using hvalue c hc
      exact ⟨takeWhile_append_cons hall (by simp) v, dropWhile_append_cons hall (by simp) v⟩
  have hdrop : (w.afterEquals.val ++ (d :: value ++ v)).dropWhile isWhitespace = d :: value ++ v := by
    rw [List.cons_append, dropWhile_append_cons w.afterEquals.property hd]
  have hgroup : (group (some1 fun c => decide (c ≠ '\n'))).run (d :: value ++ v) [r.written.toList]
      (fun rest groups => some (rest, groups)) = some (v, [r.written.toList, d :: value]) := by
    rw [run_group_some1_of_isSome (by rw [htake.1]; simp) rfl, htake.1, htake.2]
    rfl
  have hdir : "projectDir".toList = 'p' :: "rojectDir".toList := rfl
  have hequals : "=".toList = ['='] := rfl
  rw [matchAt, assignRe, run_projectCall w r hdir (by decide) hdir (by decide), run_cat_lit,
    run_blanks_lit _ hequals (by decide), blanks, run_cat_cons]
  refine (run_many_of_isSome ?_).trans ?_
  · rw [hdrop]
    exact Option.isSome_of_eq_some hgroup
  · rw [hdrop]
    exact hgroup

end Assignments

section Scans

open Regex

variable {rest rs : List Regex} {v y z : List Char}

lemma not_mem_blank (w : Blank) {c : Char} (hc : isWhitespace c = false) : c ∉ w.val :=
  fun h => ne_of_isWhitespace (w.property c h) hc rfl

lemma not_mem_gap (w : Gap) {c : Char} (hc : isWhitespace c = false) : c ∉ w.val :=
  fun h => ne_of_isWhitespace (w.property c h).1 hc rfl

lemma bracket_notMem_literal (l : Literal) : '(' ∉ l.chars := by
  have hmark := (ne_bracket_of_isQuote l.mark.isQuote_char).symm
  rw [Literal.chars, List.mem_cons, List.mem_append, List.mem_singleton, not_or, not_or]
  exact ⟨hmark, fun h => (l.quotable.2 _ h).2.2 rfl, hmark⟩

lemma arguments_end (first : Literal) (more : List (Gap × Blank × Literal)) :
    ∃ y b, first.chars ++ more.flatMap (fun a => a.1.val ++ (',' :: (a.2.1.val ++ a.2.2.chars))) = y ++ [b] ∧
      '(' ∉ y ∧ isQuote b := by
  have hliteral : ∀ l : Literal, ∃ y b, l.chars = y ++ [b] ∧ '(' ∉ y ∧ isQuote b := by
    intro l
    refine ⟨l.mark.char :: l.text.toList, l.mark.char, rfl, fun h => ?_, l.mark.isQuote_char⟩
    exact bracket_notMem_literal l (by rw [Literal.chars, ← List.cons_append]; exact List.mem_append_left _ h)
  have hbracket : isWhitespace '(' = false := by decide
  induction more using List.reverseRecOn with
  | nil =>
    rw [List.flatMap_nil, List.append_nil]
    exact hliteral first
  | append_singleton more a ih =>
    obtain ⟨y, b, hy, hny, hb⟩ := ih
    obtain ⟨y', b', hy', hny', hb'⟩ := hliteral a.2.2
    refine ⟨y ++ [b] ++ (a.1.val ++ (',' :: (a.2.1.val ++ y'))), b', ?_, ?_, hb'⟩
    · rw [List.flatMap_append, ← List.append_assoc, hy, List.flatMap_singleton, hy']
      simp only [List.append_assoc, List.cons_append]
    · simp [hny, hny', (ne_bracket_of_isQuote hb).symm, not_mem_gap a.1 hbracket, not_mem_blank a.2.1 hbracket]

lemma scan_arguments (layout : CallLayout) (first : Literal) (more : List (Gap × Blank × Literal))
    (v : List Char) :
    (projectCall rest).scan 0 (argumentChars layout first more ++ v) = (projectCall rest).scan 0 v := by
  have hp : isWhitespace 'p' = false := by decide
  have hbefore : 'p' ∉ layout.before := by
    rw [CallLayout.before, List.mem_append, not_or]
    refine ⟨not_mem_gap layout.gap hp, ?_⟩
    cases layout.brackets with
    | none => simp
    | some b => simp [not_mem_blank b.1 hp]
  have hafter : 'p' ∉ layout.after := by
    rw [CallLayout.after]
    cases layout.brackets with
    | none => simp
    | some b => simp [not_mem_blank b.2 hp]
  obtain ⟨y, b, hy, hny, hb⟩ := arguments_end first more
  rw [argumentChars, ← List.append_assoc first.chars, hy, List.append_assoc,
    scan_pass_plain hbefore, List.append_assoc,
    List.append_assoc, List.singleton_append, scan_pass_quote hny hb, scan_pass_plain hafter]

lemma scan_assign_other (w : AssignLayout) (r : Reference) {l property : String}
    {c d : Char} {front back : List Char}
    (hl : l.toList = c :: front) (hc : isWhitespace c = false) (hproperty : property.toList = d :: back)
    (hd : isWhitespace d = false) (hcd : c ≠ d) (hbracket : '(' ∉ property.toList) (hy : '(' ∉ y) {b : Char}
    (hb : isQuote b) (hz : 'p' ∉ z) (v : List Char) :
    (projectCall (lit l :: rs)).scan 0 (assignChars w r property (y ++ b :: z) ++ v) =
      (projectCall (lit l :: rs)).scan 0 v := by
  have hnone : (projectCall (lit l :: rs)).matchAt (assignChars w r property (y ++ b :: z) ++ v) = none := by
    rw [assignChars_append, matchAt, run_projectCall w r hl hc hproperty hd, run_cat_cons, run_lit, if_neg]
    rw [hl, hproperty, List.cons_append, List.cons_prefix_cons]
    exact fun h => hcd h.1
  have hp : isWhitespace 'p' = false := by decide
  have hwhite : isWhitespace '(' = false := by decide
  have hstart : 'p' ∉ "roject".toList ++ (w.beforeBracket.val ++ ['(']) := by
    have hword : 'p' ∉ "roject".toList := by decide
    simp only [List.mem_append, not_or]
    exact ⟨hword, not_mem_blank _ hp, by decide⟩
  have hmiddle : '(' ∉ w.inside.val ++
      (r.literal.chars ++ (w.closing.val ++ (")".toList ++ (w.beforeDot.val ++ (".".toList ++
      (w.afterDot.val ++ (property.toList ++
        (w.beforeEquals.val ++ ("=".toList ++ (w.afterEquals.val ++ y)))))))))) := by
    simp only [List.mem_append, not_or]
    exact ⟨not_mem_blank _ hwhite, bracket_notMem_literal _, not_mem_blank _ hwhite,
      by decide, not_mem_blank _ hwhite,
      by decide, not_mem_blank _ hwhite, hbracket, not_mem_blank _ hwhite, by decide, not_mem_blank _ hwhite, hy⟩
  have hsplit : assignChars w r property (y ++ b :: z) ++ v =
      'p' :: (("roject".toList ++ (w.beforeBracket.val ++ ['('])) ++ ((w.inside.val ++ (r.literal.chars ++
        (w.closing.val ++ (")".toList ++ (w.beforeDot.val ++ (".".toList ++ (w.afterDot.val ++ (property.toList ++
          (w.beforeEquals.val ++ ("=".toList ++ (w.afterEquals.val ++ y))))))))))) ++ b :: (z ++ v))) := by
    have hproject : "project".toList = 'p' :: "roject".toList := rfl
    have hopen : "(".toList = ['('] := rfl
    unfold assignChars
    rw [hproject, hopen]
    simp only [List.append_assoc, List.cons_append, List.nil_append]
  rw [hsplit] at hnone ⊢
  rw [scan_cons_of_none hnone, scan_pass_plain hstart, scan_pass_quote hmiddle hb, scan_pass_plain hz]

end Scans

section Found

open Regex

variable {v : List Char}

lemma Reference.trimStart_written (r : Reference) : trimStart r.written ":" = r.project.val := by
  rw [written]
  split
  · exact trimStart_once (by decide) r.project.property.2
  · exact trimStart_of_not_startsWith r.project.property.2

def Command.renameGroups : Command → List (List (List Char))
  | .rename _ r name => [[r.written.toList, name.text.toList]]
  | .includes .. | .includeBuild .. | .relocate .. => []

def Statement.assignGroups (st : Statement) : List (List (List Char)) :=
  match st.command with
  | .relocate _ r dir asFile =>
    [[r.written.toList, directoryChars dir asFile ++ st.trailing.val.takeWhile (· ≠ '\n')]]
  | .includes .. | .includeBuild .. | .rename .. => []

lemma plain_asFileChars (asFile : Option (Space × Space)) : 'p' ∉ asFileChars asFile := by
  cases asFile with
  | none => simp [asFileChars]
  | some spaces =>
    have hp : isWhitespace 'p' = false := by decide
    have has : 'p' ∉ "as".toList := by decide
    have hfile : 'p' ∉ "File".toList := by decide
    have hspace : ∀ w : Space, 'p' ∉ w.val := fun w h => ne_of_isWhitespace (w.property.2 _ h).1 hp rfl
    unfold asFileChars
    simp only [List.mem_append, not_or]
    exact ⟨hspace _, has, hspace _, hfile⟩

lemma directoryChars_split (dir : Literal) (asFile : Option (Space × Space)) :
    ∃ y, directoryChars dir asFile = y ++ dir.mark.char :: asFileChars asFile ∧ '(' ∉ y := by
  have hroot : '(' ∉ "$rootDir/".toList := by decide
  have hmark := (ne_bracket_of_isQuote dir.mark.isQuote_char).symm
  refine ⟨dir.mark.char :: ("$rootDir/".toList ++ dir.text.toList), ?_, ?_⟩
  · unfold directoryChars
    rw [List.cons_append, List.append_assoc]
  · rw [List.mem_cons, List.mem_append, not_or, not_or]
    exact ⟨hmark, hroot, fun h => (dir.quotable.2 _ h).2.2 rfl⟩

lemma directoryChars_head (dir : Literal) (asFile : Option (Space × Space)) :
    ∃ value, directoryChars dir asFile = dir.mark.char :: value ∧ ∀ c ∈ dir.mark.char :: value, c ≠ '\n' := by
  have hmark : dir.mark.char ≠ '\n' := by
    cases dir.mark with
    | single => decide
    | double => decide
  have hroot : ∀ c ∈ "$rootDir/".toList, c ≠ '\n' := by simp
  have has : ∀ c ∈ "as".toList, c ≠ '\n' := by simp
  have hfile : ∀ c ∈ "File".toList, c ≠ '\n' := by simp
  refine ⟨_, rfl, ?_⟩
  rw [List.forall_mem_cons, List.forall_mem_append, List.forall_mem_append, List.forall_mem_cons]
  refine ⟨hmark, hroot, fun c hc => (dir.quotable.2 c hc).2.1, hmark, ?_⟩
  cases asFile with
  | none => simp [asFileChars]
  | some spaces =>
    unfold asFileChars
    rw [List.forall_mem_append, List.forall_mem_append, List.forall_mem_append]
    exact ⟨fun c hc => (spaces.1.property.2 c hc).2, has, fun c hc => (spaces.2.property.2 c hc).2, hfile⟩

lemma matchAt_handledRhsRe (dir : Literal) (asFile : Option (Space × Space)) :
    handledRhsRe.matchAt (directoryChars dir asFile) = some ([], [dir.text.toList]) := by
  have has : "as".toList = ['a', 's'] := rfl
  have hfile : "File".toList = ['F', 'i', 'l', 'e'] := rfl
  have hmark := dir.mark.isQuote_char
  unfold directoryChars
  rw [matchAt, handledRhsRe, quote, run_cat_char _ hmark, run_cat_lit, quotedText, ← quote,
    run_cat_group refuses_quote dir.toList_ne_nil dir.not_isQuote (by simp [hmark]), quote, run_cat_char _ hmark,
    run_cat_cons, run_optional]
  cases asFile with
  | none => rfl
  | some spaces =>
    obtain ⟨space, space'⟩ := spaces
    have hspace : ∀ w : Space, ∀ c ∈ w.val, isWhitespace c := fun w c hc => (w.property.2 c hc).1
    have hchars : asFileChars (some (space, space')) =
        space.val ++ ("as".toList ++ (space'.val ++ ("File".toList ++ []))) := by
      rw [List.append_nil]
      rfl
    rw [hchars, run_cat_some1_lit has (by decide) space.property.1 (hspace _),
      run_cat_some1_lit hfile (by decide) space'.property.1 (hspace _)]
    rfl

lemma trim_directoryChars (dir : Literal) (asFile : Option (Space × Space)) {w : List Char}
    (hw : ∀ c ∈ w, isWhitespace c) :
    trim (.ofList (directoryChars dir asFile ++ w)) = .ofList (directoryChars dir asFile) := by
  have hsolid : IsSolid isWhitespace (.ofList (directoryChars dir asFile)) := by
    obtain ⟨value, hvalue, -⟩ := directoryChars_head dir asFile
    have hmark := isWhitespace_eq_false_of_isQuote dir.mark.isQuote_char
    refine ⟨⟨_, value, by rw [String.toList_ofList, hvalue], hmark⟩, ?_⟩
    rw [String.toList_ofList]
    unfold directoryChars
    cases asFile with
    | none => exact ⟨dir.mark.char :: ("$rootDir/".toList ++ dir.text.toList), _, by simp [asFileChars], hmark⟩
    | some spaces =>
      have hfile : "File".toList = "Fil".toList ++ ['e'] := rfl
      refine ⟨dir.mark.char :: ("$rootDir/".toList ++
        (dir.text.toList ++ (dir.mark.char :: (spaces.1.val ++ ("as".toList ++
        (spaces.2.val ++ "Fil".toList)))))), 'e', ?_, by decide⟩
      unfold asFileChars
      rw [hfile]
      simp only [List.append_assoc, List.cons_append]
  have hcore := @trimBy_core _ _ "" (.ofList w) hsolid (by simp) (by simpa using hw)
  rw [trim, String.ofList_append]
  simpa using hcore

end Found

section File

open Regex

variable {rest : List Regex} {v : List Char}

lemma scan_renameRe (st : Statement) (v : List Char) :
    renameRe.scan 0 (st.chars ++ v) = st.command.renameGroups ++ renameRe.scan 0 v := by
  have hp : isWhitespace 'p' = false := by decide
  have hname : "name".toList = ['n', 'a', 'm', 'e'] := rfl
  have hdir : "projectDir".toList = 'p' :: "rojectDir".toList := rfl
  rw [Statement.chars, List.append_assoc, List.append_assoc, renameRe,
    scan_pass_plain (not_mem_blank st.indent hp)]
  rw [← scan_pass_plain (v := v) (not_mem_blank st.trailing hp)]
  generalize st.trailing.val ++ v = t
  cases st.command with
  | includes layout first more =>
    have hplain : 'p' ∉ "include".toList := by decide
    rw [Command.chars_includes, List.append_assoc, scan_pass_plain hplain, scan_arguments]
    rfl
  | includeBuild layout build =>
    have hplain : 'p' ∉ "includeBuild".toList := by decide
    rw [Command.chars_includeBuild, List.append_assoc, scan_pass_plain hplain, scan_arguments]
    rfl
  | rename w r name =>
    have hmatch := matchAt_renameRe w r name t
    rw [← assignChars_append, renameRe] at hmatch
    rw [Command.chars_rename, scan_of_match (assignChars_ne_nil w r "name" name.chars) hmatch]
    rfl
  | relocate w r dir asFile =>
    obtain ⟨y, hy, hny⟩ := directoryChars_split dir asFile
    rw [Command.chars_relocate, hy]
    exact scan_assign_other w r hname (by decide) hdir (by decide) (by decide)
      (by decide) hny dir.mark.isQuote_char
      (plain_asFileChars asFile) t

lemma scan_assignRe (st : Statement) {v : List Char} (hv : ∀ c ∈ v.head?, c = '\n') :
    assignRe.scan 0 (st.chars ++ v) = st.assignGroups ++ assignRe.scan 0 v := by
  have hp : isWhitespace 'p' = false := by decide
  have hname : "name".toList = ['n', 'a', 'm', 'e'] := rfl
  have hdir : "projectDir".toList = 'p' :: "rojectDir".toList := rfl
  rw [Statement.chars, List.append_assoc, List.append_assoc, assignRe,
    scan_pass_plain (not_mem_blank st.indent hp), ← assignRe]
  have htrailing : ∀ t, assignRe.scan 0 (st.trailing.val ++ t) = assignRe.scan 0 t :=
    fun t => scan_pass_plain (not_mem_blank st.trailing hp)
  rw [Statement.assignGroups]
  cases st.command with
  | includes layout first more =>
    have hplain : 'p' ∉ "include".toList := by decide
    rw [Command.chars_includes, List.append_assoc, assignRe, scan_pass_plain hplain,
      scan_arguments, ← assignRe, htrailing]
    rfl
  | includeBuild layout build =>
    have hplain : 'p' ∉ "includeBuild".toList := by decide
    rw [Command.chars_includeBuild, List.append_assoc, assignRe, scan_pass_plain hplain,
      scan_arguments, ← assignRe, htrailing]
    rfl
  | rename w r name =>
    have hny : '(' ∉ name.mark.char :: name.text.toList := by
      have hbracket := bracket_notMem_literal name
      rw [Literal.chars, ← List.cons_append, List.mem_append, not_or] at hbracket
      exact hbracket.1
    have hchars : name.chars = (name.mark.char :: name.text.toList) ++ name.mark.char :: [] := rfl
    rw [Command.chars_rename, hchars, assignRe, scan_assign_other w r hdir (by decide) hname (by decide)
      (by decide) (by decide) hny name.mark.isQuote_char (by simp), ← assignRe, htrailing]
    rfl
  | relocate w r dir asFile =>
    obtain ⟨value, hvalue, hline⟩ := directoryChars_head dir asFile
    have hnewline : ∀ c ∈ (st.trailing.val.dropWhile (· ≠ '\n')).head?, c = '\n' := by
      intro c hc
      have hhead := List.head?_dropWhile_not (fun c => decide (c ≠ '\n')) st.trailing.val
      rw [Option.mem_def.mp hc] at hhead
      simpa using hhead
    have hplain : 'p' ∉ st.trailing.val.dropWhile (· ≠ '\n') :=
      fun h => not_mem_blank st.trailing hp ((List.dropWhile_sublist _).mem h)
    have hall : ∀ c ∈ dir.mark.char :: (value ++ st.trailing.val.takeWhile (· ≠ '\n')), c ≠ '\n' := by
      rw [← List.cons_append, List.forall_mem_append]
      exact ⟨hline, fun c hc => by simpa using List.mem_takeWhile_imp hc⟩
    have hsplit := List.takeWhile_append_dropWhile (p := fun c => decide (c ≠ '\n')) (l := st.trailing.val)
    generalize st.trailing.val.takeWhile (· ≠ '\n') = line at hall hsplit ⊢
    generalize st.trailing.val.dropWhile (· ≠ '\n') = below at hnewline hplain hsplit
    have hend : ∀ c ∈ (below ++ v).head?, c = '\n' := by
      cases below with
      | nil => exact hv
      | cons d below => exact hnewline
    have hmatch := matchAt_assignRe w r (isWhitespace_eq_false_of_isQuote dir.mark.isQuote_char) hall hend
    rw [← List.cons_append, ← hvalue, ← assignChars_append] at hmatch
    rw [Command.chars_relocate, ← hsplit, List.append_assoc, ← List.append_assoc, assignChars_append,
      scan_of_match (assignChars_ne_nil w r "projectDir" (directoryChars dir asFile ++ line)) hmatch, assignRe,
      scan_pass_plain hplain]
    rfl

lemma scan_settingsText {found : Statement → List (List (List Char))}
    (hfound : ∀ (st : Statement) (v : List Char), (∀ c ∈ v.head?, c = '\n') →
      (projectCall rest).scan 0 (st.chars ++ v) = found st ++ (projectCall rest).scan 0 v)
        (file : List Statement) :
    (projectCall rest).scan 0 (settingsText file).toList = file.flatMap found := by
  rw [settingsText, String.toList_ofList]
  induction file with
  | nil => rfl
  | cons st file ih =>
    rw [List.map_cons, List.flatMap_cons]
    cases file with
    | nil =>
      have hlast := hfound st [] (by simp)
      rw [List.append_nil] at hlast
      rw [List.map_nil, List.intercalate_singleton, hlast]
      rfl
    | cons next file =>
      have hbreak : 'p' ∉ ['\n'] := by decide
      rw [List.map_cons] at ih ⊢
      rw [List.intercalate_cons_cons, List.append_assoc, hfound st _ (by simp), scan_pass_plain hbreak, ih]

lemma renameGroups_pairs (file : List Statement) :
    (file.flatMap (·.command.renameGroups)).map (fun cap =>
      (trimStart ((cap.map String.ofList).getD 0 "") ":", (cap.map String.ofList).getD 1 "")) = renames file := by
  rw [renames]
  induction file with
  | nil => rfl
  | cons st file ih =>
    rw [List.flatMap_cons, List.map_append, ih, List.filterMap_cons]
    cases st.command with
    | includes layout first more => rfl
    | includeBuild layout build => rfl
    | relocate w r dir asFile => rfl
    | rename w r name => simp [Command.renameGroups, Command.rename?, r.trimStart_written]

lemma extractProjectRenames_settingsText (file : List Statement) :
    extractProjectRenames (settingsText file) = IterMap.ofPairs (renames file) := by
  have hscan := scan_settingsText (fun st v _ => scan_renameRe st v) file
  rw [extractProjectRenames, capturesIter, renameRe, hscan, IterMap.ofPairs, ← renameGroups_pairs, List.foldl_map,
    List.foldl_map]

lemma extractProjectDirs_settingsText (file : List Statement) :
    extractProjectDirs (settingsText file) = (IterMap.ofPairs (relocations file), 0) := by
  have hscan := scan_settingsText (fun st v hv => scan_assignRe st hv) file
  rw [extractProjectDirs, capturesIter, assignRe, hscan, List.foldl_map, IterMap.ofPairs]
  generalize (∅ : IterMap String String) = m
  clear hscan
  induction file generalizing m with
  | nil => rfl
  | cons st file ih =>
    rw [List.flatMap_cons, List.foldl_append, relocations, List.filterMap_cons, Statement.assignGroups]
    cases st.command with
    | includes layout first more => exact ih m
    | includeBuild layout build => exact ih m
    | rename w r name => exact ih m
    | relocate w r dir asFile =>
      have hline : ∀ c ∈ st.trailing.val.takeWhile (· ≠ '\n'), isWhitespace c :=
        fun c hc => st.trailing.property c ((List.takeWhile_sublist _).mem hc)
      have htrim := trim_directoryChars dir asFile hline
      have hhandled := matchAt_handledRhsRe dir asFile
      rw [List.foldl_cons, List.foldl_nil]
      simp only [List.map_cons, List.map_nil, List.getD_cons_zero, List.getD_cons_succ, htrim,
        String.toList_ofList, hhandled, String.ofList_toList, r.trimStart_written]
      exact ih _

end File

end RepoGraph.Indexer
