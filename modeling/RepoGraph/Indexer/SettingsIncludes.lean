import RepoGraph.Indexer.SettingsAssignments

/-! The lines of a settings file: a block of includes is read from its first line to the line that ends it, and
other statements are passed over. -/

namespace RepoGraph.Indexer

open Lib Lib.Text

section Lines

open Regex

variable {st : IncludeState} {s u v w : List Char}

lemma trim_append_blank (s : String) {w : String} (hw : ∀ c ∈ w.toList, isWhitespace c) :
    trim (s ++ w) = trim s := by
  rw [trim, trim, trimBy, trimBy, trimEndBy, trimEndBy, String.toList_ofList,
    String.toList_ofList, String.toList_append]
  congr 1
  by_cases hs : ∀ c ∈ s.toList, isWhitespace c
  · rw [List.dropWhile_append_of_pos hs, List.dropWhile_eq_nil_iff.mpr hs, List.dropWhile_eq_nil_iff.mpr hw]
  · have hne : s.toList.dropWhile isWhitespace ≠ [] := mt List.dropWhile_eq_nil_iff.mp hs
    rw [List.dropWhile_append, if_neg (by simpa using hne), List.rdropWhile, List.reverse_append,
      List.dropWhile_append_of_pos (by simpa using hw), ← List.rdropWhile]

lemma trim_blank_append {w : String} (hw : ∀ c ∈ w.toList, isWhitespace c)
    (s : String) : trim (w ++ s) = trim s := by
  rw [trim, trim, trimBy, trimBy, String.toList_append, List.dropWhile_append_of_pos hw]

lemma trim_blank {s : String} (hs : ∀ c ∈ s.toList, isWhitespace c) : trim s = "" := by
  have htrim := trim_append_blank "" hs
  rw [String.empty_append] at htrim
  rw [htrim]
  rfl

lemma trim_cons {c : Char} (hc : isWhitespace c = false) (s : List Char) :
    ∃ rest, (trim (.ofList (c :: s))).toList = c :: rest := by
  rw [trim, trimBy, trimEndBy, String.toList_ofList, String.toList_ofList, String.toList_ofList,
    List.dropWhile_cons_of_neg (by simp [hc])]
  have hsplit := @rdropWhile_append_of_last _ [] s _ hc
  rw [List.nil_append, List.singleton_append, List.singleton_append] at hsplit
  exact ⟨_, hsplit⟩

lemma matchAt_continuationRe (s : List Char) :
    (continuationRe.matchAt s).isSome =
      ((s.dropWhile fun c => isWhitespace c || c = ',').head?.any fun c => isQuote c || c = ':') := by
  have hrefuses : (Regex.char fun c => isQuote c || c = ':').Refuses fun c => isWhitespace c || c = ',' := by
    refine refuses_char fun c hc => ?_
    rw [Bool.or_eq_true, decide_eq_true_eq] at hc
    rcases hc with hc | rfl
    · have hquote : isQuote c = false := by
        by_contra h
        simp [isWhitespace_eq_false_of_isQuote (by simpa using h)] at hc
      have hcolon : c ≠ ':' := ne_of_isWhitespace hc (by decide)
      simp [hquote, hcolon]
    · decide
  rw [matchAt, continuationRe, run_cat_many hrefuses, run_cat_cons]
  cases hd : s.dropWhile (fun c => isWhitespace c || c = ',') with
  | nil => rfl
  | cons c t =>
    rw [run_char_cons]
    by_cases hc : isQuote c || c = ':'
    · rw [if_pos hc]
      simpa using hc
    · rw [if_neg hc]
      simpa using hc

lemma refuses_stringRe : stringRe.Refuses fun c => !isQuote c := refuses_quote.cat _

lemma scan_stringRe_plain (hs : ∀ c ∈ s, isQuote c = false) : stringRe.scan 0 s = [] := by
  have hpass := scan_pass_of_refuses (v := []) refuses_stringRe fun c hc => by simpa using hs c hc
  rw [List.append_nil] at hpass
  exact hpass

lemma matchAt_stringRe {c : Char} (hc : isQuote c) (s : List Char) :
    stringRe.matchAt (c :: s) =
      if s.takeWhile (fun c => !isQuote c) = [] then none
      else (s.dropWhile fun c => !isQuote c).tail?.map fun rest => (rest, [s.takeWhile fun c => !isQuote c]) := by
  rw [matchAt, stringRe, quote, run_cat_char _ hc, quotedText, run_cat_cons]
  refine (run_group_some1 fun d t groups hd => refuses_quote.cat _ d t groups _ hd).trans ?_
  rw [List.nil_append]
  split
  · rfl
  · cases hd : s.dropWhile (fun c => !isQuote c) with
    | nil => rfl
    | cons d rest =>
      have hhead := List.head?_dropWhile_not (fun c => !isQuote c) s
      rw [hd] at hhead
      have hquote : isQuote d := by simpa using hhead
      exact run_cat_char [] hquote rest

lemma exists_first_quote (h : ¬ ∀ c ∈ s, !isQuote c) :
    ∃ a d rest, s = a ++ d :: rest ∧ (∀ c ∈ a, !isQuote c) ∧ isQuote d := by
  obtain ⟨d, rest, hd⟩ := List.exists_cons_of_ne_nil (mt List.dropWhile_eq_nil_iff.mp h)
  have hhead := List.head?_dropWhile_not (fun c => !isQuote c) s
  rw [hd] at hhead
  refine ⟨s.takeWhile fun c => !isQuote c, d, rest, ?_, ?_, by simpa using hhead⟩
  · rw [← hd, List.takeWhile_append_dropWhile]
  · exact fun c hc => List.mem_takeWhile_imp (p := fun c => !isQuote c) hc

lemma scan_stringRe_append (hw : ∀ c ∈ w, isQuote c = false) (s : List Char) :
    stringRe.scan 0 (s ++ w) = stringRe.scan 0 s := by
  induction hn : s.length using Nat.strong_induction_on generalizing s with
  | _ n ih =>
    cases s with
    | nil => rw [List.nil_append, scan_stringRe_plain hw]; rfl
    | cons c s =>
      have hshort : ∀ t : List Char, t.length ≤ s.length → stringRe.scan 0 (t ++ w) = stringRe.scan 0 t :=
        fun t ht => ih t.length (by rw [← hn, List.length_cons]; omega) t rfl
      have hpass : ∀ t, stringRe.matchAt (c :: t) = none → stringRe.scan 0 (c :: t) = stringRe.scan 0 t :=
        fun t ht => scan_cons_of_none ht
      rw [List.cons_append]
      by_cases hc : isQuote c
      · by_cases hs : ∀ d ∈ s, !isQuote d
        · have hnone : ∀ t : List Char, (∀ d ∈ t, !isQuote d) → stringRe.matchAt (c :: t) = none := by
            intro t ht
            rw [matchAt_stringRe hc, List.dropWhile_eq_nil_iff.mpr ht]
            simp
          have hsw : ∀ d ∈ s ++ w, !isQuote d := by
            rw [List.forall_mem_append]
            exact ⟨hs, fun d hd => by simp [hw d hd]⟩
          rw [hpass _ (hnone _ hsw), hpass _ (hnone _ hs), hshort s le_rfl]
        · obtain ⟨a, d, rest, rfl, ha, hd⟩ := exists_first_quote hs
          have hmatch : ∀ t, stringRe.matchAt (c :: (a ++ d :: t)) = if a = [] then none else some (t, [a]) := by
            intro t
            rw [matchAt_stringRe hc, takeWhile_append_cons ha (by simp [hd]),
              dropWhile_append_cons ha (by simp [hd])]
            rfl
          rw [List.append_assoc, List.cons_append]
          by_cases hempty : a = []
          · have hnone := fun t => (hmatch t).trans (if_pos hempty)
            have hrest := hshort (a ++ d :: rest) le_rfl
            rw [List.append_assoc, List.cons_append] at hrest
            rw [hpass _ (hnone _), hpass _ (hnone _), hrest]
          · have hscan : ∀ t, stringRe.scan 0 (c :: (a ++ d :: t)) = [a] :: stringRe.scan 0 t := by
              intro t
              have hfound := (hmatch t).trans (if_neg hempty)
              have hsplit : c :: (a ++ d :: t) = c :: (a ++ [d]) ++ t := by simp
              rw [hsplit] at hfound ⊢
              exact scan_of_match (by simp) hfound
            rw [hscan, hscan, hshort rest (by simp; omega)]
      · have hnone : ∀ t, stringRe.matchAt (c :: t) = none :=
          fun t => refuses_stringRe c t [] _ (by simpa using hc)
        rw [hpass _ (hnone _), hpass _ (hnone _), hshort s le_rfl]

def strings (line : String) : List String := (stringRe.capturesIter line).map fun cap => cap.getD 0 ""

lemma IncludeState.read_eq (st : IncludeState) (line : String) :
    st.read line = ⟨st.inBlock line,
      st.paths ++ if st.inBlock line then (strings line).filter isProjectPath else []⟩ := rfl

lemma strings_plain (hs : ∀ c ∈ s, isQuote c = false) : strings (.ofList s) = [] := by
  rw [strings, capturesIter, String.toList_ofList, scan_stringRe_plain hs]
  rfl

lemma IncludeState.read_append_blank (st : IncludeState) (line : String) {w : String}
    (hw : ∀ c ∈ w.toList, isWhitespace c) : st.read (line ++ w) = st.read line := by
  have hquotes : ∀ c ∈ w.toList, isQuote c = false := by
    intro c hc
    by_contra h
    have hwhite := hw c hc
    simp [isWhitespace_eq_false_of_isQuote (by simpa using h)] at hwhite
  have hstrings : strings (line ++ w) = strings line := by
    rw [strings, strings, capturesIter, capturesIter, String.toList_append, scan_stringRe_append hquotes]
  have hcontinuation : (continuationRe.matchAt (line ++ w).toList).isSome =
      (continuationRe.matchAt line.toList).isSome := by
    have hblank : ∀ c ∈ w.toList, isWhitespace c || c = ',' := fun c hc => by simp [hw c hc]
    rw [matchAt_continuationRe, matchAt_continuationRe, String.toList_append]
    by_cases hl : ∀ c ∈ line.toList, isWhitespace c || c = ','
    · rw [List.dropWhile_append_of_pos hl, List.dropWhile_eq_nil_iff.mpr hl, List.dropWhile_eq_nil_iff.mpr hblank]
    · obtain ⟨d, rest, hd⟩ := List.exists_cons_of_ne_nil (mt List.dropWhile_eq_nil_iff.mp hl)
      rw [List.dropWhile_append, if_neg (by simp [hd]), hd, List.cons_append, List.head?_cons, List.head?_cons]
  have hblock : st.inBlock (line ++ w) = st.inBlock line := by
    rw [inBlock, inBlock, trim_append_blank line hw, hcontinuation]
  rw [read_eq, read_eq, hblock, hstrings]

lemma IncludeState.read_blank (st : IncludeState) {line : String} (h : ∀ c ∈ line.toList, isWhitespace c) :
    st.read line = st := by
  have hline := st.read_append_blank "" h
  rw [String.empty_append] at hline
  rw [hline, read_eq]
  have hblock : st.inBlock "" = st.inIncludeBlock := by
    rw [inBlock, trim_blank (by simp), if_neg (by decide)]
    simp
  have hstrings : strings "" = [] := rfl
  rw [hblock, hstrings, List.filter_nil, ite_self, List.append_nil]

def IncludeState.readText (st : IncludeState) (s : List Char) : IncludeState :=
  (splitAll '\n' s).foldl (fun st line => st.read (.ofList line)) st

lemma extractIncludePaths_eq (content : String) :
    extractIncludePaths content = (IncludeState.readText {} content.toList).paths := by
  have hstrip : ∀ (st : IncludeState) (line : String),
      st.read ((stripSuffix line "\r").getD line) = st.read line := by
    intro st line
    cases hsuffix : stripSuffix line "\r" with
    | none => rfl
    | some rest =>
      rw [Option.getD_some, stripSuffix_eq_some.mp hsuffix, st.read_append_blank rest (by simp [isWhitespace])]
  obtain ⟨front, last, hpieces⟩ := List.eq_nil_or_concat' (split content '\n') |>.resolve_left
    (by simpa [split] using splitAll_ne_nil '\n' content.toList)
  have hlast : ∀ st : IncludeState, (if last = "" then [] else [last]).foldl IncludeState.read st =
      st.read last := by
    intro st
    split
    · rename_i hempty
      rw [hempty, st.read_blank (by simp)]
      rfl
    · rfl
  have hread : IncludeState.readText {} content.toList = (split content '\n').foldl IncludeState.read {} := by
    rw [split, List.foldl_map]
    rfl
  rw [extractIncludePaths, lines, hread, hpieces, List.dropLast_concat, List.getLast?_concat, Option.getD_some,
    List.foldl_append, hlast, List.foldl_map, List.foldl_append]
  simp only [hstrip]
  rfl

lemma IncludeState.readText_append (st : IncludeState) (u v : List Char) :
    st.readText (u ++ '\n' :: v) = (st.readText u).readText v := by
  rw [readText, splitAll_append, List.foldl_append]
  rfl

lemma IncludeState.readText_line (st : IncludeState) (hu : '\n' ∉ u) : st.readText u = st.read (.ofList u) := by
  rw [readText, splitAll_of_not_mem hu]
  rfl

end Lines

section Blocks

open Regex

variable {st : IncludeState} {s u v w pre : List Char} {found : List String}

lemma IncludeState.readText_blank (st : IncludeState) (hs : ∀ c ∈ s, isWhitespace c) : st.readText s = st := by
  induction hn : s.length using Nat.strong_induction_on generalizing s with
  | _ n ih =>
    by_cases hbreak : '\n' ∈ s
    · obtain ⟨x, y, rfl, hx⟩ := List.eq_append_cons_of_mem hbreak
      rw [List.forall_mem_append, List.forall_mem_cons] at hs
      rw [List.length_append, List.length_cons] at hn
      rw [st.readText_append, st.readText_line hx, st.read_blank (by simpa using hs.1)]
      exact ih y.length (by omega) hs.2.2 rfl
    · rw [st.readText_line hbreak, st.read_blank (by simpa using hs)]

lemma readText_blank_append (hw : ∀ c ∈ w, isWhitespace c) :
    ∃ v, (∀ c ∈ v, isWhitespace c) ∧ '\n' ∉ v ∧
      ∀ (st : IncludeState) (s : List Char), st.readText (w ++ s) = st.readText (v ++ s) := by
  by_cases hbreak : '\n' ∈ w
  · obtain ⟨x, y, hy, hx⟩ := List.eq_append_cons_of_mem (List.mem_reverse.mpr hbreak)
    have hsplit : w = y.reverse ++ '\n' :: x.reverse := by
      rw [← List.reverse_reverse w, hy]
      simp
    rw [hsplit, List.forall_mem_append, List.forall_mem_cons] at hw
    refine ⟨x.reverse, hw.2.2, by simpa using hx, fun st s => ?_⟩
    rw [hsplit, List.append_assoc, List.cons_append, st.readText_append, st.readText_blank hw.1]
  · exact ⟨w, hw, hbreak, fun st s => rfl⟩

lemma IncludeState.readText_plain (st : IncludeState) (hs : ∀ c ∈ s, isQuote c = false) :
    (st.readText s).paths = st.paths := by
  have hline : ∀ (st : IncludeState) (l : List Char), (∀ c ∈ l, isQuote c = false) →
      (st.read (.ofList l)).paths = st.paths := by
    intro st l hl
    rw [read_eq, strings_plain hl, List.filter_nil, ite_self, List.append_nil]
  induction hn : s.length using Nat.strong_induction_on generalizing s st with
  | _ n ih =>
    by_cases hbreak : '\n' ∈ s
    · obtain ⟨x, y, rfl, hx⟩ := List.eq_append_cons_of_mem hbreak
      rw [List.forall_mem_append, List.forall_mem_cons] at hs
      rw [List.length_append, List.length_cons] at hn
      rw [st.readText_append, st.readText_line hx, ih y.length (by omega) _ hs.2.2 rfl, hline st x hs.1]
    · rw [st.readText_line hbreak, hline st s hs]

def Opened (st : IncludeState) (pre : List Char) : Prop := ∀ s, st.inBlock (.ofList (pre ++ s)) = true

def Reads (pre : List Char) (found : List String) : Prop :=
  ∀ s, strings (.ofList (pre ++ s)) = found ++ strings (.ofList s)

lemma Opened.append (h : Opened st pre) (u : List Char) : Opened st (pre ++ u) := by
  intro s
  rw [List.append_assoc]
  exact h (u ++ s)

lemma opened_include (st : IncludeState) (hv : ∀ c ∈ v, isWhitespace c) (u : List Char) :
    Opened st (v ++ ("include".toList ++ u)) := by
  intro s
  have hsolid : IsSolid isWhitespace "include" := by
    refine ⟨⟨'i', "nclude".toList, rfl, by decide⟩, "includ".toList, 'e', rfl, by decide⟩
  have htrim := trimBy_solid hsolid (w := .ofList v) (by simpa using hv) (.ofList (u ++ s))
  have hline : (.ofList (v ++ ("include".toList ++ u) ++ s) : String) = .ofList v ++
      "include" ++ .ofList (u ++ s) := by
    apply String.toList_inj.mp
    simp only [String.toList_append, String.toList_ofList, List.append_assoc]
  have hstarts : startsWith (trim (.ofList (v ++ ("include".toList ++ u) ++ s))) "include" := by
    rw [hline, trim, htrim]
    exact startsWith_iff.mpr ⟨_, rfl⟩
  rw [IncludeState.inBlock, if_pos hstarts]

lemma opened_string (hst : st.inIncludeBlock) (hv : ∀ c ∈ v, isWhitespace c) {q : Char} (hq : isQuote q)
    (u : List Char) : Opened st (v ++ q :: u) := by
  intro s
  have hcontinuation : (continuationRe.matchAt (String.ofList (v ++ q :: u ++ s)).toList).isSome := by
    have hblank : ∀ c ∈ v, isWhitespace c || c = ',' := fun c hc => by simp [hv c hc]
    have hcomma : q ≠ ',' := by
      rintro rfl
      exact absurd hq (by decide)
    have hstop : (isWhitespace q || decide (q = ',')) = false := by
      simp [isWhitespace_eq_false_of_isQuote hq, hcomma]
    rw [matchAt_continuationRe, String.toList_ofList, List.append_assoc, List.cons_append,
      dropWhile_append_cons hblank hstop]
    simp [hq]
  rw [IncludeState.inBlock, hst, hcontinuation]
  simp

lemma Reads.append {more : List String} (h : Reads pre found) (h' : Reads u more) : Reads (pre ++ u)
    (found ++ more) := by
  intro s
  rw [List.append_assoc, h, h', List.append_assoc]

lemma reads_plain (hu : ∀ c ∈ u, isQuote c = false) : Reads u [] := by
  intro s
  rw [strings, strings, capturesIter, capturesIter, String.toList_ofList, String.toList_ofList,
    scan_pass_of_refuses refuses_stringRe fun c hc => by simpa using hu c hc]
  rfl

lemma reads_literal (l : Literal) : Reads l.chars [l.text] := by
  intro s
  have hmatch : stringRe.matchAt (l.chars ++ s) = some (s, [l.text.toList]) := by
    rw [matchAt, stringRe, run_literal]
    rfl
  have hne : l.chars ≠ [] := by simp [Literal.chars]
  rw [strings, strings, capturesIter, capturesIter, String.toList_ofList, String.toList_ofList,
    scan_of_match hne hmatch]
  simp

lemma IncludeState.read_opened (h : Opened st pre) (hreads : Reads pre found) (hu : ∀ c ∈ u, isQuote c = false) :
    st.read (.ofList (pre ++ u)) = ⟨true, st.paths ++ found.filter isProjectPath⟩ := by
  rw [read_eq, h u, if_pos rfl, hreads u, strings_plain hu, List.append_nil]

end Blocks

section Arguments

variable {st : IncludeState} {s pre z : List Char} {found : List String}

lemma quote_notMem_blank (w : Blank) : ∀ c ∈ w.val, isQuote c = false := by
  intro c hc
  by_contra h
  have hwhite := w.property c hc
  simp [isWhitespace_eq_false_of_isQuote (by simpa using h)] at hwhite

lemma break_notMem_literal (l : Literal) : '\n' ∉ l.chars := by
  have hmark : '\n' ≠ l.mark.char := by
    cases l.mark with
    | single => decide
    | double => decide
  rw [Literal.chars, List.mem_cons, List.mem_append, List.mem_singleton, not_or, not_or]
  exact ⟨hmark, fun h => (l.quotable.2 _ h).2.1 rfl, hmark⟩

structure InBlock (st : IncludeState) (pre : List Char) (found : List String) : Prop where
  opened : Opened st pre
  reads : Reads pre found
  line : '\n' ∉ pre

lemma InBlock.append {u : List Char} {more : List String} (h : InBlock st pre found)
    (hreads : Reads u more) (hu : '\n' ∉ u) :
    InBlock st (pre ++ u) (found ++ more) :=
  ⟨h.opened.append u, h.reads.append hreads, by rw [List.mem_append, not_or]; exact ⟨h.line, hu⟩⟩

lemma InBlock.literal (h : InBlock st pre found) (w : Blank) (l : Literal) :
    ∃ st' pre' found', InBlock st' pre' found' ∧
      (∀ s, st.readText (pre ++ (w.val ++ (l.chars ++ s))) = st'.readText (pre' ++ s)) ∧
      st'.paths ++ found'.filter isProjectPath = st.paths ++ (found ++ [l.text]).filter isProjectPath := by
  have hplain := quote_notMem_blank w
  by_cases hbreak : '\n' ∈ w.val
  · obtain ⟨x, y, hw, hx⟩ := List.eq_append_cons_of_mem hbreak
    have hwhite := w.property
    rw [hw, List.forall_mem_append, List.forall_mem_cons] at hplain hwhite
    obtain ⟨v, hv, hline, htext⟩ := readText_blank_append hwhite.2.2
    refine ⟨⟨true, st.paths ++ found.filter isProjectPath⟩, v ++ l.chars, [l.text], ⟨?_, ?_, ?_⟩, fun s => ?_, ?_⟩
    · rw [Literal.chars]
      exact opened_string rfl hv l.mark.isQuote_char _
    · have hquotes := quote_notMem_blank ⟨v, hv⟩
      exact (reads_plain hquotes).append (reads_literal l)
    · rw [List.mem_append, not_or]
      exact ⟨hline, break_notMem_literal l⟩
    · have hsplit : pre ++ (w.val ++ (l.chars ++ s)) = (pre ++ x) ++ '\n' :: (y ++ (l.chars ++ s)) := by
        rw [hw]
        simp only [List.append_assoc, List.cons_append]
      have hfirst : '\n' ∉ pre ++ x := by
        rw [List.mem_append, not_or]
        exact ⟨h.line, hx⟩
      rw [hsplit, st.readText_append, st.readText_line hfirst, IncludeState.read_opened h.opened h.reads hplain.1,
        htext, List.append_assoc]
    · rw [List.filter_append, List.append_assoc]
  · refine ⟨st, pre ++ (w.val ++ l.chars), found ++ [l.text], ?_, fun s => ?_, rfl⟩
    · refine h.append ((reads_plain hplain).append (reads_literal l)) ?_
      rw [List.mem_append, not_or]
      exact ⟨hbreak, break_notMem_literal l⟩
    · simp only [List.append_assoc]

lemma InBlock.literals (more : List (Gap × Blank × Literal)) (h : InBlock st pre found) :
    ∃ st' pre' found', InBlock st' pre' found' ∧
      (∀ s, st.readText (pre ++ (more.flatMap (fun a => a.1.val ++ (',' :: (a.2.1.val ++ a.2.2.chars))) ++ s)) =
        st'.readText (pre' ++ s)) ∧
      st'.paths ++ found'.filter isProjectPath =
        st.paths ++ (found ++ more.map (·.2.2.text)).filter isProjectPath := by
  induction more generalizing st pre found with
  | nil => exact ⟨st, pre, found, h, fun s => rfl, by rw [List.map_nil, List.append_nil]⟩
  | cons a more ih =>
    obtain ⟨gap, w, l⟩ := a
    have hgap : ∀ c ∈ gap.val ++ [','], isQuote c = false := by
      rw [List.forall_mem_append]
      exact ⟨quote_notMem_blank ⟨gap.val, fun c hc => (gap.property c hc).1⟩, by simp [isQuote]⟩
    have hline : '\n' ∉ gap.val ++ [','] := by
      rw [List.mem_append, not_or]
      exact ⟨fun hc => (gap.property _ hc).2 rfl, by decide⟩
    have hcomma := h.append (reads_plain hgap) hline
    rw [List.append_nil] at hcomma
    obtain ⟨st₁, pre₁, found₁, h₁, htext₁, hpaths₁⟩ := hcomma.literal w l
    obtain ⟨st', pre', found', h', htext', hpaths'⟩ := ih h₁
    refine ⟨st', pre', found', h', fun s => ?_, ?_⟩
    · rw [← htext', ← htext₁, List.flatMap_cons]
      simp only [List.append_assoc, List.cons_append, List.nil_append]
    · rw [hpaths', List.filter_append, ← List.append_assoc, hpaths₁, List.append_assoc,
        ← List.filter_append, List.map_cons, List.append_assoc]
      rfl

lemma InBlock.rest (h : InBlock st pre found) (hz : ∀ c ∈ z, isQuote c = false) :
    (st.readText (pre ++ z)).paths = st.paths ++ found.filter isProjectPath := by
  by_cases hbreak : '\n' ∈ z
  · obtain ⟨x, y, rfl, hx⟩ := List.eq_append_cons_of_mem hbreak
    rw [List.forall_mem_append, List.forall_mem_cons] at hz
    have hfirst : '\n' ∉ pre ++ x := by
      rw [List.mem_append, not_or]
      exact ⟨h.line, hx⟩
    rw [← List.append_assoc, st.readText_append, st.readText_line hfirst, IncludeState.readText_plain _ hz.2.2,
      IncludeState.read_opened h.opened h.reads hz.1]
  · have hline : '\n' ∉ pre ++ z := by
      rw [List.mem_append, not_or]
      exact ⟨h.line, hbreak⟩
    rw [st.readText_line hline, IncludeState.read_opened h.opened h.reads hz]

lemma readText_arguments (st : IncludeState) (indent : Blank) {name : List Char}
    (hname : ∀ c ∈ name, isQuote c = false ∧ c ≠ '\n')
    (layout : CallLayout) (first : Literal) (more : List (Gap × Blank × Literal)) (trailing : Blank) :
    (st.readText (indent.val ++
      (("include".toList ++ name) ++ argumentChars layout first more ++ trailing.val))).paths =
      st.paths ++ (first.text :: more.map (·.2.2.text)).filter isProjectPath := by
  obtain ⟨v, hv, hvline, hindent⟩ := readText_blank_append indent.property
  have hword : ∀ c ∈ "include".toList, isQuote c = false ∧ c ≠ '\n' := by simp [isQuote]
  have hgap : ∀ c ∈ layout.gap.val, isQuote c = false ∧ c ≠ '\n' := fun c hc =>
    ⟨quote_notMem_blank ⟨layout.gap.val, fun c hc => (layout.gap.property c hc).1⟩ c hc,
      (layout.gap.property c hc).2⟩
  obtain ⟨bracket, inside, hbefore, hbracket⟩ : ∃ (bracket : List Char) (inside : Blank),
      layout.before = layout.gap.val ++ (bracket ++ inside.val) ∧ ∀ c ∈ bracket, isQuote c = false ∧ c ≠ '\n' := by
    rw [CallLayout.before]
    cases layout.brackets with
    | none => exact ⟨[], ⟨[], by simp⟩, by simp, by simp⟩
    | some b => exact ⟨['('], b.1, by simp, by simp [isQuote]⟩
  have hafter : ∀ c ∈ layout.after ++ trailing.val, isQuote c = false := by
    rw [List.forall_mem_append, CallLayout.after]
    refine ⟨?_, quote_notMem_blank trailing⟩
    cases layout.brackets with
    | none => simp
    | some b =>
      rw [List.forall_mem_append]
      exact ⟨quote_notMem_blank b.2, by simp [isQuote]⟩
  have hstart : InBlock st (v ++ ("include".toList ++ (name ++ (layout.gap.val ++ bracket)))) [] := by
    refine ⟨opened_include st hv _, reads_plain ?_, ?_⟩
    · simp only [List.forall_mem_append]
      exact ⟨quote_notMem_blank ⟨v, hv⟩, fun c hc => (hword c hc).1, fun c hc => (hname c hc).1,
        fun c hc => (hgap c hc).1, fun c hc => (hbracket c hc).1⟩
    · simp only [List.mem_append, not_or]
      exact ⟨hvline, fun h => (hword _ h).2 rfl, fun h => (hname _ h).2 rfl, fun h => (hgap _ h).2 rfl,
        fun h => (hbracket _ h).2 rfl⟩
  obtain ⟨st₁, pre₁, found₁, h₁, htext₁, hpaths₁⟩ := hstart.literal inside first
  obtain ⟨st₂, pre₂, found₂, h₂, htext₂, hpaths₂⟩ := h₁.literals more
  have hsplit : v ++ (("include".toList ++ name) ++ argumentChars layout first more ++ trailing.val) =
      (v ++ ("include".toList ++ (name ++ (layout.gap.val ++ bracket)))) ++ (inside.val ++ (first.chars ++
        (more.flatMap (fun a => a.1.val ++ (',' :: (a.2.1.val ++ a.2.2.chars))) ++
          (layout.after ++ trailing.val)))) := by
    rw [argumentChars, hbefore]
    simp only [List.append_assoc]
  rw [hindent, hsplit, htext₁, htext₂, h₂.rest hafter, hpaths₂, List.filter_append, ← List.append_assoc, hpaths₁,
    List.append_assoc, ← List.filter_append]
  rfl

end Arguments

section Assignments

open Regex

variable {st : IncludeState} {s l t : List Char} {c : Char}

def QuietLine (l : List Char) : Prop := startsWith (trim (.ofList l)) "include" = false

def QuietBelow (s : List Char) : Prop := ∀ l ∈ (splitAll '\n' s).tail, QuietLine l

lemma quiet_blank (h : ∀ c ∈ l, isWhitespace c) : QuietLine l := by
  rw [QuietLine, trim_blank (by simpa using h)]
  decide

lemma QuietLine.cons (h : QuietLine l) (hc : isWhitespace c) : QuietLine (c :: l) := by
  have hline : (.ofList (c :: l) : String) = .ofList [c] ++ .ofList l := by
    rw [← String.ofList_append]
    rfl
  rw [QuietLine, hline, trim_blank_append (by simpa using hc)]
  exact h

lemma quiet_solid (hc : isWhitespace c = false) (hi : c ≠ 'i') (s : List Char) : QuietLine (c :: s) := by
  obtain ⟨rest, hrest⟩ := trim_cons hc s
  have hinclude : "include".toList = 'i' :: "nclude".toList := rfl
  rw [QuietLine, startsWith, hrest, hinclude, List.isPrefixOf_cons_cons]
  simp [Ne.symm hi]

lemma QuietBelow.token (h : QuietBelow s) (ht : '\n' ∉ t) : QuietBelow (t ++ s) := by
  induction t with
  | nil => exact h
  | cons d t ih =>
    rw [List.mem_cons, not_or] at ht
    have hrest := ih ht.2
    obtain ⟨piece, pieces, hpieces⟩ := List.exists_cons_of_ne_nil (splitAll_ne_nil '\n' (t ++ s))
    rw [QuietBelow, hpieces] at hrest
    rw [QuietBelow, List.cons_append, splitAll, if_neg (Ne.symm ht.1), hpieces]
    exact hrest

lemma QuietBelow.blank (h : QuietBelow (c :: s)) (hc : isWhitespace c = false) (hi : c ≠ 'i') (w : Blank) :
    QuietBelow (w.val ++ c :: s) := by
  have hlines : ∀ w : List Char, (∀ c ∈ w, isWhitespace c) → ∀ l ∈ splitAll '\n' (w ++ c :: s), QuietLine l := by
    intro w hw
    induction w with
    | nil =>
      have hbreak : c ≠ '\n' := by
        rintro rfl
        exact absurd hc (by decide)
      obtain ⟨piece, pieces, hpieces⟩ := List.exists_cons_of_ne_nil (splitAll_ne_nil '\n' s)
      rw [QuietBelow, splitAll, if_neg hbreak, hpieces] at h
      rw [List.nil_append, splitAll, if_neg hbreak, hpieces, List.forall_mem_cons]
      exact ⟨quiet_solid hc hi piece, h⟩
    | cons d w ih =>
      rw [List.forall_mem_cons] at hw
      have hrest := ih hw.2
      rw [List.cons_append, splitAll]
      split
      · rw [List.forall_mem_cons]
        exact ⟨quiet_blank (by simp), hrest⟩
      · obtain ⟨piece, pieces, hpieces⟩ := List.exists_cons_of_ne_nil (splitAll_ne_nil '\n' (w ++ c :: s))
        rw [hpieces, List.forall_mem_cons] at hrest
        rw [hpieces, List.forall_mem_cons]
        exact ⟨hrest.1.cons hw.1, hrest.2⟩
  exact fun l hl => hlines w.val w.property l (List.mem_of_mem_tail hl)

lemma quietBelow_blank (w : Blank) : QuietBelow w.val := by
  have hlines : ∀ w : List Char, (∀ c ∈ w, isWhitespace c) → ∀ l ∈ splitAll '\n' w, QuietLine l := by
    intro w hw
    induction w with
    | nil =>
      rw [splitAll, List.forall_mem_singleton]
      exact quiet_blank (by simp)
    | cons d w ih =>
      rw [List.forall_mem_cons] at hw
      have hrest := ih hw.2
      rw [splitAll]
      split
      · rw [List.forall_mem_cons]
        exact ⟨quiet_blank (by simp), hrest⟩
      · obtain ⟨piece, pieces, hpieces⟩ := List.exists_cons_of_ne_nil (splitAll_ne_nil '\n' w)
        rw [hpieces, List.forall_mem_cons] at hrest
        rw [hpieces, List.forall_mem_cons]
        exact ⟨hrest.1.cons hw.1, hrest.2⟩
  exact fun l hl => hlines w.val w.property l (List.mem_of_mem_tail hl)

lemma IncludeState.read_word (st : IncludeState) {v : List Char} (hv : ∀ c ∈ v, isWhitespace c)
    (hc : isWhitespace c = false) (hi : c ≠ 'i') (hcomma : c ≠ ',') (hstop : isQuote c = false ∧ c ≠ ':')
    (s : List Char) :
    st.read (.ofList (v ++ c :: s)) = ⟨false, st.paths⟩ := by
  have hquiet : QuietLine (v ++ c :: s) := by
    have hsolid := quiet_solid hc hi s
    induction v with
    | nil => exact hsolid
    | cons d v ih =>
      rw [List.forall_mem_cons] at hv
      exact (ih hv.2).cons hv.1
  have hline : (.ofList (v ++ c :: s) : String) = .ofList v ++ .ofList (c :: s) := String.ofList_append
  have hsome : trim (.ofList (v ++ c :: s)) ≠ "" := by
    obtain ⟨rest, hrest⟩ := trim_cons hc s
    rw [hline, trim_blank_append (by simpa using hv)]
    intro hempty
    rw [hempty] at hrest
    simp at hrest
  have hcontinuation : (continuationRe.matchAt (v ++ c :: s)).isSome = false := by
    have hblank : ∀ c ∈ v, isWhitespace c || c = ',' := fun c hc => by simp [hv c hc]
    rw [matchAt_continuationRe, dropWhile_append_cons hblank (by simp [hc, hcomma]), List.head?_cons]
    simp [hstop.1, hstop.2]
  have hblock : st.inBlock (.ofList (v ++ c :: s)) = false := by
    rw [inBlock, if_neg (by rw [hquiet]; simp), String.toList_ofList, hcontinuation,
      Bool.false_or, decide_eq_false hsome, Bool.and_false]
  rw [read_eq, hblock]
  simp

lemma IncludeState.readText_quiet (st : IncludeState) (indent : Blank) (hc : isWhitespace c = false) (hi : c ≠ 'i')
    (hcomma : c ≠ ',') (hstop : isQuote c = false ∧ c ≠ ':') (h : QuietBelow (c :: s)) :
    st.readText (indent.val ++ c :: s) = ⟨false, st.paths⟩ := by
  have hquiet : ∀ (ls : List (List Char)) (paths : List String), (∀ l ∈ ls, QuietLine l) →
      ls.foldl (fun st line => st.read (.ofList line)) ⟨false, paths⟩ = (⟨false, paths⟩ : IncludeState) := by
    intro ls paths
    induction ls with
    | nil => exact fun _ => rfl
    | cons l ls ih =>
      intro hls
      rw [List.forall_mem_cons] at hls
      have hblock : IncludeState.inBlock ⟨false, paths⟩ (.ofList l) = false := by
        rw [inBlock, if_neg (by rw [hls.1]; simp), Bool.false_and]
      rw [List.foldl_cons, read_eq, hblock, if_neg (by simp), List.append_nil]
      exact ih hls.2
  have hbreak : c ≠ '\n' := by
    rintro rfl
    exact absurd hc (by decide)
  obtain ⟨v, hv, hvline, hindent⟩ := readText_blank_append indent.property
  obtain ⟨piece, pieces, hpieces⟩ := List.exists_cons_of_ne_nil (splitAll_ne_nil '\n' s)
  have hlines : ∀ v : List Char, '\n' ∉ v → splitAll '\n' (v ++ c :: s) = (v ++ c :: piece) :: pieces := by
    intro v hv
    induction v with
    | nil => rw [List.nil_append, splitAll, if_neg hbreak, hpieces, List.nil_append]
    | cons d v ih =>
      rw [List.mem_cons, not_or] at hv
      rw [List.cons_append, splitAll, if_neg (Ne.symm hv.1), ih hv.2]
      rfl
  have hbelow := h
  rw [QuietBelow, ← List.nil_append (c :: s), hlines [] (by simp)] at hbelow
  rw [hindent, readText, hlines v hvline, List.foldl_cons, st.read_word hv hc hi hcomma hstop]
  exact hquiet pieces st.paths hbelow

lemma quietBelow_assignChars (w : AssignLayout) (r : Reference) {property : String}
    {d q : Char} {back value : List Char}
    (hproperty : property.toList = d :: back) (hd : isWhitespace d = false) (hi : d ≠ 'i')
    (hline : '\n' ∉ property.toList)
    (hq : isQuote q) (hvalue : QuietBelow (q :: value)) : QuietBelow (assignChars w r property (q :: value)) := by
  have hmark : ∀ c, isQuote c → isWhitespace c = false ∧ c ≠ 'i' := by
    intro c hc
    refine ⟨isWhitespace_eq_false_of_isQuote hc, ?_⟩
    rintro rfl
    exact absurd hc (by decide)
  have hequals := (hvalue.blank (hmark q hq).1 (hmark q hq).2 w.afterEquals).token (t := "=".toList) (by decide)
  have hprop := (QuietBelow.blank (c := '=') hequals (by decide) (by decide) w.beforeEquals).token hline
  rw [hproperty] at hprop
  have hdot := (QuietBelow.blank (c := d) hprop hd hi w.afterDot).token (t := ".".toList) (by decide)
  have hclose := (QuietBelow.blank (c := '.') hdot (by decide) (by decide) w.beforeDot).token (t := ")".toList)
    (by decide)
  have hpath := (QuietBelow.blank (c := ')') hclose (by decide) (by decide) w.closing).token
    (break_notMem_literal r.literal)
  have hquote := r.literal.mark.isQuote_char
  have hopen := (QuietBelow.blank (c := r.literal.mark.char) hpath (hmark _ hquote).1
    (hmark _ hquote).2 w.inside).token
    (t := "(".toList) (by decide)
  have hproject := (QuietBelow.blank (c := '(') hopen (by decide) (by decide) w.beforeBracket).token
    (t := "project".toList)
    (by decide)
  unfold assignChars
  rw [hproperty]
  exact hproject

end Assignments

section File

def Command.contributed (c : Command) : List String := c.included.map Reference.written ++ c.build?.toList

lemma readText_assign (st : IncludeState) (indent : Blank) (w : AssignLayout) (r : Reference) {property : String}
    {d q : Char} {back value : List Char} (hproperty : property.toList = d :: back) (hd : isWhitespace d = false)
    (hi : d ≠ 'i') (hline : '\n' ∉ property.toList) (hq : isQuote q)
    (hvalue : '\n' ∉ q :: value) (trailing : Blank) :
    (st.readText (indent.val ++ (assignChars w r property (q :: value) ++ trailing.val))).paths = st.paths := by
  have hquiet : QuietBelow (assignChars w r property (q :: (value ++ trailing.val))) :=
    quietBelow_assignChars w r hproperty hd hi hline hq ((quietBelow_blank trailing).token hvalue)
  obtain ⟨t, ht⟩ : ∃ t, assignChars w r property (q :: (value ++ trailing.val)) = 'p' :: t := by
    have hproject : "project".toList = 'p' :: "roject".toList := rfl
    unfold assignChars
    rw [hproject, List.cons_append]
    exact ⟨_, rfl⟩
  rw [ht] at hquiet
  rw [assignChars_append, List.cons_append, ht,
    st.readText_quiet indent (by decide) (by decide) (by decide) ⟨by decide, by decide⟩ hquiet]

lemma readText_statement (st : IncludeState) (stmt : Statement) :
    (st.readText stmt.chars).paths = st.paths ++ stmt.command.contributed.filter isProjectPath := by
  rw [Statement.chars]
  cases stmt.command with
  | includes layout first more =>
    have hread := @readText_arguments st stmt.indent [] (by simp) layout first.literal
      (more.map fun a => (a.1, a.2.1, a.2.2.literal)) stmt.trailing
    rw [List.append_nil] at hread
    rw [Command.chars_includes, hread, Command.contributed, List.map_map]
    simp [Command.included, Command.build?, Reference.literal, Function.comp_def]
  | includeBuild layout build =>
    have hread := @readText_arguments st stmt.indent "Build".toList (by simp [isQuote])
      layout build [] stmt.trailing
    rw [Command.chars_includeBuild]
    exact hread
  | rename w r name =>
    have hname : "name".toList = ['n', 'a', 'm', 'e'] := rfl
    have hline := break_notMem_literal name
    rw [Command.chars_rename, Command.contributed, Command.included, Command.build?]
    exact (readText_assign st stmt.indent w r hname (by decide) (by decide)
      (by decide) name.mark.isQuote_char hline stmt.trailing).trans (List.append_nil _).symm
  | relocate w r dir asFile =>
    have hdir : "projectDir".toList = 'p' :: "rojectDir".toList := rfl
    obtain ⟨value, hvalue, hline⟩ := directoryChars_head dir asFile
    rw [Command.chars_relocate, hvalue, Command.contributed, Command.included, Command.build?]
    exact (readText_assign st stmt.indent w r hdir (by decide) (by decide) (by decide) dir.mark.isQuote_char
      (fun h => hline _ h rfl) stmt.trailing).trans (List.append_nil _).symm

lemma extractIncludePaths_settingsText (file : List Statement) :
    extractIncludePaths (settingsText file) = (file.flatMap (·.command.contributed)).filter isProjectPath := by
  have hread : ∀ st : IncludeState, (st.readText (List.intercalate ['\n'] (file.map Statement.chars))).paths =
      st.paths ++ (file.flatMap (·.command.contributed)).filter isProjectPath := by
    induction file with
    | nil =>
      intro st
      have hnone : ∀ c ∈ List.intercalate ['\n'] (List.map Statement.chars []), isWhitespace c := by simp
      rw [st.readText_blank hnone, List.flatMap_nil, List.filter_nil, List.append_nil]
    | cons stmt file ih =>
      intro st
      rw [List.map_cons, List.flatMap_cons, List.filter_append]
      cases file with
      | nil =>
        rw [List.map_nil, List.intercalate_singleton, readText_statement]
        simp
      | cons next file =>
        rw [List.map_cons] at ih ⊢
        rw [List.intercalate_cons_cons, List.append_assoc, List.singleton_append, st.readText_append, ih,
          readText_statement, List.append_assoc]
  rw [extractIncludePaths_eq, settingsText, String.toList_ofList, hread]
  rfl

end File

end RepoGraph.Indexer
