import RepoGraph.ProtoParser.RpcMethod

/-! The text fallback in terms of the texts around the parentheses, and the texts on which it slices out of
range. -/

namespace RepoGraph.ProtoParser

open Lib.Text

variable {text name input before mid after : String}

lemma sliceOf_mid (h : text = before ++ mid ++ after) :
    sliceOf text before.utf8ByteSize (before.utf8ByteSize + mid.utf8ByteSize) = .ok mid := by
  have hslice : slice text before.utf8ByteSize (before.utf8ByteSize + mid.utf8ByteSize) = some mid :=
    slice_eq_some.mpr ⟨before, after, h, rfl, rfl⟩
  rw [sliceOf, hslice]

lemma sliceOf_front (h : text = mid ++ after) : sliceOf text 0 mid.utf8ByteSize = .ok mid := by
  have hmid := @sliceOf_mid text "" mid after (by rw [h]; simp)
  simpa using hmid

lemma sliceOf_back (h : text = before ++ mid) : sliceOf text before.utf8ByteSize text.utf8ByteSize = .ok mid := by
  have hmid := @sliceOf_mid text before mid "" (by rw [h]; simp)
  rwa [← String.utf8ByteSize_append, ← h] at hmid

lemma utf8ByteSize_open (name : String) : (name ++ "(").utf8ByteSize = name.utf8ByteSize + 1 := by
  rw [String.utf8ByteSize_append]
  rfl

def afterReturn (text : String) : Option String := (splitOnceStr text "returns").map Prod.snd

def firstParens (text : String) : Option String :=
  (splitOnce text '(').bind fun q => (splitOnce q.2 ')').map Prod.fst

def outputText (text : String) : Option String := (afterReturn text).bind firstParens

def headerOf (name input output : String) : RpcHeader where
  name := trim name
  inputType := (streamedType (trim input)).2
  outputType := (streamedType (trim output)).2
  clientStreaming := (streamedType (trim input)).1
  serverStreaming := (streamedType (trim output)).1

lemma splitOnce_returns {rest : String} : splitOnce ("returns" ++ rest) '(' =
    (splitOnce rest '(').map fun q => ("returns" ++ q.1, q.2) := by
  cases hrest : splitOnce rest '(' with
  | none =>
    rw [splitOnce_eq_none] at hrest
    apply splitOnce_eq_none.mpr
    rw [String.toList_append, List.mem_append]
    rintro (h | h)
    · revert h
      decide
    · exact hrest h
  | some q =>
    obtain ⟨hq, hopen⟩ := splitOnce_eq_some.mp hrest
    apply splitOnce_eq_some.mpr
    refine ⟨by rw [hq]; simp only [String.append_assoc], ?_⟩
    rw [String.toList_append, List.mem_append]
    rintro (h | h)
    · revert h
      decide
    · exact hopen h

lemma sliceOf_input {afterName toInput afterInput : String} (hopen : text = name ++ "(" ++ afterName)
    (hclose : text = toInput ++ ")" ++ afterInput) : sliceOf text (name.utf8ByteSize + 1) toInput.utf8ByteSize =
      match stripPrefix toInput (name ++ "(") with
      | some input => .ok input
      | none => .error .sliceOutOfRange := by
  have hsize : (name ++ "(").utf8ByteSize = name.utf8ByteSize + 1 := utf8ByteSize_open name
  cases hstrip : stripPrefix toInput (name ++ "(") with
  | some input =>
    obtain rfl := stripPrefix_eq_some.mp hstrip
    have hmid := @sliceOf_mid text (name ++ "(") input (")" ++ afterInput)
      (hclose.trans String.append_assoc)
    rwa [hsize, ← hsize, ← String.utf8ByteSize_append, hsize] at hmid
  | none =>
    rw [sliceOf]
    cases hslice : slice text (name.utf8ByteSize + 1) toInput.utf8ByteSize with
    | none => rfl
    | some mid =>
      obtain ⟨before, after, htext, hlo, hhi⟩ := slice_eq_some.mp hslice
      have hbefore : before = name ++ "(" := by
        refine @beginning_unique before (mid ++ after) (name ++ "(") afterName ?_ (by rw [hsize, hlo])
        rw [← hopen, htext, String.append_assoc]
      have hinput : before ++ mid = toInput := by
        refine @beginning_unique (before ++ mid) after toInput (")" ++ afterInput) ?_ ?_
        · rw [← htext, hclose, String.append_assoc]
        · rw [String.utf8ByteSize_append, hhi]
      rw [stripPrefix_eq_some.mpr (hbefore ▸ hinput.symm)] at hstrip
      simp at hstrip

theorem parseHeader_eq (text : String) : parseHeader text =
    match splitOnce text '(', splitOnce text ')' with
    | some (name, _), some (toInput, _) =>
      match stripPrefix toInput (name ++ "(") with
      | some input => .ok ((outputText text).map (headerOf name input))
      | none => .error .sliceOutOfRange
    | _, _ => .ok none := by
  unfold parseHeader findChar findStr
  cases hopen : splitOnce text '(' with
  | none => rfl
  | some q =>
    obtain ⟨name, afterName⟩ := q
    obtain ⟨htext, -⟩ := splitOnce_eq_some.mp hopen
    have hname : sliceOf text 0 name.utf8ByteSize = .ok name :=
      sliceOf_front (htext.trans (String.append_assoc ..))
    simp only [Option.map_some, hname]
    cases hclose : splitOnce text ')' with
    | none => rfl
    | some q =>
      obtain ⟨toInput, afterInput⟩ := q
      obtain ⟨htext', -⟩ := splitOnce_eq_some.mp hclose
      have hinput := sliceOf_input htext htext'
      cases hstrip : stripPrefix toInput (name ++ "(") with
      | none =>
        rw [hstrip] at hinput
        simp only [Option.map_some, hinput, hstrip, bind, Except.bind]
      | some input =>
        rw [hstrip] at hinput
        simp only [Option.map_some, hinput, hstrip, bind, Except.bind, outputText, afterReturn]
        cases hreturns : splitOnceStr text "returns" with
        | none => rfl
        | some q =>
          obtain ⟨x, tail⟩ := q
          have htail : text = x ++ ("returns" ++ tail) := by
            rw [splitOnceStr_eq_append (by decide) hreturns, String.append_assoc]
          have hback := sliceOf_back htail
          simp only [Option.map_some, Option.bind_some, hback, splitOnce_returns, firstParens]
          cases hparen : splitOnce tail '(' with
          | none => rfl
          | some q =>
            obtain ⟨y, out⟩ := q
            obtain ⟨hq, -⟩ := splitOnce_eq_some.mp hparen
            have hout : text = x ++ ("returns" ++ y) ++ "(" ++ out := by
              rw [htail, hq]
              simp only [String.append_assoc]
              rfl
            have hsize : ("returns" ++ y).utf8ByteSize + x.utf8ByteSize + 1 =
                (x ++ ("returns" ++ y) ++ "(").utf8ByteSize := by
              rw [utf8ByteSize_open, @String.utf8ByteSize_append x]
              omega
            have hrest := sliceOf_back hout
            simp only [Option.map_some, Option.bind_some, hsize, hrest]
            cases hend : splitOnce out ')' with
            | none => rfl
            | some q =>
              obtain ⟨output, z⟩ := q
              obtain ⟨hz, -⟩ := splitOnce_eq_some.mp hend
              have hmid := @sliceOf_mid text (x ++ ("returns" ++ y) ++ "(") output (")" ++ z) (by
                rw [hout, hz]
                simp only [String.append_assoc]
                rfl)
              simp only [Option.map_some, Nat.add_comm output.utf8ByteSize, hmid]
              rfl

section Panics

def isParen (c : Char) : Bool := c = '(' || c = ')'

def parens (text : String) : List Char := text.toList.filter isParen

def ClosesFirst (text : String) : Prop := '(' ∈ text.toList ∧ (parens text).head? = some ')'

lemma parens_append (s t : String) : parens (s ++ t) = parens s ++ parens t := by
  rw [parens, String.toList_append, List.filter_append]
  rfl

lemma parens_eq_nil {s : String} (h : ∀ c ∈ s.toList, c ≠ '(' ∧ c ≠ ')') : parens s = [] := by
  apply List.filter_eq_nil_iff.mpr
  intro c hc
  obtain ⟨hopen, hclose⟩ := h c hc
  simp [isParen, hopen, hclose]

lemma mem_parens {s : String} : '(' ∈ parens s ↔ '(' ∈ s.toList := by
  rw [parens, List.mem_filter]
  exact and_iff_left (by decide)

lemma closesFirst_iff {s t : String} (h : parens s = parens t) : ClosesFirst s ↔ ClosesFirst t := by
  rw [ClosesFirst, ClosesFirst, ← mem_parens, ← @mem_parens t, h]

lemma parens_trim (s : String) : parens (trim s) = parens s := by
  obtain ⟨w, w', hs, hw, hw'⟩ := trimBy_spec isWhitespace s
  have hblank : ∀ w : String, (∀ c ∈ w.toList, isWhitespace c) → parens w = [] := by
    intro w hw
    apply parens_eq_nil
    intro c hc
    have hc' := hw c hc
    refine ⟨?_, ?_⟩ <;> rintro rfl <;> revert hc' <;> decide
  nth_rewrite 2 [hs]
  rw [parens_append, parens_append, hblank w hw, hblank w' hw', List.nil_append, List.append_nil]
  rfl

lemma parens_trimStart (s : String) : parens (trimStart s "rpc") = parens s := by
  obtain ⟨taken, hs, htaken⟩ := trimStartUpTo_spec "rpc" s.toList.length s
  have hnil : parens taken = [] := by
    apply parens_eq_nil
    intro c hc
    have hc' := htaken c hc
    refine ⟨?_, ?_⟩ <;> rintro rfl <;> revert hc' <;> decide
  nth_rewrite 2 [hs]
  rw [parens_append, hnil, List.nil_append]
  rfl

lemma stripPrefix_none_iff {toInput afterName afterInput : String}
    (hopen : splitOnce text '(' = some (name, afterName))
    (hclose : splitOnce text ')' = some (toInput, afterInput)) :
    stripPrefix toInput (name ++ "(") = none ↔ '(' ∉ toInput.toList := by
  obtain ⟨htext, -⟩ := splitOnce_eq_some.mp hclose
  constructor
  · intro hnone hmem
    cases hinner : splitOnce toInput '(' with
    | none => exact splitOnce_eq_none.mp hinner hmem
    | some q =>
      obtain ⟨before, inside⟩ := q
      obtain ⟨hinput, hbefore⟩ := splitOnce_eq_some.mp hinner
      have hsplit : splitOnce text '(' = some (before, inside ++ String.singleton ')' ++ afterInput) := by
        apply splitOnce_eq_some.mpr
        refine ⟨?_, hbefore⟩
        rw [htext, hinput]
        simp only [String.append_assoc]
      rw [hopen] at hsplit
      obtain ⟨rfl, -⟩ := Prod.mk.inj (Option.some.inj hsplit)
      have hsome : stripPrefix toInput (name ++ "(") = some inside := stripPrefix_eq_some.mpr hinput
      rw [hsome] at hnone
      simp at hnone
  · intro hmem
    cases hstrip : stripPrefix toInput (name ++ "(") with
    | none => rfl
    | some input =>
      rw [stripPrefix_eq_some.mp hstrip] at hmem
      simp at hmem

lemma parseHeader_panics_iff : parseHeader text = .error .sliceOutOfRange ↔ ClosesFirst text := by
  rw [parseHeader_eq]
  cases hopen : splitOnce text '(' with
  | none =>
    have hno := splitOnce_eq_none.mp hopen
    simp [ClosesFirst, hno]
  | some q =>
    obtain ⟨name, afterName⟩ := q
    have hmem : '(' ∈ text.toList := by
      obtain ⟨htext, -⟩ := splitOnce_eq_some.mp hopen
      rw [htext]
      simp
    cases hclose : splitOnce text ')' with
    | none =>
      have hno := splitOnce_eq_none.mp hclose
      simp only [reduceCtorEq, false_iff]
      rintro ⟨-, hhead⟩
      exact hno (List.mem_filter.mp (List.mem_of_mem_head? hhead)).1
    | some q =>
      obtain ⟨toInput, afterInput⟩ := q
      obtain ⟨htext, hinput⟩ := splitOnce_eq_some.mp hclose
      have hparens : parens text = parens toInput ++ ')' :: parens afterInput := by
        rw [htext, parens_append, parens_append, List.append_assoc]
        rfl
      have hiff : ClosesFirst text ↔ '(' ∉ toInput.toList := by
        rw [ClosesFirst, and_iff_right hmem, hparens]
        constructor
        · intro hhead hinside
          have hne := List.ne_nil_of_mem (mem_parens.mpr hinside)
          obtain ⟨c, rest, hc⟩ := List.exists_cons_of_ne_nil hne
          rw [hc] at hhead
          obtain rfl := Option.some.inj hhead
          have hclosing : ')' ∈ parens toInput := by simp [hc]
          exact hinput (List.mem_filter.mp hclosing).1
        · intro hinside
          have hnil : parens toInput = [] := by
            apply parens_eq_nil
            intro c hc
            exact ⟨fun h => hinside (h ▸ hc), fun h => hinput (h ▸ hc)⟩
          rw [hnil]
          rfl
      rw [hiff, ← stripPrefix_none_iff hopen hclose]
      cases hstrip : stripPrefix toInput (name ++ "(") <;> simp [hstrip]

theorem parseRpcText_panics_iff (text : String) :
    parseRpcText text = .error .sliceOutOfRange ↔ startsWith (trim text) "rpc" ∧ ClosesFirst text := by
  have hparens : parens (trim (trimStart (trim text) "rpc")) = parens text := by
    rw [parens_trim, parens_trimStart, parens_trim]
  rw [parseRpcText]
  cases hstarts : startsWith (trim text) "rpc" with
  | false => simp
  | true =>
    rw [← closesFirst_iff hparens, ← parseHeader_panics_iff]
    simp

end Panics

end RepoGraph.ProtoParser
