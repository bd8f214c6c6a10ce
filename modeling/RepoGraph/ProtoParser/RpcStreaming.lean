import RepoGraph.ProtoParser.RpcText

/-! What is read off an rpc declaration, and the declarations of which the streaming flags and the text fallback
tell the truth. -/

namespace RepoGraph.ProtoParser

open Lib.Text

def IsBlank (s : String) : Prop := ∀ c ∈ s.toList, isWhitespace c

def IsWord (s : String) : Prop := s ≠ "" ∧ ∀ c ∈ s.toList, isWhitespace c = false ∧ isParen c = false

structure RpcSide where
  before : String
  keyword : Option String
  typeName : String
  after : String
  blank_before : IsBlank before
  gap_keyword : ∀ gap ∈ keyword, gap ≠ "" ∧ IsBlank gap
  word_type : IsWord typeName
  blank_after : IsBlank after

namespace RpcSide

def streamed (side : RpcSide) : Bool := side.keyword.isSome

def marker (side : RpcSide) : String := side.keyword.elim "" ("stream" ++ ·)

def inner (side : RpcSide) : String := side.before ++ (side.marker ++ side.typeName) ++ side.after

end RpcSide

structure RpcDecl where
  afterRpc : String
  name : String
  afterName : String
  request : RpcSide
  beforeReturns : String
  afterReturns : String
  response : RpcSide
  rest : String
  gap_rpc : afterRpc ≠ "" ∧ IsBlank afterRpc
  word_name : IsWord name
  blank_name : IsBlank afterName
  blank_before : IsBlank beforeReturns
  blank_after : IsBlank afterReturns

namespace RpcDecl

def fromName (d : RpcDecl) : String :=
  d.name ++ d.afterName ++ "(" ++ d.request.inner ++ ")" ++ d.beforeReturns ++
    "returns" ++ d.afterReturns ++ "(" ++ d.response.inner ++ ")" ++ d.rest

def text (d : RpcDecl) : String := "rpc" ++ d.afterRpc ++ d.fromName

end RpcDecl

def streamEarly (s : String) : Bool := containsBefore s "stream" "returns"

def hasReturns (s : String) : Bool := containsStr s "returns"

section Flags

lemma streamingFlags_eq (text : String) :
    streamingFlags text = (streamEarly text, (afterReturn text).any streamEarly) := by
  obtain ⟨hfirst, hsecond⟩ := pieces_contain (by decide : "returns" ≠ "") text "stream"
  have hsecond' : ((splitStr text "returns")[1]?.any (containsStr · "stream")) =
      (afterReturn text).any streamEarly := by
    rw [hsecond, afterReturn]
    cases splitOnceStr text "returns" <;> rfl
  rw [streamingFlags]
  simp only [hfirst, hsecond']
  split
  · rfl
  · rename_i hnone
    have hearly : streamEarly text = false := by
      rw [← Bool.not_eq_true]
      exact fun h => hnone (containsStr_of_containsBefore (by decide) h)
    have hlate : (afterReturn text).any streamEarly = false := by
      rw [← Bool.not_eq_true]
      intro h
      obtain ⟨rest, hrest, hstream⟩ := (Option.any_eq_true ..).mp h
      obtain ⟨⟨before, after⟩, hsplit, rfl⟩ := Option.map_eq_some_iff.mp hrest
      apply hnone
      refine @containsStr_of_piece text "stream" (before ++ "returns") after "" ?_ ?_
      · exact containsStr_of_containsBefore (by decide) hstream
      · rw [splitOnceStr_eq_append (by decide) hsplit]
        simp
    rw [hearly, hlate]

def IsSeparator (gap : String) : Prop := gap ≠ "" ∧ ∀ c ∈ gap.toList, isWhitespace c ∨ isParen c

variable {gap u v : String}

lemma IsSeparator.isGap (h : IsSeparator gap) : IsGap "stream" gap ∧ IsGap "returns" gap := by
  have hletters : ∀ c ∈ "stream".toList ++ "returns".toList, isWhitespace c = false ∧ isParen c = false := by
    apply forall_mem_of_all
    decide
  refine ⟨⟨h.1, fun c hc hmem => ?_⟩, ⟨h.1, fun c hc hmem => ?_⟩⟩
  · have hletter := hletters c (by simp only [List.mem_append, hmem, true_or])
    simpa [hletter.1, hletter.2] using h.2 c hc
  · have hletter := hletters c (by simp only [List.mem_append, hmem, or_true])
    simpa [hletter.1, hletter.2] using h.2 c hc

lemma streamEarly_gap (h : IsSeparator gap) (u v : String) :
    streamEarly (u ++ gap ++ v) = (streamEarly u || (!hasReturns u && streamEarly v)) :=
  containsBefore_gap (by decide) (by decide) h.isGap.2 h.isGap.1 u v

lemma afterReturn_gap (h : IsSeparator gap) (u v : String) :
    afterReturn (u ++ gap ++ v) = (afterReturn u).elim (afterReturn v) fun late => some (late ++ gap ++ v) := by
  rw [afterReturn, splitOnceStr_gap (by decide) h.isGap.2, afterReturn, afterReturn]
  cases splitOnceStr u "returns" with
  | none => cases splitOnceStr v "returns" <;> rfl
  | some q => rfl

lemma hasReturns_eq (s : String) : hasReturns s = (afterReturn s).isSome := by
  rw [hasReturns, containsStr_eq, afterReturn, Option.isSome_map]

lemma separator_of_blank {w : String} (h : w ≠ "" ∧ IsBlank w) : IsSeparator w :=
  ⟨h.1, fun c hc => Or.inl (h.2 c hc)⟩

lemma separator_of_parens {w p w' : String} (hw : IsBlank w) (hp : p ≠ "" ∧ ∀ c ∈ p.toList, isParen c)
    (hw' : IsBlank w') :
    IsSeparator (w ++ p ++ w') := by
  constructor
  · intro hnil
    have hlists := congrArg String.toList hnil
    simp [hp.1] at hlists
  · intro c hc
    simp only [String.toList_append, List.mem_append] at hc
    rcases hc with (hc | hc) | hc
    · exact Or.inl (hw c hc)
    · exact Or.inr (hp.2 c hc)
    · exact Or.inl (hw' c hc)

lemma open_parens : "(" ≠ "" ∧ ∀ c ∈ "(".toList, isParen c := ⟨by decide, forall_mem_of_all (by decide)⟩

lemma close_parens : ")" ≠ "" ∧ ∀ c ∈ ")".toList, isParen c := ⟨by decide, forall_mem_of_all (by decide)⟩

lemma isBlank_empty : IsBlank "" := by simp [IsBlank]

lemma streamEarly_keywords : streamEarly "stream" = true ∧ streamEarly "returns" = false ∧
    streamEarly "rpc" = false ∧ streamEarly "" = false := by
  decide +kernel

lemma afterReturn_keywords : afterReturn "stream" = none ∧ afterReturn "returns" = some "" ∧
    afterReturn "rpc" = none ∧ afterReturn "" = none := by
  decide +kernel

section Side

variable (side : RpcSide)

lemma streamEarly_marker (v : String) : streamEarly (side.marker ++ v) = (side.streamed || streamEarly v) := by
  cases hkeyword : side.keyword with
  | none => simp [RpcSide.marker, RpcSide.streamed, hkeyword]
  | some gap =>
    have hgap := separator_of_blank (side.gap_keyword gap hkeyword)
    simp [RpcSide.marker, RpcSide.streamed, hkeyword, streamEarly_gap hgap, streamEarly_keywords.1]

lemma afterReturn_marker (v : String) : afterReturn (side.marker ++ v) = afterReturn v := by
  cases hkeyword : side.keyword with
  | none => simp [RpcSide.marker, hkeyword]
  | some gap =>
    have hgap := separator_of_blank (side.gap_keyword gap hkeyword)
    simp [RpcSide.marker, hkeyword, afterReturn_gap hgap, afterReturn_keywords.1]

end Side

namespace RpcDecl

variable (d : RpcDecl)

def gapRequest : String := d.afterName ++ "(" ++ d.request.before

def gapReturns : String := d.request.after ++ ")" ++ d.beforeReturns

def gapResponse : String := d.afterReturns ++ "(" ++ d.response.before

def fromResponse : String := d.response.marker ++ (d.response.typeName ++ (d.response.after ++ ")") ++ d.rest)

def fromReturns : String := "returns" ++ d.gapResponse ++ d.fromResponse

def fromRequest : String := d.request.marker ++ (d.request.typeName ++ d.gapReturns ++ d.fromReturns)

lemma fromName_eq : d.fromName = d.name ++ d.gapRequest ++ d.fromRequest := by
  simp only [fromName, gapRequest, fromRequest, gapReturns, fromReturns, gapResponse, fromResponse, RpcSide.inner,
    String.append_assoc]

lemma separator_request : IsSeparator d.gapRequest := 
  separator_of_parens d.blank_name open_parens d.request.blank_before

lemma separator_returns : IsSeparator d.gapReturns := 
  separator_of_parens d.request.blank_after close_parens d.blank_before

lemma separator_response : IsSeparator d.gapResponse :=
  separator_of_parens d.blank_after open_parens d.response.blank_before

lemma separator_rest : IsSeparator (d.response.after ++ ")") := by
  have hparen := separator_of_parens d.response.blank_after close_parens isBlank_empty
  rwa [String.append_empty] at hparen

lemma streamEarly_fromReturns : streamEarly d.fromReturns = false := by
  have hreturns : hasReturns "returns" = true := by
    rw [hasReturns_eq, afterReturn_keywords.2.1]
    rfl
  rw [fromReturns, streamEarly_gap d.separator_response, streamEarly_keywords.2.1, hreturns]
  rfl

lemma afterReturn_fromReturns : afterReturn d.fromReturns = some (d.gapResponse ++ d.fromResponse) := by
  rw [fromReturns, afterReturn_gap d.separator_response, afterReturn_keywords.2.1]
  simp

lemma streamEarly_fromRequest :
    streamEarly d.fromRequest = (d.request.streamed || streamEarly d.request.typeName) := by
  rw [fromRequest, streamEarly_marker, streamEarly_gap d.separator_returns,
    streamEarly_fromReturns, Bool.and_false, Bool.or_false]

lemma afterReturn_fromRequest : afterReturn d.fromRequest =
    (afterReturn d.request.typeName).elim (some (d.gapResponse ++ d.fromResponse)) fun late =>
      some (late ++ d.gapReturns ++ d.fromReturns) := by
  rw [fromRequest, afterReturn_marker, afterReturn_gap d.separator_returns, afterReturn_fromReturns]

lemma streamEarly_response : streamEarly (d.gapResponse ++ d.fromResponse) =
    (d.response.streamed || (streamEarly d.response.typeName ||
      (!hasReturns d.response.typeName && streamEarly d.rest))) := by
  have hcut := streamEarly_gap d.separator_response "" d.fromResponse
  have hreturns : hasReturns "" = false := by
    rw [hasReturns_eq, afterReturn_keywords.2.2.2]
    rfl
  rw [String.empty_append, streamEarly_keywords.2.2.2, hreturns] at hcut
  rw [hcut, fromResponse, streamEarly_marker, streamEarly_gap d.separator_rest]
  rfl

/-- The client flag that is read: the keyword, or the letters of it in the words before `returns`. -/
def clientRead : Bool :=
  streamEarly d.name || (!hasReturns d.name && (d.request.streamed || streamEarly d.request.typeName))

/-- The server flag that is read, by the word in which the first `returns` stands. -/
def serverRead : Bool :=
  match afterReturn d.name, afterReturn d.request.typeName with
  | some late, _ => streamEarly late ||
    (!hasReturns late && (d.request.streamed || streamEarly d.request.typeName))
  | none, some late => streamEarly late
  | none, none =>
    d.response.streamed || (streamEarly d.response.typeName ||
      (!hasReturns d.response.typeName && streamEarly d.rest))

theorem streamingFlags_text : streamingFlags d.text = (d.clientRead, d.serverRead) := by
  have hearly : streamEarly "rpc" = false := streamEarly_keywords.2.2.1
  have hlate : afterReturn "rpc" = none := afterReturn_keywords.2.2.1
  have hreturns : hasReturns "rpc" = false := by
    rw [hasReturns_eq, hlate]
    rfl
  have hrpc := separator_of_blank d.gap_rpc
  rw [streamingFlags_eq, text, streamEarly_gap hrpc, afterReturn_gap hrpc, hearly, hreturns, hlate, fromName_eq,
    streamEarly_gap d.separator_request, afterReturn_gap d.separator_request, streamEarly_fromRequest,
    afterReturn_fromRequest]
  refine Prod.ext ?_ ?_
  · simp [clientRead]
  · rw [serverRead]
    cases afterReturn d.name with
    | some late =>
      simp only [Option.elim_none, Option.elim_some, Option.any_some]
      rw [streamEarly_gap d.separator_request, streamEarly_fromRequest]
    | none =>
      cases afterReturn d.request.typeName with
      | some late =>
        simp only [Option.elim_none, Option.elim_some, Option.any_some]
        rw [streamEarly_gap d.separator_returns, streamEarly_fromReturns, Bool.and_false, Bool.or_false]
      | none =>
        simp only [Option.elim_none, Option.any_some]
        exact d.streamEarly_response

end RpcDecl

end Flags

section Fallback

lemma IsWord.isSolid {w : String} (h : IsWord w) : IsSolid isWhitespace w := by
  have hne : w.toList ≠ [] := by simpa using h.1
  constructor
  · obtain ⟨c, rest, hc⟩ := List.exists_cons_of_ne_nil hne
    exact ⟨c, rest, hc, (h.2 c (by simp [hc])).1⟩
  · refine ⟨w.toList.dropLast, w.toList.getLast hne, (List.dropLast_append_getLast hne).symm, ?_⟩
    exact (h.2 _ (List.getLast_mem hne)).1

def NoParens (s : String) : Prop := ∀ c ∈ s.toList, isParen c = false

lemma NoParens.append {s t : String} (hs : NoParens s) (ht : NoParens t) : NoParens (s ++ t) := by
  intro c hc
  rw [String.toList_append, List.mem_append] at hc
  exact hc.elim (hs c) (ht c)

lemma NoParens.not_open {s : String} (h : NoParens s) : '(' ∉ s.toList := fun hmem => absurd (h _ hmem) (by decide)

lemma NoParens.not_close {s : String} (h : NoParens s) : ')' ∉ s.toList :=
  fun hmem => absurd (h _ hmem) (by decide)

lemma IsWord.noParens {w : String} (h : IsWord w) : NoParens w := fun c hc => (h.2 c hc).2

lemma IsBlank.noParens {w : String} (h : IsBlank w) : NoParens w := by
  intro c hc
  have hblank := h c hc
  rw [Bool.eq_false_iff]
  intro hparen
  rw [isParen, Bool.or_eq_true, decide_eq_true_eq, decide_eq_true_eq] at hparen
  rcases hparen with rfl | rfl <;> revert hblank <;> decide

section Side

variable (side : RpcSide)

lemma noParens_marker : NoParens side.marker := by
  cases hkeyword : side.keyword with
  | none => simp [RpcSide.marker, hkeyword, NoParens]
  | some gap =>
    have hstream : NoParens "stream" := by
      apply forall_mem_of_all
      decide
    simpa [RpcSide.marker, hkeyword] using hstream.append (side.gap_keyword gap hkeyword).2.noParens

lemma noParens_inner : NoParens side.inner :=
  (side.blank_before.noParens.append ((noParens_marker side).append side.word_type.noParens)).append
    side.blank_after.noParens

lemma trim_inner : trim side.inner = side.marker ++ side.typeName := by
  have hsolid : IsSolid isWhitespace (side.marker ++ side.typeName) := by
    cases hkeyword : side.keyword with
    | none => simpa [RpcSide.marker, hkeyword] using side.word_type.isSolid
    | some gap =>
      have hstream : IsSolid isWhitespace "stream" :=
        ⟨⟨'s', "tream".toList, rfl, by decide⟩, "strea".toList, 'm', rfl, by decide⟩
      simpa [RpcSide.marker, hkeyword] using hstream.append gap side.word_type.isSolid
  exact trimBy_core hsolid side.blank_before side.blank_after

lemma startsWith_blank {w start : String} {c : Char} {rest : List Char} (hstart : start.toList = c :: rest)
    (hc : isWhitespace c = false) (hw : w ≠ "" ∧ IsBlank w) (v : String) : startsWith (w ++ v) start = false := by
  obtain ⟨b, more, hb⟩ := List.exists_cons_of_ne_nil (l := w.toList) (by simpa using hw.1)
  have hblank := hw.2 b (by simp [hb])
  have hne : c ≠ b := by
    rintro rfl
    simp [hc] at hblank
  rw [startsWith, hstart, String.toList_append, hb]
  simp [List.isPrefixOf, hne]

lemma streamedType_inner : streamedType (trim side.inner) = (side.streamed, side.typeName) ↔
    side.streamed ∨ startsWith side.typeName "stream" = false := by
  rw [trim_inner]
  cases hkeyword : side.keyword with
  | none =>
    cases hstarts : startsWith side.typeName "stream" <;>
      simp [RpcSide.marker, RpcSide.streamed, hkeyword, streamedType, hstarts]
  | some gap =>
    have hgap := side.gap_keyword gap hkeyword
    have htaken : trimStart ("stream" ++ (gap ++ side.typeName)) "stream" = gap ++ side.typeName :=
      trimStart_once (by decide) (@startsWith_blank gap "stream" 's' _ rfl (by decide) hgap _)
    have htrim : trim (gap ++ side.typeName) = side.typeName := by
      have hcore := trimBy_core side.word_type.isSolid hgap.2 isBlank_empty
      rwa [String.append_empty] at hcore
    have hstarts : startsWith ("stream" ++ (gap ++ side.typeName)) "stream" = true := startsWith_iff.mpr ⟨_, rfl⟩
    simp [RpcSide.marker, RpcSide.streamed, hkeyword, streamedType, String.append_assoc, htaken, htrim, hstarts]

end Side

lemma firstParens_eq {front inside : String} (hfront : '(' ∉ front.toList)
    (hinside : NoParens inside) (back : String) :
    firstParens (front ++ "(" ++ (inside ++ ")" ++ back)) = some inside := by
  have hopen : splitOnce (front ++ "(" ++ (inside ++ ")" ++ back)) '(' = some (front, inside ++ ")" ++ back) :=
    splitOnce_eq_some.mpr ⟨rfl, hfront⟩
  have hclose : splitOnce (inside ++ ")" ++ back) ')' = some (inside, back) :=
    splitOnce_eq_some.mpr ⟨rfl, hinside.not_close⟩
  rw [firstParens, hopen, Option.bind_some, hclose]
  rfl

namespace RpcDecl

variable (d : RpcDecl)

def withRest (d : RpcDecl) (rest : String) : RpcDecl := { d with rest := rest }

def outputSide : RpcSide := if hasReturns d.name then d.request else d.response

lemma noParens_of_afterReturn {s late : String} (hs : NoParens s)
    (h : afterReturn s = some late) : NoParens late := by
  obtain ⟨⟨before, after⟩, hsplit, rfl⟩ := Option.map_eq_some_iff.mp h
  intro c hc
  apply hs c
  rw [splitOnceStr_eq_append (by decide) hsplit, String.toList_append]
  exact List.mem_append_right _ hc

lemma not_open_gapReturns {late : String} (hlate : NoParens late) :
    '(' ∉ (late ++ d.request.after ++ ")" ++ d.beforeReturns ++ "returns" ++ d.afterReturns).toList := by
  simp [hlate.not_open, d.request.blank_after.noParens.not_open, d.blank_before.noParens.not_open,
    d.blank_after.noParens.not_open]

lemma outputText_fromName : outputText d.fromName = some d.outputSide.inner := by
  have hname := d.word_name.noParens
  have htype := d.request.word_type.noParens
  rw [outputText, fromName_eq, afterReturn_gap d.separator_request, afterReturn_fromRequest,
    outputSide, hasReturns_eq]
  cases hlate : afterReturn d.name with
  | some late =>
    have hfront := (noParens_of_afterReturn hname hlate).append d.blank_name.noParens
    simp only [Option.elim_some, Option.bind_some, Option.isSome_some, if_true]
    rw [← firstParens_eq hfront.not_open (noParens_inner d.request) (d.beforeReturns ++ d.fromReturns)]
    congr 1
    simp only [gapRequest, fromRequest, gapReturns, RpcSide.inner, String.append_assoc]
  | none =>
    simp only [Option.elim_none, Option.isSome_none, Bool.false_eq_true, if_false]
    cases hmore : afterReturn d.request.typeName with
    | some late =>
      have hfront := d.not_open_gapReturns (noParens_of_afterReturn htype hmore)
      simp only [Option.elim_some, Option.bind_some]
      rw [← firstParens_eq hfront (noParens_inner d.response) d.rest]
      congr 1
      simp only [gapReturns, fromReturns, gapResponse, fromResponse, RpcSide.inner, String.append_assoc]
    | none =>
      simp only [Option.elim_none, Option.bind_some]
      rw [← firstParens_eq d.blank_after.noParens.not_open (noParens_inner d.response) d.rest]
      congr 1
      simp only [gapResponse, fromResponse, RpcSide.inner, String.append_assoc]

lemma parseHeader_fromName : parseHeader d.fromName =
    .ok (some (headerOf (d.name ++ d.afterName) d.request.inner d.outputSide.inner)) := by
  have hfront : NoParens (d.name ++ d.afterName) := d.word_name.noParens.append d.blank_name.noParens
  let back := d.beforeReturns ++ "returns" ++ d.afterReturns ++ "(" ++ d.response.inner ++ ")" ++ d.rest
  have hback : d.fromName = d.name ++ d.afterName ++ "(" ++ d.request.inner ++ ")" ++ back := by
    simp only [fromName, back, String.append_assoc]
  have hopen : splitOnce d.fromName '(' = some (d.name ++ d.afterName, d.request.inner ++ ")" ++ back) := by
    apply splitOnce_eq_some.mpr
    refine ⟨?_, hfront.not_open⟩
    rw [hback]
    simp only [String.append_assoc]
    rfl
  have hclose : splitOnce d.fromName ')' = some (d.name ++ d.afterName ++ "(" ++ d.request.inner, back) := by
    apply splitOnce_eq_some.mpr
    refine ⟨hback, ?_⟩
    have hparen : ')' ∉ "(".toList := by decide
    rw [String.toList_append, String.toList_append]
    simp only [List.mem_append, hfront.not_close, hparen, (noParens_inner d.request).not_close,
      or_self, not_false_eq_true]
  have hstrip : stripPrefix (d.name ++ d.afterName ++ "(" ++ d.request.inner) (d.name ++ d.afterName ++ "(") =
      some d.request.inner := stripPrefix_eq_some.mpr rfl
  rw [parseHeader_eq, hopen, hclose]
  simp only [hstrip, outputText_fromName, Option.map_some]

lemma parseRpcText_text : ∃ rest, parseRpcText d.text = parseHeader (d.withRest rest).fromName := by
  let inside := d.afterRpc ++ d.name ++ d.afterName ++ "(" ++ d.request.inner ++ ")" ++
    d.beforeReturns ++ "returns" ++ d.afterReturns ++ "(" ++ d.response.inner
  let nameInside := d.afterName ++ "(" ++ d.request.inner ++ ")" ++ d.beforeReturns ++
    "returns" ++ d.afterReturns ++ "(" ++ d.response.inner
  have hrpc : IsSolid isWhitespace "rpc" := ⟨⟨'r', "pc".toList, rfl, by decide⟩, "rp".toList, 'c', rfl, by decide⟩
  have hclose : IsSolid isWhitespace ")" := ⟨⟨')', [], rfl, by decide⟩, [], ')', rfl, by decide⟩
  have htrim : trim d.text = "rpc" ++ (d.afterRpc ++ (d.withRest (trimEndBy isWhitespace d.rest)).fromName) := by
    have hcore := trimBy_solid (hrpc.append inside hclose) isBlank_empty d.rest
    have htext : d.text = "" ++ ("rpc" ++ inside ++ ")") ++ d.rest := by
      simp only [text, fromName, inside, String.append_assoc, String.empty_append]
    rw [trim, htext, hcore]
    simp only [inside, withRest, fromName, String.append_assoc]
  have hname : ∀ rest, trim (d.afterRpc ++ (d.withRest rest).fromName) =
      (d.withRest (trimEndBy isWhitespace rest)).fromName := by
    intro rest
    have hcore := trimBy_solid (d.word_name.isSolid.append nameInside hclose) d.gap_rpc.2 rest
    have htext : d.afterRpc ++ (d.withRest rest).fromName = d.afterRpc ++
        (d.name ++ nameInside ++ ")") ++ rest := by
      simp only [withRest, fromName, nameInside, String.append_assoc]
    rw [trim, htext, hcore]
    simp only [nameInside, withRest, fromName, String.append_assoc]
  have htaken := trimStart_once (by decide : "rpc" ≠ "")
    (@startsWith_blank d.afterRpc "rpc" 'r' _ rfl (by decide) d.gap_rpc
    (d.withRest (trimEndBy isWhitespace d.rest)).fromName)
  have hstarts : startsWith (trim d.text) "rpc" = true := startsWith_iff.mpr ⟨_, htrim⟩
  refine ⟨trimEndBy isWhitespace (trimEndBy isWhitespace d.rest), ?_⟩
  rw [parseRpcText]
  simp only [hstarts, Bool.not_true, Bool.false_eq_true, if_false]
  rw [htrim, htaken, hname]

theorem parseRpcText_eq : parseRpcText d.text =
    .ok (some (headerOf (d.name ++ d.afterName) d.request.inner d.outputSide.inner)) := by
  obtain ⟨rest, hrest⟩ := d.parseRpcText_text
  rw [hrest, parseHeader_fromName]
  rfl

end RpcDecl

end Fallback

section Tree

structure SyntaxNode.Lists (node : SyntaxNode) (d : RpcDecl) : Prop where
  text : node.text = d.text
  names : ∃ more, (node.children.filter isNameNode).map SyntaxNode.text = d.name :: more
  types : ∃ more, (node.children.filter isTypeNode).map SyntaxNode.text =
    d.request.typeName :: d.response.typeName :: more

variable {parts : MethodParts} {children : List SyntaxNode}

lemma not_isTypeNode {node : SyntaxNode} (h : isNameNode node) : isTypeNode node = false := by
  simp only [isNameNode, List.contains_iff_mem, List.mem_cons, List.not_mem_nil, or_false] at h
  rcases h with h | h <;> rw [isTypeNode, h] <;> decide

lemma add_name (child : SyntaxNode) : (parts.add child).name =
    if isNameNode child ∧ parts.name = "" then child.text else parts.name := by
  unfold MethodParts.add
  grind

lemma add_inputType (child : SyntaxNode) : (parts.add child).inputType =
    if isTypeNode child ∧ parts.inputType = "" then child.text else parts.inputType := by
  have hkinds := @not_isTypeNode child
  unfold MethodParts.add
  grind

lemma add_outputType (child : SyntaxNode) : (parts.add child).outputType =
    if isTypeNode child ∧ parts.inputType ≠ "" ∧ parts.outputType = "" then child.text else parts.outputType := by
  have hkinds := @not_isTypeNode child
  unfold MethodParts.add
  grind

lemma foldl_name_of_ne (h : parts.name ≠ "") : (children.foldl MethodParts.add parts).name = parts.name := by
  induction children generalizing parts with
  | nil => rfl
  | cons child children ih =>
    have hkeep : (parts.add child).name = parts.name := by simp [add_name, h]
    rw [List.foldl_cons, ih (by rwa [hkeep]), hkeep]

lemma foldl_name {name : String} {more : List String} (h : parts.name = "") (hname : name ≠ "")
    (hlist : (children.filter isNameNode).map SyntaxNode.text = name :: more) :
    (children.foldl MethodParts.add parts).name = name := by
  induction children generalizing parts with
  | nil => simp at hlist
  | cons child children ih =>
    rw [List.foldl_cons]
    by_cases hchild : isNameNode child
    · rw [List.filter_cons_of_pos hchild, List.map_cons] at hlist
      have hadd : (parts.add child).name = name := by simp [add_name, hchild, h, (List.cons.inj hlist).1]
      rw [foldl_name_of_ne (by rwa [hadd]), hadd]
    · rw [List.filter_cons_of_neg hchild] at hlist
      exact ih (by simp [add_name, hchild, h]) hlist

lemma foldl_inputType_of_ne (h : parts.inputType ≠ "") :
    (children.foldl MethodParts.add parts).inputType = parts.inputType := by
  induction children generalizing parts with
  | nil => rfl
  | cons child children ih =>
    have hkeep : (parts.add child).inputType = parts.inputType := by simp [add_inputType, h]
    rw [List.foldl_cons, ih (by rwa [hkeep]), hkeep]

lemma foldl_outputType_of_ne (h : parts.outputType ≠ "") :
    (children.foldl MethodParts.add parts).outputType = parts.outputType := by
  induction children generalizing parts with
  | nil => rfl
  | cons child children ih =>
    have hkeep : (parts.add child).outputType = parts.outputType := by simp [add_outputType, h]
    rw [List.foldl_cons, ih (by rwa [hkeep]), hkeep]

lemma foldl_outputType {output : String} {more : List String} (hinput : parts.inputType ≠ "")
    (h : parts.outputType = "")
    (houtput : output ≠ "") (hlist : (children.filter isTypeNode).map SyntaxNode.text = output :: more) :
    (children.foldl MethodParts.add parts).outputType = output := by
  induction children generalizing parts with
  | nil => simp at hlist
  | cons child children ih =>
    rw [List.foldl_cons]
    by_cases hchild : isTypeNode child
    · rw [List.filter_cons_of_pos hchild, List.map_cons] at hlist
      have hadd : (parts.add child).outputType = output := by
        simp [add_outputType, hchild, hinput, h, (List.cons.inj hlist).1]
      rw [foldl_outputType_of_ne (by rwa [hadd]), hadd]
    · rw [List.filter_cons_of_neg hchild] at hlist
      exact ih (by simp [add_inputType, hchild, hinput]) (by simp [add_outputType, hchild, h]) hlist

lemma foldl_types {input output : String} {more : List String}
    (hempty : parts.inputType = "" ∧ parts.outputType = "") (hinput : input ≠ "") (houtput : output ≠ "")
    (hlist : (children.filter isTypeNode).map SyntaxNode.text = input :: output :: more) :
    (children.foldl MethodParts.add parts).inputType = input ∧
      (children.foldl MethodParts.add parts).outputType = output := by
  induction children generalizing parts with
  | nil => simp at hlist
  | cons child children ih =>
    rw [List.foldl_cons]
    by_cases hchild : isTypeNode child
    · rw [List.filter_cons_of_pos hchild, List.map_cons] at hlist
      obtain ⟨htext, hrest⟩ := List.cons.inj hlist
      have hadd : (parts.add child).inputType = input := by simp [add_inputType, hchild, hempty.1, htext]
      have hkeep : (parts.add child).outputType = "" := by simp [add_outputType, hempty.1, hempty.2]
      rw [foldl_inputType_of_ne (by rwa [hadd]), hadd]
      exact ⟨rfl, foldl_outputType (by rwa [hadd]) hkeep houtput hrest⟩
    · rw [List.filter_cons_of_neg hchild] at hlist
      exact ih ⟨by simp [add_inputType, hchild, hempty.1], by simp [add_outputType, hchild, hempty.2]⟩ hlist

lemma extractMethod_eq {node : SyntaxNode} {d : RpcDecl} (h : node.Lists d) (service : String) :
    ∃ m, extractMethod node service = .ok (some m) ∧ m.name = d.name ∧ m.inputType = d.request.typeName ∧
      m.outputType = d.response.typeName ∧ m.clientStreaming = d.clientRead ∧
      m.serverStreaming = d.serverRead := by
  obtain ⟨moreNames, hnames⟩ := h.names
  obtain ⟨moreTypes, htypes⟩ := h.types
  have hname := @foldl_name {} node.children _ _ rfl d.word_name.1 hnames
  obtain ⟨hinput, houtput⟩ :=
    @foldl_types {} node.children _ _ _ ⟨rfl, rfl⟩ d.request.word_type.1 d.response.word_type.1 htypes
  refine ⟨{ name := d.name, fullName := s!"{service}.{d.name}", inputType := d.request.typeName
            outputType := d.response.typeName, clientStreaming := d.clientRead, serverStreaming := d.serverRead
            options := (node.children.foldl MethodParts.add {}).options, line := node.row + 1 },
              ?_, rfl, rfl, rfl, rfl, rfl⟩
  unfold extractMethod
  simp only [h.text, d.streamingFlags_text, hname, hinput, houtput, d.word_name.1, d.request.word_type.1,
    d.response.word_type.1, or_self, if_false, pure_bind]
  rfl

end Tree

section Outcome

/-- The flags and types read off the tree are those of the declaration, and the fallback reads the same. -/
def ReadRight (d : RpcDecl) (node : SyntaxNode) (service : String) : Prop :=
  ∃ m, extractMethod node service = .ok (some m) ∧ m.inputType = d.request.typeName ∧
    m.outputType = d.response.typeName ∧ m.clientStreaming = d.request.streamed ∧
    m.serverStreaming = d.response.streamed ∧
    parseRpcText d.text = .ok (some ⟨m.name, m.inputType, m.outputType, m.clientStreaming, m.serverStreaming⟩)

namespace RpcDecl

/-- No name, type or body passes for the keyword `stream`, and none for the word `returns` with another effect. -/
def Unmistaken (d : RpcDecl) : Prop :=
  match afterReturn d.name, afterReturn d.request.typeName with
  | none, none =>
    (d.request.streamed ∨ streamEarly d.name = false ∧ streamEarly d.request.typeName = false) ∧
      (d.response.streamed ∨ streamEarly d.response.typeName = false ∧
        (hasReturns d.response.typeName ∨ streamEarly d.rest = false))
  | none, some late =>
    -- the server flag is read off the rest of the request type
    (d.request.streamed ∨ streamEarly d.name = false ∧ streamEarly d.request.typeName = false) ∧
      streamEarly late = d.response.streamed ∧
      (d.response.streamed ∨ startsWith d.response.typeName "stream" = false)
  | some late, _ =>
    -- the fallback reads the request for the response
    streamEarly d.name = d.request.streamed ∧ d.response.streamed = d.request.streamed ∧
      d.response.typeName = d.request.typeName ∧
      if d.request.streamed then streamEarly late ∨ hasReturns late = false
      else startsWith d.request.typeName "stream" = false ∧ streamEarly late = false ∧
        (hasReturns late ∨ streamEarly d.request.typeName = false)

lemma streamEarly_of_startsWith {s : String} (h : startsWith s "stream") : streamEarly s := by
  obtain ⟨rest, rfl⟩ := startsWith_iff.mp h
  have hstream : containsStr "stream" "stream" = true := by rfl
  -- no `returns` begins inside `stream`
  have hskip : ∀ l : List Char, splitFirstSeq ['r', 'e', 't', 'u', 'r', 'n', 's']
      ('s' :: 't' :: 'r' :: 'e' :: 'a' :: 'm' :: l) =
      (splitFirstSeq ['r', 'e', 't', 'u', 'r', 'n', 's'] l).map fun q =>
        ('s' :: 't' :: 'r' :: 'e' :: 'a' :: 'm' :: q.1, q.2) := by
    intro l
    simp [splitFirstSeq, List.isPrefixOf, Function.comp_def]
  have hsplit : splitOnceStr ("stream" ++ rest) "returns" = (splitOnceStr rest "returns").map fun q =>
      ("stream" ++ q.1, q.2) := by
    have hlist : ("stream" ++ rest).toList = 's' :: 't' :: 'r' :: 'e' :: 'a' :: 'm' :: rest.toList := by
      rw [String.toList_append]
      rfl
    have hpattern : "returns".toList = ['r', 'e', 't', 'u', 'r', 'n', 's'] := rfl
    rw [splitOnceStr, splitOnceStr, hlist, hpattern, hskip, Option.map_map, Option.map_map]
    congr 1
    funext q
    simp only [Function.comp_apply]
    congr 1
    apply String.toList_inj.mp
    rw [String.toList_append, String.toList_ofList, String.toList_ofList, String.toList_ofList]
    rfl
  rw [streamEarly, containsBefore, beforeFirst, hsplit]
  cases splitOnceStr rest "returns" with
  | none => exact containsStr_of_piece hstream (by simp : "stream" ++ rest = "" ++ "stream" ++ rest)
  | some q => exact containsStr_of_piece hstream (by simp : "stream" ++ q.1 = "" ++ "stream" ++ q.1)

lemma readRight_iff {d : RpcDecl} {node : SyntaxNode} (h : node.Lists d) (service : String) :
    ReadRight d node service ↔ d.clientRead = d.request.streamed ∧ d.serverRead = d.response.streamed ∧
      (d.request.streamed ∨ startsWith d.request.typeName "stream" = false) ∧
      if hasReturns d.name then d.response.streamed = d.request.streamed ∧ d.response.typeName = d.request.typeName
      else d.response.streamed ∨ startsWith d.response.typeName "stream" = false := by
  obtain ⟨m, hm, hname, hinput, houtput, hclient, hserver⟩ := extractMethod_eq h service
  have htrim : trim (d.name ++ d.afterName) = d.name := by
    have hcore := trimBy_core d.word_name.isSolid isBlank_empty d.blank_name
    rwa [String.empty_append] at hcore
  have hfallback : parseRpcText d.text =
        .ok (some ⟨d.name, d.request.typeName, d.response.typeName, d.request.streamed, d.response.streamed⟩) ↔
      streamedType (trim d.request.inner) = (d.request.streamed, d.request.typeName) ∧
        streamedType (trim d.outputSide.inner) = (d.response.streamed, d.response.typeName) := by
    rw [d.parseRpcText_eq, headerOf, htrim]
    generalize streamedType (trim d.request.inner) = request
    generalize streamedType (trim d.outputSide.inner) = response
    obtain ⟨requestStreamed, requestType⟩ := request
    obtain ⟨responseStreamed, responseType⟩ := response
    simp only [Except.ok.injEq, Option.some.injEq, RpcHeader.mk.injEq, Prod.mk.injEq, true_and]
    constructor
    · rintro ⟨h₁, h₂, h₃, h₄⟩
      exact ⟨⟨h₃, h₁⟩, h₄, h₂⟩
    · rintro ⟨⟨h₃, h₁⟩, h₄, h₂⟩
      exact ⟨h₁, h₂, h₃, h₄⟩
  have houtputSide : streamedType (trim d.request.inner) = (d.request.streamed, d.request.typeName) →
      (streamedType (trim d.outputSide.inner) = (d.response.streamed, d.response.typeName) ↔
        if hasReturns d.name then d.response.streamed = d.request.streamed ∧
          d.response.typeName = d.request.typeName
        else d.response.streamed ∨ startsWith d.response.typeName "stream" = false) := by
    intro hrequest
    rw [outputSide]
    split
    · rw [hrequest, Prod.mk.injEq, eq_comm, @eq_comm _ d.request.typeName]
    · exact streamedType_inner d.response
  rw [← streamedType_inner d.request]
  constructor
  · rintro ⟨m', hm', hinput', houtput', hclient', hserver', hparsed⟩
    obtain rfl := Option.some.inj (Except.ok.inj (hm.symm.trans hm'))
    rw [hname, hinput', houtput', hclient', hserver', hfallback] at hparsed
    exact ⟨hclient ▸ hclient', hserver ▸ hserver', hparsed.1, (houtputSide hparsed.1).mp hparsed.2⟩
  · rintro ⟨hclient', hserver', hrequest, hresponse⟩
    refine ⟨m, hm, hinput, houtput, hclient.trans hclient', hserver.trans hserver', ?_⟩
    rw [hname, hinput, houtput, hclient, hclient', hserver, hserver', hfallback]
    exact ⟨hrequest, (houtputSide hrequest).mpr hresponse⟩

lemma or_eq_left (flag found : Bool) : (flag || found) = flag ↔ flag = true ∨ found = false := by
  revert flag found
  decide

lemma or_or_eq (before flag found : Bool) :
    (before || (flag || found)) = flag ↔ flag = true ∨ before = false ∧ found = false := by
  revert before flag found
  decide

lemma found_eq_false (within returns beyond : Bool) :
    (within || (!returns && beyond)) = false ↔ within = false ∧ (returns = true ∨ beyond = false) := by
  revert within returns beyond
  decide

lemma unmistaken_iff (d : RpcDecl) : d.Unmistaken ↔ d.clientRead = d.request.streamed ∧
    d.serverRead = d.response.streamed ∧
    (d.request.streamed ∨ startsWith d.request.typeName "stream" = false) ∧
    if hasReturns d.name then d.response.streamed = d.request.streamed ∧ d.response.typeName = d.request.typeName
    else d.response.streamed ∨ startsWith d.response.typeName "stream" = false := by
  have hplain : ∀ {s : String}, streamEarly s = false → startsWith s "stream" = false := by
    intro s hs
    rw [← Bool.not_eq_true] at hs ⊢
    exact fun h => hs (streamEarly_of_startsWith h)
  rw [Unmistaken, clientRead, serverRead, hasReturns_eq d.name]
  cases hname : afterReturn d.name with
  | some late =>
    simp only [Option.isSome_some, Bool.not_true, Bool.false_and, Bool.or_false, if_true]
    cases hclient : d.request.streamed with
    | true =>
      simp only [if_true, Bool.true_or, Bool.and_true, true_or, true_and]
      constructor
      · rintro ⟨hearly, hserver, htypes, hlate⟩
        exact ⟨hearly, by rw [hserver]; simpa using hlate, hserver, htypes⟩
      · rintro ⟨hearly, hserver, hserver', htypes⟩
        exact ⟨hearly, hserver', htypes, by rw [hserver'] at hserver; simpa using hserver⟩
    | false =>
      simp only [Bool.false_eq_true, if_false, Bool.false_or, false_or]
      constructor
      · rintro ⟨hearly, hserver, htypes, hrequest, hlate⟩
        exact ⟨hearly, by rw [hserver, found_eq_false]; exact hlate, hrequest, hserver, htypes⟩
      · rintro ⟨hearly, hserver, hrequest, hserver', htypes⟩
        rw [hserver', found_eq_false] at hserver
        exact ⟨hearly, hserver', htypes, hrequest, hserver⟩
  | none =>
    simp only [Option.isSome_none, Bool.not_false, Bool.true_and, Bool.false_eq_true, if_false, or_or_eq]
    cases htype : afterReturn d.request.typeName with
    | some late =>
      constructor
      · rintro ⟨hclient, hlate, hresponse⟩
        exact ⟨hclient, hlate, hclient.imp_right fun h => hplain h.2, hresponse⟩
      · rintro ⟨hclient, hlate, -, hresponse⟩
        exact ⟨hclient, hlate, hresponse⟩
    | none =>
      simp only [or_eq_left, found_eq_false]
      constructor
      · rintro ⟨hclient, hserver⟩
        exact ⟨hclient, hserver, hclient.imp_right fun h => hplain h.2, hserver.imp_right fun h => hplain h.1⟩
      · rintro ⟨hclient, hserver, -, -⟩
        exact ⟨hclient, hserver⟩

end RpcDecl

/-- The declarations that are read right are those whose words do not mislead the search, and the fallback is
total but for the texts that close a parenthesis before they open one. -/
theorem rpc_read_right_iff {d : RpcDecl} {node : SyntaxNode} (h : node.Lists d) (service text : String) :
    (ReadRight d node service ↔ d.Unmistaken) ∧
      ((∀ panic, parseRpcText text ≠ .error panic) ↔ ¬ (startsWith (trim text) "rpc" ∧ ClosesFirst text)) := by
  constructor
  · rw [RpcDecl.readRight_iff h, RpcDecl.unmistaken_iff]
  · rw [← parseRpcText_panics_iff]
    constructor
    · exact fun htotal => htotal _
    · rintro hpanics ⟨⟩
      exact hpanics

theorem rpc_read_right_iff_get :
    ∃ d : RpcDecl, ∃ node : SyntaxNode, d.text = "rpc Get(Req) returns (stream Res);" ∧
      d.request.streamed = false ∧ d.response.streamed = true ∧ ReadRight d node "Users" ∧
      ∀ panic, parseRpcText "Get" ≠ .error panic := by
  have hblank : IsBlank "" ∧ IsBlank " " := ⟨isBlank_empty, forall_mem_of_all (by decide)⟩
  have hword : IsWord "Get" ∧ IsWord "Req" ∧ IsWord "Res" :=
    ⟨⟨by decide, forall_mem_of_all (by decide)⟩, ⟨by decide, forall_mem_of_all (by decide)⟩, by decide,
      forall_mem_of_all (by decide)⟩
  let request : RpcSide := ⟨"", none, "Req", "", hblank.1, by simp, hword.2.1, hblank.1⟩
  let response : RpcSide := ⟨"", some " ", "Res", "", hblank.1, by simp [hblank.2], hword.2.2, hblank.1⟩
  let d : RpcDecl := ⟨" ", "Get", "", request, " ", " ", response, ";", ⟨by decide, hblank.2⟩, hword.1, hblank.1,
    hblank.2, hblank.2⟩
  let node : SyntaxNode := .mk "rpc" "rpc Get(Req) returns (stream Res);" 0
    [.mk "rpc_name" "Get" 0 [], .mk "message_type" "Req" 0 [], .mk "message_type" "Res" 0 []]
  have htext : d.text = "rpc Get(Req) returns (stream Res);" := rfl
  have hlists : node.Lists d := ⟨htext.symm, ⟨[], rfl⟩, [], rfl⟩
  have hread := rpc_read_right_iff hlists "Users" "Get"
  refine ⟨d, node, htext, rfl, rfl, hread.1.mpr ?_, hread.2.mpr ?_⟩
  · have hlate : afterReturn "Get" = none ∧ afterReturn "Req" = none := by decide +kernel
    have hearly : ∀ word ∈ ["Get", "Req"], streamEarly word = false := by decide +kernel
    simp [RpcDecl.Unmistaken, RpcSide.streamed, d, request, response, hlate, hearly]
  · exact fun hpanics => absurd hpanics.1 (by decide +kernel)

/-- A method whose name begins with `stream` is taken for a client stream, and a lone closing parenthesis makes the
fallback panic. -/
theorem stream_in_name_misread :
    (∃ d : RpcDecl, ∃ node m, d.text = "rpc streamUsers(Req) returns (Res);" ∧ d.request.streamed = false ∧
      node.Lists d ∧ extractMethod node "Users" = .ok (some m) ∧ m.clientStreaming = true) ∧
    parseRpcText "rpc )(" = .error .sliceOutOfRange := by
  have hblank : IsBlank "" ∧ IsBlank " " := ⟨isBlank_empty, forall_mem_of_all (by decide)⟩
  have hword : IsWord "streamUsers" ∧ IsWord "Req" ∧ IsWord "Res" :=
    ⟨⟨by decide, forall_mem_of_all (by decide)⟩, ⟨by decide, forall_mem_of_all (by decide)⟩, by decide,
      forall_mem_of_all (by decide)⟩
  let request : RpcSide := ⟨"", none, "Req", "", hblank.1, by simp, hword.2.1, hblank.1⟩
  let response : RpcSide := ⟨"", none, "Res", "", hblank.1, by simp, hword.2.2, hblank.1⟩
  let d : RpcDecl := ⟨" ", "streamUsers", "", request, " ", " ", response, ";",
    ⟨by decide, hblank.2⟩, hword.1, hblank.1, hblank.2, hblank.2⟩
  let node : SyntaxNode := .mk "rpc" "rpc streamUsers(Req) returns (Res);" 0
    [.mk "rpc_name" "streamUsers" 0 [], .mk "message_type" "Req" 0 [], .mk "message_type" "Res" 0 []]
  let m : ProtoMethod := ⟨"streamUsers", "Users.streamUsers", "Req", "Res", true, false, [], 1⟩
  have htext : d.text = "rpc streamUsers(Req) returns (Res);" := rfl
  refine ⟨⟨d, node, m, htext, rfl, ⟨htext.symm, ⟨[], rfl⟩, [], rfl⟩, ?_, rfl⟩, by decide +kernel⟩
  decide +kernel

end Outcome

end RepoGraph.ProtoParser
