import RepoGraph.Lib.Exec
import RepoGraph.Lib.Scanner

/-! The comments of a source file are replaced by blanks before the detectors read it; strings and line breaks
stay where they are. The masker walks over the bytes of the file. -/

namespace RepoGraph.Detectors

open Lib Lib.Scanner

abbrev dq : Char := '\x22'

abbrev sq : Char := '\x27'

abbrev backtick : Char := '\x60'

abbrev braceOpen : Char := '\x7b'

abbrev braceClose : Char := '\x7d'

section CStyle

inductive CStyleState
  | code
  | lineComment
  | blockComment
  | stringDq
  | stringSq
  | template
  deriving DecidableEq, Repr

/-- The stack holds the open braces of each interpolation, the innermost first. -/
structure CStyle where
  state : CStyleState
  templateStack : List ℕ
  deriving DecidableEq, Repr

def CStyle.start : CStyle := ⟨.code, []⟩

def CStyle.to (s : CStyle) (state : CStyleState) : CStyle := { s with state := state }

/-- In a string an escaped symbol is taken with the backslash, and a line break ends the string. -/
def stringStep {σ : Type} (s code : σ) (quote b : Char) (next : Option Char) : Move σ :=
  if b = '\\' ∧ next.isSome then ⟨s, 1, false⟩
  else if b = quote then ⟨code, 0, false⟩
  else if b = '\n' then ⟨code, 0, false⟩
  else ⟨s, 0, false⟩

def lineCommentStep {σ : Type} (s code : σ) (b : Char) : Move σ :=
  if b = '\n' then ⟨code, 0, false⟩ else ⟨s, 0, true⟩

def codeStep (s : CStyle) (b : Char) (next : Option Char) : Move CStyle :=
  if b = '/' ∧ next = some '/' then ⟨s.to .lineComment, 1, true⟩
  else if b = '/' ∧ next = some '*' then ⟨s.to .blockComment, 1, true⟩
  else if b = dq then ⟨s.to .stringDq, 0, false⟩
  else if b = sq then ⟨s.to .stringSq, 0, false⟩
  else if b = backtick then ⟨s.to .template, 0, false⟩
  else ⟨s, 0, false⟩

def cStyleStep : Step CStyle := fun s b next _ =>
  match s.state with
  | .code =>
    match s.templateStack with
    | [] => codeStep s b next
    | top :: frames =>
      if b = braceClose then
        if top = 0 then ⟨⟨.template, frames⟩, 0, false⟩ else ⟨⟨.code, (top - 1) :: frames⟩, 0, false⟩
      else if b = braceOpen then ⟨⟨.code, (top + 1) :: frames⟩, 0, false⟩
      else codeStep s b next
  | .lineComment => lineCommentStep s (s.to .code) b
  | .blockComment =>
    if b = '*' ∧ next = some '/' then ⟨s.to .code, 1, true⟩
    else if b = '\n' then ⟨s, 0, false⟩
    else ⟨s, 0, true⟩
  | .stringDq => stringStep s (s.to .code) dq b next
  | .stringSq => stringStep s (s.to .code) sq b next
  | .template =>
    if b = '\\' ∧ next.isSome then ⟨s, 1, false⟩
    else if b = backtick then ⟨s.to .code, 0, false⟩
    else if b = '$' ∧ next = some braceOpen then ⟨⟨.code, 0 :: s.templateStack⟩, 1, false⟩
    else ⟨s, 0, false⟩

end CStyle

section Python

inductive PythonState
  | code
  | lineComment
  | stringDq
  | stringSq
  | stringTripleDq
  | stringTripleSq
  deriving DecidableEq, Repr

def isTriple (quote b : Char) (next third : Option Char) : Prop :=
  b = quote ∧ next = some quote ∧ third = some quote

instance (quote b : Char) (next third : Option Char) : Decidable (isTriple quote b next third) :=
  inferInstanceAs (Decidable (_ ∧ _ ∧ _))

def tripleStep (s : PythonState) (quote b : Char) (next third : Option Char) : Move PythonState :=
  if isTriple quote b next third then ⟨.code, 2, false⟩ else ⟨s, 0, false⟩

def pythonStep : Step PythonState := fun s b next third =>
  match s with
  | .code =>
    if b = '#' then ⟨.lineComment, 0, true⟩
    else if isTriple dq b next third then ⟨.stringTripleDq, 2, false⟩
    else if isTriple sq b next third then ⟨.stringTripleSq, 2, false⟩
    else if b = dq then ⟨.stringDq, 0, false⟩
    else if b = sq then ⟨.stringSq, 0, false⟩
    else ⟨.code, 0, false⟩
  | .lineComment => lineCommentStep .lineComment .code b
  | .stringDq => stringStep .stringDq .code dq b next
  | .stringSq => stringStep .stringSq .code sq b next
  | .stringTripleDq => tripleStep .stringTripleDq dq b next third
  | .stringTripleSq => tripleStep .stringTripleSq sq b next third

end Python

section Masking

def maskBroken : String :=
  "comment masker output should be valid UTF-8 (every emitted byte is either an ASCII space/newline or a verbatim copy " ++
    "from valid UTF-8 input)"

/-- The masked bytes are taken for UTF-8 without an error to return. -/
def maskWith {σ : Type} (step : Step σ) (s : σ) (source : String) : Exec String :=
  expect maskBroken (Wire.ofUtf8 (blankedBytes step s (Wire.utf8 source)))

def maskCommentsCStyle (source : String) : Exec String := maskWith cStyleStep .start source

def maskCommentsPython (source : String) : Exec String := maskWith pythonStep .code source

def maskCommentsForFile (toLowercase : String → String) (filePath source : String) : Exec String :=
  if Text.endsWith (toLowercase filePath) ".py" then maskCommentsPython source else maskCommentsCStyle source

end Masking

section Laws

def CStyle.plain (s : CStyle) : Bool := s.state = .lineComment || s.state = .blockComment

def CStyle.visible (s : CStyle) : CStyle := if s.plain then s.to .code else s

lemma ne_ascii {a c : Char} (h : 128 ≤ a.toNat) (hc : c.toNat < 128) : a ≠ c := by
  rintro rfl
  omega

lemma cStyle_asciiOnly : AsciiOnly cStyleStep CStyle.plain := by
  constructor
  · rintro ⟨state, stack⟩ a b c ha
    have hne : ∀ c : Char, c.toNat < 128 → ¬ a = c := fun c => ne_ascii ha
    cases state <;> cases stack <;> simp [cStyleStep, codeStep, stringStep, lineCommentStep, CStyle.plain, hne, dq,
      sq, backtick, braceOpen, braceClose]
  · rintro ⟨state, stack⟩ a b b' c c' hb hb'
    have hne : ∀ c : Char, c.toNat < 128 → ¬ b = c := fun c => ne_ascii hb
    have hne' : ∀ c : Char, c.toNat < 128 → ¬ b' = c := fun c => ne_ascii hb'
    cases state <;> cases stack <;> simp [cStyleStep, codeStep, stringStep, lineCommentStep, hne, hne', braceOpen]
  · intro s a b c c' hc hc'
    rfl
  · rintro ⟨state, stack⟩ a b c
    cases state <;> cases stack <;> simp only [cStyleStep, codeStep, stringStep, lineCommentStep] <;> split_ifs <;>
      simp_all [CStyle.plain, CStyle.to]

def MaybeBlanked (taken : Prop) (b b' : Option Char) : Prop := b' = b ∨ ¬ taken ∧ b.isSome ∧ b' = some ' '

lemma stringStep_kept {σ : Type} {s code : σ} {quote a : Char} {b b' : Option Char}
    (h : MaybeBlanked (0 < (stringStep s code quote a b).more) b b') :
    stringStep s code quote a b' = stringStep s code quote a b := by
  rcases h with rfl | ⟨hmore, hsome, rfl⟩
  · rfl
  · unfold stringStep at hmore ⊢
    by_cases ha : a = '\\'
    · simp [ha, hsome] at hmore
    · simp [ha]

lemma codeStep_kept {s : CStyle} {a : Char} {b b' : Option Char} (hblank : (codeStep s a b).blank = false)
    (h : MaybeBlanked (0 < (codeStep s a b).more) b b') : codeStep s a b' = codeStep s a b := by
  rcases h with rfl | ⟨-, -, rfl⟩
  · rfl
  · unfold codeStep at hblank ⊢
    by_cases hline : a = '/' ∧ b = some '/'
    · simp [hline] at hblank
    · by_cases hblock : a = '/' ∧ b = some '*'
      · simp [hblock] at hblank
      · rw [if_neg hline, if_neg hblock, if_neg (by simp), if_neg (by simp)]

lemma codeStep_next {s : CStyle} (hs : s.plain = false) {a : Char} {b : Option Char}
    (hblank : (codeStep s a b).blank = false) :
    (codeStep s a b).next.plain = false := by
  unfold codeStep at hblank ⊢
  split_ifs at hblank ⊢ <;> first | exact hs | rfl

lemma stringStep_next {σ : Type} {p : σ → Prop} {s code : σ} (hs : p s) (hcode : p code)
    (quote a : Char) (b : Option Char) :
    p (stringStep s code quote a b).next := by
  unfold stringStep
  split_ifs <;> assumption

lemma cStyleStep_kept {s : CStyle} (hs : s.plain = false) {a : Char} {b c b' : Option Char} (c' : Option Char)
    (hblank : (cStyleStep s a b c).blank = false) (h : MaybeBlanked (0 < (cStyleStep s a b c).more) b b') :
    cStyleStep s a b' c' = cStyleStep s a b c := by
  obtain ⟨state, stack⟩ := s
  cases state with
  | code =>
    cases stack with
    | nil => exact codeStep_kept hblank h
    | cons top frames =>
      simp only [cStyleStep] at hblank h ⊢
      split_ifs at hblank h ⊢ with hclose htop hopen
      · rfl
      · rfl
      · rfl
      · exact codeStep_kept hblank h
  | lineComment => cases hs
  | blockComment => cases hs
  | stringDq => exact stringStep_kept h
  | stringSq => exact stringStep_kept h
  | template =>
    rcases h with rfl | ⟨hmore, hsome, rfl⟩
    · rfl
    · simp only [cStyleStep] at hmore ⊢
      by_cases hescape : a = '\\'
      · simp [hescape, hsome] at hmore
      · by_cases hopen : a = '$' ∧ b = some braceOpen
        · simp [hopen, backtick] at hmore
        · simp only [hescape, hopen, false_and, if_false]
          rw [if_neg (by simp [braceOpen] : ¬ (a = '$' ∧ some ' ' = some braceOpen))]

lemma cStyleStep_next {s : CStyle} (hs : s.plain = false) {a : Char} {b c : Option Char}
    (hblank : (cStyleStep s a b c).blank = false) : (cStyleStep s a b c).next.plain = false := by
  obtain ⟨state, stack⟩ := s
  cases state with
  | code =>
    cases stack with
    | nil => exact codeStep_next hs hblank
    | cons top frames =>
      simp only [cStyleStep] at hblank ⊢
      split_ifs at hblank ⊢ with hclose htop hopen
      · rfl
      · rfl
      · rfl
      · exact codeStep_next hs hblank
  | lineComment => cases hs
  | blockComment => cases hs
  | stringDq => exact stringStep_next (p := fun s : CStyle => s.plain = false) hs rfl _ _ _
  | stringSq => exact stringStep_next (p := fun s : CStyle => s.plain = false) hs rfl _ _ _
  | template =>
    simp only [cStyleStep]
    split_ifs <;> rfl

lemma cStyleStep_comment {s : CStyle} (hs : s.plain) {a : Char} {b c : Option Char}
    (hblank : (cStyleStep s a b c).blank = false) :
    a = '\n' ∧ (cStyleStep s a b c).more = 0 ∧ (cStyleStep s a b c).next.visible = s.to .code := by
  obtain ⟨state, stack⟩ := s
  cases state with
  | lineComment =>
    simp only [cStyleStep, lineCommentStep] at hblank ⊢
    split_ifs at hblank ⊢ with hbreak
    exact ⟨hbreak, rfl, rfl⟩
  | blockComment =>
    simp only [cStyleStep] at hblank ⊢
    split_ifs at hblank ⊢ with hclose hbreak
    exact ⟨hbreak, rfl, rfl⟩
  | _ => cases hs

lemma cStyle_settles : Settles cStyleStep CStyle.visible := by
  constructor
  · rintro ⟨state, stack⟩ a b c
    cases state <;> cases stack <;> simp only [cStyleStep, codeStep, stringStep, lineCommentStep] <;> split_ifs <;>
      simp [CStyle.visible, CStyle.plain, CStyle.to]
  · rintro ⟨state, stack⟩ b c
    cases state <;> cases stack <;>
      simp [CStyle.visible, CStyle.plain, CStyle.to, cStyleStep, codeStep, stringStep, dq, sq,
        backtick, braceOpen, braceClose]
  · intro s a b c b' c' hblank hb _
    cases hs : s.plain with
    | true =>
      obtain ⟨rfl, hmore, hnext⟩ := cStyleStep_comment hs hblank
      rw [CStyle.visible, if_pos hs, hmore, hnext]
      obtain ⟨state, stack⟩ := s
      cases stack <;> simp [cStyleStep, CStyle.to, codeStep, dq, sq, backtick, braceOpen, braceClose]
    | false =>
      have hkept : MaybeBlanked (0 < (cStyleStep s a b c).more) b b' :=
        hb.imp_right fun ⟨hmore, h⟩ => ⟨by omega, h⟩
      rw [CStyle.visible, hs, if_neg Bool.false_ne_true, cStyleStep_kept hs c' hblank hkept, CStyle.visible,
        cStyleStep_next hs hblank, if_neg Bool.false_ne_true, ← hblank]

lemma cStyle_spares : Spares cStyleStep '\n' := by
  constructor
  · rintro ⟨state, stack⟩ a b c
    cases state <;> cases stack <;> simp only [cStyleStep, codeStep, stringStep, lineCommentStep] <;> split_ifs <;>
      simp_all
  · rintro ⟨state, stack⟩ a b c
    cases state <;> cases stack <;> simp only [cStyleStep, codeStep, stringStep, lineCommentStep] <;> split_ifs <;>
      simp_all
  · rintro ⟨state, stack⟩ a b c
    cases state <;> cases stack <;> simp only [cStyleStep, codeStep, stringStep, lineCommentStep] <;> split_ifs <;>
      simp
  · rintro ⟨state, stack⟩ a b c
    cases state <;> cases stack <;> simp only [cStyleStep, codeStep, stringStep, lineCommentStep] <;> split_ifs <;>
      simp

def PythonState.plain (s : PythonState) : Bool := s = .lineComment

def PythonState.visible (s : PythonState) : PythonState := if s.plain then .code else s

lemma python_asciiOnly : AsciiOnly pythonStep PythonState.plain := by
  constructor
  · intro s a b c ha
    have hne : ∀ c : Char, c.toNat < 128 → ¬ a = c := fun c => ne_ascii ha
    cases s <;> simp [pythonStep, tripleStep, isTriple, stringStep, lineCommentStep,
      PythonState.plain, hne, dq, sq]
  · intro s a b b' c c' hb hb'
    have hne : ∀ c : Char, c.toNat < 128 → ¬ b = c := fun c => ne_ascii hb
    have hne' : ∀ c : Char, c.toNat < 128 → ¬ b' = c := fun c => ne_ascii hb'
    cases s <;> simp [pythonStep, tripleStep, isTriple, stringStep, lineCommentStep, hne, hne', dq, sq]
  · intro s a b c c' hc hc'
    have hne : ∀ d : Char, d.toNat < 128 → ¬ c = d := fun d => ne_ascii hc
    have hne' : ∀ d : Char, d.toNat < 128 → ¬ c' = d := fun d => ne_ascii hc'
    cases s <;> simp [pythonStep, tripleStep, isTriple, stringStep, lineCommentStep, hne, hne', dq, sq]
  · intro s a b c
    cases s <;> simp only [pythonStep, tripleStep, stringStep, lineCommentStep] <;> split_ifs <;>
      simp_all [PythonState.plain, isTriple, dq, sq]

lemma isTriple_blanked {quote a : Char} (hquote : quote ≠ ' ') {b c b' c' : Option Char}
    (h : ¬ isTriple quote a b c)
    (hb : b' = b ∨ b' = some ' ') (hc : c' = c ∨ c' = some ' ') : ¬ isTriple quote a b' c' := by
  rintro ⟨rfl, rfl, rfl⟩
  rcases hb with rfl | hb
  · rcases hc with rfl | hc
    · exact h ⟨rfl, rfl, rfl⟩
    · exact hquote (Option.some.inj hc)
  · exact hquote (Option.some.inj hb)

lemma tripleStep_kept {s : PythonState} {quote a : Char} (hquote : quote ≠ ' ') {b c b' c' : Option Char}
    (hb : MaybeBlanked (0 < (tripleStep s quote a b c).more) b b')
    (hc : MaybeBlanked (1 < (tripleStep s quote a b c).more) c c') :
    tripleStep s quote a b' c' = tripleStep s quote a b c := by
  unfold tripleStep at hb hc ⊢
  by_cases h : isTriple quote a b c
  · obtain rfl : b' = b := hb.resolve_right fun ⟨hmore, _⟩ => by simp [h] at hmore
    obtain rfl : c' = c := hc.resolve_right fun ⟨hmore, _⟩ => by simp [h] at hmore
    rfl
  · rw [if_neg h, if_neg (isTriple_blanked hquote h (hb.imp_right fun h => h.2.2) (hc.imp_right fun h => h.2.2))]

lemma pythonStep_kept {s : PythonState} (hs : s.plain = false) {a : Char} {b c b' c' : Option Char}
    (hblank : (pythonStep s a b c).blank = false) (hb : MaybeBlanked (0 < (pythonStep s a b c).more) b b')
    (hc : MaybeBlanked (1 < (pythonStep s a b c).more) c c') : pythonStep s a b' c' = pythonStep s a b c := by
  cases s with
  | code =>
    by_cases htriple : isTriple dq a b c ∨ isTriple sq a b c
    · have hmore : (pythonStep .code a b c).more = 2 := by
        rcases htriple with ⟨rfl, rfl, rfl⟩ | ⟨rfl, rfl, rfl⟩ <;> rfl
      obtain rfl : b' = b := hb.resolve_right fun h => h.1 (by omega)
      obtain rfl : c' = c := hc.resolve_right fun h => h.1 (by omega)
      rfl
    · obtain ⟨hdq, hsq⟩ := not_or.mp htriple
      have hblanked : ∀ quote, quote ≠ ' ' → ¬ isTriple quote a b c →
          ¬ isTriple quote a b' c' := fun quote hquote h =>
        isTriple_blanked hquote h (hb.imp_right fun h => h.2.2) (hc.imp_right fun h => h.2.2)
      simp only [pythonStep, hdq, hsq, hblanked dq (by decide) hdq, hblanked sq (by decide) hsq, if_false]
  | lineComment => cases hs
  | stringDq => exact stringStep_kept hb
  | stringSq => exact stringStep_kept hb
  | stringTripleDq => exact tripleStep_kept (by decide) hb hc
  | stringTripleSq => exact tripleStep_kept (by decide) hb hc

lemma pythonStep_next {s : PythonState} (hs : s.plain = false) {a : Char} {b c : Option Char}
    (hblank : (pythonStep s a b c).blank = false) : (pythonStep s a b c).next.plain = false := by
  cases s with
  | code =>
    simp only [pythonStep] at hblank ⊢
    split_ifs at hblank ⊢ <;> rfl
  | lineComment => cases hs
  | stringDq => exact stringStep_next (p := fun s : PythonState => s.plain = false) hs rfl _ _ _
  | stringSq => exact stringStep_next (p := fun s : PythonState => s.plain = false) hs rfl _ _ _
  | stringTripleDq =>
    simp only [pythonStep, tripleStep]
    split_ifs <;> rfl
  | stringTripleSq =>
    simp only [pythonStep, tripleStep]
    split_ifs <;> rfl

lemma python_settles : Settles pythonStep PythonState.visible := by
  constructor
  · intro s a b c
    cases s <;> simp only [pythonStep, tripleStep, stringStep, lineCommentStep] <;> split_ifs <;>
      simp [PythonState.visible, PythonState.plain]
  · intro s b c
    cases s <;> simp [PythonState.visible, PythonState.plain, pythonStep, tripleStep, isTriple, stringStep, dq, sq]
  · intro s a b c b' c' hblank hb hc
    cases hs : s.plain with
    | true =>
      obtain rfl : s = .lineComment := of_decide_eq_true hs
      simp only [pythonStep, lineCommentStep] at hblank ⊢
      split_ifs at hblank with hbreak
      subst hbreak
      simp [PythonState.visible, PythonState.plain, isTriple, dq, sq]
    | false =>
      have hsecond : MaybeBlanked (0 < (pythonStep s a b c).more) b b' :=
        hb.imp_right fun ⟨hmore, h⟩ => ⟨by omega, h⟩
      have hthird : MaybeBlanked (1 < (pythonStep s a b c).more) c c' :=
        hc.imp_right fun ⟨hmore, h⟩ => ⟨by omega, h⟩
      rw [PythonState.visible, hs, if_neg Bool.false_ne_true, pythonStep_kept hs hblank hsecond hthird,
        PythonState.visible, pythonStep_next hs hblank, if_neg Bool.false_ne_true, ← hblank]

lemma python_spares : Spares pythonStep '\n' := by
  constructor
  · intro s a b c
    cases s <;> simp only [pythonStep, tripleStep, stringStep, lineCommentStep] <;> split_ifs <;> simp_all
  · intro s a b c
    cases s <;> simp only [pythonStep, tripleStep, stringStep, lineCommentStep] <;> split_ifs <;> simp_all
  · intro s a b c
    cases s <;> simp only [pythonStep, tripleStep, stringStep, lineCommentStep] <;> split_ifs <;> simp
  · intro s a b c
    cases s <;> simp only [pythonStep, tripleStep, stringStep, lineCommentStep] <;> split_ifs <;> simp

end Laws

section Masked

variable {σ : Type} {step : Step σ} {plain : σ → Bool}

lemma maskWith_eq (h : AsciiOnly step plain) (s : σ) (source : String) :
    maskWith step s source = .ok (.ofList (blankedText step s source.toList)) := by
  rw [maskWith, h.blankedBytes_utf8, Wire.ofUtf8_utf8]
  rfl

lemma maskWith_positional (h : AsciiOnly step plain) (hspares : Spares step '\n') (s : σ) (source : String) :
    ∃ masked, maskWith step s source = .ok masked ∧
      List.Forall₂ (fun b b' => b' = b ∨ b ≠ 0x0a ∧ b' = 0x20) (Wire.utf8 source) (Wire.utf8 masked) := by
  refine ⟨_, maskWith_eq h s source, ?_⟩
  rw [← h.blankedBytes_utf8]
  refine (hspares.blankedBytes_kept s (Wire.utf8 source)).imp fun b b' hb =>
    hb.imp_right fun ⟨hbreak, hspace⟩ => ⟨?_, hspace⟩
  rintro rfl
  exact hbreak rfl

lemma maskWith_again (h : AsciiOnly step plain) {visible : σ → σ} (hsettles : Settles step visible) {s : σ}
    (hs : visible s = s) (source : String) : (maskWith step s source >>= maskWith step s) =
      maskWith step s source := by
  have hbytes := hsettles.blankedBytes_idempotent hs (Wire.utf8 source)
  rw [maskWith_eq h, ok_bind, maskWith, ← h.blankedBytes_utf8, hbytes, h.blankedBytes_utf8, Wire.ofUtf8_utf8]
  rfl

/-- The output is text, byte for byte under the source: a byte is kept, or it is no line break and a space stands
for it. -/
theorem mask_positional (toLowercase : String → String) (filePath source : String) :
    ∃ masked, maskCommentsForFile toLowercase filePath source = .ok masked ∧
      List.Forall₂ (fun b b' => b' = b ∨ b ≠ 0x0a ∧ b' = 0x20) (Wire.utf8 source) (Wire.utf8 masked) := by
  unfold maskCommentsForFile
  split
  · exact maskWith_positional python_asciiOnly python_spares .code source
  · exact maskWith_positional cStyle_asciiOnly cStyle_spares .start source

/-- Masking a masked file again changes nothing. -/
theorem mask_again (toLowercase : String → String) (filePath source : String) :
    (maskCommentsForFile toLowercase filePath source >>= maskCommentsForFile toLowercase filePath) =
      maskCommentsForFile toLowercase filePath source := by
  by_cases hpython : Text.endsWith (toLowercase filePath) ".py"
  · have hrouter : maskCommentsForFile toLowercase filePath = maskCommentsPython := by
      funext source
      exact if_pos hpython
    rw [hrouter]
    exact maskWith_again python_asciiOnly python_settles rfl source
  · have hrouter : maskCommentsForFile toLowercase filePath = maskCommentsCStyle := by
      funext source
      exact if_neg hpython
    rw [hrouter]
    exact maskWith_again cStyle_asciiOnly cStyle_settles rfl source

end Masked

end RepoGraph.Detectors
