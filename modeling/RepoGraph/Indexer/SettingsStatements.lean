import RepoGraph.Indexer.SettingsGradle

/-! Settings files as the statements that they are made of, and the text that writes them. -/

namespace RepoGraph.Indexer

open Lib Lib.Text

section Syntax

/-- A text that can stand between quotes on one line, without an opening bracket. -/
def Quotable (s : String) : Prop := s ≠ "" ∧ ∀ c ∈ s.toList, isQuote c = false ∧ c ≠ '\n' ∧ c ≠ '('

inductive QuoteMark
  | single
  | double
  deriving DecidableEq

def QuoteMark.char : QuoteMark → Char
  | .single => '\''
  | .double => '"'

structure Literal where
  text : String
  quotable : Quotable text
  mark : QuoteMark

def Literal.chars (l : Literal) : List Char := l.mark.char :: (l.text.toList ++ [l.mark.char])

abbrev ProjectPath := {path : String // Quotable path ∧ startsWith path ":" = false}

structure Reference where
  project : ProjectPath
  leadingColon : Bool
  mark : QuoteMark

def Reference.written (r : Reference) : String := if r.leadingColon then ":" ++ r.project.val else r.project.val

lemma Reference.quotable_written (r : Reference) : Quotable r.written := by
  obtain ⟨⟨path, ⟨hne, hchars⟩, -⟩, leadingColon, mark⟩ := r
  cases leadingColon with
  | false => exact ⟨hne, hchars⟩
  | true =>
    refine ⟨by simp [written], fun c hc => ?_⟩
    rw [written, if_pos rfl, String.toList_append, List.mem_append] at hc
    rcases hc with hc | hc
    · obtain rfl : c = ':' := by simpa using hc
      exact ⟨rfl, by simp, by simp⟩
    · exact hchars c hc

def Reference.literal (r : Reference) : Literal := ⟨r.written, r.quotable_written, r.mark⟩

abbrev Blank := {w : List Char // ∀ c ∈ w, isWhitespace c}

abbrev Gap := {w : List Char // ∀ c ∈ w, isWhitespace c ∧ c ≠ '\n'}

abbrev Space := {w : List Char // w ≠ [] ∧ ∀ c ∈ w, isWhitespace c ∧ c ≠ '\n'}

structure CallLayout where
  gap : Gap
  brackets : Option (Blank × Blank)

def CallLayout.before (l : CallLayout) : List Char :=
  l.gap.val ++ match l.brackets with
    | some (inside, _) => '(' :: inside.val
    | none => []

def CallLayout.after (l : CallLayout) : List Char :=
  match l.brackets with
  | some (_, closing) => closing.val ++ [')']
  | none => []

structure AssignLayout where
  beforeBracket : Blank
  inside : Blank
  closing : Blank
  beforeDot : Blank
  afterDot : Blank
  beforeEquals : Blank
  afterEquals : Blank

inductive Command
  | includes (layout : CallLayout) (first : Reference) (more : List (Gap × Blank × Reference))
  | includeBuild (layout : CallLayout) (build : Literal)
  | rename (layout : AssignLayout) (project : Reference) (name : Literal)
  | relocate (layout : AssignLayout) (project : Reference) (dir : Literal) (asFile : Option (Space × Space))

def argumentChars (layout : CallLayout) (first : Literal) (more : List (Gap × Blank × Literal)) : List Char :=
  layout.before ++ (first.chars ++ (more.flatMap (fun a => a.1.val ++ (',' :: (a.2.1.val ++ a.2.2.chars))) ++
    layout.after))

def assignChars (w : AssignLayout) (project : Reference) (property : String) (value : List Char) : List Char :=
  "project".toList ++ (w.beforeBracket.val ++ ("(".toList ++ (w.inside.val ++ (project.literal.chars ++
    (w.closing.val ++ (")".toList ++ (w.beforeDot.val ++ (".".toList ++ (w.afterDot.val ++ (property.toList ++
      (w.beforeEquals.val ++ ("=".toList ++ (w.afterEquals.val ++ value)))))))))))))

def asFileChars : Option (Space × Space) → List Char
  | some (space, space') => space.val ++ ("as".toList ++ (space'.val ++ "File".toList))
  | none => []

def directoryChars (dir : Literal) (asFile : Option (Space × Space)) : List Char :=
  dir.mark.char :: ("$rootDir/".toList ++ (dir.text.toList ++ (dir.mark.char :: asFileChars asFile)))

def Command.chars : Command → List Char
  | .includes layout first more =>
    "include".toList ++ argumentChars layout first.literal (more.map fun a => (a.1, a.2.1, a.2.2.literal))
  | .includeBuild layout build => "includeBuild".toList ++ argumentChars layout build []
  | .rename layout project name => assignChars layout project "name" name.chars
  | .relocate layout project dir asFile => assignChars layout project "projectDir" (directoryChars dir asFile)

lemma Command.chars_includes (layout : CallLayout) (first : Reference) (more : List (Gap × Blank × Reference)) :
    (Command.includes layout first more).chars = "include".toList ++
      argumentChars layout first.literal (more.map fun a => (a.1, a.2.1, a.2.2.literal)) := rfl

lemma Command.chars_includeBuild (layout : CallLayout) (build : Literal) :
    (Command.includeBuild layout build).chars = "includeBuild".toList ++ argumentChars layout build [] := rfl

lemma Command.chars_rename (layout : AssignLayout) (project : Reference) (name : Literal) :
    (Command.rename layout project name).chars = assignChars layout project "name" name.chars := rfl

lemma Command.chars_relocate (layout : AssignLayout) (project : Reference) (dir : Literal)
    (asFile : Option (Space × Space)) :
    (Command.relocate layout project dir asFile).chars =
      assignChars layout project "projectDir" (directoryChars dir asFile) := rfl

structure Statement where
  indent : Blank
  command : Command
  trailing : Blank

def Statement.chars (st : Statement) : List Char := st.indent.val ++ (st.command.chars ++ st.trailing.val)

def settingsText (file : List Statement) : String := .ofList (List.intercalate ['\n'] (file.map Statement.chars))

end Syntax

section Meaning

def Command.included : Command → List Reference
  | .includes _ first more => first :: more.map (·.2.2)
  | .includeBuild .. | .rename .. | .relocate .. => []

def Command.build? : Command → Option String
  | .includeBuild _ build => some build.text
  | .includes .. | .rename .. | .relocate .. => none

def Command.rename? : Command → Option (String × String)
  | .rename _ project name => some (project.project.val, name.text)
  | .includes .. | .includeBuild .. | .relocate .. => none

def Command.relocate? : Command → Option (String × String)
  | .relocate _ project dir _ => some (project.project.val, dir.text)
  | .includes .. | .includeBuild .. | .rename .. => none

def included (file : List Statement) : List Reference := file.flatMap (·.command.included)

def builds (file : List Statement) : List String := file.filterMap (·.command.build?)

def renames (file : List Statement) : List (String × String) := file.filterMap (·.command.rename?)

def relocations (file : List Statement) : List (String × String) := file.filterMap (·.command.relocate?)

end Meaning

end RepoGraph.Indexer
