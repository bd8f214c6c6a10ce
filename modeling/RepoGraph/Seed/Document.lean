import RepoGraph.Indexer.SettingsGradle
import RepoGraph.Lib.Containers
import RepoGraph.Lib.Search

/-! The documents that are embedded for the symbols of a repository: a symbol's name and comment over the first
lines of its source, and for a method the first sentence of what is said of its type. -/

namespace RepoGraph.Seed

open Lib Lib.Text
open Indexer (lines)

section Documents

def maxBodyLines : ℕ := 60

def maxDocChars : ℕ := 6000

def maxEnclosingSentenceChars : ℕ := 160

def leadingCommentMarkers : List String := ["/**", "/*", "*/", "///", "//!", "//", "*", "#", "!"]

def truncateChars (s : String) (maxChars : ℕ) : String := .ofList (s.toList.take maxChars)

def stripComment (raw : String) : String :=
  let line := trim raw
  let line := ((leadingCommentMarkers.find? (startsWith line ·)).bind (stripPrefix line ·)).getD line
  trim ((stripSuffix (trimEndBy isWhitespace line) "*/").getD line)

def keptLines : List String → List String → List String
  | kept, [] => kept
  | kept, raw :: rest =>
    let line := stripComment raw
    if line = "" then (if kept = [] then keptLines kept rest else kept)
    else if startsWith line "@" then kept
    else keptLines (kept ++ [line]) rest

def firstSentence : List Char → List Char
  | [] => []
  | c :: rest => if c = '.' ∧ rest.head?.all isWhitespace then [c] else c :: firstSentence rest

def enclosingDocSentence (doc : String) : Option String :=
  let kept := keptLines [] (lines doc)
  if kept = [] then none
  else
    let sentence := truncateChars (trim (.ofList (firstSentence (join " " kept).toList))) maxEnclosingSentenceChars
    if sentence = "" then none else some sentence

def parentQualifiedName (qn : String) : Option String :=
  let parent :=
    match beforeLast qn "::", (rsplitOnce qn '.').map Prod.fst with
    | some colons, some dot => some (if colons.utf8ByteSize < dot.utf8ByteSize then dot else colons)
    | some colons, none => some colons
    | none, some dot => some dot
    | none, none => none
  parent.filter (· ≠ "")

def buildChunkDocument (qualifiedName enclosingSentence docComment : Option String)
    (spanSource : String) : String :=
  let body := join "\n" ((lines spanSource).take maxBodyLines)
  let head := join "\n" ([qualifiedName, enclosingSentence, docComment].filterMap (·.filter (· ≠ "")))
  let doc := if head = "" then body else if body = "" then head else head ++ "\n" ++ body
  truncateChars doc maxDocChars

def asUsize (x : ℤ) : ℕ := (x % 2 ^ 64).toNat

def spanSource (fileLines : List String) (lineStart lineEnd : Option ℤ) : Option String :=
  lineStart.bind fun first =>
    let startIdx := asUsize (max first 1) - 1
    if fileLines.length ≤ startIdx then none
    else
      let endIdx := min (asUsize (max (lineEnd.getD first) first)) fileLines.length
      some (join "\n" ((fileLines.take (min endIdx (startIdx + maxBodyLines))).drop startIdx))

end Documents

section Corpus

inductive SeedForwardDecl
  | definition
  | forwardDecl
  | unreadable
  deriving DecidableEq, Repr

structure SeedCorpusEntry where
  nodeUid : String
  stableKey : String
  fileUid : String
  path : String
  qualifiedName : Option String
  subtype : Option String
  docComment : Option String
  lineStart : Option ℤ
  lineEnd : Option ℤ
  isTest : Bool
  contentHash : String
  forwardDecl : SeedForwardDecl
  deriving DecidableEq, Repr

namespace SeedCorpusEntry

def takesPart (e : SeedCorpusEntry) : Bool := e.forwardDecl ≠ .forwardDecl

def enclosingTypeSubtypes : List String := ["CLASS", "INTERFACE", "STRUCT", "ENUM"]

def isType (e : SeedCorpusEntry) : Bool := e.subtype.any (· ∈ enclosingTypeSubtypes)

def docOf (e : SeedCorpusEntry) : Option String := e.docComment.filter (· ≠ "")

end SeedCorpusEntry

end Corpus

section Enclosing

/-- What is known of each name: in a file the first comment of a type that has it, if it stands for anything
there; in the corpus the comment of the first type, and how many types there are. -/
structure EnclosingIndex where
  perFile : HashMap (String × String) (Option String)
  corpusWide : HashMap String (Option String × ℕ)

def EnclosingIndex.add (ix : EnclosingIndex) (e : SeedCorpusEntry) : EnclosingIndex :=
  match e.qualifiedName with
  | none => ix
  | some qn =>
    let slot := ix.perFile.getD (e.path, qn) none
    if e.isType then
      let (doc, count) := ix.corpusWide.getD qn (e.docOf, 0)
      { perFile := ix.perFile.insert (e.path, qn) (if slot.isNone then e.docOf else slot)
        corpusWide := ix.corpusWide.insert qn (doc, count + 1) }
    else { ix with perFile := ix.perFile.insert (e.path, qn) slot }

def EnclosingIndex.sentence (ix : EnclosingIndex) (chunk : SeedCorpusEntry) : Option String :=
  if ¬ chunk.takesPart ∨ chunk.subtype ≠ some "METHOD" then none
  else
    (chunk.qualifiedName.bind parentQualifiedName).bind fun parent =>
      let doc :=
        match ix.perFile[(chunk.path, parent)]? with
        | some sameFile => sameFile
        | none =>
          match ix.corpusWide[parent]? with
          | some (doc, 1) => doc
          | _ => none
      doc.bind enclosingDocSentence

def enclosingSentences (entries : List SeedCorpusEntry) : List (Option String) :=
  entries.map ((entries.filter SeedCorpusEntry.takesPart).foldl EnclosingIndex.add ⟨∅, ∅⟩).sentence

variable (entries : List SeedCorpusEntry)

def namedIn (path qn : String) : List SeedCorpusEntry :=
  entries.filter fun e => e.takesPart ∧ e.path = path ∧ e.qualifiedName = some qn

def typesNamed (qn : String) : List SeedCorpusEntry :=
  entries.filter fun e => e.takesPart ∧ e.isType ∧ e.qualifiedName = some qn

def firstDoc (found : List SeedCorpusEntry) : Option String :=
  (found.filter SeedCorpusEntry.isType).findSome? SeedCorpusEntry.docOf

/-- What is said of the type that a name stands for, seen from a file: a name that stands for anything in the
file itself is looked up there alone, any other one has to be the name of one type only. -/
def enclosingDoc (path parent : String) : Option String :=
  if namedIn entries path parent = [] then
    match typesNamed entries parent with
    | [type] => type.docOf
    | _ => none
  else firstDoc (namedIn entries path parent)

def sentenceFor (chunk : SeedCorpusEntry) : Option String :=
  if chunk.takesPart ∧ chunk.subtype = some "METHOD" then
    ((chunk.qualifiedName.bind parentQualifiedName).bind (enclosingDoc entries chunk.path)).bind
      enclosingDocSentence
  else none

structure EnclosingIndex.Of (ix : EnclosingIndex) : Prop where
  perFile : ∀ path qn, ix.perFile[(path, qn)]? =
    if namedIn entries path qn = [] then none else some (firstDoc (namedIn entries path qn))
  corpusWide : ∀ qn, ix.corpusWide[qn]? =
    (typesNamed entries qn).head?.map fun type => (type.docOf, (typesNamed entries qn).length)

variable {entries} {e : SeedCorpusEntry}

lemma namedIn_snoc {path qn : String} (h : e.takesPart ∧ e.path = path ∧ e.qualifiedName = some qn) :
    namedIn (entries ++ [e]) path qn = namedIn entries path qn ++ [e] := by
  rw [namedIn, List.filter_append, ← namedIn, List.filter_cons_of_pos (by simpa using h), List.filter_nil]

lemma namedIn_snoc_of_not {path qn : String} (h : ¬ (e.takesPart ∧ e.path = path ∧ e.qualifiedName = some qn)) :
    namedIn (entries ++ [e]) path qn = namedIn entries path qn := by
  rw [namedIn, List.filter_append, ← namedIn, List.filter_cons_of_neg (by simpa using h),
    List.filter_nil, List.append_nil]

lemma typesNamed_snoc {qn : String} (h : e.takesPart ∧ e.isType ∧ e.qualifiedName = some qn) :
    typesNamed (entries ++ [e]) qn = typesNamed entries qn ++ [e] := by
  rw [typesNamed, List.filter_append, ← typesNamed, List.filter_cons_of_pos (by simpa using h), List.filter_nil]

lemma typesNamed_snoc_of_not {qn : String} (h : ¬ (e.takesPart ∧ e.isType ∧ e.qualifiedName = some qn)) :
    typesNamed (entries ++ [e]) qn = typesNamed entries qn := by
  rw [typesNamed, List.filter_append, ← typesNamed, List.filter_cons_of_neg (by simpa using h), List.filter_nil,
    List.append_nil]

lemma firstDoc_snoc_type (found : List SeedCorpusEntry) (h : e.isType) :
    firstDoc (found ++ [e]) = (firstDoc found).or e.docOf := by
  rw [firstDoc, List.filter_append, List.filter_cons_of_pos h, List.filter_nil, List.findSome?_append,
    List.findSome?_singleton]
  rfl

lemma firstDoc_snoc_other (found : List SeedCorpusEntry)
    (h : e.isType = false) : firstDoc (found ++ [e]) = firstDoc found := by
  rw [firstDoc, List.filter_append, List.filter_cons_of_neg (by rw [h]; exact Bool.false_ne_true), List.filter_nil,
    List.append_nil, firstDoc]

lemma EnclosingIndex.Of.skip {ix : EnclosingIndex} (h : ix.Of entries)
    (he : e.takesPart = false ∨ e.qualifiedName = none) : ix.Of (entries ++ [e]) := by
  have hnone : ∀ qn, ¬ (e.takesPart ∧ e.qualifiedName = some qn) := by
    rintro qn ⟨htakes, hname⟩
    rcases he with he | he
    · cases he.symm.trans htakes
    · cases he.symm.trans hname
  constructor
  · intro path qn
    rw [h.perFile, namedIn_snoc_of_not fun hnamed => hnone qn ⟨hnamed.1, hnamed.2.2⟩]
  · intro qn
    rw [h.corpusWide, typesNamed_snoc_of_not fun hnamed => hnone qn ⟨hnamed.1, hnamed.2.2⟩]

lemma EnclosingIndex.Of.perFile_insert {ix : EnclosingIndex} (h : ix.Of entries) (he : e.takesPart) {qn : String}
    (hname : e.qualifiedName = some qn) (path qn' : String) :
    (ix.perFile.insert (e.path, qn) (firstDoc (namedIn entries e.path qn ++ [e])))[(path, qn')]? =
      if namedIn (entries ++ [e]) path qn' =
        [] then none else some (firstDoc (namedIn (entries ++ [e]) path qn')) := by
  rw [getElem?_insert]
  by_cases hsame : (e.path, qn) = (path, qn')
  · obtain ⟨rfl, rfl⟩ := Prod.mk.inj hsame
    rw [if_pos rfl, namedIn_snoc ⟨he, rfl, hname⟩, if_neg (by simp)]
  · rw [if_neg hsame, h.perFile, namedIn_snoc_of_not]
    rintro ⟨-, rfl, hname'⟩
    obtain rfl := Option.some.inj (hname.symm.trans hname')
    exact hsame rfl

lemma EnclosingIndex.Of.slot {ix : EnclosingIndex} (h : ix.Of entries) (path qn : String) :
    ix.perFile.getD (path, qn) none = firstDoc (namedIn entries path qn) := by
  rw [Std.ExtTreeMap.getD_eq_getD_getElem?, h.perFile]
  split
  · rename_i hnone
    rw [hnone]
    rfl
  · rfl

lemma EnclosingIndex.Of.add {ix : EnclosingIndex} (h : ix.Of entries) (he : e.takesPart) :
    (ix.add e).Of (entries ++ [e]) := by
  cases hname : e.qualifiedName with
  | none =>
    rw [EnclosingIndex.add, hname]
    exact h.skip (.inr hname)
  | some qn =>
    simp only [EnclosingIndex.add, hname, h.slot]
    cases htype : e.isType with
    | false =>
      constructor
      · intro path qn'
        rw [← h.perFile_insert he hname, firstDoc_snoc_other _ htype]
        rfl
      · intro qn'
        rw [typesNamed_snoc_of_not]
        · exact h.corpusWide qn'
        · rintro ⟨-, htype', -⟩
          cases htype.symm.trans htype'
    | true =>
      constructor
      · intro path qn'
        rw [← h.perFile_insert he hname, firstDoc_snoc_type _ htype]
        cases firstDoc (namedIn entries e.path qn) <;> rfl
      · intro qn'
        change (ix.corpusWide.insert qn _)[qn']? = _
        rw [getElem?_insert]
        by_cases hsame : qn = qn'
        · subst hsame
          rw [if_pos rfl, typesNamed_snoc ⟨he, htype, hname⟩, Std.ExtTreeMap.getD_eq_getD_getElem?, h.corpusWide]
          cases typesNamed entries qn with
          | nil => rfl
          | cons type types => simp
        · rw [if_neg hsame, h.corpusWide, typesNamed_snoc_of_not]
          rintro ⟨-, -, hname'⟩
          exact hsame (Option.some.inj (hname.symm.trans hname'))

lemma enclosingIndex_of (entries : List SeedCorpusEntry) :
    ((entries.filter SeedCorpusEntry.takesPart).foldl EnclosingIndex.add ⟨∅, ∅⟩).Of entries := by
  induction entries using List.reverseRecOn with
  | nil => exact ⟨fun path qn => by simp [namedIn], fun qn => by simp [typesNamed]⟩
  | append_singleton entries e ih =>
    rw [List.filter_append, List.foldl_append]
    cases he : e.takesPart with
    | false =>
      rw [List.filter_cons_of_neg (by rw [he]; exact Bool.false_ne_true)]
      exact ih.skip (.inl he)
    | true =>
      rw [List.filter_cons_of_pos he]
      exact ih.add he

/-- The sentence of each chunk is the one that the whole corpus gives it. -/
theorem enclosingSentences_eq (entries : List SeedCorpusEntry) :
    enclosingSentences entries = entries.map (sentenceFor entries) := by
  refine List.map_congr_left fun chunk _ => ?_
  have hindex := enclosingIndex_of entries
  rw [EnclosingIndex.sentence, sentenceFor]
  by_cases hmethod : chunk.takesPart ∧ chunk.subtype = some "METHOD"
  · rw [if_neg (by rw [not_or, not_not, ne_eq, not_not]; exact hmethod), if_pos hmethod,
      Option.bind_assoc (chunk.qualifiedName.bind parentQualifiedName)]
    congr 1
    funext parent
    rw [hindex.perFile, enclosingDoc]
    split
    · rename_i hthere
      split_ifs at hthere with hnone
      rw [if_neg hnone, Option.some.inj hthere]
    · rename_i hthere
      split_ifs at hthere with hnone
      rw [if_pos hnone, hindex.corpusWide]
      rcases typesNamed entries parent with _ | ⟨type, _ | ⟨type', types⟩⟩
      · rfl
      · rfl
      · rfl
  · rw [if_pos (by rw [← not_and_or]; exact hmethod), if_neg hmethod]

end Enclosing

end RepoGraph.Seed
