import Mathlib.Data.List.SplitBy
import RepoGraph.Lib.Exec
import RepoGraph.Lib.Folds
import RepoGraph.Lib.Runs
import RepoGraph.Seed.Document

/-! The pass that embeds a corpus: the chunks whose files are still those of the snapshot are admitted, a vector
is taken from an earlier pass when the very same document was embedded there, and the other documents go to the
model in batches. -/

namespace RepoGraph.Seed

open Lib
open Indexer (lines)

section Pass

structure SeedVectorEntry (F : Type) where
  nodeUid : String
  stableKey : String
  fileUid : String
  path : String
  line : Option ℤ
  qualifiedName : Option String
  isTest : Bool
  isDecl : Bool
  isField : Bool
  contentHash : String
  documentHash : Option String
  vector : List F
  deriving DecidableEq, Repr

inductive EmbedError
  | unavailable (detail : String)
  | malformed (detail : String)
  | dimMismatch (expected got : ℕ)
  deriving DecidableEq, Repr

structure Embedder (F : Type) where
  dim : ℕ
  embed : ℕ → List String → Except EmbedError (List (List F))

/-- What a pass uses of others: the digest of a text, what is read off the source of a chunk, and the scaling of
a vector. -/
structure Tools (F : Type) where
  contentHash : String → String
  structuralIsTest : String → String → ℕ → Bool
  isDeclaration : String → Option String → String → Bool → Bool
  l2Normalize : List F → List F

structure BuildConfig where
  batchSize : ℕ := 32
  corpusCap : ℕ := 200000
  deriving DecidableEq, Repr

structure BuildReport where
  admitted : ℕ
  reused : ℕ
  drifted : ℕ
  corpusOmitted : ℕ
  forwardDeclUnreadable : ℕ
  deriving DecidableEq, Repr

inductive BuildOutcome (F : Type)
  | built (entries : List (SeedVectorEntry F)) (report : BuildReport)
  | noCorpus
  | cancelled
  | embed (e : EmbedError)
  deriving DecidableEq, Repr

inductive Slot
  | reused
  | pending
  deriving DecidableEq, Repr

def isFieldTier (subtype : Option String) (spanLineCount : ℕ) (hasDoc isDecl : Bool) : Bool :=
  if subtype = some "PROPERTY" ∨ subtype = some "FIELD" then true
  else !isDecl && spanLineCount ≤ 1 && !hasDoc

variable {F : Type} (tools : Tools F)

def chunkRow (content : String) (chunk : SeedCorpusEntry × Option String) : Option (SeedVectorEntry F × String) :=
  if tools.contentHash content ≠ chunk.1.contentHash then none
  else
    (spanSource (lines content) chunk.1.lineStart chunk.1.lineEnd).map fun span =>
      let isDecl := tools.isDeclaration chunk.1.path chunk.1.subtype span (chunk.1.forwardDecl = .forwardDecl)
      let doc := buildChunkDocument chunk.1.qualifiedName chunk.2 chunk.1.docComment span
      ({ nodeUid := chunk.1.nodeUid
         stableKey := chunk.1.stableKey
         fileUid := chunk.1.fileUid
         path := chunk.1.path
         line := chunk.1.lineStart
         qualifiedName := chunk.1.qualifiedName
         isTest := chunk.1.isTest ||
           chunk.1.lineStart.any fun first => tools.structuralIsTest chunk.1.path content (asUsize first)
         isDecl
         isField := isFieldTier chunk.1.subtype (lines span).length (chunk.1.docComment.any (· ≠ "")) isDecl
         contentHash := chunk.1.contentHash
         documentHash := some (tools.contentHash doc)
         vector := [] }, doc)

structure Progress (F : Type) where
  admitted : List (SeedVectorEntry F)
  docs : List String
  slots : List Slot
  reused : ℕ
  drifted : ℕ
  forwardDeclUnreadable : ℕ

def Progress.start : Progress F := ⟨[], [], [], 0, 0, 0⟩

abbrev PriorKey := (String × String) × String

def priorByKey (dim : ℕ) (prior : List (SeedVectorEntry F)) : HashMap PriorKey (List F) :=
  (prior.filter (·.vector.length = dim)).foldl (fun m e =>
    match e.documentHash with
    | some documentHash => m.insert ((e.stableKey, e.contentHash), documentHash) e.vector
    | none => m) ∅

def admitChunk (table : HashMap PriorKey (List F)) (content : String) (st : Progress F)
    (chunk : SeedCorpusEntry × Option String) : Progress F :=
  match chunkRow tools content chunk with
  | none => { st with drifted := st.drifted + 1 }
  | some (row, doc) =>
    let unreadable := st.forwardDeclUnreadable + if chunk.1.forwardDecl = .unreadable then 1 else 0
    match table[((row.stableKey, row.contentHash), tools.contentHash doc)]? with
    | some vector =>
      { st with
        admitted := st.admitted ++ [{ row with vector := vector }]
        slots := st.slots ++ [.reused]
        reused := st.reused + 1
        forwardDeclUnreadable := unreadable }
    | none =>
      { st with
        admitted := st.admitted ++ [row]
        slots := st.slots ++ [.pending]
        docs := st.docs ++ [doc]
        forwardDeclUnreadable := unreadable }

/-- The files are read by the number of the run of chunks that needs them. -/
def admitRun (table : HashMap PriorKey (List F)) (readFile : ℕ → String → Option String) (st : Progress F)
    (run : List (SeedCorpusEntry × Option String) × ℕ) : Progress F :=
  match run.1 with
  | [] => st
  | first :: _ =>
    match readFile run.2 first.1.path with
    | none => { st with drifted := st.drifted + run.1.length }
    | some content => run.1.foldl (admitChunk tools table content) st

def runsOf (corpus : List (SeedCorpusEntry × Option String)) : List (List (SeedCorpusEntry × Option String)) :=
  corpus.splitBy fun a b => a.1.path = b.1.path

inductive Stopped
  | cancelled
  | embed (e : EmbedError)

def embedBatches (model : Embedder F) (cancel : ℕ → Bool) :
    ℕ → List (List String) → List (List F) → Except Stopped (List (List F))
  | _, [], embedded => .ok embedded
  | k, batch :: rest, embedded =>
    if cancel k then .error .cancelled
    else
      match model.embed k batch with
      | .error e => .error (.embed e)
      | .ok batchVecs =>
        if batchVecs.length ≠ batch.length then
          .error (.embed (.malformed
            s!"batch cardinality mismatch: sent {batch.length}, got {batchVecs.length}"))
        else
          match batchVecs.find? (·.length ≠ model.dim) with
          | some v => .error (.embed (.dimMismatch model.dim v.length))
          | none => embedBatches model cancel (k + 1) rest (embedded ++ batchVecs.map tools.l2Normalize)

def weave : List (SeedVectorEntry F) → List Slot → List (List F) → Exec (List (SeedVectorEntry F))
  | row :: rows, .reused :: slots, embedded => (row :: ·) <$> weave rows slots embedded
  | row :: rows, .pending :: slots, embedded => do
    let v ← expect "one embedded vector per pending slot" embedded.head?
    ({ row with vector := v } :: ·) <$> weave rows slots embedded.tail
  | rows, _, _ => .ok rows

def buildStore (entries : List SeedCorpusEntry) (model : Embedder F) (readFile : ℕ → String → Option String)
    (cancel : ℕ → Bool) (cfg : BuildConfig) (prior : List (SeedVectorEntry F)) : Exec (BuildOutcome F) :=
  if entries = [] then .ok .noCorpus
  else
    let corpusOmitted := entries.length - cfg.corpusCap
    let corpus := (entries.zip (enclosingSentences entries)).take cfg.corpusCap
    let st := (runsOf corpus).zipIdx.foldl (admitRun tools (priorByKey model.dim prior) readFile) .start
    if st.admitted = [] then
      .ok (.built [] ⟨0, st.reused, st.drifted, corpusOmitted, st.forwardDeclUnreadable⟩)
    else
      match embedBatches tools model cancel 0 (chunks (max cfg.batchSize 1) st.docs) [] with
      | .error .cancelled => .ok .cancelled
      | .error (.embed e) => .ok (.embed e)
      | .ok embedded => do
        let rows ← weave st.admitted st.slots embedded
        .ok (.built rows ⟨st.admitted.length, st.reused, st.drifted, corpusOmitted, st.forwardDeclUnreadable⟩)

end Pass

section Admission

variable {F : Type} (tools : Tools F)

def priorVector (dim : ℕ) (prior : List (SeedVectorEntry F)) (row : SeedVectorEntry F)
    (doc : String) : Option (List F) :=
  (prior.filter fun e => e.vector.length = dim ∧ e.stableKey = row.stableKey ∧ e.contentHash = row.contentHash ∧
    e.documentHash = some (tools.contentHash doc)).getLast?.map (·.vector)

abbrev Read := Option String × (SeedCorpusEntry × Option String)

def readChunks (readFile : ℕ → String → Option String) (corpus : List (SeedCorpusEntry × Option String)) :
    List Read :=
  (runsOf corpus).zipIdx.flatMap fun run => run.1.map fun chunk => (readFile run.2 chunk.1.path, chunk)

def admittedRow (read : Read) : Option (SeedVectorEntry F × String) :=
  read.1.bind (chunkRow tools · read.2)

def isUnreadable (read : Read) : Bool :=
  (admittedRow tools read).isSome && read.2.1.forwardDecl = .unreadable

variable (dim : ℕ) (prior : List (SeedVectorEntry F))

def pendingDocs (rows : List (SeedVectorEntry F × String)) : List String :=
  (rows.filter fun r => (priorVector tools dim prior r.1 r.2).isNone).map Prod.snd

structure Progress.Of (read : List Read) (st : Progress F) : Prop where
  admitted : st.admitted = (read.filterMap (admittedRow tools)).map fun r =>
    { r.1 with vector := (priorVector tools dim prior r.1 r.2).getD r.1.vector }
  slots : st.slots = (read.filterMap (admittedRow tools)).map fun r =>
    if (priorVector tools dim prior r.1 r.2).isSome then .reused else .pending
  docs : st.docs = pendingDocs tools dim prior (read.filterMap (admittedRow tools))
  reused : st.reused = (read.filterMap (admittedRow tools)).countP fun r =>
    (priorVector tools dim prior r.1 r.2).isSome
  drifted : st.drifted = read.countP fun r => (admittedRow tools r).isNone
  unreadable : st.forwardDeclUnreadable = read.countP (isUnreadable tools)

lemma priorByKey_eq (row : SeedVectorEntry F) (doc : String) :
    (priorByKey dim prior)[((row.stableKey, row.contentHash), tools.contentHash doc)]? =
      priorVector tools dim prior row doc := by
  induction prior using List.reverseRecOn with
  | nil => simp [priorByKey, priorVector]
  | append_singleton prior e ih =>
    rw [priorByKey, List.filter_append, List.foldl_append, priorVector, List.filter_append]
    by_cases hmatch : e.vector.length = dim ∧ e.stableKey = row.stableKey ∧ e.contentHash = row.contentHash ∧
        e.documentHash = some (tools.contentHash doc)
    · rw [List.filter_cons_of_pos (by simpa using hmatch.1), List.filter_cons_of_pos (by simpa using hmatch),
        List.filter_nil, List.filter_nil, List.getLast?_concat, List.foldl_cons, List.foldl_nil]
      obtain ⟨-, hkey, hcontent, hhash⟩ := hmatch
      rw [hhash, hkey, hcontent]
      exact Std.ExtTreeMap.getElem?_insert_self
    · have hother : [e].filter (fun e => e.vector.length = dim ∧ e.stableKey = row.stableKey ∧
          e.contentHash = row.contentHash ∧ e.documentHash = some (tools.contentHash doc)) = [] :=
        List.filter_eq_nil_iff.mpr fun e' he' => by
          rw [List.mem_singleton.mp he', decide_eq_true_eq]
          exact hmatch
      rw [hother, List.append_nil, ← priorVector, ← ih]
      by_cases hlength : e.vector.length = dim
      · rw [List.filter_cons_of_pos (by simpa using hlength), List.filter_nil, List.foldl_cons, List.foldl_nil,
          ← priorByKey]
        cases hhash : e.documentHash with
        | none => rfl
        | some documentHash =>
          refine getElem?_insert_of_ne _ (fun hsame => hmatch ?_) _
          obtain ⟨hrest, rfl⟩ := Prod.mk.inj hsame
          obtain ⟨hkey, hcontent⟩ := Prod.mk.inj hrest
          exact ⟨hlength, hkey, hcontent, hhash⟩
      · rw [List.filter_cons_of_neg (by simpa using hlength), List.filter_nil, List.foldl_nil, ← priorByKey]

variable {tools dim prior}

lemma Progress.Of.start : (Progress.start : Progress F).Of tools dim prior [] := ⟨rfl, rfl, rfl, rfl, rfl, rfl⟩

lemma Progress.Of.drift {read : List Read} {st : Progress F} (h : st.Of tools dim prior read) {more : List Read}
    (hmore : ∀ r ∈ more, admittedRow tools r = none) :
    { st with drifted := st.drifted + more.length }.Of tools dim prior (read ++ more) := by
  have hsame : (read ++ more).filterMap (admittedRow tools) = read.filterMap (admittedRow tools) := by
    rw [List.filterMap_append, List.filterMap_eq_nil_iff.mpr hmore, List.append_nil]
  refine ⟨?_, ?_, ?_, ?_, ?_, ?_⟩
  · rw [hsame]
    exact h.admitted
  · rw [hsame]
    exact h.slots
  · rw [hsame]
    exact h.docs
  · rw [hsame]
    exact h.reused
  · have hall : more.countP (fun r => (admittedRow tools r).isNone) = more.length :=
      List.countP_eq_length.mpr fun r hr => by rw [hmore r hr]; rfl
    rw [List.countP_append, hall, ← h.drifted]
  · have hnone : more.countP (isUnreadable tools) = 0 :=
      List.countP_eq_zero.mpr fun r hr => by simp [isUnreadable, hmore r hr]
    rw [List.countP_append, hnone]
    exact h.unreadable

lemma Progress.Of.chunk {read : List Read} {st : Progress F} (h : st.Of tools dim prior read) (content : String)
    (chunk : SeedCorpusEntry × Option String) :
    (admitChunk tools (priorByKey dim prior) content st chunk).Of tools dim prior
      (read ++ [(some content, chunk)]) := by
  have hread : admittedRow tools (some content, chunk) = chunkRow tools content chunk := rfl
  rw [admitChunk]
  split
  · rename_i hrow
    exact h.drift fun r hr => by rw [List.mem_singleton.mp hr, hread, hrow]
  · rename_i row doc hrow
    have hmore : (read ++ [(some content, chunk)]).filterMap (admittedRow tools) =
        read.filterMap (admittedRow tools) ++ [(row, doc)] := by
      rw [List.filterMap_append, List.filterMap_cons_some (hread.trans hrow), List.filterMap_nil]
    have hadmitted : (read ++ [(some content, chunk)]).countP (fun r => (admittedRow tools r).isNone) =
        read.countP fun r => (admittedRow tools r).isNone := by
      rw [List.countP_append, List.countP_singleton, hread, hrow]
      rfl
    have hunreadable : (read ++ [(some content, chunk)]).countP (isUnreadable tools) =
        read.countP (isUnreadable tools) + if chunk.1.forwardDecl = .unreadable then 1 else 0 := by
      rw [List.countP_append, List.countP_singleton, isUnreadable, hread, hrow]
      simp
    rw [priorByKey_eq]
    cases hvector : priorVector tools dim prior row doc with
    | some vector =>
      refine ⟨?_, ?_, ?_, ?_, ?_, ?_⟩
      · rw [hmore, List.map_append, ← h.admitted, List.map_singleton, hvector]
        rfl
      · rw [hmore, List.map_append, ← h.slots, List.map_singleton, hvector]
        rfl
      · rw [hmore, pendingDocs, List.filter_append, List.map_append, ← pendingDocs, ← h.docs,
          List.filter_cons_of_neg (by rw [hvector]; exact Bool.false_ne_true)]
        exact (List.append_nil _).symm
      · rw [hmore, List.countP_append, ← h.reused, List.countP_singleton, hvector]
        rfl
      · rw [hadmitted]
        exact h.drifted
      · rw [hunreadable, ← h.unreadable]
    | none =>
      refine ⟨?_, ?_, ?_, ?_, ?_, ?_⟩
      · rw [hmore, List.map_append, ← h.admitted, List.map_singleton, hvector]
        rfl
      · rw [hmore, List.map_append, ← h.slots, List.map_singleton, hvector]
        rfl
      · rw [hmore, pendingDocs, List.filter_append, List.map_append, ← pendingDocs, ← h.docs,
          List.filter_cons_of_pos (by rw [hvector]; rfl)]
        rfl
      · rw [hmore, List.countP_append, ← h.reused, List.countP_singleton, hvector]
        rfl
      · rw [hadmitted]
        exact h.drifted
      · rw [hunreadable, ← h.unreadable]

lemma Progress.Of.run {read : List Read} {st : Progress F} (h : st.Of tools dim prior read)
    (readFile : ℕ → String → Option String) (run : List (SeedCorpusEntry × Option String) × ℕ)
    (hpath : ∀ a ∈ run.1, ∀ b ∈ run.1, a.1.path = b.1.path) :
    (admitRun tools (priorByKey dim prior) readFile st run).Of tools dim prior
      (read ++ run.1.map fun chunk => (readFile run.2 chunk.1.path, chunk)) := by
  have hchunks : ∀ (content : String) (chunks : List (SeedCorpusEntry × Option String))
      (read : List Read) (st : Progress F),
      st.Of tools dim prior read →
        (chunks.foldl (admitChunk tools (priorByKey dim prior) content) st).Of tools dim prior
        (read ++ chunks.map fun chunk => (some content, chunk)) := by
    intro content chunks
    induction chunks with
    | nil =>
      intro read st h
      rwa [List.map_nil, List.append_nil]
    | cons chunk chunks ih =>
      intro read st h
      have hnext := ih _ _ (h.chunk content chunk)
      rwa [List.append_assoc] at hnext
  obtain ⟨run, k⟩ := run
  cases run with
  | nil => rwa [List.map_nil, List.append_nil]
  | cons first rest =>
    have hread : (first :: rest).map (fun chunk => (readFile k chunk.1.path, chunk)) =
        (first :: rest).map fun chunk => (readFile k first.1.path, chunk) :=
      List.map_congr_left fun chunk hchunk => by rw [hpath chunk hchunk first List.mem_cons_self]
    rw [hread]
    cases hfile : readFile k first.1.path with
    | none =>
      have hnone : ∀ r ∈ (first :: rest).map fun chunk => ((none, chunk) : Read), admittedRow tools r = none := by
        intro r hr
        obtain ⟨chunk, -, rfl⟩ := List.mem_map.mp hr
        rfl
      have hdrift := h.drift hnone
      rw [List.length_map] at hdrift
      simp only [admitRun, hfile]
      exact hdrift
    | some content =>
      simp only [admitRun, hfile]
      exact hchunks content _ read st h

lemma runsOf_path {corpus run : List (SeedCorpusEntry × Option String)} (h : run ∈ runsOf corpus) :
    ∀ a ∈ run, ∀ b ∈ run, a.1.path = b.1.path := by
  have hchain : run.IsChain fun a b => a.1.path = b.1.path :=
    (List.isChain_of_mem_splitBy h).imp fun _ _ => of_decide_eq_true
  have htrans : IsTrans (SeedCorpusEntry × Option String) fun a b => a.1.path = b.1.path := ⟨fun _ _ _ => Eq.trans⟩
  have hsymm : Std.Symm fun a b : SeedCorpusEntry × Option String => a.1.path = b.1.path := ⟨fun _ _ => Eq.symm⟩
  exact @List.Pairwise.forall_of_forall _ _ _ hsymm (fun _ _ => rfl) (List.isChain_iff_pairwise.mp hchain)

lemma admitted_of (readFile : ℕ → String → Option String) (corpus : List (SeedCorpusEntry × Option String)) :
    ((runsOf corpus).zipIdx.foldl (admitRun tools (priorByKey dim prior) readFile) .start).Of tools dim prior
      (readChunks readFile corpus) := by
  have hruns : ∀ (runs : List (List (SeedCorpusEntry × Option String) × ℕ)) (read : List Read) (st : Progress F),
      (∀ run ∈ runs, ∀ a ∈ run.1, ∀ b ∈ run.1, a.1.path = b.1.path) → st.Of tools dim prior read →
      (runs.foldl (admitRun tools (priorByKey dim prior) readFile) st).Of tools dim prior
        (read ++ runs.flatMap fun run => run.1.map fun chunk => (readFile run.2 chunk.1.path, chunk)) := by
    intro runs
    induction runs with
    | nil =>
      intro read st _ h
      rwa [List.flatMap_nil, List.append_nil]
    | cons run runs ih =>
      intro read st hpath h
      have hnext := ih _ _ (fun r hr => hpath r (List.mem_cons_of_mem _ hr))
        (h.run readFile run (hpath run List.mem_cons_self))
      rwa [List.append_assoc] at hnext
  have hall := hruns (runsOf corpus).zipIdx [] .start (fun run hrun =>
    runsOf_path (List.fst_mem_of_mem_zipIdx hrun)) .start
  rwa [List.nil_append] at hall

end Admission

section Vectors

variable {F : Type} {tools : Tools F} {model : Embedder F} {f : String → List F}

/-- The model answers each text by itself, in the order of the texts, whatever else it is asked. -/
def Embedder.PerText (model : Embedder F) (f : String → List F) : Prop :=
  ∀ k batch vecs, model.embed k batch = .ok vecs → vecs = batch.map f

def Answered (tools : Tools F) (model : Embedder F) (cancel : ℕ → Bool) (f : String → List F)
    (n : ℕ) (docs : List String) :
    Except Stopped (List (List F)) → Prop
  | .ok vecs => vecs = docs.map (fun doc => tools.l2Normalize (f doc)) ∧
      (∀ doc ∈ docs, (f doc).length = model.dim) ∧
      ∀ k < n, cancel k = false
  | .error .cancelled => ∃ k < n, cancel k = true
  | .error (.embed e) => (∃ k batch, model.embed k batch = .error e) ∨
      ∃ doc ∈ docs, (f doc).length ≠ model.dim ∧ e = .dimMismatch model.dim (f doc).length

lemma embedBatches_answered (hf : model.PerText f) (cancel : ℕ → Bool) (batches : List (List String)) :
    Answered tools model cancel f batches.length batches.flatten
      (embedBatches tools model cancel 0 batches []) := by
  have hloop : ∀ (batches : List (List String)) (k n : ℕ) (done : List String), n = k + batches.length →
      (∀ doc ∈ done, (f doc).length = model.dim) → (∀ j < k, cancel j = false) →
      Answered tools model cancel f n (done ++ batches.flatten)
        (embedBatches tools model cancel k batches (done.map fun doc => tools.l2Normalize (f doc))) := by
    intro batches
    induction batches with
    | nil =>
      rintro k n done rfl hdone hquiet
      rw [List.flatten_nil, List.append_nil]
      exact ⟨rfl, hdone, hquiet⟩
    | cons batch batches ih =>
      intro k n done hn hdone hquiet
      rw [List.length_cons] at hn
      rw [embedBatches]
      split_ifs with hcancel
      · exact ⟨k, by omega, hcancel⟩
      cases hanswer : model.embed k batch with
      | error e => exact .inl ⟨k, batch, hanswer⟩
      | ok vecs =>
        obtain rfl := hf k batch vecs hanswer
        simp only [List.length_map, ne_eq, not_true_eq_false, if_false]
        split
        · rename_i v hv
          obtain ⟨doc, hdoc, rfl⟩ := List.mem_map.mp (List.mem_of_find?_eq_some hv)
          refine .inr ⟨doc, ?_, ?_, rfl⟩
          · exact List.mem_append_right _ (List.mem_flatten_of_mem List.mem_cons_self hdoc)
          · simpa using List.find?_some hv
        · rename_i hall
          rw [List.map_map, List.flatten_cons, ← List.append_assoc]
          have hnext := ih (k + 1) n (done ++ batch) (by omega) ?_ ?_
          · rwa [List.map_append] at hnext
          · intro doc hdoc
            rcases List.mem_append.mp hdoc with hdoc | hdoc
            · exact hdone doc hdoc
            · simpa using List.find?_eq_none.mp hall (f doc) (List.mem_map_of_mem hdoc)
          · intro j hj
            rcases Nat.lt_succ_iff_lt_or_eq.mp hj with hj | rfl
            · exact hquiet j hj
            · exact Bool.eq_false_iff.mpr hcancel
  have h := hloop batches 0 batches.length [] (Nat.zero_add _).symm nofun nofun
  rwa [List.nil_append] at h

def storedRows (tools : Tools F) (dim : ℕ) (f : String → List F)
    (prior : List (SeedVectorEntry F)) (read : List Read) :
    List (SeedVectorEntry F) :=
  (read.filterMap (admittedRow tools)).map fun r =>
    { r.1 with vector := (priorVector tools dim prior r.1 r.2).getD (tools.l2Normalize (f r.2)) }

lemma weave_rows (dim : ℕ) (prior : List (SeedVectorEntry F)) (g : String → List F)
    (rows : List (SeedVectorEntry F × String)) :
    weave (rows.map fun r => { r.1 with vector := (priorVector tools dim prior r.1 r.2).getD r.1.vector })
        (rows.map fun r => if (priorVector tools dim prior r.1 r.2).isSome then .reused else .pending)
        ((pendingDocs tools dim prior rows).map g) =
      .ok (rows.map fun r => { r.1 with vector := (priorVector tools dim prior r.1 r.2).getD (g r.2) }) := by
  induction rows with
  | nil => rfl
  | cons r rows ih =>
    rw [List.map_cons, List.map_cons, List.map_cons]
    cases hprior : priorVector tools dim prior r.1 r.2 with
    | some v =>
      have hdocs : pendingDocs tools dim prior (r :: rows) = pendingDocs tools dim prior rows := by
        rw [pendingDocs, List.filter_cons_of_neg (by rw [hprior]; exact Bool.false_ne_true), ← pendingDocs]
      rw [hdocs, Option.isSome_some, if_pos rfl, weave, ih]
      rfl
    | none =>
      have hdocs : pendingDocs tools dim prior (r :: rows) = r.2 :: pendingDocs tools dim prior rows := by
        rw [pendingDocs, List.filter_cons_of_pos (by rw [hprior]; rfl), List.map_cons, ← pendingDocs]
      rw [hdocs, List.map_cons, Option.isSome_none, if_neg Bool.false_ne_true, weave, List.tail_cons, ih]
      rfl

def corpusOf (entries : List SeedCorpusEntry) (cfg : BuildConfig) : List (SeedCorpusEntry × Option String) :=
  (entries.zip (entries.map (sentenceFor entries))).take cfg.corpusCap

def BuildOutcome.Exact (tools : Tools F) (model : Embedder F) (f : String → List F)
    (entries : List SeedCorpusEntry)
    (readFile : ℕ → String → Option String) (cancel : ℕ → Bool) (cfg : BuildConfig)
    (prior : List (SeedVectorEntry F)) (outcome : BuildOutcome F) : Prop :=
  let read := readChunks readFile (corpusOf entries cfg)
  let docs := pendingDocs tools model.dim prior (read.filterMap (admittedRow tools))
  let batches := (chunks (max cfg.batchSize 1) docs).length
  match outcome with
  | .built rows report =>
    rows = storedRows tools model.dim f prior read ∧
      report.admitted = rows.length ∧ report.reused + docs.length = rows.length ∧
      report.admitted + report.drifted + report.corpusOmitted = entries.length ∧
      report.forwardDeclUnreadable = read.countP (isUnreadable tools) ∧
      (∀ doc ∈ docs, (f doc).length = model.dim) ∧ ∀ k < batches, cancel k = false
  | .noCorpus => entries = []
  | .cancelled => ∃ k < batches, cancel k = true
  | .embed e => (∃ k batch, model.embed k batch = .error e) ∨
      ∃ doc ∈ docs, (f doc).length ≠ model.dim ∧ e = .dimMismatch model.dim (f doc).length

lemma length_readChunks (readFile : ℕ → String → Option String) (corpus : List (SeedCorpusEntry × Option String)) :
    (readChunks readFile corpus).length = corpus.length := by
  have hflat : (readChunks readFile corpus).map Prod.snd = corpus := by
    have hruns : (readChunks readFile corpus).map Prod.snd = ((runsOf corpus).zipIdx.map Prod.fst).flatten := by
      rw [readChunks, List.map_flatMap, List.flatMap_def]
      simp only [List.map_map, Function.comp_def, List.map_id']
    rw [hruns, List.zipIdx_map_fst]
    exact List.flatten_splitBy ..
  have hlength := congrArg List.length hflat
  rwa [List.length_map] at hlength

lemma countP_isSome_add {α β : Type} (g : α → Option β) (l : List α) :
    l.countP (fun a => (g a).isSome) + l.countP (fun a => (g a).isNone) = l.length := by
  have hnot : ∀ a, (decide ¬ (g a).isSome = true) = (g a).isNone := fun a => by cases g a <;> rfl
  have hsplit := List.length_eq_countP_add_countP (fun a => (g a).isSome) (l := l)
  simp only [hnot] at hsplit
  exact hsplit.symm

variable {entries : List SeedCorpusEntry} {readFile : ℕ → String → Option String}
    {cancel : ℕ → Bool} {cfg : BuildConfig}
  {prior : List (SeedVectorEntry F)}

lemma built_exact {st : Progress F}
    (hst : st.Of tools model.dim prior (readChunks readFile (corpusOf entries cfg)))
    (hdocs : ∀ doc ∈ st.docs, (f doc).length = model.dim)
    (hquiet : ∀ k < (chunks (max cfg.batchSize 1) st.docs).length, cancel k = false) :
    (BuildOutcome.built (storedRows tools model.dim f prior (readChunks readFile (corpusOf entries cfg)))
      ⟨st.admitted.length, st.reused, st.drifted, entries.length - cfg.corpusCap, st.forwardDeclUnreadable⟩).Exact
        tools model f entries readFile cancel cfg prior := by
  have hread := length_readChunks readFile (corpusOf entries cfg)
  have hcorpus : (corpusOf entries cfg).length = min cfg.corpusCap entries.length := by
    rw [corpusOf, List.length_take, List.length_zip, List.length_map, min_self]
  set read := readChunks readFile (corpusOf entries cfg)
  have hrows : (storedRows tools model.dim f prior read).length = (read.filterMap (admittedRow tools)).length :=
    List.length_map _
  have hadmitted : st.admitted.length = (read.filterMap (admittedRow tools)).length := by
    rw [hst.admitted, List.length_map]
  have hsome : (read.filterMap (admittedRow tools)).length = read.countP fun r => (admittedRow tools r).isSome :=
    List.length_filterMap_eq_countP ..
  have hall := countP_isSome_add (admittedRow tools) read
  have hreused := countP_isSome_add (fun r : SeedVectorEntry F × String =>
    priorVector tools model.dim prior r.1 r.2)
    (read.filterMap (admittedRow tools))
  rw [← hst.reused, List.countP_eq_length_filter, ← List.length_map Prod.snd, ← pendingDocs, ← hst.docs] at hreused
  refine ⟨rfl, hadmitted.trans hrows.symm, ?_, ?_, hst.unreadable, ?_, ?_⟩
  · rw [hrows, ← hreused, ← hst.docs]
  · have hdrifted := hst.drifted
    change st.admitted.length + st.drifted + (entries.length - cfg.corpusCap) = entries.length
    omega
  · rwa [← hst.docs]
  · rwa [← hst.docs]

/-- Every outcome of a pass is exact: the rows are those of the admitted chunks, each with the vector that an
earlier pass stored for its document, or else with the one that the model gives now. -/
theorem buildStore_exact (hf : model.PerText f) (entries : List SeedCorpusEntry)
    (readFile : ℕ → String → Option String)
    (cancel : ℕ → Bool) (cfg : BuildConfig) (prior : List (SeedVectorEntry F)) :
    ∃ outcome, buildStore tools entries model readFile cancel cfg prior = .ok outcome ∧
      outcome.Exact tools model f entries readFile cancel cfg prior := by
  rw [buildStore, enclosingSentences_eq, ← corpusOf]
  split_ifs with hnone
  · exact ⟨.noCorpus, rfl, hnone⟩
  have hst := @admitted_of F tools model.dim prior readFile (corpusOf entries cfg)
  have hbuilt := @built_exact F tools model f entries readFile cancel cfg prior _ hst
  dsimp only
  generalize (runsOf (corpusOf entries cfg)).zipIdx.foldl _ _ = st at hst hbuilt ⊢
  have hbatches := @embedBatches_answered F tools model f hf cancel (chunks (max cfg.batchSize 1) st.docs)
  rw [flatten_chunks (by omega)] at hbatches
  split_ifs with hempty
  · have hrows : (readChunks readFile (corpusOf entries cfg)).filterMap (admittedRow tools) = [] :=
      List.map_eq_nil_iff.mp (hst.admitted.symm.trans hempty)
    have hdocs : st.docs = [] := by
      rw [hst.docs, hrows]
      rfl
    rw [hdocs, storedRows, hrows, hempty] at hbuilt
    refine ⟨_, rfl, hbuilt nofun ?_⟩
    intro k hk
    rw [chunks, List.length_map, List.length_range, List.length_nil, Nat.div_eq_of_lt (by omega)] at hk
    exact absurd hk (Nat.not_lt_zero k)
  · split
    · rename_i hcancelled
      rw [hcancelled] at hbatches
      rw [hst.docs] at hbatches
      exact ⟨_, rfl, hbatches⟩
    · rename_i e hembed
      rw [hembed] at hbatches
      rw [hst.docs] at hbatches
      exact ⟨_, rfl, hbatches⟩
    · rename_i vecs hvecs
      rw [hvecs] at hbatches
      obtain ⟨rfl, hlengths, hquiet⟩ := hbatches
      have hexact := hbuilt hlengths hquiet
      rw [hst.admitted] at hexact
      rw [hst.admitted, hst.slots, hst.docs, weave_rows]
      exact ⟨_, rfl, hexact⟩

def unitModel : Embedder ℕ := ⟨1, fun _ batch => .ok (batch.map fun _ => [1])⟩

def unitTools : Tools ℕ where
  contentHash s :=
    ([("fn f() {}\n", "7ed4a69a138a907b"), ("f\nfn f() {}", "df9575f70b3aad88"),
      ("fn f() {}\nfn g() {}\n", "8941a5f865187777"), ("g\nfn g() {}", "1b7a6b5f8a6a3922")].lookup s).getD ""
  structuralIsTest _ _ _ := false
  isDeclaration _ _ _ forced := forced
  l2Normalize := id

def unitEntry : SeedCorpusEntry :=
  ⟨"n", "f.rs#f", "u", "f.rs", some "f", some "FUNCTION", none, some 1, some 1, false,
    "7ed4a69a138a907b", .definition⟩

lemma unitModel_perText : unitModel.PerText fun _ => [1] := fun _ _ _ h => (Except.ok.inj h).symm

/-- Two functions of a file, the second of which an earlier pass embedded as it stands. -/
def pairEntries : List SeedCorpusEntry :=
  [⟨"n", "f.rs#f", "u", "f.rs", some "f", some "FUNCTION", none, some 1, some 1, false,
    "8941a5f865187777", .definition⟩,
    ⟨"m", "f.rs#g", "u", "f.rs", some "g", some "FUNCTION", none, some 2, some 2, false,
      "8941a5f865187777", .definition⟩]

def pairRow (nodeUid stableKey name : String) (line : ℤ) (documentHash : String)
    (vector : List ℕ) : SeedVectorEntry ℕ :=
  ⟨nodeUid, stableKey, "u", "f.rs", some line, some name, false, false, true,
    "8941a5f865187777", some documentHash, vector⟩

theorem buildStore_exact_pair :
    let prior := [pairRow "k" "f.rs#g" "g" 5 "1b7a6b5f8a6a3922" [2]]
    let readFile := fun (_ : ℕ) (_ : String) => some "fn f() {}\nfn g() {}\n"
    let outcome := .built [pairRow "n" "f.rs#f" "f" 1 "df9575f70b3aad88" [1],
      pairRow "m" "f.rs#g" "g" 2 "1b7a6b5f8a6a3922" [2]] ⟨2, 1, 0, 0, 0⟩
    buildStore unitTools pairEntries unitModel readFile (fun _ => false) {} prior = .ok outcome ∧
      outcome.Exact unitTools unitModel (fun _ => [1]) pairEntries readFile (fun _ => false) {} prior := by
  intro prior readFile outcome
  obtain ⟨outcome', hrun, hexact⟩ :=
    @buildStore_exact ℕ unitTools unitModel _ unitModel_perText pairEntries readFile (fun _ => false) {} prior
  have heval : buildStore unitTools pairEntries unitModel readFile (fun _ => false) {} prior = .ok outcome := by
    decide +kernel
  obtain rfl := Except.ok.inj (heval.symm.trans hrun)
  exact ⟨heval, hexact⟩

end Vectors

section Stores

variable {F ι : Type}

structure Trigger (ι : Type) where
  model : ι
  entries : List SeedCorpusEntry
  readFile : ℕ → String → Option String
  cancel : ℕ → Bool
  cfg : BuildConfig
  parent : Option ℕ

variable (tools : Tools F) (models : ι → Embedder F) (f : ι → String → List F)

def readPriorSeedVectors [DecidableEq ι] (stores : List (ι × List (SeedVectorEntry F)))
    (t : Trigger ι) : List (SeedVectorEntry F) :=
  match t.parent.bind (stores[·]?) with
  | some (i, rows) => if i = t.model then rows else []
  | none => []

def publish [DecidableEq ι] (stores : List (ι × List (SeedVectorEntry F)))
    (t : Trigger ι) : List (ι × List (SeedVectorEntry F)) :=
  match buildStore tools t.entries (models t.model) t.readFile t.cancel t.cfg (readPriorSeedVectors stores t) with
  | .ok (.built rows _) => stores ++ [(t.model, rows)]
  | _ => stores

def stores [DecidableEq ι] (triggers : List (Trigger ι)) : List (ι × List (SeedVectorEntry F)) :=
  run (publish tools models) [] triggers

def Trigger.admitted (t : Trigger ι) : List (SeedVectorEntry F × String) :=
  (readChunks t.readFile (corpusOf t.entries t.cfg)).filterMap (admittedRow tools)

/-- The vector of a row is the one of a document that a pass with the same model assembled for the same symbol,
and that has the digest of the row. -/
def Traced (triggers : List (Trigger ι)) (i : ι) (row : SeedVectorEntry F) : Prop :=
  ∃ t ∈ triggers, t.model = i ∧ ∃ r ∈ t.admitted tools, r.1.stableKey = row.stableKey ∧
    r.1.contentHash = row.contentHash ∧ row.documentHash = some (tools.contentHash r.2) ∧
    row.vector = tools.l2Normalize (f i r.2)

variable {tools models f}

lemma chunkRow_documentHash {content : String} {chunk : SeedCorpusEntry × Option String}
    {r : SeedVectorEntry F × String}
    (h : chunkRow tools content chunk = some r) : r.1.documentHash = some (tools.contentHash r.2) := by
  rw [chunkRow] at h
  split_ifs at h
  obtain ⟨span, -, rfl⟩ := Option.map_eq_some_iff.mp h
  rfl

lemma admitted_documentHash {t : Trigger ι} {r : SeedVectorEntry F × String} (h : r ∈ t.admitted tools) :
    r.1.documentHash = some (tools.contentHash r.2) := by
  obtain ⟨read, -, hread⟩ := List.mem_filterMap.mp h
  obtain ⟨content, -, hrow⟩ := Option.bind_eq_some_iff.mp hread
  exact chunkRow_documentHash hrow

lemma Traced.snoc {triggers : List (Trigger ι)} {i : ι} {row : SeedVectorEntry F}
    (h : Traced tools f triggers i row) (t : Trigger ι) : Traced tools f (triggers ++ [t]) i row := by
  obtain ⟨t', ht', htraced⟩ := h
  exact ⟨t', List.mem_append_left _ ht', htraced⟩

/-- Each store holds the rows that one of the passes admitted, in their order, and all of its vectors are
traced. -/
def StoresTraced (tools : Tools F) (f : ι → String → List F) (triggers : List (Trigger ι))
    (published : List (ι × List (SeedVectorEntry F))) : Prop :=
  ∀ store ∈ published, (∃ t ∈ triggers, t.model = store.1 ∧
    List.Forall₂ (fun r row => row = { r.1 with vector := row.vector }) (t.admitted tools) store.2) ∧
      ∀ row ∈ store.2, Traced tools f triggers store.1 row

lemma prior_traced [DecidableEq ι] {triggers : List (Trigger ι)} {published : List (ι × List (SeedVectorEntry F))}
    (h : StoresTraced tools f triggers published) {t : Trigger ι} {row : SeedVectorEntry F}
    (hrow : row ∈ readPriorSeedVectors published t) : Traced tools f triggers t.model row := by
  rw [readPriorSeedVectors] at hrow
  split at hrow
  · rename_i i rows hstore
    split_ifs at hrow with hmodel
    · obtain ⟨k, -, hk⟩ := Option.bind_eq_some_iff.mp hstore
      exact hmodel ▸ (h _ (List.mem_of_getElem? hk)).2 row hrow
    · cases hrow
  · cases hrow

lemma storesTraced_step [DecidableEq ι] (hf : ∀ i, (models i).PerText (f i)) {triggers : List (Trigger ι)}
    {published : List (ι × List (SeedVectorEntry F))} (h : StoresTraced tools f triggers published)
    (t : Trigger ι) :
    StoresTraced tools f (triggers ++ [t]) (publish tools models published t) := by
  have hold : StoresTraced tools f (triggers ++ [t]) published := by
    intro store hstore
    obtain ⟨⟨t', ht', hmade⟩, htraced⟩ := h store hstore
    exact ⟨⟨t', List.mem_append_left _ ht', hmade⟩, fun row hrow => (htraced row hrow).snoc t⟩
  obtain ⟨outcome, hok, hexact⟩ := @buildStore_exact F tools (models t.model) (f t.model)
    (hf t.model) t.entries t.readFile t.cancel t.cfg (readPriorSeedVectors published t)
  rw [publish, hok]
  cases outcome with
  | noCorpus => exact hold
  | cancelled => exact hold
  | embed e => exact hold
  | built rows report =>
    obtain ⟨rfl, -⟩ := hexact
    intro store hstore
    rcases List.mem_append.mp hstore with hstore | hstore
    · exact hold store hstore
    obtain rfl := List.mem_singleton.mp hstore
    have ht : t ∈ triggers ++ [t] := List.mem_append_right _ List.mem_cons_self
    refine ⟨⟨t, ht, rfl, ?_⟩, ?_⟩
    · exact List.forall₂_map_right_iff.mpr (List.forall₂_same.mpr fun r _ => rfl)
    · intro row hrow
      obtain ⟨r, hr, rfl⟩ := List.mem_map.mp hrow
      have hhash := admitted_documentHash (show r ∈ t.admitted tools from hr)
      cases hprior : priorVector tools (models t.model).dim (readPriorSeedVectors published t) r.1 r.2 with
      | none => exact ⟨t, ht, rfl, r, hr, rfl, rfl, hhash, rfl⟩
      | some v =>
        obtain ⟨e, he, rfl⟩ := Option.map_eq_some_iff.mp hprior
        have hmatch := List.mem_filter.mp (List.mem_of_getLast? he)
        obtain ⟨-, hkey, hcontent, hdoc⟩ := of_decide_eq_true hmatch.2
        obtain ⟨t', ht', hmodel, r', hr', hkey', hcontent', hdoc', hvector⟩ := prior_traced hold hmatch.1
        exact ⟨t', ht', hmodel, r', hr', hkey'.trans hkey, hcontent'.trans hcontent,
          hhash.trans (hdoc.symm.trans hdoc'), hvector⟩

lemma stores_traced [DecidableEq ι] (hf : ∀ i, (models i).PerText (f i)) (triggers : List (Trigger ι)) :
    StoresTraced tools f triggers (stores tools models triggers) :=
  run_invariant (StoresTraced tools f) (fun _ h => absurd h List.not_mem_nil)
    (fun _ _ t h => storesTraced_step hf h t) triggers

def Distinct (tools : Tools F) (triggers : List (Trigger ι)) : Prop :=
  ∀ t ∈ triggers, ∀ t' ∈ triggers, ∀ r ∈ t.admitted tools, ∀ r' ∈ t'.admitted tools,
    tools.contentHash r.2 = tools.contentHash r'.2 → r.2 = r'.2

/-- What is true of the stores that some passes have published: all vectors are traced, and unless two documents
share a digest each store is what a pass without any earlier vectors would have built. -/
structure StoresExact (tools : Tools F) (f : ι → String → List F) (triggers : List (Trigger ι))
    (published : List (ι × List (SeedVectorEntry F))) : Prop where
  traced : StoresTraced tools f triggers published
  rebuilt : Distinct tools triggers → ∀ store ∈ published, ∃ t ∈ triggers, t.model = store.1 ∧
    store.2 = (t.admitted tools).map fun r => { r.1 with vector := tools.l2Normalize (f store.1 r.2) }

lemma StoresTraced.rebuilt {triggers : List (Trigger ι)} {published : List (ι × List (SeedVectorEntry F))}
    (h : StoresTraced tools f triggers published) (hdistinct : Distinct tools triggers)
    {store : ι × List (SeedVectorEntry F)} (hstore : store ∈ published) : ∃ t ∈ triggers, t.model = store.1 ∧
      store.2 = (t.admitted tools).map fun r => { r.1 with vector := tools.l2Normalize (f store.1 r.2) } := by
  obtain ⟨⟨t, ht, hmodel, hmade⟩, htraced⟩ := h store hstore
  refine ⟨t, ht, hmodel, ?_⟩
  have hmember := (List.forall₂_and_left _ _).mpr ⟨fun r (hr : r ∈ t.admitted tools) => hr, hmade⟩
  have hrows := (List.forall₂_and_left _ _).mpr ⟨htraced, hmember.flip⟩
  refine List.forall₂_eq_eq_eq ▸ List.forall₂_map_right_iff.mpr (hrows.imp ?_)
  rintro row r ⟨⟨t', ht', -, r', hr', -, -, hdoc', hvector⟩, hr, hrow⟩
  have hdoc : row.documentHash = some (tools.contentHash r.2) := by
    rw [hrow]
    exact admitted_documentHash hr
  have hsame := hdistinct t ht t' ht' r hr r' hr' (Option.some.inj (hdoc.symm.trans hdoc'))
  rw [hrow, hvector, hsame]

/-- In every run of passes, with any models and any parents, the stores that are published are exact. -/
theorem stores_exact [DecidableEq ι] (hf : ∀ i, (models i).PerText (f i)) (triggers : List (Trigger ι)) :
    StoresExact tools f triggers (stores tools models triggers) :=
  have htraced := stores_traced hf triggers
  ⟨htraced, fun hdistinct _ => htraced.rebuilt hdistinct⟩

def unitTrigger (parent : Option ℕ) : Trigger Unit :=
  ⟨(), [unitEntry], fun _ _ => some "fn f() {}\n", fun _ => false, {}, parent⟩

theorem stores_exact_unit : StoresExact unitTools (fun _ _ => [1]) [unitTrigger none, unitTrigger (some 0)]
    (stores unitTools (fun _ => unitModel) [unitTrigger none, unitTrigger (some 0)]) :=
  stores_exact (fun _ => unitModel_perText) [unitTrigger none, unitTrigger (some 0)]

end Stores

end RepoGraph.Seed
