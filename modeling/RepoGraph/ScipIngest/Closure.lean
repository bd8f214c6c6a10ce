import RepoGraph.ScipIngest.Partition

/-! No edge of an ingested partition hangs in the air, and a call is one that is written in the source. -/

namespace RepoGraph.ScipIngest

open Lib Lib.Text Ir

section Nodes

structure Counted (nodes : List IrNode) (matched fallback fileScope : ℕ) : Prop where
  adopted : matched = nodes.countP (·.identitySource = .astAdopted)
  synthesized : fallback = nodes.countP (·.identitySource = .scipSynthesizedFallback)
  fileScopes : fileScope = nodes.countP (·.identitySource = .astFileScope)

lemma Counted.append {ns ns' : List IrNode} {m f s m' f' s' : ℕ} (h : Counted ns m f s)
    (h' : Counted ns' m' f' s') :
    Counted (ns ++ ns') (m + m') (f + f') (s + s') where
  adopted := by rw [List.countP_append, h.adopted, h'.adopted]
  synthesized := by rw [List.countP_append, h.synthesized, h'.synthesized]
  fileScopes := by rw [List.countP_append, h.fileScopes, h'.fileScopes]

def PartitionBuild.Good (b : PartitionBuild) : Prop :=
  Counted b.nodes b.matched b.fallback b.fileScope ∧ b.reconciled ≤ b.matched

variable {keyPath repoUid partitionId : String} {producer : Producer}

lemma addDefinition_good {astNodes : List AstNodeLite} {b : PartitionBuild} (h : b.Good) (d : ScipDef) :
    (addDefinition keyPath repoUid partitionId producer astNodes b d).Good := by
  obtain ⟨hcounted, hreconciled⟩ := h
  rw [addDefinition]
  split
  · exact ⟨hcounted, hreconciled⟩
  · split
    · rename_i ast _
      have hnode : Counted [adoptedNode keyPath partitionId producer d ast] 1 0 0 := ⟨rfl, rfl, rfl⟩
      refine ⟨hcounted.append hnode, ?_⟩
      change (if startsWith d.name "<" then b.reconciled + 1 else b.reconciled) ≤ b.matched + 1
      split <;> omega
    · have hnode : Counted [fallbackNode keyPath repoUid partitionId producer d] 0 1 0 := ⟨rfl, rfl, rfl⟩
      exact ⟨hcounted.append hnode, hreconciled⟩

lemma addFileScope_good {b : PartitionBuild} (h : b.Good) (n : AstNodeLite) :
    (addFileScope keyPath partitionId producer b n).Good := by
  obtain ⟨hcounted, hreconciled⟩ := h
  have hnode : Counted [fileScopeNode keyPath partitionId producer n] 0 0 1 := ⟨rfl, rfl, rfl⟩
  exact ⟨hcounted.append hnode, hreconciled⟩

lemma buildPartitionNodes_good (symbols : ScipSymbols) (doc : Document) (astNodes : List AstNodeLite) :
    (buildPartitionNodes keyPath repoUid partitionId producer symbols doc astNodes).Good := by
  rw [buildPartitionNodes]
  apply List.foldlRecOn
  · apply List.foldlRecOn
    · exact ⟨⟨rfl, rfl, rfl⟩, le_refl 0⟩
    · intro b hb d _
      exact addDefinition_good hb d
  · intro b hb n _
    exact addFileScope_good hb n

end Nodes

section FirstPass

structure FirstPass.Known (nodes : List IrNode) (st : FirstPass) : Prop where
  keys : ∀ k, k ∈ st.nodeKeys ↔ ∃ n ∈ nodes, n.key.asStr = k
  symbols : ∀ sym v, st.symbolToKey[sym]? = some v →
    ∃ n ∈ nodes, n.key.asStr = v.key ∧ n.name = v.name ∧ n.provenance.scipSymbolId = some sym ∧
      (v.isFallback ↔ n.identitySource = .scipSynthesizedFallback)

lemma recordNode_known {nodes : List IrNode} {st : FirstPass} (h : st.Known nodes) (n : IrNode) :
    (recordNode st n).Known (nodes ++ [n]) := by
  constructor
  · intro k
    simp only [recordNode, Std.ExtTreeSet.mem_insert, Std.compare_eq_iff_eq, h.keys,
      List.mem_append, List.mem_singleton]
    constructor
    · rintro (rfl | ⟨m, hm, rfl⟩)
      · exact ⟨n, .inr rfl, rfl⟩
      · exact ⟨m, .inl hm, rfl⟩
    · rintro ⟨m, hm | rfl, rfl⟩
      · exact .inr ⟨m, hm, rfl⟩
      · exact .inl rfl
  · intro sym v hv
    have hold : st.symbolToKey[sym]? = some v → ∃ m ∈ nodes ++ [n], m.key.asStr = v.key ∧ m.name = v.name ∧
        m.provenance.scipSymbolId = some sym ∧ (v.isFallback ↔ m.identitySource = .scipSynthesizedFallback) := by
      intro hv
      obtain ⟨m, hm, hspec⟩ := h.symbols sym v hv
      exact ⟨m, List.mem_append_left _ hm, hspec⟩
    simp only [recordNode] at hv
    cases hsym : n.provenance.scipSymbolId with
    | none =>
      rw [hsym] at hv
      exact hold hv
    | some s =>
      rw [hsym, getElem?_insert] at hv
      split at hv
      · rename_i heq
        obtain rfl := Option.some.inj hv
        exact ⟨n, by simp, rfl, rfl, by rw [hsym, heq], by simp⟩
      · exact hold hv

lemma foldl_recordNode_known (ns : List IrNode) {nodes : List IrNode} {st : FirstPass} (h : st.Known nodes) :
    (ns.foldl recordNode st).Known (nodes ++ ns) := by
  induction ns generalizing nodes st with
  | nil => simpa using h
  | cons n ns ih =>
    rw [List.foldl_cons, List.append_cons]
    exact ih (recordNode_known h n)

variable {out : Outside} {root repoUid partitionId : String} {producer : Producer} {partitionPrefix : String}

def Read (out : Outside) (root repoUid partitionPrefix : String) (doc : Document) (keyPath : String)
    (facts : AstFacts) : Prop :=
  repoRelativeFilePath partitionPrefix doc.relativePath = .ok keyPath ∧
    ∃ source, out.readToString s!"{root}/{doc.relativePath}" = some source ∧
      facts = astFactsForSource out.ext out.extract source keyPath repoUid

structure FirstPass.After (out : Outside) (root repoUid partitionPrefix : String) (documents : List Document)
    (st : FirstPass) : Prop where
  known : st.Known st.nodes
  counted : Counted st.nodes st.nodeCounts.matched st.nodeCounts.fallback st.nodeCounts.fileScope
  reconciled : st.nodeCounts.reconciled ≤ st.nodeCounts.matched
  read : List.Forall₂ (fun doc (p : Option AstFacts × String) =>
    ∀ facts, p.1 = some facts ↔ Read out root repoUid partitionPrefix doc p.2 facts) documents
    (st.factsByDoc.zip st.docKeyPaths)
  aligned : st.factsByDoc.length = st.docKeyPaths.length

lemma forall₂_append_singleton {α β : Type} {R : α → β → Prop} {l : List α} {l' : List β} {a : α} {b : β}
    (h : List.Forall₂ R l l') (hab : R a b) : List.Forall₂ R (l ++ [a]) (l' ++ [b]) :=
  List.rel_append h (.cons hab .nil)

lemma firstPassDoc_after {documents : List Document} {st : FirstPass}
    (h : st.After out root repoUid partitionPrefix documents) (doc : Document) :
    (firstPassDoc out root repoUid partitionId producer partitionPrefix st doc).After out
    root repoUid partitionPrefix
      (documents ++ [doc]) := by
  have hzip : ∀ (facts : Option AstFacts) keyPath,
      (st.factsByDoc ++ [facts]).zip (st.docKeyPaths ++ [keyPath]) =
        st.factsByDoc.zip st.docKeyPaths ++ [(facts, keyPath)] := fun facts keyPath => by
    rw [List.zip_append h.aligned]
    rfl
  rw [firstPassDoc]
  split
  · rename_i message hpath
    refine ⟨⟨h.known.keys, h.known.symbols⟩, h.counted, h.reconciled, ?_, by simp [h.aligned]⟩
    rw [hzip]
    refine forall₂_append_singleton h.read fun facts => ?_
    constructor
    · intro hnone
      cases hnone
    · rintro ⟨hok, -⟩
      rw [hpath] at hok
      cases hok
  · rename_i keyPath hpath
    split
    · rename_i hnone
      refine ⟨⟨h.known.keys, h.known.symbols⟩, h.counted, h.reconciled, ?_, by simp [h.aligned]⟩
      rw [hzip]
      refine forall₂_append_singleton h.read fun facts => ?_
      constructor
      · intro hfacts
        cases hfacts
      · rintro ⟨-, source, hsource, -⟩
        rw [hnone] at hsource
        cases hsource
    · rename_i source hsource
      obtain ⟨hcounted, hreconciled⟩ :=
        @buildPartitionNodes_good keyPath repoUid partitionId producer out.symbols doc
        (astFactsForSource out.ext out.extract source keyPath repoUid).nodes
      have hknown := foldl_recordNode_known
        (buildPartitionNodes keyPath repoUid partitionId producer out.symbols doc
          (astFactsForSource out.ext out.extract source keyPath repoUid).nodes).nodes h.known
      refine ⟨⟨hknown.keys, hknown.symbols⟩, h.counted.append hcounted,
        Nat.add_le_add h.reconciled hreconciled, ?_, by simp [h.aligned]⟩
      rw [hzip]
      refine forall₂_append_singleton h.read fun facts => ?_
      constructor
      · intro hfacts
        exact ⟨hpath, source, hsource, (Option.some.inj hfacts).symm⟩
      · rintro ⟨-, source', hsource', rfl⟩
        obtain rfl := Option.some.inj (hsource.symm.trans hsource')
        rfl

lemma firstPass_after (documents : List Document) :
    (firstPass out root repoUid partitionId producer partitionPrefix documents).After out
      root repoUid partitionPrefix documents := by
  induction documents using List.reverseRecOn with
  | nil => exact ⟨⟨by simp [firstPass, FirstPass.start], by simp [firstPass, FirstPass.start]⟩, ⟨rfl, rfl, rfl⟩,
      le_refl 0, .nil, rfl⟩
  | append_singleton documents doc ih =>
    rw [firstPass] at ih
    rw [firstPass, List.foldl_append, List.foldl_cons, List.foldl_nil]
    exact firstPassDoc_after ih doc

end FirstPass

section Edges

structure EdgeReport.Counts (r : EdgeReport) (edges : List IrEdge) : Prop where
  calls : r.calls = edges.countP (·.basis = .syntaxConfirmedCall)
  references : r.references = edges.countP (·.basis = .derivedReference)
  fileScopeRefs : r.fileScopeRefs = edges.countP (·.basis = .fileScopeReference)
  emitted : edges.length = r.calls + r.references + r.fileScopeRefs
  callers : r.totalRefs = r.callerResolved + r.noCaller
  withCaller : edges.length ≤ r.callerResolved
  withCallee : edges.length ≤ r.calleeResolved
  fallbackTarget : r.fallbackTarget ≤ edges.length

lemma EdgeReport.Counts.empty : EdgeReport.empty.Counts [] :=
  ⟨rfl, rfl, rfl, rfl, rfl, le_refl 0, le_refl 0, le_refl 0⟩

lemma EdgeReport.Counts.add {r r' : EdgeReport} {edges edges' : List IrEdge} (h : r.Counts edges)
    (h' : r'.Counts edges') :
    (r.add r').Counts (edges ++ edges') := by
  constructor <;> simp only [EdgeReport.add, List.countP_append, List.length_append]
  · rw [h.calls, h'.calls]
  · rw [h.references, h'.references]
  · rw [h.fileScopeRefs, h'.fileScopeRefs]
  · have he := h.emitted
    have he' := h'.emitted
    omega
  · have hc := h.callers
    have hc' := h'.callers
    omega
  · exact Nat.add_le_add h.withCaller h'.withCaller
  · exact Nat.add_le_add h.withCallee h'.withCallee
  · exact Nat.add_le_add h.fallbackTarget h'.fallbackTarget

lemma EdgeReport.Counts.seen {r : EdgeReport} {edges : List IrEdge} (h : r.Counts edges)
    (hasCaller hasCallee : Bool) :
    (r.seen hasCaller hasCallee).Counts edges := by
  refine ⟨h.calls, h.references, h.fileScopeRefs, h.emitted, ?_, ?_, ?_, h.fallbackTarget⟩
  · have hc := h.callers
    cases hasCaller <;> simp only [EdgeReport.seen, Bool.toNat_true, Bool.toNat_false, Bool.not_true,
      Bool.not_false] <;> omega
  · exact h.withCaller.trans (Nat.le_add_right _ _)
  · exact h.withCallee.trans (Nat.le_add_right _ _)

lemma EdgeReport.Counts.emit {r : EdgeReport} {edges : List IrEdge} (h : r.Counts edges)
    {e : IrEdge} (isFallback : Bool)
    (hbasis : e.basis = .syntaxConfirmedCall ∨ e.basis = .derivedReference ∨ e.basis = .fileScopeReference) :
    ((r.seen true true).emitted e.basis isFallback).Counts (edges ++ [e]) := by
  have hseen := h.seen true true
  have hcount : ∀ basis : EdgeBasis, [e].countP (·.basis = basis) = (e.basis = basis : Bool).toNat :=
      fun basis => by
    rw [List.countP_singleton, Bool.toNat, Bool.cond_eq_ite]
  refine ⟨?_, ?_, ?_, ?_, hseen.callers, ?_, ?_, ?_⟩
  · rw [List.countP_append, hcount, ← h.calls]
    rfl
  · rw [List.countP_append, hcount, ← h.references]
    rfl
  · rw [List.countP_append, hcount, ← h.fileScopeRefs]
    rfl
  · have he := h.emitted
    simp only [EdgeReport.emitted, EdgeReport.seen, List.length_append, List.length_singleton, he]
    rcases hbasis with hb | hb | hb <;> rw [hb]
      <;> simp only [reduceCtorEq, decide_true, decide_false, Bool.toNat_true, Bool.toNat_false] <;> omega
  · simpa [EdgeReport.emitted, EdgeReport.seen] using h.withCaller
  · simpa [EdgeReport.emitted, EdgeReport.seen] using h.withCallee
  · have hf := h.fallbackTarget
    have hb := Bool.toNat_le isFallback
    simp only [EdgeReport.emitted, EdgeReport.seen, List.length_append, List.length_singleton]
    omega

structure Derived (facts : AstFacts) (symbolToKey : HashMap String SymbolKey)
    (nodeKeys : HashSet String) (occ : Occurrence)
    (line0 col : ℤ) (source : AstNodeLite) (target : SymbolKey) (e : IrEdge) : Prop where
  reference : occ.isDefinition = false
  start : occ.start = some (line0, col)
  caller : enclosingMaterializedNode facts.nodes nodeKeys (line0 + 1) col = some source
  callee : symbolToKey[occ.symbol]? = some target
  src : e.src.asStr = source.stableKey
  dst : e.dst.asStr = target.key
  provenance : e.provenance.scipSymbolId = some occ.symbol
  imported : e.imported = none
  kind : (e.edgeType, e.basis) = edgeKind facts source target (line0 + 1) col

lemma edgeKind_cases (facts : AstFacts) (caller : AstNodeLite) (callee : SymbolKey) (line col : ℤ) :
    edgeKind facts caller callee line col = (.references, .fileScopeReference) ∧ caller.isFileScope ∨
    edgeKind facts caller callee line col = (.calls, .syntaxConfirmedCall) ∧ caller.isFileScope = false ∧
      isCallAt facts.callSites callee.name line col ∨
    edgeKind facts caller callee line col = (.references, .derivedReference) ∧ caller.isFileScope = false ∧
      isCallAt facts.callSites callee.name line col = false := by
  rw [edgeKind]
  cases caller.isFileScope <;> cases isCallAt facts.callSites callee.name line col <;> simp

lemma Derived.basis {facts : AstFacts} {symbolToKey : HashMap String SymbolKey} {nodeKeys : HashSet String}
    {occ : Occurrence} {line0 col : ℤ} {source : AstNodeLite} {target : SymbolKey} {e : IrEdge}
    (h : Derived facts symbolToKey nodeKeys occ line0 col source target e) :
    e.edgeType = .calls ∧ e.basis = .syntaxConfirmedCall ∨
      e.edgeType = .references ∧ (e.basis = .derivedReference ∨ e.basis = .fileScopeReference) := by
  have hkind := h.kind
  rcases edgeKind_cases facts source target (line0 + 1) col with ⟨hk, -⟩ | ⟨hk, -⟩ | ⟨hk, -⟩ <;>
    rw [hk, Prod.mk.injEq] at hkind <;> simp [hkind.1, hkind.2]

variable (facts : AstFacts) (symbolToKey : HashMap String SymbolKey)
    (nodeKeys : HashSet String) (producer : Producer)

lemma deriveStep_spec (s : EdgeReport × List IrEdge) (occ : Occurrence) :
    ∃ r added, deriveStep facts symbolToKey nodeKeys producer s occ = (r, s.2 ++ added) ∧
      (∀ e ∈ added, ∃ line0 col source target, Derived facts symbolToKey nodeKeys occ line0 col source target e) ∧
      ∀ edges, s.1.Counts edges → r.Counts (edges ++ added) := by
  obtain ⟨r, edges⟩ := s
  have hnone : ∀ r' : EdgeReport, (∀ es, r.Counts es → r'.Counts es) →
      ∃ r'' added, (r', edges) = (r'', edges ++ added) ∧
      (∀ e ∈ added, ∃ line0 col source target, Derived facts symbolToKey nodeKeys occ line0 col source target e) ∧
      ∀ es, r.Counts es → r''.Counts (es ++ added) := fun r' h =>
    ⟨r', [], by simp, by simp, fun es hes => by simpa using h es hes⟩
  cases hstart : occ.start with
  | none =>
    simp only [deriveStep, hstart]
    exact hnone r fun _ h => h
  | some point =>
    obtain ⟨line0, col⟩ := point
    cases hdef : occ.isDefinition with
    | true =>
      simp only [deriveStep, hstart, hdef, if_true]
      exact hnone r fun _ h => h
    | false =>
      cases hcaller : enclosingMaterializedNode facts.nodes nodeKeys (line0 + 1) col with
      | none =>
        simp only [deriveStep, hstart, hdef, hcaller, Bool.false_eq_true, if_false]
        exact hnone _ fun _ h => h.seen _ _
      | some source =>
        cases hcallee : symbolToKey[occ.symbol]? with
        | none =>
          simp only [deriveStep, hstart, hdef, hcaller, hcallee, Bool.false_eq_true, if_false]
          exact hnone _ fun _ h => h.seen _ _
        | some target =>
          simp only [deriveStep, hstart, hdef, hcaller, hcallee, Bool.false_eq_true, if_false]
          have hderived : Derived facts symbolToKey nodeKeys occ line0 col source target
              (derivedEdge producer occ source target (edgeKind facts source target (line0 + 1) col)) :=
            ⟨hdef, hstart, hcaller, hcallee, rfl, rfl, rfl, rfl, rfl⟩
          refine ⟨_, _, rfl, ?_, fun es h => ?_⟩
          · intro e he
            obtain rfl := List.mem_singleton.mp he
            exact ⟨line0, col, source, target, hderived⟩
          · refine h.emit (e := derivedEdge producer occ source target _) target.isFallback ?_
            rcases hderived.basis with ⟨-, hb⟩ | ⟨-, hb | hb⟩
            · exact .inl hb
            · exact .inr (.inl hb)
            · exact .inr (.inr hb)

lemma deriveEdges_spec (doc : Document) (edges : List IrEdge) :
    ∃ r added, deriveEdges facts symbolToKey nodeKeys producer doc edges = (r, edges ++ added) ∧
      (∀ e ∈ added, ∃ occ ∈ doc.occurrences, ∃ line0 col source target,
        Derived facts symbolToKey nodeKeys occ line0 col source target e) ∧ r.Counts added := by
  rw [deriveEdges]
  induction doc.occurrences using List.reverseRecOn with
  | nil => exact ⟨.empty, [], by simp, by simp, .empty⟩
  | append_singleton occs occ ih =>
    obtain ⟨r, added, hfold, hadded, hcounts⟩ := ih
    obtain ⟨r', more, hstep, hmore, hcounts'⟩ :=
      deriveStep_spec facts symbolToKey nodeKeys producer (r, edges ++ added) occ
    refine ⟨r', added ++ more, ?_, ?_, hcounts' added hcounts⟩
    · rw [List.foldl_append, hfold, List.foldl_cons, List.foldl_nil, hstep, List.append_assoc]
    · intro e he
      rcases List.mem_append.mp he with he | he
      · obtain ⟨o, ho, hspec⟩ := hadded e he
        exact ⟨o, List.mem_append_left _ ho, hspec⟩
      · exact ⟨occ, by simp, hmore e he⟩

variable {out : Outside} {root repoUid partitionPrefix : String}

def DerivedIn (out : Outside) (root repoUid partitionPrefix : String) (pass : FirstPass)
    (documents : List Document) (e : IrEdge) : Prop :=
  ∃ doc ∈ documents, ∃ keyPath facts, Read out root repoUid partitionPrefix doc keyPath facts ∧
    ∃ occ ∈ doc.occurrences, ∃ line0 col source target,
      Derived facts pass.symbolToKey pass.nodeKeys occ line0 col source target e

lemma secondPass_spec (pass : FirstPass) {docs : List (Document × Option AstFacts)} {documents : List Document}
    (hread : ∀ d ∈ docs, ∀ facts, d.2 = some facts →
      d.1 ∈ documents ∧ ∃ keyPath, Read out root repoUid partitionPrefix d.1 keyPath facts) :
    ∃ r added, docs.foldl (secondPassDoc producer pass) (.empty, []) = (r, added) ∧
      (∀ e ∈ added, DerivedIn out root repoUid partitionPrefix pass documents e) ∧ r.Counts added := by
  induction docs using List.reverseRecOn with
  | nil => exact ⟨.empty, [], rfl, by simp, .empty⟩
  | append_singleton docs d ih =>
    obtain ⟨r, added, hfold, hadded, hcounts⟩ := ih fun d hd => hread d (List.mem_append_left _ hd)
    rw [List.foldl_append, hfold, List.foldl_cons, List.foldl_nil]
    obtain ⟨doc, facts⟩ := d
    cases facts with
    | none => exact ⟨r, added, rfl, hadded, hcounts⟩
    | some facts =>
      obtain ⟨hdoc, keyPath, hkeyPath⟩ := hread (doc, some facts) (by simp) facts rfl
      obtain ⟨r', more, hstep, hmore, hcounts'⟩ :=
        deriveEdges_spec facts pass.symbolToKey pass.nodeKeys producer doc added
      refine ⟨r.add r', added ++ more, by simp only [secondPassDoc, hstep], fun e he => ?_, hcounts.add hcounts'⟩
      rcases List.mem_append.mp he with he | he
      · exact hadded e he
      · exact ⟨doc, hdoc, keyPath, facts, hkeyPath, hmore e he⟩

end Edges

section Imports

variable (order : IterOrder) (repoUid : String) (nodeKeys : HashSet String) (producer : Producer)

def Names (repoUid : String) (nodeKeys : HashSet String) (resolvedPath key : String) : Prop :=
  key ∈ nodeKeys ∧ (filePathOf repoUid key).map stripTsExt = some resolvedPath

lemma mem_iterate {k : String} : k ∈ order.iterate nodeKeys ↔ k ∈ nodeKeys := by
  rw [(order.perm nodeKeys).mem_iff, Std.ExtTreeSet.mem_toList]

lemma foldl_indexFile (keys : List String) (resolvedPath : String) :
    (keys.foldl (indexFile repoUid) ∅)[resolvedPath]? =
      keys.reverse.find? fun k => (filePathOf repoUid k).map stripTsExt = some resolvedPath := by
  induction keys using List.reverseRecOn with
  | nil => simp
  | append_singleton keys k ih =>
    rw [List.foldl_append, List.reverse_append, List.foldl_cons, List.foldl_nil, indexFile]
    cases hpath : filePathOf repoUid k with
    | none => simp [ih, hpath]
    | some path =>
      rw [getElem?_insert, ih]
      by_cases h : stripTsExt path = resolvedPath <;> simp [hpath, h]

lemma buildFileIndex_eq_some {resolvedPath key : String}
    (h : (buildFileIndex order repoUid nodeKeys)[resolvedPath]? = some key) :
    Names repoUid nodeKeys resolvedPath key := by
  rw [buildFileIndex, foldl_indexFile] at h
  have hmem := List.mem_reverse.mp (List.mem_of_find?_eq_some h)
  exact ⟨(mem_iterate order nodeKeys).mp hmem, by simpa using List.find?_some h⟩

lemma buildFileIndex_isSome {resolvedPath : String} :
    (buildFileIndex order repoUid nodeKeys)[resolvedPath]?.isSome ↔
      ∃ key, Names repoUid nodeKeys resolvedPath key := by
  constructor
  · intro h
    obtain ⟨key, hkey⟩ := Option.isSome_iff_exists.mp h
    exact ⟨key, buildFileIndex_eq_some order repoUid nodeKeys hkey⟩
  · rintro ⟨key, hmem, hpath⟩
    rw [buildFileIndex, foldl_indexFile, List.find?_isSome]
    exact ⟨key, List.mem_reverse.mpr ((mem_iterate order nodeKeys).mpr hmem), by simpa using hpath⟩

def importEdge? (fileIndex : HashMap String String) (srcKey : String) (imp : RawImport) : Option IrEdge :=
  if nodeKeys.contains srcKey then
    fileIndex[imp.resolvedPath]?.map fun dstKey =>
      ⟨.fromExisting srcKey, .fromExisting dstKey, .imports, .astImport, producer.provenance none,
        some ⟨imp.rawSpecifier, imp.resolvedPath, .staticResolved⟩⟩
  else none

def importSummary (found : List (Option IrEdge)) : List IrEdge × ℕ × ℕ :=
  (found.filterMap id, found.countP (·.isSome), found.countP (·.isNone))

lemma importStep_summary (fileIndex : HashMap String String) (srcKey : String)
    (found : List (Option IrEdge)) (imp : RawImport) :
    importStep nodeKeys producer fileIndex srcKey (importSummary found) imp =
      importSummary (found ++ [importEdge? nodeKeys producer fileIndex srcKey imp]) := by
  rw [importStep, importEdge?]
  cases nodeKeys.contains srcKey <;> cases fileIndex[imp.resolvedPath]? <;> simp [importSummary]

lemma foldl_importStep (fileIndex : HashMap String String) (srcKey : String) (imports : List RawImport)
    (found : List (Option IrEdge)) :
    imports.foldl (importStep nodeKeys producer fileIndex srcKey) (importSummary found) =
      importSummary (found ++ imports.map (importEdge? nodeKeys producer fileIndex srcKey)) := by
  induction imports generalizing found with
  | nil => simp
  | cons imp imports ih => rw [List.foldl_cons, importStep_summary, ih, List.append_assoc,
    List.map_cons, List.singleton_append]

def importsIn {α : Type} (perDoc : List (String × List α)) : List (String × α) :=
  perDoc.flatMap fun doc => doc.2.map (doc.1, ·)

def importsFound (perDocImports : List (String × List RawImport)) : List (Option IrEdge) :=
  (importsIn perDocImports).map fun q =>
    importEdge? nodeKeys producer (buildFileIndex order repoUid nodeKeys) (Indexer.fileKey repoUid q.1) q.2

lemma resolveImportEdges_eq (perDocImports : List (String × List RawImport)) :
    resolveImportEdges order repoUid nodeKeys producer perDocImports =
      importSummary (importsFound order repoUid nodeKeys producer perDocImports) := by
  have hfold : ∀ found : List (Option IrEdge),
      perDocImports.foldl (fun s doc =>
        doc.2.foldl (importStep nodeKeys producer (buildFileIndex order repoUid nodeKeys)
        (Indexer.fileKey repoUid doc.1)) s) (importSummary found) =
        importSummary (found ++ importsFound order repoUid nodeKeys producer perDocImports) := by
    induction perDocImports with
    | nil => simp [importsFound, importsIn]
    | cons doc docs ih =>
      intro found
      rw [List.foldl_cons, foldl_importStep, ih, List.append_assoc, importsFound,
        importsFound, importsIn, importsIn, List.flatMap_cons, List.map_append, List.map_map]
      rfl
  exact hfold []

lemma importEdge?_eq_some {fileIndex : HashMap String String} {srcKey : String} {imp : RawImport} {e : IrEdge} :
    importEdge? nodeKeys producer fileIndex srcKey imp = some e ↔ srcKey ∈ nodeKeys ∧
      ∃ dstKey, fileIndex[imp.resolvedPath]? = some dstKey ∧
        e = ⟨.fromExisting srcKey, .fromExisting dstKey, .imports,
        .astImport, producer.provenance none, some ⟨imp.rawSpecifier, imp.resolvedPath, .staticResolved⟩⟩ := by
  rw [importEdge?]
  split
  · rename_i h
    simp [Std.ExtTreeSet.contains_iff_mem.mp h, eq_comm]
  · rename_i h
    have hmem : srcKey ∉ nodeKeys := fun hmem => h (Std.ExtTreeSet.contains_iff_mem.mpr hmem)
    simp [hmem]

end Imports

end RepoGraph.ScipIngest
