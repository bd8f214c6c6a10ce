import RepoGraph.Enrichment.LatestPromotion

/-! The types and methods that a promotion finds in the nodes of a snapshot. A type is known by the last segment
of its qualified name among the symbols that three queries load, and a method by its parent link or by the text
of its qualified name; the edges stay with the type of the call where these ways agree. -/

namespace RepoGraph.Enrichment

open Lib Storage

def promotionOf (ext : Indexer.Externals) (t : EnrichmentTables) (snapshotUid : String)
    (candidates : List PromotionCandidate) : List PromotedEdge :=
  (promoteEdges ext candidates (promotionContext t snapshotUid (typeNames candidates))).promoted

section Context

namespace PromotionContext

variable {ctx : PromotionContext} {name key methodName : String}

def symbolsOf (ctx : PromotionContext) (name : String) : List SymbolInfo := (ctx.getSymbols name).getD []

def methodsOf (ctx : PromotionContext) (key methodName : String) : List SymbolInfo :=
  (ctx.getMethods key methodName).getD []

lemma symbolsOf_addSymbol (symbol : SymbolInfo) :
    (ctx.addSymbol symbol).symbolsOf name =
      ctx.symbolsOf name ++ if simpleName symbol = name then [symbol] else [] := by
  simp only [symbolsOf, getSymbols, addSymbol, getElem?_insert]
  by_cases h : simpleName symbol = name
  · rw [if_pos h, if_pos h, Option.getD_some, h]
  · rw [if_neg h, if_neg h, List.append_nil]

lemma methodsOf_addClassMethod (key' name' : String) (method : SymbolInfo) :
    (ctx.addClassMethod key' name' method).methodsOf key methodName =
      ctx.methodsOf key methodName ++ if key' = key ∧ name' = methodName then [method] else [] := by
  simp only [methodsOf, getMethods, addClassMethod, getElem?_insert]
  by_cases hkey : key' = key
  · subst hkey
    rw [if_pos rfl, Option.bind_some, getElem?_insert]
    by_cases hname : name' = methodName
    · subst hname
      rw [if_pos rfl, if_pos ⟨rfl, rfl⟩, Option.getD_some]
      cases ctx.classMethods[key']? <;> simp
    · rw [if_neg hname, if_neg (fun h => hname h.2), List.append_nil]
      cases ctx.classMethods[key']? <;> simp
  · rw [if_neg hkey, if_neg (fun h => hkey h.1), List.append_nil]

lemma symbolsOf_methods (key : String) (methods : List (String × SymbolInfo)) (ctx : PromotionContext) :
    (methods.foldl (fun ctx method => ctx.addClassMethod key method.1 method.2) ctx).symbolsOf name =
      ctx.symbolsOf name := by
  induction methods generalizing ctx with
  | nil => rfl
  | cons method methods ih => exact ih _

lemma methodsOf_methods (key' : String) (methods : List (String × SymbolInfo)) (ctx : PromotionContext) :
    (methods.foldl (fun ctx method => ctx.addClassMethod key' method.1 method.2) ctx).methodsOf key methodName =
      ctx.methodsOf key methodName ++
        if key' = key then (methods.filter (·.1 = methodName)).map Prod.snd else [] := by
  induction methods generalizing ctx with
  | nil => simp
  | cons method methods ih =>
    rw [List.foldl_cons, ih, methodsOf_addClassMethod, List.append_assoc]
    by_cases hkey : key' = key
    · by_cases hname : method.1 = methodName
      · simp [hkey, hname]
      · simp [hkey, hname]
    · simp [hkey]

end PromotionContext

variable {t : EnrichmentTables} {snapshotUid : String} {names : List String} {typeName methodName key : String}

lemma symbolsOf_promotionContext : (promotionContext t snapshotUid names).symbolsOf typeName =
    (t.loadSymbolsByNames snapshotUid names).filter (PromotionContext.simpleName · = typeName) := by
  have hfold : ∀ (symbols : List SymbolInfo) (ctx : PromotionContext),
      (symbols.foldl (fun ctx symbol =>
        let ctx := ctx.addSymbol symbol
        if symbol.subtype.isUsableReceiverType then
          (t.loadClassMethods snapshotUid symbol.stableKey).foldl (fun ctx method =>
            ctx.addClassMethod symbol.stableKey method.1 method.2) ctx
        else ctx) ctx).symbolsOf typeName =
        ctx.symbolsOf typeName ++ symbols.filter (PromotionContext.simpleName · = typeName) := by
    intro symbols
    induction symbols with
    | nil =>
      intro ctx
      simp
    | cons symbol symbols ih =>
      intro ctx
      have hstep : (if symbol.subtype.isUsableReceiverType then
          (t.loadClassMethods snapshotUid symbol.stableKey).foldl (fun ctx method =>
            ctx.addClassMethod symbol.stableKey method.1 method.2) (ctx.addSymbol symbol)
          else ctx.addSymbol symbol).symbolsOf typeName = (ctx.addSymbol symbol).symbolsOf typeName := by
        split
        · exact PromotionContext.symbolsOf_methods _ _ _
        · rfl
      rw [List.foldl_cons, ih, hstep, PromotionContext.symbolsOf_addSymbol, List.append_assoc, List.filter_cons]
      by_cases hname : PromotionContext.simpleName symbol = typeName
      · simp [hname]
      · simp [hname]
  exact hfold _ _

lemma methodsOf_promotionContext : (promotionContext t snapshotUid names).methodsOf key methodName =
    ((t.loadSymbolsByNames snapshotUid names).filter
      fun symbol => symbol.subtype.isUsableReceiverType && symbol.stableKey = key).flatMap fun _ =>
        ((t.loadClassMethods snapshotUid key).filter (·.1 = methodName)).map Prod.snd := by
  have hfold : ∀ (symbols : List SymbolInfo) (ctx : PromotionContext),
      (symbols.foldl (fun ctx symbol =>
        let ctx := ctx.addSymbol symbol
        if symbol.subtype.isUsableReceiverType then
          (t.loadClassMethods snapshotUid symbol.stableKey).foldl (fun ctx method =>
            ctx.addClassMethod symbol.stableKey method.1 method.2) ctx
        else ctx) ctx).methodsOf key methodName =
        ctx.methodsOf key methodName ++
          (symbols.filter fun symbol => symbol.subtype.isUsableReceiverType &&
              symbol.stableKey = key).flatMap fun _ =>
            ((t.loadClassMethods snapshotUid key).filter (·.1 = methodName)).map Prod.snd := by
    intro symbols
    induction symbols with
    | nil =>
      intro ctx
      simp
    | cons symbol symbols ih =>
      intro ctx
      have hadd : (ctx.addSymbol symbol).methodsOf key methodName = ctx.methodsOf key methodName := rfl
      rw [List.foldl_cons, ih, List.filter_cons]
      cases husable : symbol.subtype.isUsableReceiverType with
      | false => simp [hadd]
      | true =>
        simp only [if_true, PromotionContext.methodsOf_methods, hadd, Bool.true_and, decide_eq_true_eq]
        by_cases hkey : symbol.stableKey = key
        · simp [hkey]
        · simp [hkey]
  exact hfold _ _

lemma targets_iff_lists {ctx : PromotionContext} {method : SymbolInfo} : Targets ctx typeName methodName method ↔
    ∃ receiver, (ctx.symbolsOf typeName).filter (·.subtype.isUsableReceiverType) = [receiver] ∧
      ctx.methodsOf receiver.stableKey methodName = [method] := by
  constructor
  · rintro ⟨receiver, symbols, hsymbols, husable, hmethods⟩
    refine ⟨receiver, ?_, ?_⟩
    · rw [PromotionContext.symbolsOf, hsymbols, Option.getD_some, husable]
    · rw [PromotionContext.methodsOf, hmethods, Option.getD_some]
  · rintro ⟨receiver, husable, hmethods⟩
    rw [PromotionContext.symbolsOf] at husable
    rw [PromotionContext.methodsOf] at hmethods
    cases hsymbols : ctx.getSymbols typeName with
    | none => simp [hsymbols] at husable
    | some symbols =>
      cases hfound : ctx.getMethods receiver.stableKey methodName with
      | none => simp [hfound] at hmethods
      | some methods =>
        rw [hsymbols] at husable
        rw [hfound] at hmethods
        exact ⟨receiver, symbols, hsymbols, husable, hfound.trans (congrArg some hmethods)⟩

end Context

section Nodes

variable (t : EnrichmentTables) (snapshotUid : String)

/-- The unique index of the nodes table. -/
def UniqueStableKeys : Prop := (t.calls.nodes.map fun n => (n.snapshotUid, n.stableKey)).Nodup

def IsType (n : LocatedNode) : Prop :=
  n.snapshotUid = snapshotUid ∧ n.kind = "SYMBOL" ∧
    (EnrichmentTables.symbolInfo n .other).subtype.isUsableReceiverType

instance (n : LocatedNode) : Decidable (IsType snapshotUid n) := inferInstanceAs (Decidable (_ ∧ _ ∧ _))

def IsMethod (n : LocatedNode) : Prop :=
  n.snapshotUid = snapshotUid ∧ n.kind = "SYMBOL" ∧ n.subtype.any (· ∈ ["METHOD", "GETTER", "SETTER", "FUNCTION"])

instance (n : LocatedNode) : Decidable (IsMethod snapshotUid n) := inferInstanceAs (Decidable (_ ∧ _ ∧ _))

def lastSegment (n : LocatedNode) : String := PromotionContext.simpleName (EnrichmentTables.symbolInfo n .other)

structure KnownAs (names : List String) (typeName : String) (n : LocatedNode) : Prop where
  stored : n ∈ t.calls.nodes
  type : IsType snapshotUid n
  loaded : n.name ∈ names ∨ n.qualifiedName.any (· ∈ names)
  segment : lastSegment n = typeName

structure MethodOf (receiver : LocatedNode) (methodName : String) (n : LocatedNode) : Prop where
  stored : n ∈ t.calls.nodes
  method : IsMethod snapshotUid n
  linked : n.parentNodeUid = some receiver.nodeUid ∨
    receiver.name ≠ "" ∧ n.qualifiedName = some (receiver.name ++ "." ++ n.name)
  named : n.name = methodName

variable {t snapshotUid} {names : List String} {typeName methodName : String}

lemma map_filter_eq_singleton {α β : Type} {l : List α} (hl : l.Nodup) {p : α → Bool} {f : α → β} {b : β} :
    (l.filter p).map f = [b] ↔ ∃ a, (∀ x, x ∈ l ∧ p x ↔ x = a) ∧ f a = b := by
  constructor
  · intro h
    obtain ⟨a, ha, rfl⟩ := List.map_eq_singleton_iff.mp h
    refine ⟨a, fun x => ?_, rfl⟩
    rw [← List.mem_filter, ha, List.mem_singleton]
  · rintro ⟨a, ha, rfl⟩
    have hperm : (l.filter p).Perm [a] := by
      rw [List.perm_ext_iff_of_nodup (hl.filter p) (List.nodup_singleton a)]
      intro x
      rw [List.mem_filter, ha, List.mem_singleton]
    rw [List.perm_singleton.mp hperm, List.map_singleton]

lemma nodup_sorted_nodes (cmp : LocatedNode → LocatedNode → Ordering) (q : LocatedNode → Bool) :
    (sortBy cmp (t.calls.nodes.filter q)).Nodup :=
  (sortBy_perm cmp _).nodup_iff.mpr (t.calls.nodeKeys.of_map _ |>.filter q)

lemma types_eq_singleton {info : SymbolInfo} :
    ((promotionContext t snapshotUid names).symbolsOf typeName).filter (·.subtype.isUsableReceiverType) = [info] ↔
      ∃ receiver, (∀ n, KnownAs t snapshotUid names typeName n ↔ n = receiver) ∧
        EnrichmentTables.symbolInfo receiver .other = info := by
  rw [symbolsOf_promotionContext, EnrichmentTables.loadSymbolsByNames, List.filter_map, List.filter_map,
    List.filter_filter, map_filter_eq_singleton (nodup_sorted_nodes _ _)]
  refine exists_congr fun receiver => and_congr_left' (forall_congr' fun n => iff_congr ?_ Iff.rfl)
  rw [(sortBy_perm _ _).mem_iff, List.mem_filter]
  simp only [Function.comp_apply, Bool.and_eq_true, Bool.or_eq_true, decide_eq_true_eq]
  constructor
  · rintro ⟨⟨hstored, ⟨hsnapshot, hkind⟩, hloaded⟩, husable, hsegment⟩
    exact ⟨hstored, ⟨hsnapshot, hkind, husable⟩, hloaded, hsegment⟩
  · rintro ⟨hstored, ⟨hsnapshot, hkind, husable⟩, hloaded, hsegment⟩
    exact ⟨⟨hstored, ⟨hsnapshot, hkind⟩, hloaded⟩, husable, hsegment⟩

variable (hkeys : UniqueStableKeys t) {receiver : LocatedNode}
include hkeys

lemma eq_of_stableKey {n n' : LocatedNode} (hn : n ∈ t.calls.nodes) (hn' : n' ∈ t.calls.nodes)
    (hsnapshot : n.snapshotUid = n'.snapshotUid) (hkey : n.stableKey = n'.stableKey) : n = n' :=
  List.inj_on_of_nodup_map hkeys hn hn' (Prod.ext hsnapshot hkey)

lemma find_receiver (hstored : receiver ∈ t.calls.nodes) (hsnapshot : receiver.snapshotUid = snapshotUid) :
    (t.calls.nodes.find? fun n => n.snapshotUid = snapshotUid ∧ n.stableKey = receiver.stableKey) =
      some receiver := by
  cases hfind : t.calls.nodes.find? fun n => n.snapshotUid = snapshotUid ∧ n.stableKey = receiver.stableKey with
  | none =>
    have hnone := List.find?_eq_none.mp hfind receiver hstored
    simp [hsnapshot] at hnone
  | some n =>
    have hn := List.find?_some hfind
    simp only [decide_eq_true_eq] at hn
    rw [eq_of_stableKey hkeys (List.mem_of_find?_eq_some hfind) hstored (hn.1.trans hsnapshot.symm) hn.2]

lemma loaded_receiver (hreceiver : ∀ n, KnownAs t snapshotUid names typeName n ↔ n = receiver) :
    ((t.loadSymbolsByNames snapshotUid names).filter fun symbol =>
      symbol.subtype.isUsableReceiverType && symbol.stableKey = receiver.stableKey) =
        [EnrichmentTables.symbolInfo receiver .other] := by
  obtain ⟨hstored, ⟨hsnapshot, hkind, husable⟩, hloaded, -⟩ := (hreceiver receiver).mpr rfl
  rw [EnrichmentTables.loadSymbolsByNames, List.filter_map, map_filter_eq_singleton (nodup_sorted_nodes _ _)]
  refine ⟨receiver, fun n => ?_, rfl⟩
  rw [(sortBy_perm _ _).mem_iff, List.mem_filter]
  simp only [Function.comp_apply, Bool.and_eq_true, Bool.or_eq_true, decide_eq_true_eq]
  constructor
  · rintro ⟨⟨hn, ⟨hsnapshot', -⟩, -⟩, -, hkey⟩
    exact eq_of_stableKey hkeys hn hstored (hsnapshot'.trans hsnapshot.symm) hkey
  · rintro rfl
    exact ⟨⟨hstored, ⟨hsnapshot, hkind⟩, hloaded⟩, husable, rfl⟩

lemma methods_eq_singleton (hreceiver : ∀ n, KnownAs t snapshotUid names typeName n ↔ n = receiver)
    {info : SymbolInfo} :
    (promotionContext t snapshotUid names).methodsOf receiver.stableKey methodName = [info] ↔
      ∃ method, (∀ n, MethodOf t snapshotUid receiver methodName n ↔ n = method) ∧
        EnrichmentTables.symbolInfo method .method = info := by
  obtain ⟨hstored, ⟨hsnapshot, -⟩, -⟩ := (hreceiver receiver).mpr rfl
  rw [methodsOf_promotionContext, loaded_receiver hkeys hreceiver, List.flatMap_singleton,
    EnrichmentTables.loadClassMethods, find_receiver hkeys hstored hsnapshot]
  simp only [List.filter_map, List.map_map]
  rw [map_filter_eq_singleton (nodup_sorted_nodes _ _)]
  refine exists_congr fun method => and_congr_left' (forall_congr' fun n => iff_congr ?_ Iff.rfl)
  rw [(sortBy_perm _ _).mem_iff, List.mem_filter]
  simp only [Function.comp_apply, Bool.and_eq_true, Bool.or_eq_true, decide_eq_true_eq]
  constructor
  · rintro ⟨⟨hn, ⟨⟨hsnapshot', hkind⟩, hsubtype⟩, hlinked⟩, hname⟩
    exact ⟨hn, ⟨hsnapshot', hkind, hsubtype⟩, hlinked, hname⟩
  · rintro ⟨hn, ⟨hsnapshot', hkind, hsubtype⟩, hlinked, hname⟩
    exact ⟨⟨hn, ⟨⟨hsnapshot', hkind⟩, hsubtype⟩, hlinked⟩, hname⟩

lemma targets_iff {info : SymbolInfo} : Targets (promotionContext t snapshotUid names) typeName methodName info ↔
    ∃ receiver method, (∀ n, KnownAs t snapshotUid names typeName n ↔ n = receiver) ∧
      (∀ n, MethodOf t snapshotUid receiver methodName n ↔ n = method) ∧
      info = EnrichmentTables.symbolInfo method .method := by
  rw [targets_iff_lists]
  constructor
  · rintro ⟨symbol, hsymbol, hmethods⟩
    obtain ⟨receiver, hreceiver, rfl⟩ := types_eq_singleton.mp hsymbol
    obtain ⟨method, hmethod, hinfo⟩ := (methods_eq_singleton hkeys hreceiver).mp hmethods
    exact ⟨receiver, method, hreceiver, hmethod, hinfo.symm⟩
  · rintro ⟨receiver, method, hreceiver, hmethod, rfl⟩
    exact ⟨_, types_eq_singleton.mpr ⟨receiver, hreceiver, rfl⟩,
      (methods_eq_singleton hkeys hreceiver).mpr ⟨method, hmethod, rfl⟩⟩

end Nodes

section Precision

variable (ext : Indexer.Externals) (t : EnrichmentTables) (snapshotUid : String)

/-- An edge to a method of the receiver's own type: the method hangs below the node of the type or below nothing,
and the type is the only one of the name that the candidate carries. -/
def OwnTarget (names : List String) (c : PromotionCandidate) (edge : PromotedEdge) : Prop :=
  ∃ typeName receiver method, c.enrichment.typeName = some typeName ∧
    KnownAs t snapshotUid names typeName receiver ∧
    (∀ n, n ∈ t.calls.nodes ∧ IsType snapshotUid n ∧ n.name = typeName ↔ n = receiver) ∧
    method ∈ t.calls.nodes ∧ IsMethod snapshotUid method ∧ edge.targetNodeUid = method.nodeUid ∧
    (method.parentNodeUid = none ∨ method.parentNodeUid = some receiver.nodeUid)

/-- What a promotion owes for a list of candidates: every edge stays with the type of its call, and the order of
the candidates does not matter. -/
structure PromotionPrecise (candidates : List PromotionCandidate) : Prop where
  own : ∀ c ∈ candidates, ∀ edge,
    promoted? ext (promotionContext t snapshotUid (typeNames candidates)) c = some edge →
      OwnTarget t snapshotUid (typeNames candidates) c edge
  reordered : ∀ candidates', candidates'.Perm candidates →
    (promotionOf ext t snapshotUid candidates').Perm (promotionOf ext t snapshotUid candidates)

/-- The three ways of finding a type and its method agree, where they find just one of each for a candidate that
passes the other gates: the type found by the last segment of its qualified name has the name itself, no other
type of the name has another last segment, and a method found by its text has no other parent. -/
def WaysAgree (candidates : List PromotionCandidate) : Prop :=
  ∀ c ∈ candidates, ∀ typeName methodName receiver method, Admitted c typeName →
    PlainText c.targetKey ∧ parseMethodName c.targetKey = some methodName →
    (∀ n, KnownAs t snapshotUid (typeNames candidates) typeName n ↔ n = receiver) →
    (∀ n, MethodOf t snapshotUid receiver methodName n ↔ n = method) →
    receiver.name = typeName ∧
      (∀ n ∈ t.calls.nodes, IsType snapshotUid n → n.name = typeName → lastSegment n = typeName) ∧
      (method.parentNodeUid = none ∨ method.parentNodeUid = some receiver.nodeUid)

variable {ext t snapshotUid} {candidates : List PromotionCandidate}

lemma promotionOf_eq : promotionOf ext t snapshotUid candidates =
    candidates.filterMap (promoted? ext (promotionContext t snapshotUid (typeNames candidates))) :=
  promoteEdges_promoted ext candidates _

lemma runPromotion_eq (faults : CallTables.Statement → Bool)
    (hcandidates : t.loadPromotionCandidates snapshotUid none = candidates) (hne : candidates ≠ []) :
    (runPromotion ext faults t snapshotUid).map (·.2.calls) =
      (t.calls.applyPromotion faults snapshotUid (promotionOf ext t snapshotUid candidates)).map (·.2) := by
  subst hcandidates
  simp only [runPromotion, if_neg hne, promotionOf]
  cases t.calls.applyPromotion faults snapshotUid _ with
  | error e => rfl
  | ok r => rfl

lemma mem_typeNames {typeName : String} :
    typeName ∈ typeNames candidates ↔ ∃ c ∈ candidates, c.enrichment.typeName = some typeName :=
  List.mem_filterMap

lemma promotionOf_perm {candidates' : List PromotionCandidate} (h : candidates'.Perm candidates) :
    (promotionOf ext t snapshotUid candidates').Perm (promotionOf ext t snapshotUid candidates) := by
  have hnames : ∀ name, name ∈ typeNames candidates' ↔ name ∈ typeNames candidates := by
    intro name
    rw [mem_typeNames, mem_typeNames]
    simp only [h.mem_iff]
  have hloaded : t.loadSymbolsByNames snapshotUid (typeNames candidates') =
      t.loadSymbolsByNames snapshotUid (typeNames candidates) := by
    simp only [EnrichmentTables.loadSymbolsByNames, hnames]
  have hcontext : promotionContext t snapshotUid (typeNames candidates') =
      promotionContext t snapshotUid (typeNames candidates) := by
    rw [promotionContext, hloaded, promotionContext]
  rw [promotionOf_eq, promotionOf_eq, hcontext]
  exact h.filterMap _

variable (hkeys : UniqueStableKeys t)
include hkeys

lemma ownTarget_of_agree (hagree : WaysAgree t snapshotUid candidates)
    {c : PromotionCandidate} (hc : c ∈ candidates) {edge : PromotedEdge}
    (hedge : promoted? ext (promotionContext t snapshotUid (typeNames candidates)) c = some edge) :
    OwnTarget t snapshotUid (typeNames candidates) c edge := by
  obtain ⟨typeName, methodName, info, hadmitted, hkey, htargets, rfl⟩ := promoted?_eq_some.mp hedge
  obtain ⟨receiver, method, hreceiver, hmethod, rfl⟩ := (targets_iff hkeys).mp htargets
  obtain ⟨hname, hsegments, hparent⟩ :=
    hagree c hc typeName methodName receiver method hadmitted hkey hreceiver hmethod
  have hknown := (hreceiver receiver).mpr rfl
  have hfound := (hmethod method).mpr rfl
  refine ⟨typeName, receiver, method, hadmitted.named, hknown, fun n => ?_, hfound.stored,
    hfound.method, rfl, hparent⟩
  constructor
  · rintro ⟨hn, htype, hnamed⟩
    have hloaded : n.name ∈ typeNames candidates := hnamed ▸ mem_typeNames.mpr ⟨c, hc, hadmitted.named⟩
    exact (hreceiver n).mp ⟨hn, htype, .inl hloaded, hsegments n hn htype hnamed⟩
  · rintro rfl
    exact ⟨hknown.stored, hknown.type, hname⟩

lemma waysAgree_of_precise (h : PromotionPrecise ext t snapshotUid candidates) :
    WaysAgree t snapshotUid candidates := by
  intro c hc typeName methodName receiver method hadmitted hkey hreceiver hmethod
  have hedge : promoted? ext (promotionContext t snapshotUid (typeNames candidates)) c = some _ :=
    promoted?_eq_some.mpr ⟨typeName, methodName, _, hadmitted, hkey,
      (targets_iff hkeys).mpr ⟨receiver, method, hreceiver, hmethod, rfl⟩, rfl⟩
  obtain ⟨typeName', receiver', method', htypeName, hknown, hsole, hstored, -, htarget, hparent⟩ :=
    h.own c hc _ hedge
  obtain rfl : typeName = typeName' := Option.some.inj (hadmitted.named.symm.trans htypeName)
  obtain rfl : receiver' = receiver := (hreceiver receiver').mp hknown
  have hfound := (hmethod method).mpr rfl
  obtain rfl : method = method' := List.inj_on_of_nodup_map t.calls.nodeKeys hfound.stored hstored htarget
  refine ⟨((hsole receiver').mpr rfl).2.2, fun n hn htype hnamed => ?_, hparent⟩
  obtain rfl := (hsole n).mp ⟨hn, htype, hnamed⟩
  exact hknown.segment

omit hkeys in
/-- A promotion stays with the type of the call just when the ways of finding types and methods agree. -/
theorem promotion_precise_iff (ext : Indexer.Externals) (t : EnrichmentTables) (snapshotUid : String)
    (candidates : List PromotionCandidate) (hkeys : UniqueStableKeys t) :
    PromotionPrecise ext t snapshotUid candidates ↔ WaysAgree t snapshotUid candidates := by
  constructor
  · exact waysAgree_of_precise hkeys
  · intro hagree
    exact {
      own := fun c hc edge hedge => ownTarget_of_agree hkeys hagree hc hedge
      reordered := fun candidates' hperm => promotionOf_perm hperm }

end Precision

section Homonym

def engineCall : PromotionCandidate := { callOnCall with targetKey := "engine.run" }

lemma engineTables_keys : UniqueStableKeys engineTables := by
  unfold UniqueStableKeys
  decide

lemma engineTables_agree : WaysAgree engineTables "s1" [engineCall] := by
  intro c hc typeName methodName receiver method hadmitted _ hreceiver hmethod
  obtain rfl := List.mem_singleton.mp hc
  obtain rfl : "Engine" = typeName := Option.some.inj hadmitted.named
  have htypes : ∀ n ∈ engineTables.calls.nodes, IsType "s1" n → n.name = lastSegment n := by decide +kernel
  have hparents : ∀ n ∈ engineTables.calls.nodes, n.parentNodeUid = none := by decide
  have hknown := (hreceiver receiver).mpr rfl
  exact ⟨(htypes receiver hknown.stored hknown.type).trans hknown.segment,
    fun n hn htype hnamed => (htypes n hn htype).symm.trans hnamed,
      .inl (hparents method ((hmethod method).mpr rfl).stored)⟩

theorem promotion_precise_engine : PromotionPrecise flatPrinter engineTables "s1" [engineCall] :=
  (promotion_precise_iff flatPrinter engineTables "s1" [engineCall] engineTables_keys).mpr engineTables_agree

def engineClass : LocatedNode := engineNode "n2" "Engine" "Engine" "CLASS"

def interfaceRun : LocatedNode := { engineNode "n3" "run" "Engine.run" "METHOD" with parentNodeUid := some "n4" }

def mergedTables : EnrichmentTables :=
  { engineTables with
    calls :=
      { engineTables.calls with
        nodes := [engineNode "n1" "main" "main" "FUNCTION", engineClass, interfaceRun,
          engineNode "n4" "Engine" "Engine" "INTERFACE"]
        nodeKeys := by decide } }

/-- The promoted edge goes to a method that the class does not have. -/
theorem promotion_into_interface : ¬ PromotionPrecise flatPrinter mergedTables "s1" [engineCall] := by
  intro h
  have hkeys : UniqueStableKeys mergedTables := by
    unfold UniqueStableKeys
    decide
  have htypes : ∀ n ∈ mergedTables.calls.nodes, IsType "s1" n → n = engineClass := by decide +kernel
  have hmethods : ∀ n ∈ mergedTables.calls.nodes, n.name = "run" → n = interfaceRun := by decide
  have hparent := (waysAgree_of_precise hkeys h engineCall List.mem_cons_self "Engine"
    "run" engineClass interfaceRun ⟨by decide, rfl, rfl, rfl, by decide⟩ ⟨by unfold PlainText; decide, by decide⟩
    (fun n => ⟨fun hn => htypes n hn.stored hn.type, ?_⟩)
      (fun n => ⟨fun hn => hmethods n hn.stored hn.named, ?_⟩)).2.2
  · exact absurd hparent (by decide)
  · rintro rfl
    exact ⟨by decide, by decide, by decide, by decide⟩
  · rintro rfl
    exact ⟨by decide, by decide, .inr ⟨by decide, by decide⟩, rfl⟩

end Homonym

end RepoGraph.Enrichment
