import RepoGraph.Enrichment.Promotion
import RepoGraph.Lib.Folds
import RepoGraph.Lib.Tally
import RepoGraph.Lib.TextLaws

/-! What the promotion filter lets through, and how its counters account for the rest. A candidate takes the
gates in the order of their evaluation up to the one that rejects it, so that every counter is a sum of what
single candidates add to it. -/

namespace RepoGraph.Enrichment

open Lib Text

def RejectionClass.all : List RejectionClass :=
  [.wrongCategory, .noCompilerEnrichment, .externalType, .noTypeName, .unionOrIntersection,
    .optionalOrElementAccess,
    .notSimpleReceiverMethod, .typeNotInGraph, .typeNotAClass, .ambiguousClassMultipleDefinitions,
    .methodNotFoundOnClass, .ambiguousMethodOverloaded]

def RejectionClass.gate : RejectionClass → ℕ
  | wrongCategory => 1
  | noCompilerEnrichment => 3
  | externalType | noTypeName => 4
  | typeNotInGraph | typeNotAClass | ambiguousClassMultipleDefinitions => 5
  | methodNotFoundOnClass | ambiguousMethodOverloaded => 6
  | unionOrIntersection => 7
  | optionalOrElementAccess | notSimpleReceiverMethod => 8

def evaluationOrder : List ℕ := [1, 2, 3, 4, 7, 8, 5, 6]

namespace PromotionResult

def entered (r : PromotionResult) (gate : ℕ) : ℕ := r.gateEntered[gate]?.getD 0

def rejected (r : PromotionResult) (reason : RejectionClass) : ℕ := r.skippedReasons[reason.reasonCode]?.getD 0

def rejectedAt (r : PromotionResult) (gate : ℕ) : ℕ :=
  ((RejectionClass.all.filter (·.gate = gate)).map r.rejected).sum

def skipped (r : PromotionResult) : ℕ := (r.skippedReasons.toList.map Prod.snd).sum

def waterfall (r : PromotionResult) : List ℕ := evaluationOrder.map r.entered ++ [r.promoted.length]

def drops (r : PromotionResult) : List ℕ := evaluationOrder.map r.rejectedAt

end PromotionResult

section Accounting

def routeTo (gate : ℕ) : List ℕ := evaluationOrder.takeWhile (· ≠ gate) ++ [gate]

def Routed (o : Outcome) : Prop :=
  match o.2 with
  | .ok _ => o.1 = evaluationOrder
  | .error reason => o.1 = routeTo reason.gate

variable (ext : Indexer.Externals) {ctx : PromotionContext} {c : PromotionCandidate}

lemma evaluate_routed : Routed (evaluate ext ctx c) := by
  unfold evaluate
  repeat' first | rfl | split

variable {r : PromotionResult} {o : Outcome} {gate : ℕ}

lemma entered_record : (r.record o).entered gate = r.entered gate + o.1.count gate := by
  have hgates : ∀ (route : List ℕ) (m : BTreeMap ℕ ℕ),
      (route.foldl Tally.countUp m)[gate]?.getD 0 = m[gate]?.getD 0 + route.count gate := by
    intro route
    induction route with
    | nil =>
      intro m
      rfl
    | cons g route ih =>
      intro m
      rw [List.foldl_cons, ih, Tally.getD_countUp, List.count_cons]
      simp only [beq_iff_eq]
      omega
  have hrecord : (r.record o).gateEntered = o.1.foldl Tally.countUp r.gateEntered := by
    rw [PromotionResult.record]
    split <;> rfl
  rw [PromotionResult.entered, hrecord, hgates]
  rfl

lemma RejectionClass.reasonCode_injective : Function.Injective RejectionClass.reasonCode := by
  intro a b h
  cases a <;> cases b <;> first | rfl | exact absurd h (by decide)

lemma RejectionClass.mem_all (reason : RejectionClass) : reason ∈ RejectionClass.all := by
  cases reason <;> decide

lemma RejectionClass.nodup_all : RejectionClass.all.Nodup := by decide

def stoppedAt (o : Outcome) (gate : ℕ) : ℕ :=
  match o.2 with
  | .ok _ => 0
  | .error reason => if reason.gate = gate then 1 else 0

lemma rejectedAt_record : (r.record o).rejectedAt gate = r.rejectedAt gate + stoppedAt o gate := by
  rw [stoppedAt, PromotionResult.record]
  cases o.2 with
  | ok edge => rfl
  | error reason =>
    have hcodes := (RejectionClass.nodup_all.filter (·.gate = gate)).map RejectionClass.reasonCode_injective
    have hsum := Tally.sum_countUp r.skippedReasons reason.reasonCode hcodes
    simp only [List.map_map, Function.comp_def, List.mem_map_of_injective RejectionClass.reasonCode_injective,
      List.mem_filter, RejectionClass.mem_all, true_and, decide_eq_true_eq] at hsum
    exact hsum

lemma promoted_record : (r.record o).promoted.length = r.promoted.length + if o.2.isOk then 1 else 0 := by
  rw [PromotionResult.record]
  cases o.2 with
  | ok edge => exact List.length_append
  | error reason => rfl

lemma skipped_record : (r.record o).skipped = r.skipped + if o.2.isOk then 0 else 1 := by
  rw [PromotionResult.record]
  cases o.2 with
  | ok edge => rfl
  | error reason => exact Tally.sum_values_countUp _ _

structure Accounted (r : PromotionResult) : Prop where
  next : ∀ g ∈ evaluationOrder.zip evaluationOrder.tail, r.entered g.1 = r.entered g.2 + r.rejectedAt g.1
  last : r.entered 6 = r.promoted.length + r.rejectedAt 6

lemma Routed.next (h : Routed o) {g : ℕ × ℕ} (hg : g ∈ evaluationOrder.zip evaluationOrder.tail) :
    o.1.count g.1 = o.1.count g.2 + stoppedAt o g.1 := by
  obtain ⟨route, reason | edge⟩ := o
  · obtain rfl : route = routeTo reason.gate := h
    revert g
    cases reason <;> decide
  · obtain rfl : route = evaluationOrder := h
    revert g
    simp only [stoppedAt]
    decide

lemma Routed.last (h : Routed o) : o.1.count 6 = (if o.2.isOk then 1 else 0) + stoppedAt o 6 := by
  obtain ⟨route, reason | edge⟩ := o
  · obtain rfl : route = routeTo reason.gate := h
    cases reason <;> rfl
  · obtain rfl : route = evaluationOrder := h
    rfl

lemma Accounted.record (hr : Accounted r) (ho : Routed o) : Accounted (r.record o) where
  next g hg := by
    rw [entered_record, entered_record, rejectedAt_record, hr.next g hg, ho.next hg]
    omega
  last := by
    rw [entered_record, promoted_record, rejectedAt_record, hr.last, ho.last]
    omega

lemma Accounted.waterfall (hr : Accounted r) :
    r.waterfall.Pairwise (· ≥ ·) ∧ List.zipWith (· - ·) r.waterfall r.waterfall.tail = r.drops := by
  have hnext := hr.next
  have hlast := hr.last
  simp only [evaluationOrder, List.tail_cons, List.zip_cons_cons, List.zip_nil_right,
    List.forall_mem_cons] at hnext
  obtain ⟨h1, h2, h3, h4, h7, h8, h5, -⟩ := hnext
  simp only [PromotionResult.waterfall, PromotionResult.drops, evaluationOrder, List.map_cons, List.map_nil,
    List.cons_append, List.nil_append, List.tail_cons, List.zipWith_cons_cons, List.zipWith_nil_right]
  constructor
  · apply List.isChain_iff_pairwise.mp
    simp only [List.isChain_cons_cons, List.isChain_singleton, and_true]
    omega
  · simp only [List.cons.injEq, and_true]
    omega

variable (ctx) (candidates : List PromotionCandidate)

lemma promoteEdges_accounted : Accounted (promoteEdges ext candidates ctx) := by
  rw [promoteEdges]
  refine List.foldlRecOn candidates _ ⟨by decide, rfl⟩ fun r hr c _ => ?_
  exact hr.record (evaluate_routed ext)

lemma promoteEdges_conserved :
    candidates.length = (promoteEdges ext candidates ctx).promoted.length +
      (promoteEdges ext candidates ctx).skipped := by
  have hfold : ∀ (candidates : List PromotionCandidate) (r : PromotionResult),
      (candidates.foldl (fun r c => r.record (evaluate ext ctx c)) r).promoted.length +
        (candidates.foldl (fun r c => r.record (evaluate ext ctx c)) r).skipped =
        r.promoted.length + r.skipped + candidates.length := by
    intro candidates
    induction candidates with
    | nil =>
      intro r
      rfl
    | cons c candidates ih =>
      intro r
      rw [List.foldl_cons, ih, promoted_record, skipped_record, List.length_cons]
      cases (evaluate ext ctx c).2.isOk <;> simp <;> omega
  rw [promoteEdges, hfold]
  exact (Nat.zero_add _).symm

end Accounting

section Admission

structure Admitted (c : PromotionCandidate) (typeName : String) : Prop where
  category : c.category ∈
    [UnresolvedCategory.callsObjMethodNeedsTypeInfo, .callsThisWildcardMethodNeedsTypeInfo]
  compiler : c.enrichment.origin = .compiler
  internal : c.enrichment.isExternalType = false
  named : c.enrichment.typeName = some typeName
  single : '|' ∉ typeName.toList ∧ '&' ∉ typeName.toList

def Segment (segment : String) : Prop :=
  '.' ∉ segment.toList ∧ '?' ∉ segment.toList ∧ '[' ∉ segment.toList

inductive PlainKey : String → String → Prop
  | receiver {receiver method : String} (hreceiver : isSimpleField receiver) (hmethod : Segment method) :
      PlainKey (receiver ++ "." ++ method) method
  | field {holder field method : String} (hholder : holder = "this" ∨ holder = "self")
      (hfield : isSimpleField field) (hmethod : Segment method) :
      PlainKey (holder ++ "." ++ field ++ "." ++ method) method

def Targets (ctx : PromotionContext) (typeName methodName : String) (method : SymbolInfo) : Prop :=
  ∃ receiver symbols, ctx.getSymbols typeName = some symbols ∧
    symbols.filter (·.subtype.isUsableReceiverType) = [receiver] ∧
    ctx.getMethods receiver.stableKey methodName = some [method]

variable (ext : Indexer.Externals) (ctx : PromotionContext)

def Promotes (c : PromotionCandidate) (edge : PromotedEdge) : Prop :=
  ∃ typeName methodName method, Admitted c typeName ∧ PlainKey c.targetKey methodName ∧
    Targets ctx typeName methodName method ∧ edge = promotedEdge ext c typeName methodName method

/-- The filter promotes what it should, and its counters account for every candidate. -/
structure FilterCorrect (candidates : List PromotionCandidate) : Prop where
  sound : ∃ promotion : PromotionCandidate → Option PromotedEdge,
    (promoteEdges ext candidates ctx).promoted = candidates.filterMap promotion ∧
      ∀ c ∈ candidates, ∀ edge, promotion c = some edge ↔ Promotes ext ctx c edge
  conserved : candidates.length =
    (promoteEdges ext candidates ctx).promoted.length + (promoteEdges ext candidates ctx).skipped
  sorted : (promoteEdges ext candidates ctx).waterfall.Pairwise (· ≥ ·)
  attributed : List.zipWith (· - ·) (promoteEdges ext candidates ctx).waterfall
    (promoteEdges ext candidates ctx).waterfall.tail = (promoteEdges ext candidates ctx).drops

/-- Of the candidates that have a type and a method to go to, those with a key of two segments name their
receiver by a plain identifier. -/
def ReceiversPlain (candidates : List PromotionCandidate) : Prop :=
  ∀ c ∈ candidates, ∀ typeName receiver methodName method, Admitted c typeName →
    c.targetKey = receiver ++ "." ++ methodName → Segment receiver → Segment methodName →
    Targets ctx typeName methodName method → isSimpleField receiver

variable {ext ctx} {c : PromotionCandidate} {edge : PromotedEdge} {key methodName : String}

lemma notMem_of_isSimpleField {segment : String} (h : isSimpleField segment) {x : Char} (halpha : ¬ x.isAlphanum)
    (hunderscore : x ≠ '_') : x ∉ segment.toList := by
  intro hx
  have hall := of_decide_eq_true (Bool.and_eq_true_iff.mp h).1
  have hchar := List.all_eq_true.mp (Bool.and_eq_true_iff.mp h).2 x hx
  simp [halpha, hunderscore] at hchar

lemma Segment.of_isSimpleField {segment : String} (h : isSimpleField segment) : Segment segment :=
  ⟨notMem_of_isSimpleField h (by decide) (by decide), notMem_of_isSimpleField h (by decide) (by decide),
    notMem_of_isSimpleField h (by decide) (by decide)⟩

lemma split_two {first method : String} :
    split key '.' = [first, method] ↔ key = first ++ "." ++ method ∧ '.' ∉ first.toList ∧ '.' ∉ method.toList := by
  rw [split_eq_iff, join_cons _ (by simp)]
  simp [join, and_comm]

lemma split_three {first field method : String} :
    split key '.' = [first, field, method] ↔ key = first ++ "." ++ field ++ "." ++ method ∧
      '.' ∉ first.toList ∧ '.' ∉ field.toList ∧ '.' ∉ method.toList := by
  rw [split_eq_iff, join_cons _ (by simp), join_cons _ (by simp)]
  simp [join, and_comm, String.append_assoc]

lemma parseMethodName_eq_some :
    parseMethodName key = some methodName ↔ (∃ receiver, split key '.' = [receiver, methodName]) ∨
      ∃ holder field, split key '.' = [holder, field, methodName] ∧ (holder = "this" ∨ holder = "self") ∧
        isSimpleField field := by
  rw [parseMethodName]
  split
  · rename_i hsplit
    simp [hsplit]
  · rename_i first field method hsplit
    simp [hsplit, and_assoc, and_comm]
  · rename_i htwo hthree
    simp only [reduceCtorEq, false_iff, not_or, not_exists]
    exact ⟨fun receiver h => htwo _ _ h, fun holder field h => hthree _ _ _ h.1⟩

def PlainText (key : String) : Prop := '?' ∉ key.toList ∧ '[' ∉ key.toList

def TwoSegments (key methodName : String) : Prop :=
  ∃ receiver, key = receiver ++ "." ++ methodName ∧ Segment receiver ∧ Segment methodName

lemma TwoSegments.parsed (h : TwoSegments key methodName) :
    PlainText key ∧ parseMethodName key = some methodName := by
  obtain ⟨receiver, rfl, ⟨hdot, hoptional, helement⟩, hmethodDot, hmethodOptional, hmethodElement⟩ := h
  refine ⟨?_, parseMethodName_eq_some.mpr (.inl ⟨receiver, split_two.mpr ⟨rfl, hdot, hmethodDot⟩⟩)⟩
  simp [PlainText, String.toList_append, hoptional, helement, hmethodOptional, hmethodElement]

lemma PlainKey.parsed (h : PlainKey key methodName) : PlainText key ∧ parseMethodName key = some methodName := by
  cases h with
  | receiver hreceiver hmethod => exact TwoSegments.parsed ⟨_, rfl, .of_isSimpleField hreceiver, hmethod⟩
  | @field holder field _ hholder hfield hmethod =>
    obtain ⟨hfieldDot, hfieldOptional, hfieldElement⟩ := Segment.of_isSimpleField hfield
    obtain ⟨hdot, hoptional, helement⟩ : Segment holder := by
      rcases hholder with rfl | rfl <;> exact Segment.of_isSimpleField (by decide)
    obtain ⟨hmethodDot, hmethodOptional, hmethodElement⟩ := hmethod
    refine ⟨?_, parseMethodName_eq_some.mpr
      (.inr ⟨holder, field, split_three.mpr ⟨rfl, hdot, hfieldDot, hmethodDot⟩, hholder, hfield⟩)⟩
    simp [PlainText, String.toList_append, hoptional, helement, hfieldOptional, hfieldElement, hmethodOptional,
      hmethodElement]

lemma parsed_iff : PlainText key ∧ parseMethodName key = some methodName ↔
    PlainKey key methodName ∨ TwoSegments key methodName := by
  refine ⟨?_, fun h => h.elim PlainKey.parsed TwoSegments.parsed⟩
  rw [parseMethodName_eq_some]
  simp only [split_two, split_three, PlainText]
  rintro ⟨⟨hoptional, helement⟩, ⟨receiver, rfl, hreceiver, hmethod⟩ |
    ⟨holder, field, ⟨rfl, -, -, hmethod⟩, hholder, hfield⟩⟩
  · simp only [String.toList_append, List.mem_append, not_or] at hoptional helement
    exact .inr ⟨receiver, rfl, ⟨hreceiver, hoptional.1.1, helement.1.1⟩, hmethod, hoptional.2, helement.2⟩
  · simp only [String.toList_append, List.mem_append, not_or] at hoptional helement
    exact .inl (.field hholder hfield ⟨hmethod, hoptional.2, helement.2⟩)

lemma contains_eq_false {text : String} {x : Char} : contains text x = false ↔ x ∉ text.toList := by
  simp [contains]

lemma evaluate_ok (h : (evaluate ext ctx c).2 = .ok edge) : ∃ typeName methodName method, Admitted c typeName ∧
    (PlainText c.targetKey ∧ parseMethodName c.targetKey = some methodName) ∧
    Targets ctx typeName methodName method ∧ edge = promotedEdge ext c typeName methodName method := by
  unfold evaluate at h
  split at h
  · cases h
  rename_i hcategory
  simp only [enter] at h
  split at h
  · cases h
  rename_i hcompiler
  split at h
  · cases h
  rename_i hinternal
  split at h
  · cases h
  rename_i typeName hnamed
  split at h
  · cases h
  rename_i hsingle
  split at h
  · cases h
  rename_i hplain
  split at h
  · cases h
  rename_i methodName hparsed
  split at h
  · cases h
  rename_i symbols hsymbols
  split at h
  · cases h
  · cases h
  rename_i receiver husable
  split at h
  · cases h
  · cases h
  · cases h
  rename_i method hmethods
  simp only [Bool.or_eq_true, not_or, Bool.not_eq_true, contains_eq_false] at hsingle hplain
  exact ⟨typeName, methodName, method,
    ⟨not_not.mp hcategory, not_not.mp hcompiler, Bool.eq_false_iff.mpr hinternal, hnamed, hsingle⟩,
      ⟨hplain, hparsed⟩,
    ⟨receiver, symbols, hsymbols, husable, hmethods⟩, (Except.ok.inj h).symm⟩

lemma promoted?_eq_some : promoted? ext ctx c = some edge ↔ ∃ typeName methodName method, Admitted c typeName ∧
    (PlainText c.targetKey ∧ parseMethodName c.targetKey = some methodName) ∧
    Targets ctx typeName methodName method ∧ edge = promotedEdge ext c typeName methodName method := by
  constructor
  · intro h
    apply evaluate_ok
    rw [promoted?] at h
    revert h
    cases (evaluate ext ctx c).2 with
    | error reason => simp [Except.toOption]
    | ok e => simp [Except.toOption]
  · rintro ⟨typeName, methodName, method, ⟨hcategory, hcompiler, hinternal, hnamed, hbar, hand⟩,
      ⟨⟨hoptional, helement⟩, hparsed⟩, ⟨receiver, symbols, hsymbols, husable, hmethods⟩, rfl⟩
    rw [← contains_eq_false] at hbar hand hoptional helement
    unfold promoted? evaluate
    simp only [not_not.mpr hcategory, hcompiler, hinternal, hnamed, hbar, hand, hoptional,
      helement, hparsed, hsymbols,
      husable, hmethods, Bool.or_false, Bool.false_eq_true, if_false, ne_eq, not_true_eq_false, enter]
    rfl

lemma promoted?_iff : promoted? ext ctx c = some edge ↔ Promotes ext ctx c edge ∨
    ∃ typeName methodName method, Admitted c typeName ∧ TwoSegments c.targetKey methodName ∧
      Targets ctx typeName methodName method ∧ edge = promotedEdge ext c typeName methodName method := by
  rw [promoted?_eq_some, Promotes]
  simp only [parsed_iff]
  grind

variable {candidates : List PromotionCandidate}

lemma Targets.unique {typeName : String} {method method' : SymbolInfo} (h : Targets ctx typeName methodName method)
    (h' : Targets ctx typeName methodName method') : method = method' := by
  obtain ⟨receiver, symbols, hsymbols, husable, hmethods⟩ := h
  obtain ⟨receiver', symbols', hsymbols', husable', hmethods'⟩ := h'
  obtain rfl := Option.some.inj (hsymbols.symm.trans hsymbols')
  obtain rfl : receiver = receiver' := by simpa using husable.symm.trans husable'
  simpa using hmethods.symm.trans hmethods'

lemma PlainKey.receiver_plain {receiver method : String} (h : PlainKey key methodName)
    (hkey : key = receiver ++ "." ++ method) (hreceiver : Segment receiver) (hmethod : Segment method) :
    isSimpleField receiver := by
  have hsplit := split_two.mpr ⟨hkey, hreceiver.1, hmethod.1⟩
  cases h with
  | @receiver receiver' _ hplain hname =>
    have hsplit' := split_two.mpr ⟨rfl, (Segment.of_isSimpleField hplain).1, hname.1⟩
    obtain ⟨rfl, -⟩ : receiver = receiver' ∧ method = methodName := by simpa using hsplit.symm.trans hsplit'
    exact hplain
  | @field holder field _ hholder hfield hname =>
    have hdot : '.' ∉ holder.toList := by rcases hholder with rfl | rfl <;> decide
    have hsplit' := split_three.mpr ⟨rfl, hdot, (Segment.of_isSimpleField hfield).1, hname.1⟩
    have hlength := congrArg List.length (hsplit.symm.trans hsplit')
    simp at hlength

lemma receiversPlain_of_sound {promotion : PromotionCandidate → Option PromotedEdge}
    (hpromoted : (promoteEdges ext candidates ctx).promoted = candidates.filterMap promotion)
    (hpromotion : ∀ c ∈ candidates, ∀ edge, promotion c = some edge ↔ Promotes ext ctx c edge) :
    ReceiversPlain ctx candidates := by
  intro c hc typeName receiver methodName method hadmitted hkey hreceiver hmethod htargets
  have hagree : promotion c = promoted? ext ctx c := by
    refine agree_of_filterMap_eq (fun c hc edge h => ?_)
      (hpromoted ▸ promoteEdges_promoted ext candidates ctx) c hc
    exact promoted?_iff.mpr (.inl ((hpromotion c hc edge).mp h))
  have hsome : promoted? ext ctx c = some (promotedEdge ext c typeName methodName method) :=
    promoted?_iff.mpr (.inr ⟨typeName, methodName, method, hadmitted,
      ⟨receiver, hkey, hreceiver, hmethod⟩, htargets, rfl⟩)
  obtain ⟨typeName', methodName', method', -, hplain, -⟩ := (hpromotion c hc _).mp (hagree.trans hsome)
  exact hplain.receiver_plain hkey hreceiver hmethod

lemma promoted?_iff_of_plain (hplain : ReceiversPlain ctx candidates) (hc : c ∈ candidates) :
    promoted? ext ctx c = some edge ↔ Promotes ext ctx c edge := by
  rw [promoted?_iff]
  refine ⟨?_, .inl⟩
  rintro (h | ⟨typeName, methodName, method, hadmitted, ⟨receiver, hkey, hreceiver, hmethod⟩, htargets, hedge⟩)
  · exact h
  · have hsimple := hplain c hc typeName receiver methodName method hadmitted hkey hreceiver hmethod htargets
    exact ⟨typeName, methodName, method, hadmitted, hkey ▸ .receiver hsimple hmethod, htargets, hedge⟩

/-- The filter does what it should just when no candidate that could be promoted has a receiver other than a plain
identifier. -/
theorem promotion_filter_iff (ext : Indexer.Externals) (ctx : PromotionContext)
    (candidates : List PromotionCandidate) : FilterCorrect ext ctx candidates ↔ ReceiversPlain ctx candidates := by
  constructor
  · intro h
    obtain ⟨promotion, hpromoted, hpromotion⟩ := h.sound
    exact receiversPlain_of_sound hpromoted hpromotion
  · intro hplain
    have hwaterfall := (promoteEdges_accounted ext ctx candidates).waterfall
    exact {
      sound := ⟨promoted? ext ctx, promoteEdges_promoted ext candidates ctx, fun _ hc _ =>
        promoted?_iff_of_plain hplain hc⟩
      conserved := promoteEdges_conserved ext ctx candidates
      sorted := hwaterfall.1
      attributed := hwaterfall.2 }

end Admission

section CallReceiver

def flatPrinter : Indexer.Externals where
  fromStr _ := none
  toString
    | .object [("promotedFrom", .string edge), ("receiverType", .string typeName),
        ("methodName", .string method)] =>
      "\x7b\"promotedFrom\":\"" ++ edge ++ "\",\"receiverType\":\"" ++ typeName ++ "\",\"methodName\":\"" ++
        method ++ "\"\x7d"
    | _ => "null"
  isAlphabetic := Char.isAlpha
  isNumeric := Char.isDigit

def engineSymbol : SymbolInfo := ⟨"n1", "r:Engine", some "Engine", .class_⟩

def engineRun : SymbolInfo := ⟨"n2", "r:Engine.run", some "Engine.run", .method⟩

def engineContext : PromotionContext :=
  (PromotionContext.empty.addSymbol engineSymbol).addClassMethod "r:Engine" "run" engineRun

/-- A call whose receiver is the result of another call. -/
def callOnCall : PromotionCandidate where
  edgeUid := "e1"
  snapshotUid := "s1"
  repoUid := "r1"
  sourceNodeUid := "n3"
  targetKey := "get().run"
  lineStart := some 3
  colStart := none
  lineEnd := none
  colEnd := none
  category := .callsObjMethodNeedsTypeInfo
  enrichment := ⟨some "Engine", some "Engine", false, .compiler, none⟩

theorem call_on_call_promoted : ¬ FilterCorrect flatPrinter engineContext [callOnCall] := by
  intro h
  obtain ⟨promotion, hpromoted, hpromotion⟩ := h.sound
  have hplain := receiversPlain_of_sound hpromoted hpromotion callOnCall List.mem_cons_self "Engine" "get()" "run"
    engineRun ⟨by decide, rfl, rfl, rfl, by decide⟩ rfl (by unfold Segment; decide) (by unfold Segment; decide)
    ⟨engineSymbol, [engineSymbol], by decide +kernel, rfl, by decide +kernel⟩
  exact absurd hplain (by decide)

end CallReceiver

end RepoGraph.Enrichment
