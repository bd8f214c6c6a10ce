import RepoGraph.Classification.ModuleEdges
import RepoGraph.Lib.Folds

/-! What a derivation keeps of its imports: each one is counted once, in one cell of one relation, and
the order in which they are listed shows only in the order of edges between modules of equal paths. -/

namespace RepoGraph.Classification

open Lib

section Ownership

def ownerOf (ownership : List FileOwnershipFact) (fileUid : String) : Option String :=
  (ownership.find? (·.fileUid = fileUid)).map (·.moduleUid)

def SingleOwned (ownership : List FileOwnershipFact) : Prop := (ownership.map (·.fileUid)).Nodup

instance SingleOwned.decidable (ownership : List FileOwnershipFact) : Decidable (SingleOwned ownership) :=
  inferInstanceAs (Decidable (ownership.map (·.fileUid)).Nodup)

variable {o : BucketOrder String (List String)} {ownership : List FileOwnershipFact}

def assigned (ownership : List FileOwnershipFact) (fileUid : String) : List String :=
  (ownership.filter (·.fileUid = fileUid)).map (·.moduleUid)

lemma ownerOf_eq_head? (fileUid : String) : ownerOf ownership fileUid = (assigned ownership fileUid).head? := by
  rw [ownerOf, assigned, List.head?_map, List.head?_filter]

lemma length_assigned (fileUid : String) :
    (assigned ownership fileUid).length = (ownership.map (·.fileUid)).count fileUid := by
  rw [assigned, List.length_map, List.count_eq_countP, List.countP_map, List.countP_eq_length_filter]
  congr 1

lemma lookup_assignments (m : IterMap String (List String)) (fileUid : String) :
    (ownership.foldl (fun m fact => m.entryOrDefault o fact.fileUid (· ++ [fact.moduleUid])) m).lookup fileUid =
      if assigned ownership fileUid = [] then m.lookup fileUid
      else some ((m.lookup fileUid).getD [] ++ assigned ownership fileUid) := by
  induction ownership generalizing m with
  | nil => simp [assigned]
  | cons fact ownership ih =>
    rw [List.foldl_cons, ih, IterMap.lookup_entryOrDefault]
    by_cases hf : fact.fileUid = fileUid
    · subst hf
      have hcons : assigned (fact :: ownership) fact.fileUid =
          fact.moduleUid :: assigned ownership fact.fileUid := by simp [assigned]
      rw [hcons]
      by_cases hrest : assigned ownership fact.fileUid = []
      · simp [hrest]
        rfl
      · simp [hrest]
        rfl
    · have hcons : assigned (fact :: ownership) fileUid = assigned ownership fileUid := by simp [assigned, hf]
      have hf' : ¬ fileUid = fact.fileUid := fun h => hf h.symm
      rw [hcons, if_neg hf']

lemma indexFiles_ok {entries : List (Σ _ : String, List String)} (hsingle : ∀ e ∈ entries, e.2.length = 1)
    (index : IterMap String String) (hkeys : entries.NodupKeys) :
    ∃ index', indexFiles index entries = .ok (.ok index') ∧
      ∀ fileUid, index'.lookup fileUid =
        match entries.dlookup fileUid with
        | some moduleUids => moduleUids.head?
        | none => index.lookup fileUid := by
  induction entries generalizing index with
  | nil => exact ⟨index, rfl, fun _ => rfl⟩
  | cons e entries ih =>
    obtain ⟨fileUid, moduleUids⟩ := e
    obtain ⟨moduleUid, rfl⟩ := List.length_eq_one_iff.mp (hsingle _ List.mem_cons_self)
    obtain ⟨hnew, hrest⟩ := List.nodupKeys_cons.mp hkeys
    obtain ⟨index', hok, hlookup⟩ := ih (fun e he => hsingle e (List.mem_cons_of_mem _ he))
      (index.insert fileUid moduleUid) hrest
    refine ⟨index', by simpa [indexFiles] using hok, ?_⟩
    intro f
    rw [hlookup f]
    by_cases hf : fileUid = f
    · subst hf
      simp [List.dlookup_eq_none.mpr hnew]
    · rw [List.dlookup_cons_ne _ _ (fun h => hf h.symm), AList.lookup_insert_ne (fun h => hf h.symm)]

lemma indexFiles_error {entries : List (Σ _ : String, List String)} (hne : ∀ e ∈ entries, e.2 ≠ [])
    (index : IterMap String String) (h : ∃ e ∈ entries, 1 < e.2.length) :
    ∃ err, indexFiles index entries = .ok (.error err) := by
  induction entries generalizing index with
  | nil => simp at h
  | cons e entries ih =>
    obtain ⟨fileUid, moduleUids⟩ := e
    by_cases hlen : 1 < moduleUids.length
    · exact ⟨.duplicateOwnership fileUid moduleUids, by simp [indexFiles, hlen]⟩
    · obtain ⟨moduleUid, rest, rfl⟩ := List.exists_cons_of_ne_nil (hne _ List.mem_cons_self)
      obtain ⟨err, herr⟩ := ih (fun e he => hne e (List.mem_cons_of_mem _ he)) (index.insert fileUid moduleUid)
        (by
          obtain ⟨e, he, hlen'⟩ := h
          rcases List.mem_cons.mp he with rfl | he
          · exact absurd hlen' hlen
          · exact ⟨e, he, hlen'⟩)
      refine ⟨err, ?_⟩
      rw [indexFiles, if_neg hlen]
      exact herr

lemma buildOwnershipIndex_cases (o : BucketOrder String (List String)) (ownership : List FileOwnershipFact) :
    (SingleOwned ownership ∧ ∃ index, buildOwnershipIndex o ownership = .ok (.ok index) ∧
        ∀ fileUid, index.lookup fileUid = ownerOf ownership fileUid) ∨
      ¬ SingleOwned ownership ∧ ∃ err, buildOwnershipIndex o ownership = .ok (.error err) := by
  have hlookup := @lookup_assignments o ownership ∅
  rw [buildOwnershipIndex]
  generalize ownership.foldl
    (fun (m : IterMap String (List String)) fact => m.entryOrDefault o fact.fileUid (· ++ [fact.moduleUid])) ∅ =
    table at hlookup ⊢
  simp only [AList.lookup_empty, Option.getD_none, List.nil_append] at hlookup
  have hentry : ∀ e ∈ table.entries, e.2 = assigned ownership e.1 ∧ e.2 ≠ [] := by
    rintro ⟨f, ms⟩ he
    have hl := IterMap.mem_entries.mp he
    rw [hlookup] at hl
    split at hl
    · cases hl
    · rename_i hne
      obtain rfl := Option.some.inj hl
      exact ⟨rfl, hne⟩
  by_cases hsingle : SingleOwned ownership
  · refine Or.inl ⟨hsingle, ?_⟩
    have hone : ∀ e ∈ table.entries, e.2.length = 1 := by
      intro e he
      obtain ⟨heq, hne⟩ := hentry e he
      have hle : e.2.length ≤ 1 := by
        rw [heq, length_assigned]
        exact List.nodup_iff_count_le_one.mp hsingle e.1
      have := List.length_pos_iff.mpr hne
      omega
    obtain ⟨index, hok, hindex⟩ := indexFiles_ok hone ∅ table.nodupKeys
    refine ⟨index, hok, fun fileUid => ?_⟩
    rw [hindex, ownerOf_eq_head?]
    change (match table.lookup fileUid with | some ms => ms.head? | none => none) = _
    rw [hlookup]
    by_cases hnil : assigned ownership fileUid = []
    · simp [hnil]
    · simp [hnil]
  · refine Or.inr ⟨hsingle, indexFiles_error (fun e he => (hentry e he).2) ∅ ?_⟩
    rw [SingleOwned, List.nodup_iff_count_le_one] at hsingle
    obtain ⟨fileUid, hcount⟩ := not_forall.mp hsingle
    rw [not_le, ← length_assigned] at hcount
    have hne : assigned ownership fileUid ≠ [] := by
      intro hnil
      simp [hnil] at hcount
    refine ⟨⟨fileUid, assigned ownership fileUid⟩, IterMap.mem_entries.mpr ?_, hcount⟩
    rw [hlookup, if_neg hne]

end Ownership

section Loop

variable (view : ImportView) (owner path : String → Option String)

def crossing (imp : ResolvedImportFact) : Option (String × String) :=
  (owner imp.sourceFileUid).bind fun source =>
    (owner imp.targetFileUid).bind fun target => if source = target then none else some (source, target)

inductive ImportKind
  | sourceUnowned
  | targetUnowned
  | intraModule
  | crossModule
  deriving DecidableEq, Repr

def kindOf (imp : ResolvedImportFact) : ImportKind :=
  match owner imp.sourceFileUid, owner imp.targetFileUid with
  | none, _ => .sourceUnowned
  | some _, none => .targetUnowned
  | some source, some target => if source = target then .intraModule else .crossModule

lemma crossing_isSome (imp : ResolvedImportFact) :
    (crossing owner imp).isSome ↔ kindOf owner imp = .crossModule := by
  rw [crossing, kindOf]
  cases owner imp.sourceFileUid with
  | none => simp
  | some source =>
    cases owner imp.targetFileUid with
    | none => simp
    | some target => by_cases h : source = target <;> simp [h]

def charge (imp : ResolvedImportFact) : Option String × ScopedCell :=
  match kindOf owner imp with
  | .sourceUnowned => ((owner imp.targetFileUid).bind path, .sourceUnownedInto)
  | .targetUnowned => ((owner imp.sourceFileUid).bind path, .targetUnownedFrom)
  | .intraModule => ((owner imp.sourceFileUid).bind path, .intraModule)
  | .crossModule => (none, .intraModule)

def tallyImport (d : ModuleEdgeDiagnostics) (imp : ResolvedImportFact) : ModuleEdgeDiagnostics :=
  if view.admits imp.partition then
    { importsTotal := d.importsTotal + 1
      importsSourceUnowned := d.importsSourceUnowned + if kindOf owner imp = .sourceUnowned then 1 else 0
      importsTargetUnowned := d.importsTargetUnowned + if kindOf owner imp = .targetUnowned then 1 else 0
      importsIntraModule := d.importsIntraModule + if kindOf owner imp = .intraModule then 1 else 0
      importsCrossModule := d.importsCrossModule + if kindOf owner imp = .crossModule then 1 else 0
      perModule := d.perModule.count (charge owner path imp).1 (charge owner path imp).2 }
  else d

def relate (o : BucketOrder (String × String) EdgeAggregate) (m : Relations) (imp : ResolvedImportFact) :
    Relations :=
  match crossing owner imp with
  | some pair => m.entryOrDefault o pair (EdgeAggregate.add view imp)
  | none => m

variable {view owner path}
variable {o : BucketOrder (String × String) EdgeAggregate} {index paths : IterMap String String}

lemma processImport_eq (s : DerivationState) (imp : ResolvedImportFact) :
    processImport o view index paths s imp =
      ⟨tallyImport view index.lookup paths.lookup s.diagnostics imp,
        relate view index.lookup o s.relations imp⟩ := by
  rw [processImport, tallyImport, relate, charge, kindOf, crossing]
  cases hsource : index.lookup imp.sourceFileUid with
  | none => by_cases hadmits : view.admits imp.partition <;> simp [hadmits]
  | some source =>
    cases htarget : index.lookup imp.targetFileUid with
    | none => by_cases hadmits : view.admits imp.partition <;> simp [hadmits]
    | some target =>
      by_cases hsame : source = target
      · subst hsame
        by_cases hadmits : view.admits imp.partition <;> simp [hadmits]
      · by_cases hadmits : view.admits imp.partition <;> simp [hsame, hadmits, PerModule.count]

lemma processImports_eq (hindex : ∀ f, index.lookup f = owner f) (hpaths : ∀ m, paths.lookup m = path m)
    (imports : List ResolvedImportFact) :
    processImports o view index paths imports =
      ⟨imports.foldl (tallyImport view owner path) .empty, imports.foldl (relate view owner o) ∅⟩ := by
  obtain rfl : (index.lookup ·) = owner := funext hindex
  obtain rfl : (paths.lookup ·) = path := funext hpaths
  have hfold : ∀ s : DerivationState, imports.foldl (processImport o view index paths) s =
      ⟨imports.foldl (tallyImport view index.lookup paths.lookup) s.diagnostics,
        imports.foldl (relate view index.lookup o) s.relations⟩ := by
    induction imports with
    | nil => intro s; rfl
    | cons imp imports ih =>
      intro s
      rw [List.foldl_cons, ih, processImport_eq]
      rfl
  exact hfold _

lemma tally_total (imports : List ResolvedImportFact) :
    let d := imports.foldl (tallyImport view owner path) .empty
    d.importsTotal = d.importsSourceUnowned + d.importsTargetUnowned + d.importsIntraModule +
      d.importsCrossModule := by
  have hfold : ∀ d : ModuleEdgeDiagnostics,
      d.importsTotal = d.importsSourceUnowned + d.importsTargetUnowned + d.importsIntraModule +
        d.importsCrossModule →
      let d' := imports.foldl (tallyImport view owner path) d
      d'.importsTotal = d'.importsSourceUnowned + d'.importsTargetUnowned + d'.importsIntraModule +
        d'.importsCrossModule := by
    induction imports with
    | nil => exact fun d h => h
    | cons imp imports ih =>
      intro d h
      apply ih
      rw [tallyImport]
      split
      · cases kindOf owner imp <;> simp <;> omega
      · exact h
  exact hfold _ rfl

lemma tally_crossModule (imports : List ResolvedImportFact) :
    (imports.foldl (tallyImport view owner path) .empty).importsCrossModule =
      imports.countP fun imp => view.admits imp.partition && (crossing owner imp).isSome := by
  have hfold : ∀ d, (imports.foldl (tallyImport view owner path) d).importsCrossModule =
      d.importsCrossModule + imports.countP fun imp => view.admits imp.partition &&
        (crossing owner imp).isSome := by
    induction imports with
    | nil => simp
    | cons imp imports ih =>
      intro d
      rw [List.foldl_cons, ih, List.countP_cons, tallyImport]
      by_cases hadmits : view.admits imp.partition
      · simp only [hadmits, if_true, Bool.true_and, crossing_isSome]
        omega
      · simp [hadmits]
  rw [hfold]
  exact Nat.zero_add _

lemma ModuleScopedCounts.bump_right_comm (counts : ModuleScopedCounts) (a b : ScopedCell) :
    (counts.bump a).bump b = (counts.bump b).bump a := by
  cases a <;> cases b <;> rfl

lemma PerModule.count_right_comm (counts : PerModule) (p q : Option String) (a b : ScopedCell) :
    (counts.count p a).count q b = (counts.count q b).count p a := by
  cases p with
  | none => cases q <;> rfl
  | some p =>
    cases q with
    | none => rfl
    | some q =>
      refine Std.ExtTreeMap.ext_getElem? fun k => ?_
      simp only [PerModule.count, getElem?_insert]
      by_cases hpq : p = q
      · subst hpq
        by_cases hk : p = k
        · simp [hk, ModuleScopedCounts.bump_right_comm]
        · simp [hk]
      · have hqp : ¬ q = p := fun h => hpq h.symm
        by_cases hp : p = k
        · subst hp
          simp [hqp]
        · simp [hp, hpq]

lemma tallyImport_right_comm (d : ModuleEdgeDiagnostics) (a b : ResolvedImportFact) :
    tallyImport view owner path (tallyImport view owner path d a) b =
      tallyImport view owner path (tallyImport view owner path d b) a := by
  by_cases ha : view.admits a.partition
  · by_cases hb : view.admits b.partition
    · simp [tallyImport, ha, hb, PerModule.count_right_comm, Nat.add_right_comm]
    · simp [tallyImport, ha, hb]
  · by_cases hb : view.admits b.partition
    · simp [tallyImport, ha, hb]
    · simp [tallyImport, ha, hb]

lemma tally_perm {imports imports' : List ResolvedImportFact} (h : imports.Perm imports')
    (d : ModuleEdgeDiagnostics) :
    imports.foldl (tallyImport view owner path) d = imports'.foldl (tallyImport view owner path) d :=
  h.foldl_eq' (fun a _ b _ d => tallyImport_right_comm d a b) d

end Loop

section Relations

variable {view : ImportView} {owner : String → Option String} {o : BucketOrder (String × String) EdgeAggregate}

lemma EdgeAggregate.add_right_comm (agg : EdgeAggregate) (a b : ResolvedImportFact) :
    (agg.add view a).add view b = (agg.add view b).add view a := by
  have hfiles : (agg.sourceFiles.insert a.sourceFileUid).insert b.sourceFileUid =
      (agg.sourceFiles.insert b.sourceFileUid).insert a.sourceFileUid := by
    refine Std.ExtTreeSet.ext_mem fun k => ?_
    simp only [Std.ExtTreeSet.mem_insert, Std.compare_eq_iff_eq]
    tauto
  by_cases ha : view.admits a.partition
  · by_cases hb : view.admits b.partition
    · simp [add, ha, hb, hfiles, PartitionCounts.add_right_comm]
    · simp [add, ha, hb, PartitionCounts.add_right_comm]
  · by_cases hb : view.admits b.partition
    · simp [add, ha, hb, PartitionCounts.add_right_comm]
    · simp [add, ha, hb, PartitionCounts.add_right_comm]

def relateAt (view : ImportView) (owner : String → Option String) (pair : String × String)
    (agg : Option EdgeAggregate) (imp : ResolvedImportFact) : Option EdgeAggregate :=
  if crossing owner imp = some pair then some ((agg.getD default).add view imp) else agg

lemma lookup_relate (m : Relations) (imp : ResolvedImportFact) (pair : String × String) :
    (relate view owner o m imp).lookup pair = relateAt view owner pair (m.lookup pair) imp := by
  rw [relate, relateAt]
  cases hcross : crossing owner imp with
  | none => simp
  | some p =>
    rw [IterMap.lookup_entryOrDefault]
    by_cases hp : pair = p
    · subst hp
      simp
    · have hp' : ¬ p = pair := fun h => hp h.symm
      simp [hp, hp']

lemma lookup_relations (imports : List ResolvedImportFact) (m : Relations) (pair : String × String) :
    (imports.foldl (relate view owner o) m).lookup pair =
      imports.foldl (relateAt view owner pair) (m.lookup pair) := by
  induction imports generalizing m with
  | nil => rfl
  | cons imp imports ih => rw [List.foldl_cons, List.foldl_cons, ih, lookup_relate]

lemma relateAt_right_comm (pair : String × String) (agg : Option EdgeAggregate) (a b : ResolvedImportFact) :
    relateAt view owner pair (relateAt view owner pair agg a) b =
      relateAt view owner pair (relateAt view owner pair agg b) a := by
  by_cases ha : crossing owner a = some pair
  · by_cases hb : crossing owner b = some pair
    · simp [relateAt, ha, hb, EdgeAggregate.add_right_comm]
    · simp [relateAt, ha, hb]
  · by_cases hb : crossing owner b = some pair
    · simp [relateAt, ha, hb]
    · simp [relateAt, ha, hb]

lemma relations_perm {imports imports' : List ResolvedImportFact} (h : imports.Perm imports')
    (o o' : BucketOrder (String × String) EdgeAggregate) :
    (imports.foldl (relate view owner o) ∅).entries.Perm (imports'.foldl (relate view owner o') ∅).entries := by
  refine List.lookup_ext (AList.nodupKeys _) (AList.nodupKeys _) fun pair agg => ?_
  change agg ∈ (imports.foldl (relate view owner o) ∅).lookup pair ↔
    agg ∈ (imports'.foldl (relate view owner o') ∅).lookup pair
  rw [lookup_relations, lookup_relations, h.foldl_eq' fun a _ b _ agg => relateAt_right_comm pair agg a b]

lemma sum_relations {w : EdgeAggregate → ℕ} (h₀ : w default = 0) {p : ResolvedImportFact → Bool}
    (hadd : ∀ imp agg, w (agg.add view imp) = w agg + if p imp then 1 else 0)
    (imports : List ResolvedImportFact) :
    ((imports.foldl (relate view owner o) ∅).entries.map fun e => w e.2).sum =
      imports.countP fun imp => p imp && (crossing owner imp).isSome := by
  have hfold : ∀ m : Relations, ((imports.foldl (relate view owner o) m).entries.map fun e => w e.2).sum =
      (m.entries.map fun e => w e.2).sum + imports.countP fun imp => p imp && (crossing owner imp).isSome := by
    induction imports with
    | nil => simp
    | cons imp imports ih =>
      intro m
      rw [List.foldl_cons, ih, relate, List.countP_cons]
      cases hcross : crossing owner imp with
      | none => simp
      | some pair =>
        simp only [IterMap.sum_entryOrDefault h₀ (hadd imp), Option.isSome_some, Bool.and_true]
        omega
  simpa using hfold ∅

def EdgeAggregate.Sound (view : ImportView) (agg : EdgeAggregate) : Prop :=
  agg.importCount = agg.partitions.admitted view ∧ 0 < agg.partitions.total

lemma EdgeAggregate.importCount_add (agg : EdgeAggregate) (imp : ResolvedImportFact) :
    (agg.add view imp).importCount = agg.importCount + if view.admits imp.partition then 1 else 0 := by
  by_cases h : view.admits imp.partition <;> simp [add, h]

lemma EdgeAggregate.partitions_add (agg : EdgeAggregate) (imp : ResolvedImportFact) :
    (agg.add view imp).partitions = agg.partitions.add imp.partition := by
  by_cases h : view.admits imp.partition <;> simp [add, h]

lemma EdgeAggregate.sound_add {agg : EdgeAggregate} (h : agg.importCount = agg.partitions.admitted view)
    (imp : ResolvedImportFact) : (agg.add view imp).Sound view := by
  constructor
  · rw [importCount_add, partitions_add, PartitionCounts.admitted_add, h]
  · rw [partitions_add, PartitionCounts.total_add]
    omega

lemma relations_sound (imports : List ResolvedImportFact) :
    ∀ e ∈ (imports.foldl (relate view owner o) ∅).entries, e.2.Sound view := by
  have hfold : ∀ (pair : String × String) (agg : Option EdgeAggregate), (∀ a ∈ agg, a.Sound view) →
      ∀ a ∈ imports.foldl (relateAt view owner pair) agg, a.Sound view := by
    intro pair
    induction imports with
    | nil => exact fun agg h => h
    | cons imp imports ih =>
      intro agg h
      apply ih
      rw [relateAt]
      split
      · intro a ha
        obtain rfl := Option.some.inj ha
        apply EdgeAggregate.sound_add
        cases agg with
        | none => simp [PartitionCounts.admitted, default]
        | some agg => exact (h agg rfl).1
      · exact h
  rintro ⟨pair, agg⟩ he
  refine hfold pair none (by simp) agg ?_
  have hl := IterMap.mem_entries.mp he
  rwa [lookup_relations] at hl

lemma relations_admitted (imports : List ResolvedImportFact) (pair : String × String) :
    (∃ agg, (imports.foldl (relate view owner o) ∅).lookup pair = some agg ∧ 0 < agg.importCount) ↔
      ∃ imp ∈ imports, view.admits imp.partition ∧ crossing owner imp = some pair := by
  have hfold : ∀ agg : Option EdgeAggregate,
      (∃ a, imports.foldl (relateAt view owner pair) agg = some a ∧ 0 < a.importCount) ↔
        (∃ a, agg = some a ∧ 0 < a.importCount) ∨
          ∃ imp ∈ imports, view.admits imp.partition ∧ crossing owner imp = some pair := by
    induction imports with
    | nil => simp
    | cons imp imports ih =>
      intro agg
      rw [List.foldl_cons, ih, relateAt]
      simp only [List.mem_cons, exists_eq_or_imp]
      by_cases hcross : crossing owner imp = some pair
      · simp only [hcross, if_true, Option.some.injEq, exists_eq_left', EdgeAggregate.importCount_add, and_true]
        by_cases hadmits : view.admits imp.partition
        · simp [hadmits]
        · cases agg with
          | none => simp [hadmits, default]
          | some a => simp [hadmits]
      · simp [hcross]
  rw [lookup_relations]
  simpa using hfold none

end Relations

end RepoGraph.Classification
