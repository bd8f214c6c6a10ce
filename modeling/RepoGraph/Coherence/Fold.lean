import RepoGraph.Coherence.Envelope

/-! The laws of the fold. On the class axis the root is the meet of the leaves' classes, each capped by
its own freshness; the completeness of an exact root is written over, and that is where they can fail. -/

namespace RepoGraph.Coherence

open Lib TrustModel

section Ranks

lemma classRank_injective : Function.Injective classRank := by
  intro a b h
  cases a <;> cases b <;> simp_all [classRank]

lemma completenessRank_injective : Function.Injective completenessRank := by
  intro a b h
  cases a <;> cases b <;> simp_all [completenessRank]

lemma freshnessRank_injective : Function.Injective freshnessRank := by
  intro a b h
  cases a <;> cases b <;> simp_all [freshnessRank]

def ceilingRank (f : FreshnessState) : ℕ := classRank (freshnessClassCeiling f)

lemma classRank_capClass (c : AnswerClass) (f : FreshnessState) :
    classRank (capClass c f) = min (classRank c) (ceilingRank f) := by
  cases c <;> cases f <;> decide

lemma ceilingRank_mono {f f' : FreshnessState} (h : freshnessRank f ≤ freshnessRank f') :
    ceilingRank f ≤ ceilingRank f' := by
  cases f <;> cases f' <;> simp_all [freshnessRank, ceilingRank, freshnessClassCeiling, classRank]

lemma completenessRank_cap (c : AnswerClass) (q : QueryCompleteness) :
    completenessRank (capCompleteness c q) =
      if c = .exact then 2 else if c = .unavailable then 0 else min 1 (completenessRank q) := by
  cases c <;> cases q <;> decide

end Ranks

variable {α β : Type}

namespace CoherenceEnvelope

def ExactFresh (l : CoherenceEnvelope α) : Prop := l.trust.answerClass = .exact ∧ l.freshness = .fresh

def Unavailable (l : CoherenceEnvelope α) : Prop :=
  l.trust.answerClass = .unavailable ∨ l.freshness = .unavailable

/-- The class of a leaf as far as its own freshness lets it count. -/
def effectiveRank (l : CoherenceEnvelope α) : ℕ := min (classRank l.trust.answerClass) (ceilingRank l.freshness)

lemma three_le_effectiveRank {l : CoherenceEnvelope α} : 3 ≤ l.effectiveRank ↔ l.ExactFresh := by
  rw [effectiveRank, ExactFresh]
  cases l.trust.answerClass <;> cases l.freshness <;> decide

lemma one_le_effectiveRank {l : CoherenceEnvelope α} : 1 ≤ l.effectiveRank ↔ ¬ l.Unavailable := by
  rw [effectiveRank, Unavailable]
  cases l.trust.answerClass <;> cases l.freshness <;> decide

end CoherenceEnvelope

abbrev rootTrust (leaves : List (CoherenceEnvelope α)) : TrustPosture := (foldParts leaves).2.1

abbrev rootFreshness (leaves : List (CoherenceEnvelope α)) : FreshnessState := (foldParts leaves).2.2

abbrev rootProvenance (leaves : List (CoherenceEnvelope α)) : Provenance := (foldParts leaves).1

variable {ls : List (CoherenceEnvelope α)}

lemma exists_minByKey {κ : Type} (key : κ → ℕ) (f : CoherenceEnvelope α → κ) (hne : ls ≠ []) :
    ∃ k, minByKey key (ls.map f) = some k := by
  cases h : minByKey key (ls.map f) with
  | none => exact absurd (List.map_eq_nil_iff.mp (minByKey_eq_none.mp h)) hne
  | some k => exact ⟨k, rfl⟩

lemma le_rootFreshness (hne : ls ≠ []) (n : ℕ) :
    n ≤ freshnessRank (rootFreshness ls) ↔ ∀ l ∈ ls, n ≤ freshnessRank l.freshness := by
  obtain ⟨f, hf⟩ := exists_minByKey freshnessRank CoherenceEnvelope.freshness hne
  have hroot : rootFreshness ls = f := by simp [rootFreshness, foldParts, meetFreshness, hf]
  rw [hroot, le_key_minByKey hf, List.forall_mem_map]

lemma le_ceilingRank (hne : ls ≠ []) (n : ℕ) :
    n ≤ ceilingRank (rootFreshness ls) ↔ ∀ l ∈ ls, n ≤ ceilingRank l.freshness := by
  obtain ⟨f, hf⟩ := exists_minByKey freshnessRank CoherenceEnvelope.freshness hne
  have hroot : rootFreshness ls = f := by simp [rootFreshness, foldParts, meetFreshness, hf]
  obtain ⟨hmem, hle⟩ := minByKey_spec hf
  obtain ⟨l, hl, rfl⟩ := List.mem_map.mp hmem
  rw [hroot]
  constructor
  · intro hn l' hl'
    exact hn.trans (ceilingRank_mono (hle _ (List.mem_map_of_mem hl')))
  · intro h
    exact h l hl

lemma le_rootClass (hne : ls ≠ []) (n : ℕ) :
    n ≤ classRank (rootTrust ls).answerClass ↔ ∀ l ∈ ls, n ≤ l.effectiveRank := by
  obtain ⟨c, hc⟩ := exists_minByKey classRank (fun l : CoherenceEnvelope α => l.trust.answerClass) hne
  have hroot : (rootTrust ls).answerClass = capClass c (rootFreshness ls) := by
    simp [rootTrust, rootFreshness, foldParts, capPosture, meetTrust, hne, Function.comp_def, hc]
  rw [hroot, classRank_capClass, le_min_iff, le_key_minByKey hc, List.forall_mem_map, le_ceilingRank hne]
  simp only [CoherenceEnvelope.effectiveRank, le_min_iff]
  exact ⟨fun h l hl => ⟨h.1 l hl, h.2 l hl⟩, fun h => ⟨fun l hl => (h l hl).1, fun l hl => (h l hl).2⟩⟩

lemma rootCompleteness (hne : ls ≠ []) :
    ∃ q, (∀ n, n ≤ completenessRank q ↔ ∀ l ∈ ls, n ≤ completenessRank l.trust.completeness) ∧
      (rootTrust ls).completeness = capCompleteness (rootTrust ls).answerClass q := by
  obtain ⟨q, hq⟩ := exists_minByKey completenessRank (fun l : CoherenceEnvelope α => l.trust.completeness) hne
  refine ⟨q, ?_, ?_⟩
  · intro n
    rw [le_key_minByKey hq, List.forall_mem_map]
  · simp [rootTrust, foldParts, capPosture, meetTrust, hne, Function.comp_def, hq]

lemma rootClass_eq_exact (hne : ls ≠ []) :
    (rootTrust ls).answerClass = .exact ↔ ∀ l ∈ ls, l.ExactFresh := by
  have hrank : (rootTrust ls).answerClass = .exact ↔ 3 ≤ classRank (rootTrust ls).answerClass := by
    cases (rootTrust ls).answerClass <;> decide
  rw [hrank, le_rootClass hne]
  simp only [CoherenceEnvelope.three_le_effectiveRank]

lemma rootClass_eq_unavailable (hne : ls ≠ []) :
    (rootTrust ls).answerClass = .unavailable ↔ ∃ l ∈ ls, l.Unavailable := by
  have hrank : (rootTrust ls).answerClass = .unavailable ↔ ¬ 1 ≤ classRank (rootTrust ls).answerClass := by
    cases (rootTrust ls).answerClass <;> decide
  rw [hrank, le_rootClass hne]
  simp only [CoherenceEnvelope.one_le_effectiveRank]
  push Not
  rfl

section Unions

lemma unionProvenance_spec (ps : List Provenance) :
    (∀ s, s ∈ (unionProvenance ps).source ↔ ∃ p ∈ ps, s ∈ p.source) ∧
      (unionProvenance ps).basis = nubOnto [] (ps.flatMap Provenance.basis) ∧
      (unionProvenance ps).missingPartitions =
        sortBy compare (nubOnto [] (ps.flatMap Provenance.missingPartitions)) ∧
      (unionProvenance ps).fallbackReason = ps.findSome? Provenance.fallbackReason := by
  have hfold : ∀ (ps : List Provenance) (acc : Provenance),
      (∀ s, s ∈ (ps.foldl addProvenance acc).source ↔ s ∈ acc.source ∨ ∃ p ∈ ps, s ∈ p.source) ∧
        (ps.foldl addProvenance acc).basis = nubOnto acc.basis (ps.flatMap Provenance.basis) ∧
        (ps.foldl addProvenance acc).missingPartitions =
          nubOnto acc.missingPartitions (ps.flatMap Provenance.missingPartitions) ∧
        (ps.foldl addProvenance acc).fallbackReason =
          acc.fallbackReason.or (ps.findSome? Provenance.fallbackReason) := by
    intro ps
    induction ps with
    | nil => simp
    | cons p ps ih =>
      intro acc
      obtain ⟨hsource, hbasis, hmissing, hfallback⟩ := ih (addProvenance acc p)
      simp only [List.foldl_cons, List.flatMap_cons, nubOnto_append]
      refine ⟨?_, hbasis, hmissing, ?_⟩
      · intro s
        rw [hsource]
        simp only [addProvenance, Finset.mem_union, List.mem_cons, exists_eq_or_imp, or_assoc]
      · rw [hfallback, addProvenance, List.findSome?_cons, Option.or_assoc]
        cases p.fallbackReason <;> rfl
  obtain ⟨hsource, hbasis, hmissing, hfallback⟩ := hfold ps ⟨∅, [], [], none⟩
  refine ⟨?_, hbasis, ?_, ?_⟩
  · intro s
    simpa [unionProvenance] using hsource s
  · rw [unionProvenance, hmissing]
  · simpa [unionProvenance] using hfallback

lemma mem_rootReasons (ls : List (CoherenceEnvelope α)) :
    (rootTrust ls).degradationReasons = DegradationReason.all.filter
      (fun r => ∃ l ∈ ls, r ∈ l.trust.degradationReasons) := by
  cases ls with
  | nil => simp [rootTrust, foldParts, capPosture, meetTrust]
  | cons l ls => simp [rootTrust, foldParts, capPosture, meetTrust]

lemma mem_rootLanguages (ls : List (CoherenceEnvelope α)) (lang : LanguageSupport) :
    lang ∈ (rootTrust ls).contributingLanguages ↔ ∃ l ∈ ls, lang ∈ l.trust.contributingLanguages := by
  have hfold : ∀ (ps : List TrustPosture) (acc : Finset LanguageSupport),
      lang ∈ ps.foldl (fun acc p => acc ∪ p.contributingLanguages) acc ↔
        lang ∈ acc ∨ ∃ p ∈ ps, lang ∈ p.contributingLanguages := by
    intro ps
    induction ps with
    | nil => simp
    | cons p ps ih =>
      intro acc
      rw [List.foldl_cons, ih]
      simp only [Finset.mem_union, List.mem_cons, exists_eq_or_imp, or_assoc]
  cases ls with
  | nil => simp [rootTrust, foldParts, capPosture, meetTrust]
  | cons l ls =>
    have hroot : (rootTrust (l :: ls)).contributingLanguages =
        ((l :: ls).map CoherenceEnvelope.trust).foldl (fun acc p => acc ∪ p.contributingLanguages) ∅ := rfl
    rw [hroot, hfold]
    simp

end Unions

/-- Equal up to the order of the basis list and the choice of the fallback reason. -/
structure SameParts (a b : Provenance × TrustPosture × FreshnessState) : Prop where
  trust : a.2.1 = b.2.1
  freshness : a.2.2 = b.2.2
  source : a.1.source = b.1.source
  basis : a.1.basis.Perm b.1.basis
  missing : a.1.missingPartitions = b.1.missingPartitions

structure FoldLaw (value : β) (groups : List (List (CoherenceEnvelope α))) : Prop where
  classAtMost : ∀ l ∈ groups.flatten,
    classRank (rootTrust groups.flatten).answerClass ≤ classRank l.trust.answerClass
  completenessAtMost : ∀ l ∈ groups.flatten,
    completenessRank (rootTrust groups.flatten).completeness ≤ completenessRank l.trust.completeness
  freshnessAtMost : ∀ l ∈ groups.flatten,
    freshnessRank (rootFreshness groups.flatten) ≤ freshnessRank l.freshness
  sources : ∀ l ∈ groups.flatten, l.provenance.source ⊆ (rootProvenance groups.flatten).source
  exact : (rootTrust groups.flatten).answerClass = .exact → ∀ l ∈ groups.flatten, l.trust.answerClass = .exact
  unordered : ∀ ls, ls.Perm groups.flatten → SameParts (foldParts ls) (foldParts groups.flatten)
  grouped : foldParts (groups.map (foldRoot value)) = foldParts groups.flatten

structure CapLowers (posture : TrustPosture) (freshness : FreshnessState) : Prop where
  answerClass : classRank (capPosture posture freshness).answerClass ≤ classRank posture.answerClass
  completeness : completenessRank (capPosture posture freshness).completeness ≤
    completenessRank posture.completeness
  reasons : (capPosture posture freshness).degradationReasons = posture.degradationReasons
  languages : (capPosture posture freshness).contributingLanguages = posture.contributingLanguages

def UnknownShown (groups : List (List (CoherenceEnvelope α))) : Prop :=
  ∃ g ∈ groups, (∃ l ∈ g, l.trust.completeness = .unknown) ∧ ∃ l ∈ g, ¬ l.ExactFresh

/-- The condition on the leaves and their groups: no group is empty, unless the leaves are unavailable
anyway; leaves that make an exact root are complete; and unknown leaves of a root that
is neither exact nor unavailable are shown by a group. -/
structure FoldSafe (groups : List (List (CoherenceEnvelope α))) : Prop where
  inhabited : [] ∈ groups → groups.flatten = [] ∨ ∃ l ∈ groups.flatten, l.freshness = .unavailable
  complete : (∀ l ∈ groups.flatten, l.ExactFresh) → ∀ l ∈ groups.flatten, l.trust.completeness = .complete
  uncovered : (∃ l ∈ groups.flatten, l.trust.completeness = .unknown) →
    (∃ l ∈ groups.flatten, ¬ l.ExactFresh) → (∃ l ∈ groups.flatten, l.Unavailable) ∨ UnknownShown groups

lemma rootClass_congr {ls' : List (CoherenceEnvelope β)} (hne : ls ≠ []) (hne' : ls' ≠ [])
    (h : ∀ n, (∀ l ∈ ls, n ≤ l.effectiveRank) ↔ ∀ l ∈ ls', n ≤ l.effectiveRank) :
    (rootTrust ls).answerClass = (rootTrust ls').answerClass := by
  apply classRank_injective
  apply eq_of_forall_le_iff
  intro n
  rw [le_rootClass hne, le_rootClass hne', h]

lemma rootFreshness_congr {ls' : List (CoherenceEnvelope β)} (hne : ls ≠ []) (hne' : ls' ≠ [])
    (h : ∀ n, (∀ l ∈ ls, n ≤ freshnessRank l.freshness) ↔ ∀ l ∈ ls', n ≤ freshnessRank l.freshness) :
    rootFreshness ls = rootFreshness ls' := by
  apply freshnessRank_injective
  apply eq_of_forall_le_iff
  intro n
  rw [le_rootFreshness hne, le_rootFreshness hne', h]

lemma foldParts_perm {ls' : List (CoherenceEnvelope α)} (h : ls'.Perm ls) :
    SameParts (foldParts ls') (foldParts ls) := by
  have hall : ∀ P : CoherenceEnvelope α → Prop, (∀ l ∈ ls', P l) ↔ ∀ l ∈ ls, P l := by
    intro P
    simp only [h.mem_iff]
  have hprov : ∀ {γ : Type} (f : Provenance → List γ) (a : γ),
      a ∈ (ls'.map CoherenceEnvelope.provenance).flatMap f ↔
        a ∈ (ls.map CoherenceEnvelope.provenance).flatMap f := by
    intro γ f a
    simp only [List.mem_flatMap, List.mem_map, h.mem_iff]
  obtain ⟨hsource, hbasis, hmissing, -⟩ := unionProvenance_spec (ls.map CoherenceEnvelope.provenance)
  obtain ⟨hsource', hbasis', hmissing', -⟩ := unionProvenance_spec (ls'.map CoherenceEnvelope.provenance)
  by_cases hne : ls = []
  · subst hne
    rw [h.eq_nil]
    exact ⟨rfl, rfl, rfl, .refl _, rfl⟩
  have hne' : ls' ≠ [] := fun he => hne (by simpa [he] using h)
  have hclass : (rootTrust ls').answerClass = (rootTrust ls).answerClass :=
    rootClass_congr hne' hne (fun n => hall _)
  refine ⟨TrustPosture.ext hclass ?_ ?_ ?_, rootFreshness_congr hne' hne (fun n => hall _), ?_, ?_, ?_⟩
  · obtain ⟨q, hq, hroot⟩ := rootCompleteness hne
    obtain ⟨q', hq', hroot'⟩ := rootCompleteness hne'
    have heq : q' = q := by
      apply completenessRank_injective
      apply eq_of_forall_le_iff
      intro n
      rw [hq', hq, hall]
    rw [hroot, hroot', hclass, heq]
  · rw [mem_rootReasons, mem_rootReasons]
    simp only [h.mem_iff]
  · ext lang
    rw [mem_rootLanguages, mem_rootLanguages]
    simp only [h.mem_iff]
  · ext s
    rw [foldParts, foldParts, hsource, hsource']
    simp only [List.mem_map, h.mem_iff]
  · rw [foldParts, foldParts, hbasis, hbasis']
    exact nubOnto_perm (hprov _)
  · rw [foldParts, foldParts, hmissing, hmissing']
    exact sortBy_compare_eq (nubOnto_perm (hprov _))

section Groups

variable {groups : List (List (CoherenceEnvelope α))} (value : β)

lemma le_effectiveRank_foldRoot {g : List (CoherenceEnvelope α)} (hne : g ≠ []) (n : ℕ) :
    n ≤ (foldRoot value g).effectiveRank ↔ ∀ l ∈ g, n ≤ l.effectiveRank := by
  have heff : (foldRoot value g).effectiveRank =
      min (classRank (rootTrust g).answerClass) (ceilingRank (rootFreshness g)) := rfl
  rw [heff, le_min_iff, le_rootClass hne, le_ceilingRank hne]
  refine ⟨fun h => h.1, fun h => ⟨h, fun l hl => ?_⟩⟩
  exact (h l hl).trans (min_le_right _ _)

lemma forall_groups {P : CoherenceEnvelope α → Prop} {Q : CoherenceEnvelope β → Prop}
    (h : ∀ g ∈ groups, Q (foldRoot value g) ↔ ∀ l ∈ g, P l) :
    (∀ r ∈ groups.map (foldRoot value), Q r) ↔ ∀ l ∈ groups.flatten, P l := by
  rw [List.forall_mem_map]
  simp only [List.mem_flatten]
  constructor
  · rintro hq l ⟨g, hg, hl⟩
    exact (h g hg).mp (hq g hg) l hl
  · intro hp g hg
    exact (h g hg).mpr fun l hl => hp l ⟨g, hg, hl⟩

lemma unionProvenance_groups {ι : Type} (groups : List ι) (provs : ι → List Provenance) :
    unionProvenance (groups.map (fun g => unionProvenance (provs g))) =
      unionProvenance (groups.flatMap provs) := by
  obtain ⟨hsource, hbasis, hmissing, hfallback⟩ := unionProvenance_spec (groups.flatMap provs)
  obtain ⟨hsource', hbasis', hmissing', hfallback'⟩ :=
    unionProvenance_spec (groups.map (fun g => unionProvenance (provs g)))
  have hgroup := fun g => unionProvenance_spec (provs g)
  apply Provenance.ext
  · ext s
    rw [hsource, hsource']
    simp only [List.mem_map, List.mem_flatMap, exists_exists_and_eq_and]
    constructor
    · rintro ⟨g, hg, hs⟩
      obtain ⟨p, hp, hs⟩ := ((hgroup g).1 s).mp hs
      exact ⟨p, ⟨g, hg, hp⟩, hs⟩
    · rintro ⟨p, ⟨g, hg, hp⟩, hs⟩
      exact ⟨g, hg, ((hgroup g).1 s).mpr ⟨p, hp, hs⟩⟩
  · rw [hbasis, hbasis', List.flatMap_map, List.flatMap_assoc]
    simp only [(hgroup _).2.1]
    exact nubOnto_flatMap groups _ []
  · rw [hmissing, hmissing']
    apply sortBy_compare_eq
    apply nubOnto_perm
    intro m
    simp only [List.flatMap_map, List.flatMap_assoc, List.mem_flatMap (l := groups), (hgroup _).2.2.1,
      (sortBy_perm _ _).mem_iff, mem_nubOnto, List.not_mem_nil, false_or]
  · have hfind : ∀ gs : List ι, gs.findSome? (fun g => (provs g).findSome? Provenance.fallbackReason) =
        (gs.flatMap provs).findSome? Provenance.fallbackReason := by
      intro gs
      induction gs with
      | nil => rfl
      | cons g gs ih =>
        rw [List.findSome?_cons, List.flatMap_cons, List.findSome?_append, ih]
        cases (provs g).findSome? Provenance.fallbackReason <;> rfl
    rw [hfallback, hfallback', List.findSome?_map, ← hfind]
    congr 1
    funext g
    exact (hgroup g).2.2.2

lemma grouped_provenance (groups : List (List (CoherenceEnvelope α))) :
    rootProvenance (groups.map (foldRoot value)) = rootProvenance groups.flatten := by
  have hroots : (groups.map (foldRoot value)).map CoherenceEnvelope.provenance =
      groups.map (fun g => unionProvenance (g.map CoherenceEnvelope.provenance)) := by
    rw [List.map_map]
    rfl
  have hleaves : groups.flatten.map CoherenceEnvelope.provenance =
      groups.flatMap (fun g => g.map CoherenceEnvelope.provenance) := by
    rw [List.map_flatten, List.flatMap_def]
  rw [rootProvenance, rootProvenance, foldParts, foldParts, hroots, hleaves]
  exact unionProvenance_groups groups _

lemma exists_groups {P : CoherenceEnvelope α → Prop} {Q : CoherenceEnvelope β → Prop}
    (h : ∀ g, Q (foldRoot value g) ↔ ∃ l ∈ g, P l) :
    (∃ r ∈ groups.map (foldRoot value), Q r) ↔ ∃ l ∈ groups.flatten, P l := by
  simp only [List.mem_map, exists_exists_and_eq_and, h, List.mem_flatten]
  constructor
  · rintro ⟨g, hg, l, hl, hp⟩
    exact ⟨l, ⟨g, hg, hl⟩, hp⟩
  · rintro ⟨l, ⟨g, hg, hl⟩, hp⟩
    exact ⟨g, hg, l, hl, hp⟩

lemma grouped_reasons (groups : List (List (CoherenceEnvelope α))) :
    (rootTrust (groups.map (foldRoot value))).degradationReasons =
      (rootTrust groups.flatten).degradationReasons := by
  rw [mem_rootReasons, mem_rootReasons]
  apply List.filter_congr
  intro r _
  rw [decide_eq_decide]
  refine exists_groups value fun g => ?_
  have htrust : (foldRoot value g).trust = rootTrust g := rfl
  rw [htrust, mem_rootReasons, List.mem_filter]
  simp [DegradationReason.mem_all]

lemma grouped_languages (groups : List (List (CoherenceEnvelope α))) :
    (rootTrust (groups.map (foldRoot value))).contributingLanguages =
      (rootTrust groups.flatten).contributingLanguages := by
  ext lang
  rw [mem_rootLanguages, mem_rootLanguages]
  exact exists_groups value fun g => mem_rootLanguages g lang

lemma grouped_iff (groups : List (List (CoherenceEnvelope α))) :
    foldParts (groups.map (foldRoot value)) = foldParts groups.flatten ↔
      (rootTrust (groups.map (foldRoot value))).answerClass = (rootTrust groups.flatten).answerClass ∧
        (rootTrust (groups.map (foldRoot value))).completeness = (rootTrust groups.flatten).completeness ∧
        rootFreshness (groups.map (foldRoot value)) = rootFreshness groups.flatten := by
  constructor
  · intro h
    exact ⟨congrArg (fun p => p.2.1.answerClass) h, congrArg (fun p => p.2.1.completeness) h,
      congrArg (fun p => p.2.2) h⟩
  · rintro ⟨hclass, hcompleteness, hfreshness⟩
    have htrust := TrustPosture.ext hclass hcompleteness (grouped_reasons value groups)
      (grouped_languages value groups)
    exact Prod.ext (grouped_provenance value groups) (Prod.ext htrust hfreshness)

section Inhabited

variable (hgroups : [] ∉ groups) (hne : groups.flatten ≠ [])

include hgroups hne

omit hgroups in
lemma groups_ne_nil : groups.map (foldRoot value) ≠ [] := by
  intro h
  simp [List.map_eq_nil_iff.mp h] at hne

lemma grouped_class :
    (rootTrust (groups.map (foldRoot value))).answerClass = (rootTrust groups.flatten).answerClass := by
  refine rootClass_congr (groups_ne_nil value hne) hne fun n => forall_groups value fun g hg => ?_
  exact le_effectiveRank_foldRoot value (fun h => hgroups (h ▸ hg)) n

lemma grouped_freshness : rootFreshness (groups.map (foldRoot value)) = rootFreshness groups.flatten := by
  refine rootFreshness_congr (groups_ne_nil value hne) hne fun n => forall_groups value fun g hg => ?_
  exact le_rootFreshness (fun h => hgroups (h ▸ hg)) n

omit hgroups hne in
lemma rootCompleteness_eq_unknown {g : List (CoherenceEnvelope α)} (hg : g ≠ []) :
    (rootTrust g).completeness = .unknown ↔ (∃ l ∈ g, l.Unavailable) ∨
      (∃ l ∈ g, l.trust.completeness = .unknown) ∧ ∃ l ∈ g, ¬ l.ExactFresh := by
  obtain ⟨q, hq, hroot⟩ := rootCompleteness hg
  have hunknown : q = .unknown ↔ ∃ l ∈ g, l.trust.completeness = .unknown := by
    have hrank : ∀ q, q ≠ .unknown ↔ 1 ≤ completenessRank q := by
      intro q
      cases q <;> decide
    rw [← not_iff_not, ← Ne, hrank, hq]
    simp only [← hrank, not_exists, not_and, Ne]
  have hexact := rootClass_eq_exact hg
  have hunavailable := rootClass_eq_unavailable hg
  have hcap : ∀ c, capCompleteness c q = .unknown ↔ c = .unavailable ∨ q = .unknown ∧ c ≠ .exact := by
    intro c
    cases c <;> cases q <;> decide
  rw [hroot, hcap, hunavailable, hunknown, Ne, hexact]
  push Not
  rfl

omit hgroups hne in
lemma foldRoot_unavailable {g : List (CoherenceEnvelope α)} (hg : g ≠ []) :
    (foldRoot value g).Unavailable ↔ ∃ l ∈ g, l.Unavailable := by
  rw [← not_iff_not, ← CoherenceEnvelope.one_le_effectiveRank, le_effectiveRank_foldRoot value hg]
  simp only [CoherenceEnvelope.one_le_effectiveRank]
  push Not
  rfl

omit hgroups hne in
lemma foldRoot_exactFresh {g : List (CoherenceEnvelope α)} (hg : g ≠ []) :
    (foldRoot value g).ExactFresh ↔ ∀ l ∈ g, l.ExactFresh := by
  rw [← CoherenceEnvelope.three_le_effectiveRank, le_effectiveRank_foldRoot value hg]
  simp only [CoherenceEnvelope.three_le_effectiveRank]

lemma grouped_unknown_iff : (rootTrust (groups.map (foldRoot value))).completeness = .unknown ↔
    (∃ l ∈ groups.flatten, l.Unavailable) ∨ UnknownShown groups := by
  have hg : ∀ g ∈ groups, g ≠ [] := fun g hg h => hgroups (h ▸ hg)
  rw [rootCompleteness_eq_unknown (groups_ne_nil value hne)]
  simp only [List.mem_map, exists_exists_and_eq_and, List.mem_flatten, UnknownShown]
  constructor
  · rintro (⟨g, hmem, hun⟩ | ⟨⟨g, hmem, hunknown⟩, -⟩)
    · obtain ⟨l, hl, hun⟩ := (foldRoot_unavailable value (hg g hmem)).mp hun
      exact Or.inl ⟨l, ⟨g, hmem, hl⟩, hun⟩
    · rcases (rootCompleteness_eq_unknown (hg g hmem)).mp hunknown with ⟨l, hl, hun⟩ | hshown
      · exact Or.inl ⟨l, ⟨g, hmem, hl⟩, hun⟩
      · exact Or.inr ⟨g, hmem, hshown⟩
  · rintro (⟨l, ⟨g, hmem, hl⟩, hun⟩ | ⟨g, hmem, hshown⟩)
    · exact Or.inl ⟨g, hmem, (foldRoot_unavailable value (hg g hmem)).mpr ⟨l, hl, hun⟩⟩
    · refine Or.inr ⟨⟨g, hmem, (rootCompleteness_eq_unknown (hg g hmem)).mpr (Or.inr hshown)⟩, g, hmem, ?_⟩
      rw [foldRoot_exactFresh value (hg g hmem)]
      push Not
      exact hshown.2

/-- The two completenesses of a root that is neither exact nor unavailable are told apart by an unknown
leaf that only exact groups hold. -/
lemma grouped_completeness_iff :
    (rootTrust (groups.map (foldRoot value))).completeness = (rootTrust groups.flatten).completeness ↔
      ((∃ l ∈ groups.flatten, l.trust.completeness = .unknown) →
        (∃ l ∈ groups.flatten, ¬ l.ExactFresh) → (∃ l ∈ groups.flatten, l.Unavailable) ∨ UnknownShown groups) := by
  have hclass := grouped_class value hgroups hne
  have hunknown := grouped_unknown_iff value hgroups hne
  have hflat := rootCompleteness_eq_unknown hne
  obtain ⟨q, -, hq⟩ := rootCompleteness hne
  obtain ⟨q', -, hq'⟩ := rootCompleteness (groups_ne_nil value hne)
  by_cases hexact : ∀ l ∈ groups.flatten, l.ExactFresh
  · have hc := (rootClass_eq_exact hne).mpr hexact
    rw [hq', hq, hclass, hc]
    refine iff_of_true rfl ?_
    rintro - ⟨l, hl, hnot⟩
    exact absurd (hexact l hl) hnot
  · have hsome : ∃ l ∈ groups.flatten, ¬ l.ExactFresh := by
      push Not at hexact
      exact hexact
    have hc : (rootTrust groups.flatten).answerClass ≠ .exact := fun h => hexact ((rootClass_eq_exact hne).mp h)
    have hcap : ∀ (c : AnswerClass) (q q' : QueryCompleteness), c ≠ .exact →
        (capCompleteness c q' = capCompleteness c q ↔
          (capCompleteness c q' = .unknown ↔ capCompleteness c q = .unknown)) := by
      intro c q q'
      cases c <;> cases q <;> cases q' <;> decide
    have hshown : UnknownShown groups → ∃ l ∈ groups.flatten, l.trust.completeness = .unknown := by
      rintro ⟨g, hg, ⟨l, hl, hu⟩, -⟩
      exact ⟨l, List.mem_flatten.mpr ⟨g, hg, hl⟩, hu⟩
    rw [hq', hclass, hq, hcap _ q q' hc, ← hq, ← hclass, ← hq', hunknown, hflat]
    simp only [hsome, and_true, forall_const]
    constructor
    · intro h hu
      exact h.mpr (Or.inr hu)
    · intro h
      constructor
      · rintro (hun | hs)
        · exact Or.inl hun
        · exact Or.inr (hshown hs)
      · rintro (hun | hu)
        · exact Or.inl hun
        · exact h hu

end Inhabited

lemma root_bottom (ls : List (CoherenceEnvelope α)) (h : ∃ l ∈ ls, l.freshness = .unavailable) :
    (rootTrust ls).answerClass = .unavailable ∧ (rootTrust ls).completeness = .unknown ∧
      rootFreshness ls = .unavailable := by
  obtain ⟨l, hl, hf⟩ := h
  have hne : ls ≠ [] := List.ne_nil_of_mem hl
  refine ⟨(rootClass_eq_unavailable hne).mpr ⟨l, hl, Or.inr hf⟩,
    (rootCompleteness_eq_unknown hne).mpr (Or.inl ⟨l, hl, Or.inr hf⟩), ?_⟩
  apply freshnessRank_injective
  have hle := (le_rootFreshness hne _).mp le_rfl l hl
  rw [hf] at hle
  exact Nat.le_zero.mp hle

lemma exists_unavailable_of_rootFreshness {ls : List (CoherenceEnvelope α)} (hne : ls ≠ [])
    (h : rootFreshness ls = .unavailable) : ∃ l ∈ ls, l.freshness = .unavailable := by
  by_contra hnone
  push Not at hnone
  have hle : 1 ≤ freshnessRank (rootFreshness ls) := by
    rw [le_rootFreshness hne]
    intro l hl
    have hf := hnone l hl
    revert hf
    cases l.freshness <;> decide
  rw [h] at hle
  exact absurd hle (by decide)

lemma grouped_of_safe (h : FoldSafe groups) :
    foldParts (groups.map (foldRoot value)) = foldParts groups.flatten := by
  rw [grouped_iff]
  by_cases hempty : [] ∈ groups
  · have hroots := root_bottom (groups.map (foldRoot value))
      ⟨foldRoot value [], List.mem_map_of_mem hempty, rfl⟩
    rcases h.inhabited hempty with hnil | hleaf
    · rw [hnil]
      exact hroots
    · obtain ⟨hclass, hcompleteness, hfreshness⟩ := root_bottom _ hleaf
      exact ⟨hroots.1.trans hclass.symm, hroots.2.1.trans hcompleteness.symm, hroots.2.2.trans hfreshness.symm⟩
  · by_cases hne : groups.flatten = []
    · have hnil : groups = [] := by
        cases groups with
        | nil => rfl
        | cons g groups =>
          have hg : g = [] := (List.append_eq_nil_iff.mp hne).1
          exact absurd (by simp [hg]) hempty
      rw [hnil]
      exact ⟨rfl, rfl, rfl⟩
    · exact ⟨grouped_class value hempty hne, (grouped_completeness_iff value hempty hne).mpr h.uncovered,
        grouped_freshness value hempty hne⟩

lemma completeness_le_of_safe (h : FoldSafe groups) {l : CoherenceEnvelope α} (hl : l ∈ groups.flatten) :
    completenessRank (rootTrust groups.flatten).completeness ≤ completenessRank l.trust.completeness := by
  have hne : groups.flatten ≠ [] := List.ne_nil_of_mem hl
  by_cases hexact : ∀ l ∈ groups.flatten, l.ExactFresh
  · rw [h.complete hexact l hl]
    cases (rootTrust groups.flatten).completeness <;> decide
  · have hc : (rootTrust groups.flatten).answerClass ≠ .exact := fun he => hexact ((rootClass_eq_exact hne).mp he)
    obtain ⟨q, hq, hroot⟩ := rootCompleteness hne
    have hle := (hq _).mp le_rfl l hl
    rw [hroot, completenessRank_cap, if_neg hc]
    split
    · omega
    · omega

end Groups

lemma foldLaw_of_safe (value : β) {groups : List (List (CoherenceEnvelope α))} (h : FoldSafe groups) :
    FoldLaw value groups := by
  obtain ⟨hsource, -⟩ := unionProvenance_spec (groups.flatten.map CoherenceEnvelope.provenance)
  refine ⟨?_, fun l hl => completeness_le_of_safe h hl, ?_, ?_, ?_, fun ls hperm => foldParts_perm hperm,
    grouped_of_safe value h⟩
  · intro l hl
    exact ((le_rootClass (List.ne_nil_of_mem hl) _).mp le_rfl l hl).trans (min_le_left _ _)
  · intro l hl
    exact (le_rootFreshness (List.ne_nil_of_mem hl) _).mp le_rfl l hl
  · intro l hl s hs
    exact (hsource s).mpr ⟨l.provenance, List.mem_map_of_mem hl, hs⟩
  · intro hexact l hl
    exact ((rootClass_eq_exact (List.ne_nil_of_mem hl)).mp hexact l hl).1

lemma safe_of_foldLaw (value : β) {groups : List (List (CoherenceEnvelope α))} (h : FoldLaw value groups) :
    FoldSafe groups := by
  obtain ⟨-, hcompleteness, hfreshness⟩ := (grouped_iff value groups).mp h.grouped
  have hinhabited : [] ∈ groups → groups.flatten = [] ∨ ∃ l ∈ groups.flatten, l.freshness = .unavailable := by
    intro hempty
    by_cases hne : groups.flatten = []
    · exact Or.inl hne
    · have hroots := root_bottom (groups.map (foldRoot value))
        ⟨foldRoot value [], List.mem_map_of_mem hempty, rfl⟩
      exact Or.inr (exists_unavailable_of_rootFreshness hne (hfreshness.symm.trans hroots.2.2))
  refine ⟨hinhabited, ?_, ?_⟩
  · intro hexact l hl
    have hne : groups.flatten ≠ [] := List.ne_nil_of_mem hl
    obtain ⟨q, -, hroot⟩ := rootCompleteness hne
    have hle := h.completenessAtMost l hl
    rw [hroot, completenessRank_cap, if_pos ((rootClass_eq_exact hne).mpr hexact)] at hle
    revert hle
    cases l.trust.completeness <;> decide
  · intro hunknown hsome
    by_cases hempty : [] ∈ groups
    · rcases hinhabited hempty with hnil | ⟨l, hl, hf⟩
      · obtain ⟨l, hl, -⟩ := hunknown
        simp [hnil] at hl
      · exact Or.inl ⟨l, hl, Or.inr hf⟩
    · have hne : groups.flatten ≠ [] := by
        obtain ⟨l, hl, -⟩ := hunknown
        exact List.ne_nil_of_mem hl
      exact (grouped_completeness_iff value hempty hne).mp hcompleteness hunknown hsome

lemma capLowers_iff (posture : TrustPosture) (freshness : FreshnessState) : CapLowers posture freshness ↔
    (posture.answerClass = .exact → freshness = .fresh → posture.completeness = .complete) := by
  have haxes : ∀ (c : AnswerClass) (q : QueryCompleteness) (f : FreshnessState),
      classRank (capClass c f) ≤ classRank c ∧
        (completenessRank (capCompleteness (capClass c f) q) ≤ completenessRank q ↔
          (c = .exact → f = .fresh → q = .complete)) := by
    intro c q f
    cases c <;> cases f <;> cases q <;> decide
  obtain ⟨hclass, hcompleteness⟩ := haxes posture.answerClass posture.completeness freshness
  exact ⟨fun h => hcompleteness.mp h.completeness, fun h => ⟨hclass, hcompleteness.mpr h, rfl, rfl⟩⟩

/-- The fold obeys its laws on exactly the safe groupings, and capping lowers a posture unless it writes
`complete` over the completeness of a fresh exact one. -/
theorem fold_lawful_iff {α β : Type} (value : β) :
    (∀ groups : List (List (CoherenceEnvelope α)), FoldLaw value groups ↔ FoldSafe groups) ∧
      ∀ posture freshness, CapLowers posture freshness ↔
        (posture.answerClass = .exact → freshness = .fresh → posture.completeness = .complete) :=
  ⟨fun _ => ⟨safe_of_foldLaw value, foldLaw_of_safe value⟩, capLowers_iff⟩

def Fixture.exactDegraded : CoherenceEnvelope Unit := ⟨(), .sqlite, ⟨.exact, .degraded, [], ∅⟩, .fresh⟩

/-- One degraded leaf labelled exact folds to a root that is called complete. -/
theorem exact_degraded_raised : ¬ FoldLaw () [[Fixture.exactDegraded]] := by
  intro h
  have hle := h.completenessAtMost Fixture.exactDegraded (by simp)
  revert hle
  decide

inductive Built : CoherenceEnvelope α → Prop
  | livegraphLeaf {γ : Type} (value : α) (answer : AnswerEnvelope γ) : Built (.livegraphLeaf value answer)
  | sqliteFallbackLeaf (value : α) (reason : CoherenceFallbackReason) (stale : Bool) :
      Built (.sqliteFallbackLeaf value reason stale)
  | sqliteLeaf (value : α) (stale : Bool) : Built (.sqliteLeaf value stale)
  | declarationLeaf (value : α) (stale : Bool) : Built (.declarationLeaf value stale)
  | filesystemLeaf (value : α) : Built (.filesystemLeaf value)
  | resolutionOnly (value : α) : Built (.resolutionOnly value)
  | foldRoot {γ : Type} (value : α) (leaves : List (CoherenceEnvelope γ)) : Built (foldRoot value leaves)

lemma Built.complete {l : CoherenceEnvelope α} (h : Built l) (hexact : l.trust.answerClass = .exact) :
    l.trust.completeness = .complete := by
  cases h with
  | livegraphLeaf value answer =>
    have hj := answer.justified
    have hclass : answer.answerClass = .exact := hexact
    rw [hclass] at hj
    exact hj.2.1
  | sqliteFallbackLeaf value reason stale | sqliteLeaf value stale | declarationLeaf value stale =>
    cases stale
    · rfl
    · cases hexact
  | filesystemLeaf value => rfl
  | resolutionOnly value => cases hexact
  | foldRoot value leaves =>
    change (rootTrust leaves).answerClass = .exact at hexact
    change (rootTrust leaves).completeness = .complete
    by_cases hne : leaves = []
    · subst hne
      cases hexact
    · obtain ⟨q, -, hroot⟩ := rootCompleteness hne
      rw [hroot, hexact]
      rfl

/-- What the constructors build folds lawfully, however it is grouped. -/
theorem built_leaves_lawful (value : β) {groups : List (List (CoherenceEnvelope α))} (hgroups : [] ∉ groups)
    (hbuilt : ∀ l ∈ groups.flatten, Built l) : FoldLaw value groups := by
  refine foldLaw_of_safe value ⟨fun h => absurd h hgroups, fun hexact l hl =>
    (hbuilt l hl).complete (hexact l hl).1, ?_⟩
  rintro ⟨l, hl, hunknown⟩ -
  obtain ⟨g, hg, hlg⟩ := List.mem_flatten.mp hl
  refine Or.inr ⟨g, hg, ⟨l, hlg, hunknown⟩, l, hlg, ?_⟩
  intro hexact
  have hcomplete := (hbuilt l hl).complete hexact.1
  rw [hunknown] at hcomplete
  cases hcomplete

end RepoGraph.Coherence
