import RepoGraph.Classification.BoundaryMatcher

/-! Which providers and consumers are paired: those of one method and path, or of one command, and for a consumer
with none of them those that its path or its command without the binary finds. -/

namespace RepoGraph.Classification

open Lib Lib.Text Indexer

section Index

variable {key : MatchableProviderFact → String} {providers : List MatchableProviderFact} {k : String}
  {basis : BoundaryMatchBasis} {c : MatchableConsumerFact} {otherwise : List BoundaryLinkCandidate}
  {l : BoundaryLinkCandidate}

lemma foldl_append_singleton {α : Type}
    (front l : List α) : l.foldl (fun out a => out ++ [a]) front = front ++ l := by
  induction l generalizing front with
  | nil => simp
  | cons a l ih => rw [List.foldl_cons, ih, List.append_assoc, List.singleton_append]

lemma getElem?_indexBy (key : MatchableProviderFact → String)
    (providers : List MatchableProviderFact) (k : String) :
    (indexBy key providers)[k]? =
      if providers.filter (key · = k) = [] then none else some (providers.filter (key · = k)) := by
  rw [indexBy, getElem?_foldl_group key (fun found p => found ++ [p]) []]
  simp only [Std.ExtTreeMap.getElem?_empty, Option.getD_none, foldl_append_singleton, List.nil_append]

lemma linksUnder_eq : linksUnder (indexBy key providers) k basis c otherwise =
    if providers.filter (key · = k) =
      [] then otherwise else (providers.filter (key · = k)).map (link c basis) := by
  rw [linksUnder, getElem?_indexBy]
  by_cases hnone : providers.filter (key · = k) = []
  · rw [if_pos hnone, if_pos hnone]
  · rw [if_neg hnone, if_neg hnone]

lemma filter_key_eq_nil : providers.filter (key · = k) = [] ↔ ∀ p ∈ providers, key p ≠ k := by
  rw [List.filter_eq_nil_iff]
  simp only [decide_eq_true_eq, Ne]

lemma mem_linksUnder : l ∈ linksUnder (indexBy key providers) k basis c otherwise ↔
    (∃ p ∈ providers, key p = k ∧ l = link c basis p) ∨ (∀ p ∈ providers, key p ≠ k) ∧ l ∈ otherwise := by
  rw [linksUnder_eq]
  by_cases hnone : ∀ p ∈ providers, key p ≠ k
  · rw [if_pos (filter_key_eq_nil.mpr hnone)]
    constructor
    · intro hl
      exact .inr ⟨hnone, hl⟩
    · rintro (⟨p, hp, hkey, -⟩ | ⟨-, hl⟩)
      · exact absurd hkey (hnone p hp)
      · exact hl
  · rw [if_neg (filter_key_eq_nil.not.mpr hnone)]
    simp only [hnone, false_and, or_false, List.mem_map, List.mem_filter, decide_eq_true_eq, and_assoc]
    exact exists_congr fun p => and_congr_right fun _ => and_congr_right fun _ => eq_comm

lemma nodup_linksUnder (huids : (providers.map (·.factUid)).Nodup)
    (hother : (otherwise.map (·.providerFactUid)).Nodup) :
    ((linksUnder (indexBy key providers) k basis c otherwise).map (·.providerFactUid)).Nodup := by
  rw [linksUnder_eq]
  split
  · exact hother
  · rw [List.map_map]
    exact (List.filter_sublist.map _).nodup huids

lemma consumer_of_mem_linksUnder (hother : ∀ l ∈ otherwise, l.consumerFactUid = c.factUid)
    (hl : l ∈ linksUnder (indexBy key providers) k basis c otherwise) : l.consumerFactUid = c.factUid := by
  rcases mem_linksUnder.mp hl with ⟨p, -, -, rfl⟩ | ⟨-, hl⟩
  · rfl
  · exact hother l hl

end Index

section Stages

variable {key key' : MatchableProviderFact → String} {wanted wanted' : MatchableConsumerFact → String}
  {admits : MatchableConsumerFact → Prop} [DecidablePred admits] {basis : BoundaryMatchBasis}
  {providers : List MatchableProviderFact} {consumers : List MatchableConsumerFact} {l : BoundaryLinkCandidate}

def inStages (key key' : MatchableProviderFact → String) (wanted wanted' : MatchableConsumerFact → String)
    (admits : MatchableConsumerFact → Prop) [DecidablePred admits] (basis : BoundaryMatchBasis)
    (providers : List MatchableProviderFact) (consumers : List MatchableConsumerFact) :
    List BoundaryLinkCandidate :=
  consumers.flatMap fun c =>
    linksUnder (indexBy key providers) (wanted c) basis c
      (if admits c then linksUnder (indexBy key' providers) (wanted' c) .heuristic c [] else [])

lemma inStages_nil : inStages key key' wanted wanted' admits basis [] consumers = [] := by
  rw [inStages, List.flatMap_eq_nil_iff]
  intro c _
  rw [linksUnder_eq, linksUnder_eq]
  simp

lemma mem_inStages : l ∈ inStages key key' wanted wanted' admits basis providers consumers ↔ ∃ c ∈ consumers,
    (∃ p ∈ providers, key p = wanted c ∧ l = link c basis p) ∨
      (∀ q ∈ providers, key q ≠ wanted c) ∧ admits c ∧
        ∃ p ∈ providers, key' p = wanted' c ∧ l = link c .heuristic p := by
  rw [inStages, List.mem_flatMap]
  apply exists_congr
  intro c
  apply and_congr_right
  intro _
  rw [mem_linksUnder]
  by_cases hadmits : admits c
  · rw [if_pos hadmits, mem_linksUnder]
    simp only [List.not_mem_nil, and_false, or_false, hadmits, true_and]
  · rw [if_neg hadmits]
    simp only [List.not_mem_nil, and_false, hadmits, false_and]

lemma provider_of_mem_inStages (hl : l ∈ inStages key key' wanted wanted' admits basis providers consumers) :
    ∃ p ∈ providers, l.providerFactUid = p.factUid := by
  obtain ⟨c, -, ⟨p, hp, -, rfl⟩ | ⟨-, -, p, hp, -, rfl⟩⟩ := mem_inStages.mp hl
  · exact ⟨p, hp, rfl⟩
  · exact ⟨p, hp, rfl⟩

def ends (l : BoundaryLinkCandidate) : String × String := (l.providerFactUid, l.consumerFactUid)

lemma nodup_inStages (hp : (providers.map (·.factUid)).Nodup) (hc : (consumers.map (·.factUid)).Nodup) :
    ((inStages key key' wanted wanted' admits basis providers consumers).map ends).Nodup := by
  let links : MatchableConsumerFact → List BoundaryLinkCandidate := fun c =>
    linksUnder (indexBy key providers) (wanted c) basis c
      (if admits c then linksUnder (indexBy key' providers) (wanted' c) .heuristic c [] else [])
  have hconsumer : ∀ c, ∀ l ∈ links c, l.consumerFactUid = c.factUid := by
    intro c l hl
    refine consumer_of_mem_linksUnder ?_ hl
    intro l hl
    split at hl
    · exact consumer_of_mem_linksUnder (by simp) hl
    · simp at hl
  have hone : ∀ c, ((links c).map ends).Nodup := by
    intro c
    have hproviders : ((links c).map (·.providerFactUid)).Nodup := by
      apply nodup_linksUnder hp
      split
      · exact nodup_linksUnder hp List.nodup_nil
      · exact List.nodup_nil
    apply List.Nodup.of_map Prod.fst
    rw [List.map_map]
    exact hproviders
  change ((consumers.flatMap links).map ends).Nodup
  rw [List.map_flatMap, List.nodup_flatMap]
  refine ⟨fun c _ => hone c, ?_⟩
  refine (List.pairwise_map.mp hc).imp ?_
  intro c c' hne pair hin hin'
  obtain ⟨l, hl, rfl⟩ := List.mem_map.mp hin
  obtain ⟨l', hl', hends⟩ := List.mem_map.mp hin'
  apply hne
  rw [← hconsumer c l hl, ← hconsumer c' l' hl']
  exact (congrArg Prod.snd hends).symm

end Stages

section Pairs

variable {upper lower : String → String} {providers : List MatchableProviderFact}
  {consumers : List MatchableConsumerFact} {l : BoundaryLinkCandidate}

/-- When a provider and a consumer are one, in four ways; `Same` tells whether method and path agree. -/
inductive Pairs (Same : MatchableProviderFact → MatchableConsumerFact → Prop) (upper lower : String → String)
    (providers : List MatchableProviderFact) (p : MatchableProviderFact) (c : MatchableConsumerFact) :
    BoundaryMatchBasis → Prop
  | address (hp : p.fact.mechanism = .http) (hc : c.fact.mechanism = .http) (hsame : Same p c) :
      Pairs Same upper lower providers p c .addressMatch
  | unknownMethod (hp : p.fact.mechanism = .http) (hc : c.fact.mechanism = .http)
      (hnone : ∀ q ∈ providers, q.fact.mechanism = .http → ¬ Same q c)
      (hmethod : httpMethod upper c.fact.metadata = none ∨ httpMethod upper c.fact.metadata = some "*")
      (hpath : normalizeHttpPath p.fact.address = normalizeHttpPath c.fact.address) :
      Pairs Same upper lower providers p c .heuristic
  | operation (hp : p.fact.mechanism = .cliCommand) (hc : c.fact.mechanism = .cliCommand)
      (hsame : trim (lower p.fact.address) = trim (lower c.fact.address)) :
      Pairs Same upper lower providers p c .operationMatch
  | stripped (hp : p.fact.mechanism = .cliCommand) (hc : c.fact.mechanism = .cliCommand)
      (hnone : ∀ q ∈ providers, q.fact.mechanism = .cliCommand →
        trim (lower q.fact.address) ≠ trim (lower c.fact.address))
      (htokens : 3 ≤ (splitWhitespace (trim (lower c.fact.address))).length)
      (hrest : trim (lower p.fact.address) = join " " (splitWhitespace (trim (lower c.fact.address))).tail) :
      Pairs Same upper lower providers p c .heuristic

def keyOf (upper : String → String) (p : MatchableProviderFact) : String :=
  httpComputeMatcherKey upper p.fact.address p.fact.metadata

def wantedKey (upper : String → String) (c : MatchableConsumerFact) : String :=
  httpComputeMatcherKey upper c.fact.address c.fact.metadata

def SameKey (upper : String → String) (p : MatchableProviderFact) (c : MatchableConsumerFact) : Prop :=
  keyOf upper p = wantedKey upper c

lemma httpMatch_eq (upper : String → String) (providers : List MatchableProviderFact)
    (consumers : List MatchableConsumerFact) : httpMatch upper providers consumers =
      inStages (keyOf upper) (fun p => normalizeHttpPath p.fact.address) (wantedKey upper)
        (fun c => normalizeHttpPath c.fact.address)
        (fun c => httpMethod upper c.fact.metadata = none ∨ httpMethod upper c.fact.metadata = some "*")
        .addressMatch providers consumers := by
  cases providers with
  | nil => exact inStages_nil.symm
  | cons p providers => cases consumers <;> rfl

lemma cliMatch_eq (lower : String → String) (providers : List MatchableProviderFact)
    (consumers : List MatchableConsumerFact) : cliMatch lower providers consumers =
      inStages (fun p => trim (lower p.fact.address)) (fun p => trim (lower p.fact.address))
        (fun c => trim (lower c.fact.address))
        (fun c => join " " (splitWhitespace (trim (lower c.fact.address))).tail)
        (fun c => 3 ≤ (splitWhitespace (trim (lower c.fact.address))).length)
        .operationMatch providers consumers := by
  cases providers with
  | nil => exact inStages_nil.symm
  | cons p providers => cases consumers <;> rfl

lemma lookup_groupByMechanism {α : Type} (mechanism : α → BoundaryMechanism) (facts : List α)
    (mech : BoundaryMechanism) :
    (groupByMechanism mechanism facts).lookup mech =
      if facts.filter (mechanism · = mech) = [] then none else some (facts.filter (mechanism · = mech)) := by
  have hgroup := IterMap.lookup_foldl_group (.asInserted _ _) mechanism id facts ∅ mech
  simp only [id_eq, AList.lookup_empty, Option.getD_none, List.nil_append, List.map_id] at hgroup
  exact hgroup

lemma matchBoundaryFacts_eq (upper lower : String → String) (providers : List MatchableProviderFact)
    (consumers : List MatchableConsumerFact) : matchBoundaryFacts upper lower providers consumers =
      httpMatch upper (providers.filter (·.fact.mechanism = .http))
        (consumers.filter (·.fact.mechanism = .http)) ++
      cliMatch lower (providers.filter (·.fact.mechanism = .cliCommand))
        (consumers.filter (·.fact.mechanism = .cliCommand)) := by
  have hhttp : mechCandidates upper lower (groupByMechanism (·.fact.mechanism) providers)
      (groupByMechanism (·.fact.mechanism) consumers) .http = httpMatch upper
        (providers.filter (·.fact.mechanism = .http)) (consumers.filter (·.fact.mechanism = .http)) := by
    rw [mechCandidates, lookup_groupByMechanism, lookup_groupByMechanism]
    cases providers.filter (·.fact.mechanism = .http) with
    | nil => rfl
    | cons p ps => cases consumers.filter (·.fact.mechanism = .http) <;> rfl
  have hcli : mechCandidates upper lower (groupByMechanism (·.fact.mechanism) providers)
      (groupByMechanism (·.fact.mechanism) consumers) .cliCommand = cliMatch lower
        (providers.filter (·.fact.mechanism = .cliCommand))
          (consumers.filter (·.fact.mechanism = .cliCommand)) := by
    rw [mechCandidates, lookup_groupByMechanism, lookup_groupByMechanism]
    cases providers.filter (·.fact.mechanism = .cliCommand) with
    | nil => rfl
    | cons p ps => cases consumers.filter (·.fact.mechanism = .cliCommand) <;> rfl
  rw [matchBoundaryFacts, List.flatMap_cons, List.flatMap_cons, List.flatMap_nil, List.append_nil, hhttp, hcli]

def EmitsPairs (Same : MatchableProviderFact → MatchableConsumerFact → Prop) (upper lower : String → String)
    (providers : List MatchableProviderFact) (consumers : List MatchableConsumerFact) : Prop :=
  ∀ l, l ∈ matchBoundaryFacts upper lower providers consumers ↔
    ∃ p ∈ providers, ∃ c ∈ consumers, ∃ basis, Pairs Same upper lower providers p c basis ∧ l = link c basis p

lemma emitsPairs_key (upper lower : String → String) (providers : List MatchableProviderFact)
    (consumers : List MatchableConsumerFact) : EmitsPairs (SameKey upper) upper lower providers consumers := by
  intro l
  rw [matchBoundaryFacts_eq, List.mem_append, httpMatch_eq, cliMatch_eq, mem_inStages, mem_inStages]
  simp only [List.mem_filter, decide_eq_true_eq]
  constructor
  · rintro (⟨c, ⟨hc, hmech⟩, hl⟩ | ⟨c, ⟨hc, hmech⟩, hl⟩)
    · rcases hl with ⟨p, ⟨hp, hpmech⟩, hkey, rfl⟩ | ⟨hnone, hmethod, p, ⟨hp, hpmech⟩, hpath, rfl⟩
      · exact ⟨p, hp, c, hc, _, .address hpmech hmech hkey, rfl⟩
      · exact ⟨p, hp, c, hc, _, .unknownMethod hpmech hmech (fun q hq hq' => hnone q ⟨hq, hq'⟩) hmethod hpath, rfl⟩
    · rcases hl with ⟨p, ⟨hp, hpmech⟩, hkey, rfl⟩ | ⟨hnone, htokens, p, ⟨hp, hpmech⟩, hrest, rfl⟩
      · exact ⟨p, hp, c, hc, _, .operation hpmech hmech hkey, rfl⟩
      · exact ⟨p, hp, c, hc, _, .stripped hpmech hmech (fun q hq hq' => hnone q ⟨hq, hq'⟩) htokens hrest, rfl⟩
  · rintro ⟨p, hp, c, hc, basis, hpair, rfl⟩
    cases hpair with
    | address hpmech hmech hkey => exact .inl ⟨c, ⟨hc, hmech⟩, .inl ⟨p, ⟨hp, hpmech⟩, hkey, rfl⟩⟩
    | unknownMethod hpmech hmech hnone hmethod hpath =>
      exact .inl ⟨c, ⟨hc, hmech⟩, .inr ⟨fun q hq => hnone q hq.1 hq.2, hmethod, p, ⟨hp, hpmech⟩, hpath, rfl⟩⟩
    | operation hpmech hmech hkey => exact .inr ⟨c, ⟨hc, hmech⟩, .inl ⟨p, ⟨hp, hpmech⟩, hkey, rfl⟩⟩
    | stripped hpmech hmech hnone htokens hrest =>
      exact .inr ⟨c, ⟨hc, hmech⟩, .inr ⟨fun q hq => hnone q hq.1 hq.2, htokens, p, ⟨hp, hpmech⟩, hrest, rfl⟩⟩

lemma nodup_matchBoundaryFacts (upper lower : String → String) (hp : (providers.map (·.factUid)).Nodup)
    (hc : (consumers.map (·.factUid)).Nodup) :
    ((matchBoundaryFacts upper lower providers consumers).map ends).Nodup := by
  have hproviders : ∀ mech : BoundaryMechanism,
      ((providers.filter (·.fact.mechanism = mech)).map (·.factUid)).Nodup := fun _ =>
    (List.filter_sublist.map _).nodup hp
  have hconsumers : ∀ mech : BoundaryMechanism,
      ((consumers.filter (·.fact.mechanism = mech)).map (·.factUid)).Nodup := fun _ =>
    (List.filter_sublist.map _).nodup hc
  rw [matchBoundaryFacts_eq, List.map_append, List.nodup_append', httpMatch_eq, cliMatch_eq]
  refine ⟨nodup_inStages (hproviders _) (hconsumers _), nodup_inStages (hproviders _) (hconsumers _), ?_⟩
  -- a link of both kinds would have a provider of two mechanisms
  intro pair hhttp hcli
  obtain ⟨l, hl, rfl⟩ := List.mem_map.mp hhttp
  obtain ⟨l', hl', hends⟩ := List.mem_map.mp hcli
  obtain ⟨p, hp₁, huid⟩ := provider_of_mem_inStages hl
  obtain ⟨p', hp₁', huid'⟩ := provider_of_mem_inStages hl'
  rw [List.mem_filter, decide_eq_true_eq] at hp₁ hp₁'
  have hsame : p = p' := by
    apply List.inj_on_of_nodup_map hp hp₁.1 hp₁'.1
    rw [← huid, ← huid']
    exact (congrArg Prod.fst hends).symm
  exact absurd (hp₁.2.symm.trans (hsame ▸ hp₁'.2)) (by decide)

end Pairs

section Addresses

variable {upper lower : String → String} {providers : List MatchableProviderFact}
  {consumers : List MatchableConsumerFact}

def methodOf (upper : String → String) (metadata : Json.Fields) : String := (httpMethod upper metadata).getD "*"

def SameAddress (upper : String → String) (read : String → String) (p : MatchableProviderFact)
    (c : MatchableConsumerFact) : Prop :=
  methodOf upper p.fact.metadata = methodOf upper c.fact.metadata ∧
    segments (read p.fact.address) = segments (read c.fact.address)

instance : DecidableRel (SameKey upper) :=
  fun p c => inferInstanceAs (Decidable (keyOf upper p = wantedKey upper c))

/-- Keys that read the same are of one method and one path. -/
def KeysTell (upper : String → String) (providers : List MatchableProviderFact)
    (consumers : List MatchableConsumerFact) : Prop :=
  ∀ p ∈ providers, ∀ c ∈ consumers, p.fact.mechanism = .http → c.fact.mechanism = .http →
    SameKey upper p c → SameAddress upper orRoot p c

lemma SameAddress.sameKey {p : MatchableProviderFact} {c : MatchableConsumerFact}
    (h : SameAddress upper orRoot p c) :
    SameKey upper p c := by
  obtain ⟨hmethod, hpath⟩ := h
  unfold SameKey keyOf wantedKey httpComputeMatcherKey
  rw [normalizeHttpPath_eq_iff.mpr hpath]
  exact congrArg (· ++ " " ++ normalizeHttpPath c.fact.address) hmethod

lemma Pairs.congr {Same Same' : MatchableProviderFact → MatchableConsumerFact → Prop} {p : MatchableProviderFact}
    {c : MatchableConsumerFact} {basis : BoundaryMatchBasis} (hp : p ∈ providers)
    (hsame : ∀ q ∈ providers, q.fact.mechanism = .http → c.fact.mechanism = .http → (Same q c ↔ Same' q c))
    (h : Pairs Same upper lower providers p c basis) : Pairs Same' upper lower providers p c basis := by
  cases h with
  | address hpmech hmech hkey => exact .address hpmech hmech ((hsame p hp hpmech hmech).mp hkey)
  | unknownMethod hpmech hmech hnone hmethod hpath =>
    refine .unknownMethod hpmech hmech ?_ hmethod hpath
    intro q hq hqmech hqc
    exact hnone q hq hqmech ((hsame q hq hqmech hmech).mpr hqc)
  | operation hpmech hmech hkey => exact .operation hpmech hmech hkey
  | stripped hpmech hmech hnone htokens hrest => exact .stripped hpmech hmech hnone htokens hrest

lemma Pairs.of_mem_iff {Same : MatchableProviderFact → MatchableConsumerFact → Prop} {p : MatchableProviderFact}
    {c : MatchableConsumerFact} {basis : BoundaryMatchBasis} {providers' : List MatchableProviderFact}
    (hmem : ∀ q, q ∈ providers' → q ∈ providers) (h : Pairs Same upper lower providers p c basis) :
    Pairs Same upper lower providers' p c basis := by
  cases h with
  | address hpmech hmech hkey => exact .address hpmech hmech hkey
  | unknownMethod hpmech hmech hnone hmethod hpath =>
    exact .unknownMethod hpmech hmech (fun q hq => hnone q (hmem q hq)) hmethod hpath
  | operation hpmech hmech hkey => exact .operation hpmech hmech hkey
  | stripped hpmech hmech hnone htokens hrest =>
    exact .stripped hpmech hmech (fun q hq => hnone q (hmem q hq)) htokens hrest

lemma EmitsPairs.same_of_sameKey {Same : MatchableProviderFact → MatchableConsumerFact → Prop}
    (huids : (providers.map (·.factUid)).Nodup) (huids' : (consumers.map (·.factUid)).Nodup)
    (h : EmitsPairs Same upper lower providers consumers) {p : MatchableProviderFact} (hp : p ∈ providers)
    {c : MatchableConsumerFact} (hc : c ∈ consumers) (hpmech : p.fact.mechanism = .http)
    (hmech : c.fact.mechanism = .http) (hkey : SameKey upper p c) : Same p c := by
  have hlink : link c .addressMatch p ∈ matchBoundaryFacts upper lower providers consumers :=
    (emitsPairs_key upper lower providers consumers _).mpr ⟨p, hp, c, hc, _, .address hpmech hmech hkey, rfl⟩
  obtain ⟨p', hp', c', hc', basis, hpair, heq⟩ := (h _).mp hlink
  obtain ⟨hpuid, hcuid, rfl⟩ := BoundaryLinkCandidate.mk.inj heq
  obtain rfl : p = p' := List.inj_on_of_nodup_map huids hp hp' hpuid
  obtain rfl : c = c' := List.inj_on_of_nodup_map huids' hc hc' hcuid
  cases hpair with
  | address _ _ hsame => exact hsame

/-- The links are the pairs of one method and path exactly where the joined keys tell them. -/
theorem emitsPairs_iff (huids : (providers.map (·.factUid)).Nodup) (huids' : (consumers.map (·.factUid)).Nodup) :
    EmitsPairs (SameAddress upper orRoot) upper lower providers consumers ↔
      KeysTell upper providers consumers := by
  constructor
  · intro h p hp c hc hpmech hmech hkey
    exact h.same_of_sameKey huids huids' hp hc hpmech hmech hkey
  · intro htell l
    rw [emitsPairs_key upper lower providers consumers l]
    apply exists_congr
    intro p
    apply and_congr_right
    intro hp
    apply exists_congr
    intro c
    apply and_congr_right
    intro hc
    have hsame : ∀ q ∈ providers, q.fact.mechanism = .http → c.fact.mechanism = .http →
        (SameKey upper q c ↔ SameAddress upper orRoot q c) := fun q hq hqmech hmech =>
      ⟨htell q hq c hc hqmech hmech, SameAddress.sameKey⟩
    apply exists_congr
    intro basis
    apply and_congr_left
    intro _
    exact ⟨Pairs.congr hp hsame, Pairs.congr hp fun q hq hqmech hmech => (hsame q hq hqmech hmech).symm⟩

theorem keysTell_of_methods (hp : ∀ p ∈ providers, ' ' ∉ (methodOf upper p.fact.metadata).toList)
    (hc : ∀ c ∈ consumers, ' ' ∉ (methodOf upper c.fact.metadata).toList) :
      KeysTell upper providers consumers := by
  intro p hpin c hcin _ _ hkey
  have hblank : " " = String.singleton ' ' := rfl
  have hcut : ∀ method path : String, ' ' ∉ method.toList →
      splitOnce (method ++ " " ++ path) ' ' = some (method, path) := by
    intro method path hmethod
    rw [splitOnce_eq_some, hblank]
    exact ⟨rfl, hmethod⟩
  have hsplit := congrArg (splitOnce · ' ') hkey
  change splitOnce (methodOf upper p.fact.metadata ++ " " ++ _) ' ' =
    splitOnce (methodOf upper c.fact.metadata ++ " " ++ _) ' ' at hsplit
  rw [hcut _ _ (hp p hpin), hcut _ _ (hc c hcin)] at hsplit
  obtain ⟨hmethod, hpath⟩ := Prod.mk.inj (Option.some.inj hsplit)
  exact ⟨hmethod, normalizeHttpPath_eq_iff.mp hpath⟩

lemma matchBoundaryFacts_perm {providers' : List MatchableProviderFact} {consumers' : List MatchableConsumerFact}
    (huids : (providers.map (·.factUid)).Nodup) (huids' : (consumers.map (·.factUid)).Nodup)
    (hp : providers'.Perm providers) (hc : consumers'.Perm consumers) :
    (matchBoundaryFacts upper lower providers' consumers').Perm
      (matchBoundaryFacts upper lower providers consumers) := by
  have hnodup := List.Nodup.of_map ends (nodup_matchBoundaryFacts upper lower huids huids')
  have hnodup' := List.Nodup.of_map ends (nodup_matchBoundaryFacts upper lower ((hp.map _).nodup_iff.mpr huids)
    ((hc.map _).nodup_iff.mpr huids'))
  rw [List.perm_ext_iff_of_nodup hnodup' hnodup]
  intro l
  rw [emitsPairs_key upper lower providers consumers l, emitsPairs_key upper lower providers' consumers' l]
  constructor
  · rintro ⟨p, hpin, c, hcin, basis, hpair, rfl⟩
    exact ⟨p, hp.mem_iff.mp hpin, c, hc.mem_iff.mp hcin, basis, hpair.of_mem_iff fun q => hp.mem_iff.mpr, rfl⟩
  · rintro ⟨p, hpin, c, hcin, basis, hpair, rfl⟩
    exact ⟨p, hp.mem_iff.mpr hpin, c, hc.mem_iff.mpr hcin, basis, hpair.of_mem_iff fun q => hp.mem_iff.mp, rfl⟩

end Addresses

section Statements

/-- Where the joined keys tell their addresses, the links are the pairs of one method and path, the empty path
being the root's; they are each made once, in whatever order the facts stand; and a normal path is its own normal
form. -/
theorem match_boundary_facts_laws (upper lower : String → String) {providers : List MatchableProviderFact}
    {consumers : List MatchableConsumerFact} (huids : (providers.map (·.factUid)).Nodup)
    (huids' : (consumers.map (·.factUid)).Nodup) :
    (KeysTell upper providers consumers → EmitsPairs (SameAddress upper orRoot) upper lower providers consumers) ∧
      ((matchBoundaryFacts upper lower providers consumers).map ends).Nodup ∧
      (∀ providers' consumers', providers'.Perm providers → consumers'.Perm consumers →
        (matchBoundaryFacts upper lower providers' consumers').Perm
          (matchBoundaryFacts upper lower providers consumers)) ∧
      ∀ path, normalizeHttpPath (normalizeHttpPath path) = normalizeHttpPath path :=
  ⟨(emitsPairs_iff huids huids').mpr, nodup_matchBoundaryFacts upper lower huids huids',
    fun _ _ hp hc => matchBoundaryFacts_perm huids huids' hp hc, normalizeHttpPath_idem⟩

def httpProvider (uid method address : String) : MatchableProviderFact :=
  ⟨uid, .http, address, [("httpMethod", .string method)]⟩

def httpConsumer (uid method address : String) : MatchableConsumerFact :=
  ⟨uid, .http, address, [("httpMethod", .string method)]⟩

def asciiUpper (s : String) : String := .ofList (s.toList.map Char.toUpper)

def asciiLower (s : String) : String := .ofList (s.toList.map Char.toLower)

theorem match_boundary_facts_laws_param :
    KeysTell asciiUpper [httpProvider "p1" "get" "/api/{id}"] [httpConsumer "c1" "GET" "/api/:name"] ∧
      EmitsPairs (SameAddress asciiUpper orRoot) asciiUpper asciiLower [httpProvider "p1" "get" "/api/{id}"]
        [httpConsumer "c1" "GET" "/api/:name"] := by
  have htell : KeysTell asciiUpper [httpProvider "p1" "get" "/api/{id}"]
      [httpConsumer "c1" "GET" "/api/:name"] := by
    apply keysTell_of_methods
    · intro p hp
      rw [List.mem_singleton.mp hp]
      decide +kernel
    · intro c hc
      rw [List.mem_singleton.mp hc]
      decide +kernel
  have huids : ([httpProvider "p1" "get" "/api/{id}"].map (·.factUid)).Nodup := List.nodup_singleton _
  have huids' : ([httpConsumer "c1" "GET" "/api/:name"].map (·.factUid)).Nodup := List.nodup_singleton _
  exact ⟨htell, (match_boundary_facts_laws asciiUpper asciiLower huids huids').1 htell⟩

/-- The empty path is linked to the root, and a blank in a method moves the border between method and path. -/
theorem root_and_joined_keys_linked :
    ¬ EmitsPairs (SameAddress asciiUpper id) asciiUpper asciiLower [httpProvider "p1" "GET" ""]
        [httpConsumer "c1" "GET" "/"] ∧
      ¬ EmitsPairs (SameAddress asciiUpper id) asciiUpper asciiLower [httpProvider "p1" "GET A" "b"]
        [httpConsumer "c1" "GET" "A b"] := by
  have hlinked : ∀ p c, p.fact.mechanism = .http → c.fact.mechanism = .http → SameKey asciiUpper p c →
      ¬ SameAddress asciiUpper id p c →
      ¬ EmitsPairs (SameAddress asciiUpper id) asciiUpper asciiLower [p] [c] := by
    intro p c hpmech hmech hkey hne h
    have huids : ([p].map (·.factUid)).Nodup := List.nodup_singleton _
    have huids' : ([c].map (·.factUid)).Nodup := List.nodup_singleton _
    exact hne (h.same_of_sameKey huids huids' (List.mem_singleton_self p)
      (List.mem_singleton_self c) hpmech hmech hkey)
  constructor
  · refine hlinked _ _ rfl rfl (by decide +kernel) ?_
    rintro ⟨-, hpath⟩
    exact absurd hpath (by decide +kernel)
  · refine hlinked _ _ rfl rfl (by decide +kernel) ?_
    rintro ⟨hmethod, -⟩
    exact absurd hmethod (by decide +kernel)

end Statements

end RepoGraph.Classification
