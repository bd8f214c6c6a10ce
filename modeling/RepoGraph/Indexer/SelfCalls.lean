import RepoGraph.Indexer.IndexTables
import RepoGraph.Indexer.CallTarget
import RepoGraph.Lib.Layers
import RepoGraph.Lib.Folds

/-! The outcome of the walk that binds a Python self call: the methods that the classes of least depth
declare. -/

namespace RepoGraph.Indexer

open Lib Lib.Text Lib.Layers

section Classes

variable (index : ResolverIndex)

def namedNodes (name : String) : List ResolverNode := (index.nodesByName.lookup name).getD []

def qualifiedNodes (qualified : String) : List ResolverNode :=
  (index.nodesByQualifiedName.lookup qualified).getD []

def Listed (n : ResolverNode) : Prop :=
  (∃ name, n ∈ namedNodes index name) ∨ ∃ qualified, n ∈ qualifiedNodes index qualified

/-- A node's uid identifies it, and no list of candidates repeats a node. -/
structure KeyedByUid : Prop where
  same : ∀ n n', Listed index n → Listed index n' → n.nodeUid = n'.nodeUid → n = n'
  nodup_named : ∀ name, (namedNodes index name).Nodup
  nodup_qualified : ∀ qualified, (qualifiedNodes index qualified).Nodup

def OnlyWith (p : ResolverNode → Prop) (l : List ResolverNode) (n : ResolverNode) : Prop :=
  (n ∈ l ∧ p n) ∧ ∀ m ∈ l, p m → m = n

def OwnClass (name file : String) (own : ResolverNode) : Prop :=
  OnlyWith (fun n => n.subtype = some "CLASS" ∧ n.fileUid = some file) (namedNodes index name) own

def NamesClass (name : String) (c : ResolverNode) : Prop :=
  OnlyWith (fun n => n.subtype = some "CLASS") (namedNodes index name) c

def Base (c base : ResolverNode) : Prop := ∃ name ∈ c.superclasses, NamesClass index name base

def Declares (method : String) (c m : ResolverNode) : Prop :=
  m ∈ qualifiedNodes index s!"{candidateLabel c}.{method}" ∧ m.subtype = some "METHOD" ∧ m.fileUid = c.fileUid

def hitOf (method : String) (c m : ResolverNode) : String × String × String :=
  (c.nodeUid, m.nodeUid, m.qualifiedName.getD s!"{candidateLabel c}.{method}")

def HitAt (enclosingClass method callerFile : String) (d : ℕ) (hit : String × String × String) : Prop :=
  ∃ own c m, OwnClass index enclosingClass callerFile own ∧ AtDepth (Base index) own c d ∧
    Declares index method c m ∧ hit = hitOf method c m

end Classes

inductive FirstHits (hitAt : ℕ → String × String × String → Prop) : SelfCallResolution → Prop
  | resolved {d : ℕ} {hit : String × String × String} : d ≤ depthCap → (∀ n < d, ∀ other, ¬ hitAt n other) →
      (∀ other, hitAt d other ↔ other = hit) → FirstHits hitAt (.resolved hit.2.1)
  | ambiguous {d : ℕ} {hits : List (String × String × String)} : d ≤ depthCap →
      (∀ n < d, ∀ other, ¬ hitAt n other) → hits.Nodup → (∀ other, other ∈ hits ↔ hitAt d other) →
      2 ≤ hits.length → FirstHits hitAt (.ambiguousMro (sortBy compare (hits.map (·.2.2))))
  | noHit : (∀ d ≤ depthCap, ∀ other, ¬ hitAt d other) → FirstHits hitAt .noHit

section FirstHits

variable {hitAt : ℕ → String × String × String → Prop} {outcome outcome' : SelfCallResolution}

lemma least_unique {d d' : ℕ} {hit hit' : String × String × String} (h : ∀ n < d, ∀ other, ¬ hitAt n other)
    (h' : ∀ n < d', ∀ other, ¬ hitAt n other) (hhit : hitAt d hit) (hhit' : hitAt d' hit') : d = d' := by
  rcases Nat.lt_trichotomy d d' with hlt | rfl | hlt
  · exact absurd hhit (h' d hlt hit)
  · rfl
  · exact absurd hhit' (h d' hlt hit')

lemma not_one_of_two_le {α : Type} {l : List α} {a : α} (hnodup : l.Nodup) (hlen : 2 ≤ l.length) :
    ¬ ∀ b ∈ l, b = a := by
  intro hall
  match l, hlen with
  | b :: c :: rest, _ =>
    have hb := hall b (List.mem_cons_self ..)
    have hc := hall c (List.mem_cons_of_mem _ (List.mem_cons_self ..))
    rw [hb, hc] at hnodup
    simp at hnodup

lemma exists_mem_of_two_le {α : Type} {l : List α} (hlen : 2 ≤ l.length) : ∃ a, a ∈ l := by
  match l, hlen with
  | a :: _ :: _, _ => exact ⟨a, List.mem_cons_self ..⟩

theorem FirstHits.unique (h : FirstHits hitAt outcome) (h' : FirstHits hitAt outcome') : outcome = outcome' := by
  cases h with
  | resolved hd hleast honly =>
    cases h' with
    | resolved hd' hleast' honly' =>
      obtain rfl := least_unique hleast hleast' ((honly _).mpr rfl) ((honly' _).mpr rfl)
      rw [(honly' _).mp ((honly _).mpr rfl)]
    | ambiguous hd' hleast' hnodup' hmem' hlen' =>
      obtain ⟨other, hother⟩ := exists_mem_of_two_le hlen'
      obtain rfl := least_unique hleast hleast' ((honly _).mpr rfl) ((hmem' _).mp hother)
      exact absurd (fun b hb => (honly b).mp ((hmem' b).mp hb)) (not_one_of_two_le hnodup' hlen')
    | noHit hnone => exact absurd ((honly _).mpr rfl) (hnone _ hd _)
  | ambiguous hd hleast hnodup hmem hlen =>
    obtain ⟨hit, hhit⟩ := exists_mem_of_two_le hlen
    cases h' with
    | resolved hd' hleast' honly' =>
      obtain rfl := least_unique hleast hleast' ((hmem _).mp hhit) ((honly' _).mpr rfl)
      exact absurd (fun b hb => (honly' b).mp ((hmem b).mp hb)) (not_one_of_two_le hnodup hlen)
    | ambiguous hd' hleast' hnodup' hmem' hlen' =>
      obtain ⟨other, hother⟩ := exists_mem_of_two_le hlen'
      obtain rfl := least_unique hleast hleast' ((hmem _).mp hhit) ((hmem' _).mp hother)
      have hperm : List.Perm _ _ :=
        (List.perm_ext_iff_of_nodup hnodup hnodup').mpr fun b => (hmem b).trans (hmem' b).symm
      rw [sortBy_compare_eq (hperm.map _)]
    | noHit hnone => exact absurd ((hmem _).mp hhit) (hnone _ hd _)
  | noHit hnone =>
    cases h' with
    | resolved hd' _ honly' => exact absurd ((honly' _).mpr rfl) (hnone _ hd' _)
    | ambiguous hd' _ _ hmem' hlen' =>
      obtain ⟨other, hother⟩ := exists_mem_of_two_le hlen'
      exact absurd ((hmem' _).mp hother) (hnone _ hd' _)
    | noHit => rfl

end FirstHits

section Walk

variable {index : ResolverIndex} {name file method : String} {c m own n n' : ResolverNode} {d : ℕ}
  {frontier next seen : List ResolverNode}

lemma only_filter_eq_some {l : List ResolverNode} {p : ResolverNode → Prop} [DecidablePred p] (h : l.Nodup) :
    only (l.filter p) = some n ↔ OnlyWith p l n := by
  have hsingle : ∀ l : List ResolverNode, only l = some n ↔ l = [n] := by
    intro l
    match l with
    | [] => simp [only]
    | [m] => simp [only]
    | _ :: _ :: _ => simp [only]
  rw [hsingle, eq_singleton_iff_of_nodup (h.filter _)]
  simp only [List.mem_filter, decide_eq_true_eq]
  constructor
  · intro hmem
    exact ⟨(hmem n).mpr rfl, fun m hm hp => (hmem m).mp ⟨hm, hp⟩⟩
  · rintro ⟨hn, honly⟩ m
    exact ⟨fun hm => honly m hm.1 hm.2, fun heq => heq ▸ hn⟩

variable (keyed : KeyedByUid index)
include keyed

lemma uniqueClassInFile_eq_some : uniqueClassInFile index name file = some own ↔ OwnClass index name file own :=
  only_filter_eq_some (keyed.nodup_named name)

lemma uniqueClassByName_eq_some : uniqueClassByName index name = some c ↔ NamesClass index name c :=
  only_filter_eq_some (keyed.nodup_named name)

lemma mem_map_nodeUid {l : List ResolverNode} (hl : ∀ n ∈ l, Listed index n) (hc : Listed index c) :
    c.nodeUid ∈ l.map (·.nodeUid) ↔ c ∈ l := by
  constructor
  · intro h
    obtain ⟨n, hn, huid⟩ := List.mem_map.mp h
    exact keyed.same n c (hl n hn) hc huid ▸ hn
  · exact List.mem_map_of_mem

omit keyed in
lemma NamesClass.listed (h : NamesClass index name c) : Listed index c := Or.inl ⟨name, h.1.1⟩

lemma descend_one (base : String) (hseen : ∀ n ∈ seen, Listed index n) (hnext : ∀ n ∈ next, Listed index n) :
    ∃ found, (match uniqueClassByName index base with
        | some baseNode =>
          if baseNode.nodeUid ∈ (seen ++ next).map (·.nodeUid) then (next, (seen ++ next).map (·.nodeUid))
          else (next ++ [baseNode], (seen ++ next).map (·.nodeUid) ++ [baseNode.nodeUid])
        | none => (next, (seen ++ next).map (·.nodeUid))) = (found, (seen ++ found).map (·.nodeUid)) ∧
      (next.Nodup → found.Nodup) ∧ (∀ n ∈ found, Listed index n) ∧
      ∀ c, c ∈ found ↔ c ∈ next ∨ c ∉ seen ∧ NamesClass index base c := by
  cases hbase : uniqueClassByName index base with
  | none =>
    have hnone : ∀ c, ¬ NamesClass index base c := by
      intro c hc
      rw [(uniqueClassByName_eq_some keyed).mpr hc] at hbase
      simp at hbase
    exact ⟨next, rfl, id, hnext, fun c => by simp [hnone]⟩
  | some baseNode =>
    have hnames := (uniqueClassByName_eq_some keyed).mp hbase
    have honly : ∀ c, NamesClass index base c ↔ c = baseNode := by
      intro c
      rw [← uniqueClassByName_eq_some keyed, hbase, Option.some.injEq, eq_comm]
    have hlisted : ∀ n ∈ seen ++ next, Listed index n :=
      fun n hn => (List.mem_append.mp hn).elim (hseen n) (hnext n)
    simp only [mem_map_nodeUid keyed hlisted hnames.listed, honly]
    by_cases hmem : baseNode ∈ seen ++ next
    · refine ⟨next, if_pos hmem, id, hnext, fun c => ?_⟩
      constructor
      · exact Or.inl
      · rintro (hc | ⟨hunseen, rfl⟩)
        · exact hc
        · exact (List.mem_append.mp hmem).resolve_left hunseen
    · refine ⟨next ++ [baseNode], ?_, ?_, ?_, fun c => ?_⟩
      · rw [if_neg hmem]
        simp only [List.map_append, List.map_cons, List.map_nil, List.append_assoc]
      · intro hnodup
        rw [List.mem_append, not_or] at hmem
        refine List.nodup_append.mpr ⟨hnodup, List.nodup_singleton _, ?_⟩
        rintro a ha b hb rfl
        exact hmem.2 (List.mem_singleton.mp hb ▸ ha)
      · intro n hn
        rcases List.mem_append.mp hn with hn | hn
        · exact hnext n hn
        · exact List.mem_singleton.mp hn ▸ hnames.listed
      · rw [List.mem_append, not_or] at hmem
        rw [List.mem_append, List.mem_singleton]
        constructor
        · rintro (hc | rfl)
          · exact Or.inl hc
          · exact Or.inr ⟨hmem.1, rfl⟩
        · rintro (hc | ⟨-, rfl⟩)
          · exact Or.inl hc
          · exact Or.inr rfl

lemma foldl_descend (bases : List String) (hseen : ∀ n ∈ seen, Listed index n)
    (hnext : ∀ n ∈ next, Listed index n) :
    ∃ found, bases.foldl (fun (next, visited) base =>
        match uniqueClassByName index base with
        | some baseNode =>
          if baseNode.nodeUid ∈ visited then (next, visited)
          else (next ++ [baseNode], visited ++ [baseNode.nodeUid])
        | none => (next, visited)) (next, (seen ++ next).map (·.nodeUid)) =
          (found, (seen ++ found).map (·.nodeUid)) ∧
      (next.Nodup → found.Nodup) ∧ ∀ c, c ∈ found ↔ c ∈ next ∨ c ∉ seen ∧
      ∃ base ∈ bases, NamesClass index base c := by
  induction bases generalizing next with
  | nil => exact ⟨next, rfl, id, by simp⟩
  | cons base bases ih =>
    obtain ⟨more, hone, hnodup, hmore, hmem⟩ := descend_one keyed base hseen hnext
    obtain ⟨found, hfold, hnodup', hmem'⟩ := ih hmore
    refine ⟨found, ?_, hnodup' ∘ hnodup, fun c => ?_⟩
    · rw [List.foldl_cons]
      exact (congrArg (fun acc => bases.foldl _ acc) hone).trans hfold
    · rw [hmem', hmem]
      simp only [List.mem_cons, exists_eq_or_imp]
      tauto

lemma selfCallDescend_spec (frontier : List ResolverNode) (hseen : ∀ n ∈ seen, Listed index n) :
    ∃ next, selfCallDescend index frontier (seen.map (·.nodeUid)) = (next, (seen ++ next).map (·.nodeUid)) ∧
      next.Nodup ∧ ∀ c, c ∈ next ↔ c ∉ seen ∧ ∃ u ∈ frontier, Base index u c := by
  obtain ⟨next, hfold, hnodup, hmem⟩ := foldl_descend keyed (frontier.flatMap (·.superclasses)) hseen
    (fun n (hn : n ∈ []) => absurd hn List.not_mem_nil)
  refine ⟨next, ?_, hnodup List.nodup_nil, fun c => ?_⟩
  · rw [List.append_nil] at hfold
    exact hfold
  · rw [hmem]
    simp only [List.not_mem_nil, false_or, List.mem_flatMap, Base]
    constructor
    · rintro ⟨hunseen, base, ⟨u, hu, hbase⟩, hnames⟩
      exact ⟨hunseen, u, hu, base, hbase, hnames⟩
    · rintro ⟨hunseen, u, hu, base, hbase, hnames⟩
      exact ⟨hunseen, base, ⟨u, hu, hbase⟩, hnames⟩

def layerHits (index : ResolverIndex) (method : String) (frontier : List ResolverNode) :
    List (String × String × String) :=
  frontier.flatMap fun c => ((qualifiedNodes index s!"{candidateLabel c}.{method}").filter fun m =>
    m.subtype = some "METHOD" ∧ m.fileUid = c.fileUid).map (hitOf method c)

omit keyed in
lemma mem_layerHits {hit : String × String × String} :
    hit ∈ layerHits index method frontier ↔ ∃ c ∈ frontier, ∃ m, Declares index method c m ∧
    hit = hitOf method c m := by
  unfold layerHits Declares
  simp only [List.mem_flatMap, List.mem_map, List.mem_filter, decide_eq_true_eq]
  constructor
  · rintro ⟨c, hc, m, hdeclares, rfl⟩
    exact ⟨c, hc, m, hdeclares, rfl⟩
  · rintro ⟨c, hc, m, hdeclares, rfl⟩
    exact ⟨c, hc, m, hdeclares, rfl⟩

lemma nodup_layerHits (hfrontier : frontier.Nodup) (hlisted : ∀ c ∈ frontier, Listed index c) :
    (layerHits index method frontier).Nodup := by
  unfold layerHits
  rw [List.nodup_flatMap]
  constructor
  · intro c hc
    apply ((keyed.nodup_qualified _).filter _).map_on
    intro m hm m' hm' heq
    have hlist : Listed index m := Or.inr ⟨_, List.mem_of_mem_filter hm⟩
    have hlist' : Listed index m' := Or.inr ⟨_, List.mem_of_mem_filter hm'⟩
    exact keyed.same m m' hlist hlist' (Prod.mk.inj (Prod.mk.inj heq).2).1
  · apply hfrontier.imp_of_mem
    intro c c' hc hc' hne
    rw [Function.onFun, List.disjoint_left]
    intro hit hhit hhit'
    obtain ⟨m, -, rfl⟩ := List.mem_map.mp hhit
    obtain ⟨m', -, heq⟩ := List.mem_map.mp hhit'
    exact hne (keyed.same c c' (hlisted c hc) (hlisted c' hc') (Prod.mk.inj heq).1.symm)

omit keyed in
lemma selfCallHits_eq (index : ResolverIndex) (method : String) (frontier : List ResolverNode) :
    selfCallHits index method frontier = (layerHits index method frontier).map fun hit => (hit.2.2, hit.2.1) := by
  unfold selfCallHits layerHits
  rw [List.map_flatMap]
  simp only [List.map_map]
  rfl

omit keyed in
lemma listed_of_steps {n : ℕ} (hown : Listed index own) (h : Steps (Base index) n own c) : Listed index c := by
  cases h with
  | refl => exact hown
  | tail _ hbase =>
    obtain ⟨name, -, hnames⟩ := hbase
    exact hnames.listed

def hitsBelow (index : ResolverIndex) (method : String) (own : ResolverNode) (d : ℕ)
    (hit : String × String × String) : Prop :=
  ∃ c m, AtDepth (Base index) own c d ∧ Declares index method c m ∧ hit = hitOf method c m

omit keyed in
lemma mem_layerHits_iff {hit : String × String × String} (h : Layer (Base index) own d frontier seen) :
    hit ∈ layerHits index method frontier ↔ hitsBelow index method own d hit := by
  rw [mem_layerHits]
  constructor
  · rintro ⟨c, hc, m, hdeclares, rfl⟩
    exact ⟨c, m, (h.mem_frontier c).mp hc, hdeclares, rfl⟩
  · rintro ⟨c, m, hat, hdeclares, rfl⟩
    exact ⟨c, (h.mem_frontier c).mpr hat, m, hdeclares, rfl⟩

theorem selfCallWalk_spec (hown : Listed index own) {depths : ℕ} (hdepths : d + depths = depthCap + 1)
    (h : Layer (Base index) own d frontier seen) (hnone : ∀ n < d, ∀ hit, ¬ hitsBelow index method own n hit) :
    FirstHits (hitsBelow index method own) (selfCallWalk index method depths frontier (seen.map (·.nodeUid))) := by
  induction depths generalizing d frontier seen with
  | zero => exact .noHit fun n hn => hnone n (by omega)
  | succ depths ih =>
    rw [selfCallWalk]
    split
    · rename_i hempty
      obtain rfl := List.isEmpty_iff.mp hempty
      refine .noHit fun n hn hit hbelow => ?_
      rcases Nat.lt_or_ge n d with hlt | hge
      · exact hnone n hlt hit hbelow
      · obtain ⟨c, -, hat, -⟩ := hbelow
        exact h.nothing_below hge hat
    · have hseen : ∀ c ∈ seen, Listed index c := by
        intro c hc
        obtain ⟨n, -, hsteps⟩ := (h.mem_seen c).mp hc
        exact listed_of_steps hown hsteps
      have hlisted : ∀ c ∈ frontier, Listed index c := fun c hc =>
        listed_of_steps hown ((h.mem_frontier c).mp hc).1
      have hnodup : (layerHits index method frontier).Nodup := nodup_layerHits keyed h.nodup hlisted
      have hmem : ∀ hit, hit ∈ layerHits index method frontier ↔ hitsBelow index method own d hit :=
        fun hit => mem_layerHits_iff h
      rw [selfCallHits_eq]
      match hhits : layerHits index method frontier with
      | [] =>
        obtain ⟨next, hdescend, hnext, hmemNext⟩ := selfCallDescend_spec keyed frontier hseen
        simp only [List.map_nil, hdescend]
        apply ih (by omega) (h.step hnext hmemNext)
        intro n hn hit hbelow
        rcases Nat.lt_or_eq_of_le (Nat.lt_succ_iff.mp hn) with hlt | rfl
        · exact hnone n hlt hit hbelow
        · have hin := (hmem hit).mpr hbelow
          rw [hhits] at hin
          exact List.not_mem_nil hin
      | [hit] =>
        refine .resolved (d := d) (by omega) hnone fun other => ?_
        rw [← hmem, hhits, List.mem_singleton]
      | hit :: hit' :: rest =>
        rw [hhits] at hnodup hmem
        have hfound := FirstHits.ambiguous (by omega : d ≤ depthCap) hnone hnodup hmem (by simp)
        simpa [List.map_map, Function.comp_def] using hfound

omit keyed in
lemma hitAt_iff {hit : String × String × String} (h : OwnClass index name file own) :
    HitAt index name method file d hit ↔ hitsBelow index method own d hit := by
  constructor
  · rintro ⟨own', c, m, hown', hat, hdeclares, rfl⟩
    obtain rfl : own' = own := h.2 own' hown'.1.1 hown'.1.2
    exact ⟨c, m, hat, hdeclares, rfl⟩
  · rintro ⟨c, m, hat, hdeclares, rfl⟩
    exact ⟨own, c, m, h, hat, hdeclares, rfl⟩

theorem firstHits_resolveSelfCall (enclosingClass method callerFile : String) :
    FirstHits (HitAt index enclosingClass method callerFile)
      (resolveSelfCall index enclosingClass method callerFile) := by
  unfold resolveSelfCall
  cases hown : uniqueClassInFile index enclosingClass callerFile with
  | none =>
    refine .noHit fun d _ hit hhit => ?_
    obtain ⟨own, _, _, hown', -⟩ := hhit
    rw [(uniqueClassInFile_eq_some keyed).mpr hown'] at hown
    simp at hown
  | some own =>
    have hclass := (uniqueClassInFile_eq_some keyed).mp hown
    have hhits : HitAt index enclosingClass method callerFile = hitsBelow index method own := by
      funext d hit
      exact propext (hitAt_iff hclass)
    rw [hhits]
    have hlisted : Listed index own := Or.inl ⟨enclosingClass, hclass.1.1⟩
    have hnone : ∀ n < 0, ∀ hit, ¬ hitsBelow index method own n hit := fun n hn => absurd hn (Nat.not_lt_zero n)
    exact selfCallWalk_spec keyed hlisted (Nat.zero_add _) (Layer.init (Base index) own) hnone

end Walk

section Order

def SameNode (n n' : ResolverNode) : Prop :=
  n' = { n with superclasses := n'.superclasses } ∧ n.superclasses.Perm n'.superclasses

def SameNodes (l l' : List ResolverNode) : Prop := ∃ mid, l.Perm mid ∧ List.Forall₂ SameNode mid l'

structure Reordered (index index' : ResolverIndex) : Prop where
  named : ∀ name, SameNodes (namedNodes index name) (namedNodes index' name)
  qualified : ∀ qualified, SameNodes (qualifiedNodes index qualified) (qualifiedNodes index' qualified)

structure Covers (index index' : ResolverIndex) : Prop where
  named : ∀ name, ∀ n ∈ namedNodes index name, ∃ n' ∈ namedNodes index' name, SameNode n n'
  qualified : ∀ qualified, ∀ n ∈ qualifiedNodes index qualified,
    ∃ n' ∈ qualifiedNodes index' qualified, SameNode n n'

variable {index index' : ResolverIndex} {n n' c c' m own own' : ResolverNode} {l l' : List ResolverNode}
  {name file method : String} {d : ℕ} {hit : String × String × String}

lemma SameNode.symm (h : SameNode n n') : SameNode n' n := by
  obtain ⟨heq, hperm⟩ := h
  exact ⟨by rw [heq], hperm.symm⟩

lemma SameNode.nodeUid (h : SameNode n n') : n'.nodeUid = n.nodeUid := by rw [h.1]

lemma SameNode.subtype (h : SameNode n n') : n'.subtype = n.subtype := by rw [h.1]

lemma SameNode.fileUid (h : SameNode n n') : n'.fileUid = n.fileUid := by rw [h.1]

lemma SameNode.qualifiedName (h : SameNode n n') : n'.qualifiedName = n.qualifiedName := by rw [h.1]

lemma SameNode.candidateLabel (h : SameNode n n') : candidateLabel n' = candidateLabel n := by
  unfold Indexer.candidateLabel
  rw [h.1]

lemma exists_right {R : ResolverNode → ResolverNode → Prop} (h : List.Forall₂ R l l')
    (hn : n ∈ l) : ∃ n' ∈ l', R n n' := by
  induction h with
  | nil => simp at hn
  | cons hR _ ih =>
    rcases List.mem_cons.mp hn with rfl | hn
    · exact ⟨_, List.mem_cons_self .., hR⟩
    · obtain ⟨n', hn', hR'⟩ := ih hn
      exact ⟨n', List.mem_cons_of_mem _ hn', hR'⟩

lemma SameNodes.exists_right (h : SameNodes l l') (hn : n ∈ l) : ∃ n' ∈ l', SameNode n n' := by
  obtain ⟨mid, hperm, hforall⟩ := h
  exact Indexer.exists_right hforall (hperm.mem_iff.mp hn)

lemma SameNodes.exists_left (h : SameNodes l l') (hn : n ∈ l') : ∃ n' ∈ l, SameNode n n' := by
  obtain ⟨mid, hperm, hforall⟩ := h
  obtain ⟨n', hn', hR⟩ := Indexer.exists_right hforall.flip hn
  exact ⟨n', hperm.mem_iff.mpr hn', SameNode.symm hR⟩

lemma Reordered.covers (h : Reordered index index') : Covers index index' :=
  ⟨fun name _ hn => (h.named name).exists_right hn, fun qualified _ hn => (h.qualified qualified).exists_right hn⟩

lemma Reordered.covers_symm (h : Reordered index index') : Covers index' index :=
  ⟨fun name _ hn => (h.named name).exists_left hn, fun qualified _ hn => (h.qualified qualified).exists_left hn⟩

lemma OnlyWith.transfer {p : ResolverNode → Prop} (hp : ∀ n n', SameNode n n' → (p n ↔ p n'))
    (keyed' : KeyedByUid index') (covers : Covers index index') (covers' : Covers index' index)
    (h : OnlyWith p (namedNodes index name) n) : ∃ n', OnlyWith p (namedNodes index' name) n' ∧ SameNode n n' := by
  obtain ⟨n', hn', hsame⟩ := covers.named name n h.1.1
  refine ⟨n', ⟨⟨hn', (hp n n' hsame).mp h.1.2⟩, fun m' hm' hpm' => ?_⟩, hsame⟩
  obtain ⟨m, hm, hsame'⟩ := covers'.named name m' hm'
  obtain rfl := h.2 m hm ((hp m' m hsame').mp hpm')
  exact keyed'.same m' n' (Or.inl ⟨name, hm'⟩) (Or.inl ⟨name, hn'⟩) (hsame'.nodeUid.symm.trans hsame.nodeUid.symm)

variable (keyed : KeyedByUid index) (keyed' : KeyedByUid index') (covers : Covers index index')
  (covers' : Covers index' index)

include keyed' covers covers' in
lemma OwnClass.transfer (h : OwnClass index name file own) : ∃ own', OwnClass index' name file own' ∧
    SameNode own own' :=
  OnlyWith.transfer (fun n n' hsame => by rw [hsame.subtype, hsame.fileUid]) keyed' covers covers' h

include keyed' covers covers' in
lemma Base.transfer (hsame : SameNode c c') (h : Base index c n) : ∃ n', Base index' c' n' ∧ SameNode n n' := by
  obtain ⟨name, hname, hnames⟩ := h
  obtain ⟨n', hnames', hsame'⟩ :=
    OnlyWith.transfer (fun n n' hsame => by rw [hsame.subtype]) keyed' covers covers' hnames
  exact ⟨n', ⟨name, hsame.2.mem_iff.mp hname, hnames'⟩, hsame'⟩

include keyed keyed' covers covers' in
lemma atDepth_transfer (hown : Listed index own) (hsame : SameNode own own') (h : AtDepth (Base index) own c d) :
    ∃ c', AtDepth (Base index') own' c' d ∧ SameNode c c' := by
  obtain ⟨c', hsteps', hsame'⟩ :=
    h.1.simulate hsame fun _ _ _ hR hbase => hbase.transfer keyed' covers covers' hR
  refine ⟨c', ⟨hsteps', fun n hn hless => ?_⟩, hsame'⟩
  obtain ⟨w, hw, hsameW⟩ :=
    hless.simulate hsame.symm fun _ _ _ hR hbase => hbase.transfer keyed covers' covers hR
  have huid : w.nodeUid = c.nodeUid := hsameW.nodeUid.trans hsame'.nodeUid
  obtain rfl := keyed.same w c (listed_of_steps hown hw) (listed_of_steps hown h.1) huid
  exact h.2 n hn hw

include covers in
lemma Declares.transfer (hsame : SameNode c c') (h : Declares index method c m) :
    ∃ m', Declares index' method c' m' ∧ SameNode m m' := by
  obtain ⟨hmem, hmethod, hfile⟩ := h
  obtain ⟨m', hmem', hsame'⟩ := covers.qualified _ m hmem
  refine ⟨m', ⟨?_, hsame'.subtype.trans hmethod, ?_⟩, hsame'⟩
  · rwa [hsame.candidateLabel]
  · rw [hsame'.fileUid, hfile, hsame.fileUid]

include keyed keyed' covers covers' in
lemma HitAt.transfer (h : HitAt index name method file d hit) : HitAt index' name method file d hit := by
  obtain ⟨own, c, m, hown, hat, hdeclares, rfl⟩ := h
  obtain ⟨own', hown', hsameOwn⟩ := hown.transfer keyed' covers covers'
  obtain ⟨c', hat', hsameC⟩ := atDepth_transfer keyed keyed' covers covers' (Or.inl ⟨name, hown.1.1⟩) hsameOwn hat
  obtain ⟨m', hdeclares', hsameM⟩ := hdeclares.transfer covers hsameC
  refine ⟨own', c', m', hown', hat', hdeclares', ?_⟩
  unfold hitOf
  rw [hsameC.nodeUid, hsameM.nodeUid, hsameM.qualifiedName, hsameC.candidateLabel]

end Order

section Built

variable (filePaths : List String) (repoUid : String) (cIncludeRoots : List String)
  (declaredModules : List DeclaredModule) (tsconfigPaths : TsconfigPathsIndex) (nodes : List ResolverNode)

omit filePaths repoUid cIncludeRoots declaredModules tsconfigPaths nodes in
lemma map_filter_keyed (key : ResolverNode → Option String) (nodes : List ResolverNode) (k : String) :
    ((nodes.filterMap fun n => (key n).map (·, n)).filter (·.1 = k)).map Prod.snd =
      nodes.filter (key · = some k) := by
  induction nodes with
  | nil => rfl
  | cons n nodes ih =>
    cases hkey : key n with
    | none => simpa [hkey] using ih
    | some k' => by_cases hk : k' = k <;> simpa [hkey, hk] using ih

lemma lookup_nodesBy (key : ResolverNode → Option String) (nodes : List ResolverNode) (k : String) :
    ((nodesBy key nodes).lookup k).getD [] = nodes.filter (key · = some k) := by
  have hpairs : nodesBy key nodes = (nodes.filterMap fun n => (key n).map (·, n)).foldl
      (fun m p => m.entryOrDefault (keyOrder _) p.1 (· ++ [p.2])) ∅ := by
    rw [nodesBy, List.foldl_filterMap]
    congr 1
    funext m n
    cases key n <;> rfl
  rw [hpairs, IterMap.lookup_foldl_group]
  split
  · rename_i hnil
    rw [← map_filter_keyed, hnil]
    rfl
  · rw [Option.getD_some, map_filter_keyed]
    rfl

def builtIndex (nodes : List ResolverNode) : ResolverIndex :=
  .build filePaths repoUid cIncludeRoots declaredModules tsconfigPaths nodes

lemma namedNodes_build (name : String) :
    namedNodes (builtIndex filePaths repoUid cIncludeRoots declaredModules tsconfigPaths nodes) name =
      nodes.filter fun n => some n.name = some name :=
  lookup_nodesBy _ nodes name

lemma qualifiedNodes_build (qualified : String) :
    qualifiedNodes (builtIndex filePaths repoUid cIncludeRoots declaredModules tsconfigPaths nodes) qualified =
      nodes.filter fun n => n.qualifiedName = some qualified :=
  lookup_nodesBy _ nodes qualified

lemma mem_of_listed_build {n : ResolverNode}
    (h : Listed (builtIndex filePaths repoUid cIncludeRoots declaredModules tsconfigPaths nodes) n) :
      n ∈ nodes := by
  rcases h with ⟨name, hn⟩ | ⟨qualified, hn⟩
  · rw [namedNodes_build] at hn
    exact List.mem_of_mem_filter hn
  · rw [qualifiedNodes_build] at hn
    exact List.mem_of_mem_filter hn

theorem keyedByUid_build (h : (nodes.map (·.nodeUid)).Nodup) :
    KeyedByUid (builtIndex filePaths repoUid cIncludeRoots declaredModules tsconfigPaths nodes) := by
  have hnodes : nodes.Nodup := h.of_map _
  constructor
  · intro n n' hn hn' huid
    exact List.inj_on_of_nodup_map h (mem_of_listed_build _ _ _ _ _ _ hn)
      (mem_of_listed_build _ _ _ _ _ _ hn') huid
  · intro name
    rw [namedNodes_build]
    exact hnodes.filter _
  · intro qualified
    rw [qualifiedNodes_build]
    exact hnodes.filter _

omit filePaths repoUid cIncludeRoots declaredModules tsconfigPaths in
lemma SameNodes.filter {nodes' : List ResolverNode} {p : ResolverNode → Bool}
    (hp : ∀ n n', SameNode n n' → p n = p n') (h : SameNodes nodes nodes') :
    SameNodes (nodes.filter p) (nodes'.filter p) := by
  obtain ⟨mid, hperm, hforall⟩ := h
  refine ⟨mid.filter p, hperm.filter p, ?_⟩
  clear hperm
  induction hforall with
  | nil => exact .nil
  | cons hsame _ ih =>
    rw [List.filter_cons, List.filter_cons, hp _ _ hsame]
    split
    · exact .cons hsame ih
    · exact ih

lemma reordered_build {nodes' : List ResolverNode} (h : SameNodes nodes nodes') :
    Reordered (builtIndex filePaths repoUid cIncludeRoots declaredModules tsconfigPaths nodes)
      (builtIndex filePaths repoUid cIncludeRoots declaredModules tsconfigPaths nodes') := by
  constructor
  · intro name
    rw [namedNodes_build, namedNodes_build]
    exact h.filter _ fun n n' hsame => by rw [hsame.1]
  · intro qualified
    rw [qualifiedNodes_build, qualifiedNodes_build]
    exact h.filter _ fun n n' hsame => by rw [hsame.qualifiedName]

end Built

/-- The outcome is that of the least depth with a hit, in whatever order the candidates and the superclasses
stand. -/
theorem resolveSelfCall_correct {index : ResolverIndex} (keyed : KeyedByUid index)
    (enclosingClass method callerFile : String) :
    (∀ outcome, resolveSelfCall index enclosingClass method callerFile = outcome ↔
        FirstHits (HitAt index enclosingClass method callerFile) outcome) ∧
      ∀ index', KeyedByUid index' → Reordered index index' →
        resolveSelfCall index' enclosingClass method callerFile =
          resolveSelfCall index enclosingClass method callerFile := by
  have hspec := firstHits_resolveSelfCall keyed enclosingClass method callerFile
  refine ⟨fun outcome => ⟨?_, hspec.unique⟩, fun index' keyed' hreordered => ?_⟩
  · rintro rfl
    exact hspec
  · have hhits : HitAt index' enclosingClass method callerFile = HitAt index enclosingClass method callerFile := by
      funext d hit
      exact propext ⟨HitAt.transfer keyed' keyed hreordered.covers_symm hreordered.covers,
        HitAt.transfer keyed keyed' hreordered.covers hreordered.covers_symm⟩
    have hspec' := firstHits_resolveSelfCall keyed' enclosingClass method callerFile
    rw [hhits] at hspec'
    exact hspec'.unique hspec

def pythonNode (uid name qualifiedName subtype : String) (superclasses : List String) : ResolverNode :=
  ⟨uid, uid, name, some qualifiedName, "SYMBOL", some subtype, some "f", false, superclasses⟩

def pythonIndex (nodes : List ResolverNode) : ResolverIndex := builtIndex [] "r" [] [] ⟨∅, ∅⟩ nodes

def twoBases : List ResolverNode :=
  [pythonNode "a" "A" "A" "CLASS" ["B", "C"], pythonNode "b" "B" "B" "CLASS" [], pythonNode "c" "C" "C" "CLASS" [],
    pythonNode "bm" "m" "B.m" "METHOD" [], pythonNode "cm" "m" "C.m" "METHOD" []]

def twoBasesReordered : List ResolverNode :=
  [pythonNode "b" "B" "B" "CLASS" [], pythonNode "a" "A" "A" "CLASS" ["C", "B"], pythonNode "c" "C" "C" "CLASS" [],
    pythonNode "bm" "m" "B.m" "METHOD" [], pythonNode "cm" "m" "C.m" "METHOD" []]

lemma sameNodes_twoBases : SameNodes twoBases twoBasesReordered := by
  refine ⟨_, .swap (pythonNode "b" "B" "B" "CLASS" []) (pythonNode "a" "A" "A" "CLASS" ["B", "C"]) _, ?_⟩
  have hself : ∀ n, SameNode n n := fun n => ⟨rfl, .refl _⟩
  exact .cons (hself _) (.cons ⟨rfl, .swap ..⟩ (.cons (hself _) (.cons (hself _) (.cons (hself _) .nil))))

/-- Both orders of two bases that declare the method collide with the same labels. -/
theorem twoBases_collide :
    FirstHits (HitAt (pythonIndex twoBases) "A" "m" "f") (.ambiguousMro ["B.m", "C.m"]) ∧
      resolveSelfCall (pythonIndex twoBasesReordered) "A" "m" "f" = .ambiguousMro ["B.m", "C.m"] := by
  have keyed : KeyedByUid (pythonIndex twoBases) := keyedByUid_build _ _ _ _ _ _ (by decide)
  have keyed' : KeyedByUid (pythonIndex twoBasesReordered) := keyedByUid_build _ _ _ _ _ _ (by decide)
  have hcorrect := resolveSelfCall_correct keyed "A" "m" "f"
  have hcollide : resolveSelfCall (pythonIndex twoBases) "A" "m" "f" = .ambiguousMro ["B.m", "C.m"] := by
    decide +kernel
  refine ⟨(hcorrect.1 _).mp hcollide, ?_⟩
  rw [← hcollide]
  exact hcorrect.2 _ keyed' (reordered_build _ _ _ _ _ _ sameNodes_twoBases)

end RepoGraph.Indexer
