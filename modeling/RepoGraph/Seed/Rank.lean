import Mathlib.Order.Compare
import RepoGraph.Lib.Folds
import RepoGraph.Seed.Pass

/-! The ranking of stored vectors: production before tests, code before fields, and within these by score, where a
declaration has the score of the worst implementation of its name. -/

namespace RepoGraph.Seed

open Lib

section Rank

structure RankedCandidate (S : Type) where
  nodeUid : String
  stableKey : String
  fileUid : String
  path : String
  line : Option ℤ
  qualifiedName : Option String
  isTest : Bool
  isDecl : Bool
  isField : Bool
  score : S
  nearTie : Bool
  deriving DecidableEq, Repr

variable {F S : Type} [LinearOrder S]

abbrev Scored (F S : Type) := S × SeedVectorEntry F

def implStep (m : HashMap (Bool × String) S) (p : Scored F S) : HashMap (Bool × String) S :=
  if p.2.isDecl then m
  else
    match p.2.qualifiedName with
    | none => m
    | some q =>
      match m[(p.2.isTest, q)]? with
      | some cur => if p.1 < cur then m.insert (p.2.isTest, q) p.1 else m
      | none => m.insert (p.2.isTest, q) p.1

def implMinScore (scored : List (Scored F S)) : HashMap (Bool × String) S := scored.foldl implStep ∅

def effective (scored : List (Scored F S)) (p : Scored F S) : S :=
  if p.2.isDecl then (p.2.qualifiedName.bind fun q => (implMinScore scored)[(p.2.isTest, q)]?).getD p.1 else p.1

def rankOrder (effective : Scored F S → S) (a b : Scored F S) : Ordering :=
  (compare a.2.isTest b.2.isTest).then <| (compare a.2.isField b.2.isField).then <|
    (compare (effective b) (effective a)).then <| (compare a.2.isDecl b.2.isDecl).then <|
      (compare a.2.path b.2.path).then (compare a.2.nodeUid b.2.nodeUid)

def candidate (p : Scored F S) : RankedCandidate S where
  nodeUid := p.2.nodeUid
  stableKey := p.2.stableKey
  fileUid := p.2.fileUid
  path := p.2.path
  line := p.2.line
  qualifiedName := p.2.qualifiedName
  isTest := p.2.isTest
  isDecl := p.2.isDecl
  isField := p.2.isField
  score := p.1
  nearTie := false

def markTies (near : S → S → Bool) : List (RankedCandidate S) → List (RankedCandidate S)
  | a :: b :: rest =>
    { a with nearTie := a.isTest = b.isTest && a.isField = b.isField && near a.score b.score } ::
      markTies near (b :: rest)
  | out => out

def scoredOf [Zero S] (score : SeedVectorEntry F → S) (entries : List (SeedVectorEntry F)) : List (Scored F S) :=
  (entries.map fun e => (score e, e)).filter (0 < ·.1)

def rank [Zero S] (score : SeedVectorEntry F → S) (near : S → S → Bool)
    (entries : List (SeedVectorEntry F)) (topN : ℕ) :
    List (RankedCandidate S) :=
  let scored := scoredOf score entries
  markTies near (((sortBy (rankOrder (effective scored)) scored).take topN).map candidate)

end Rank

section Order

variable {F S : Type} [LinearOrder S]

instance rankOrder_trans (effective : Scored F S → S) : Std.TransCmp (rankOrder effective) := by
  have hdual : Std.TransCmp fun a b : Scored F S => compare (effective b) (effective a) :=
    inferInstanceAs (Std.TransCmp fun a b => compareOn effective b a)
  exact inferInstanceAs (Std.TransCmp (compareLex (compareOn (·.2.isTest)) (compareLex (compareOn (·.2.isField))
    (compareLex (fun a b : Scored F S => compare (effective b) (effective a)) (compareLex (compareOn (·.2.isDecl))
      (compareLex (compareOn (·.2.path)) (compareOn (·.2.nodeUid))))))))

lemma effective_impl (scored : List (Scored F S)) {p : Scored F S}
    (h : p.2.isDecl = false) : effective scored p = p.1 := by
  rw [effective, h, if_neg Bool.false_ne_true]

lemma isLE_then {o o' : Ordering} (h : (o.then o').isLE) : o.isLE ∧ (o = .eq → o'.isLE) := by
  rw [Ordering.isLE_then_iff_and] at h
  refine ⟨h.1, fun heq => h.2.resolve_left ?_⟩
  rw [heq]
  exact nofun

lemma isLE_compare_bool {x y : Bool} (h : (compare x y).isLE) (hy : y = false) : x = false := by
  revert x y
  decide

variable {eff : Scored F S → S} {a b : Scored F S}

lemma rankOrder_isLE (h : (rankOrder eff a b).isLE) :
    (b.2.isTest = false → a.2.isTest = false) ∧ (a.2.isTest = b.2.isTest →
      (b.2.isField = false → a.2.isField = false) ∧ (a.2.isField = b.2.isField →
        eff b ≤ eff a ∧ (eff b = eff a → b.2.isDecl = false → a.2.isDecl = false))) := by
  obtain ⟨htest, h⟩ := isLE_then h
  refine ⟨isLE_compare_bool htest, fun hsame => ?_⟩
  obtain ⟨hfield, h⟩ := isLE_then (h (Std.compare_eq_iff_eq.mpr hsame))
  refine ⟨isLE_compare_bool hfield, fun hsame => ?_⟩
  obtain ⟨hscore, h⟩ := isLE_then (h (Std.compare_eq_iff_eq.mpr hsame))
  refine ⟨?_, fun hsame => ?_⟩
  · refine compare_le_iff_le.mp fun hgt => ?_
    rw [hgt] at hscore
    cases hscore
  · exact isLE_compare_bool (isLE_then (h (compare_eq_iff_eq.mpr hsame))).1

lemma rankOrder_eq (h : rankOrder eff a b = .eq) : a.2.nodeUid = b.2.nodeUid := by
  simp only [rankOrder, Ordering.then_eq_eq] at h
  exact Std.compare_eq_iff_eq.mp h.2.2.2.2.2

def implKey (p : Scored F S) : Option (Bool × String) :=
  if p.2.isDecl then none else p.2.qualifiedName.map (p.2.isTest, ·)

lemma getElem?_implStep (m : HashMap (Bool × String) S) (p : Scored F S) (k : Bool × String) :
    (implStep m p)[k]? = if implKey p = some k then some (m[k]?.elim p.1 (min p.1)) else m[k]? := by
  rw [implStep, implKey]
  by_cases hdecl : p.2.isDecl
  · rw [if_pos hdecl, if_pos hdecl, if_neg nofun]
  rw [if_neg hdecl, if_neg hdecl]
  cases p.2.qualifiedName with
  | none => rfl
  | some q =>
    simp only [Option.map_some, Option.some_inj]
    by_cases hk : (p.2.isTest, q) = k
    · subst hk
      rw [if_pos rfl]
      cases hcur : m[(p.2.isTest, q)]? with
      | none => simp
      | some cur =>
        by_cases hlt : p.1 < cur
        · simp [hlt, min_eq_left hlt.le]
        · simp [hlt, hcur, min_eq_right (not_lt.mp hlt)]
    · rw [if_neg hk]
      cases m[(p.2.isTest, q)]? with
      | none => exact getElem?_insert_of_ne _ hk _
      | some cur =>
        by_cases hlt : p.1 < cur
        · simp only [hlt, if_true]
          exact getElem?_insert_of_ne _ hk _
        · simp only [hlt, if_false]

lemma implStep_comm (m : HashMap (Bool × String) S) (p p' : Scored F S) :
    implStep (implStep m p) p' = implStep (implStep m p') p := by
  refine Std.ExtTreeMap.ext_getElem? fun k => ?_
  simp only [getElem?_implStep]
  by_cases hp : implKey p = some k <;> by_cases hp' : implKey p' = some k
  · cases m[k]? with
    | none => simp [hp, hp', min_comm]
    | some cur => simp [hp, hp', min_left_comm]
  · simp [hp, hp']
  · simp [hp, hp']
  · simp [hp, hp']

lemma implMinScore_perm {scored scored' : List (Scored F S)} (h : scored'.Perm scored) :
    implMinScore scored' = implMinScore scored :=
  have : RightCommutative (implStep (F := F) (S := S)) := ⟨implStep_comm⟩
  h.foldl_eq _

lemma implMinScore_le {scored : List (Scored F S)} {p : Scored F S} {k : Bool × String} (h : p ∈ scored)
    (hkey : implKey p = some k) : ∃ m, (implMinScore scored)[k]? = some m ∧ m ≤ p.1 := by
  induction scored using List.reverseRecOn with
  | nil => cases h
  | append_singleton scored r ih =>
    rw [implMinScore, List.foldl_append, ← implMinScore, List.foldl_cons, List.foldl_nil, getElem?_implStep]
    rcases List.mem_append.mp h with h | h
    · obtain ⟨m, hm, hle⟩ := ih h
      rw [hm]
      split
      · exact ⟨_, rfl, (min_le_right _ _).trans hle⟩
      · exact ⟨m, rfl, hle⟩
    · obtain rfl := List.mem_singleton.mp h
      rw [if_pos hkey]
      refine ⟨_, rfl, ?_⟩
      cases (implMinScore scored)[k]? with
      | none => exact le_rfl
      | some cur => exact min_le_left _ _

lemma exists_of_implMinScore {scored : List (Scored F S)} {k : Bool × String} {m : S}
    (h : (implMinScore scored)[k]? = some m) : ∃ p ∈ scored, implKey p = some k ∧ p.1 = m := by
  induction scored using List.reverseRecOn generalizing m with
  | nil => simp [implMinScore] at h
  | append_singleton scored r ih =>
    rw [implMinScore, List.foldl_append, ← implMinScore, List.foldl_cons, List.foldl_nil, getElem?_implStep] at h
    split at h
    · rename_i hkey
      cases hcur : (implMinScore scored)[k]? with
      | none =>
        rw [hcur] at h
        exact ⟨r, by simp, hkey, Option.some.inj h⟩
      | some cur =>
        rw [hcur] at h
        obtain rfl : min r.1 cur = m := Option.some.inj h
        rcases min_choice r.1 cur with hmin | hmin
        · exact ⟨r, by simp, hkey, hmin.symm⟩
        · obtain ⟨p, hp, hpkey, hcurp⟩ := ih hcur
          exact ⟨p, List.mem_append_left _ hp, hpkey, hcurp.trans hmin.symm⟩
    · obtain ⟨p, hp, hpkey, hm⟩ := ih h
      exact ⟨p, List.mem_append_left _ hp, hpkey, hm⟩

omit [LinearOrder S] in
lemma implKey_eq_some {p : Scored F S} {t : Bool} {q : String} :
    implKey p = some (t, q) ↔ p.2.isDecl = false ∧ p.2.isTest = t ∧ p.2.qualifiedName = some q := by
  rw [implKey]
  cases p.2.isDecl <;> simp [and_comm]

end Order

section Ranked

variable {F S : Type} [LinearOrder S]

def RankedCandidate.unmarked (c : RankedCandidate S) : RankedCandidate S := { c with nearTie := false }

def implementationScores [Zero S] (score : SeedVectorEntry F → S) (entries : List (SeedVectorEntry F))
    (c : RankedCandidate S) : Set S :=
  {s | ∃ i ∈ entries, 0 < score i ∧ i.isDecl = false ∧ i.isTest = c.isTest ∧
    (∃ q, c.qualifiedName = some q ∧ i.qualifiedName = some q) ∧ score i = s}

/-- What a candidate is ranked by: its score, and for a declaration the worst score of the implementations of its
name where there are any. -/
inductive Standing [Zero S] (score : SeedVectorEntry F → S) (entries : List (SeedVectorEntry F))
    (c : RankedCandidate S) : S → Prop
  | own : c.isDecl = false ∨ implementationScores score entries c = ∅ → Standing score entries c c.score
  | worst {s : S} : c.isDecl = true → IsLeast (implementationScores score entries c) s → Standing score entries c s

def Shown (score : SeedVectorEntry F → S) (out : List (RankedCandidate S)) (e : SeedVectorEntry F) : Prop :=
  ∃ c ∈ out, c.unmarked = candidate (score e, e)

/-- What is true of a ranking: it shows candidates that scored above zero, each once; tests are behind production
and fields behind code, within such a tier candidates are in the order of their standing, and declarations are
behind all implementations of their names. None is left out for a candidate of a lower tier or for one of its own
tier that stands lower, and the order of the store does not matter. -/
structure Ranked [Zero S] (score : SeedVectorEntry F → S) (near : S → S → Bool)
    (entries : List (SeedVectorEntry F)) (topN : ℕ) (out : List (RankedCandidate S)) : Prop where
  length : out.length = min topN (entries.countP (0 < score ·))
  shown : (out.map RankedCandidate.unmarked).Subperm
    ((entries.filter (0 < score ·)).map fun e => candidate (score e, e))
  partitions : out.Pairwise fun a b => b.isTest = false → a.isTest = false
  tiers : out.Pairwise fun a b => a.isTest = b.isTest → b.isField = false → a.isField = false
  declarations : out.Pairwise fun a b => a.isTest = b.isTest → a.isField = b.isField → a.qualifiedName.isSome →
    a.qualifiedName = b.qualifiedName → b.isDecl = false → a.isDecl = false
  standings : out.Pairwise fun a b => a.isTest = b.isTest → a.isField = b.isField →
    ∀ s s', Standing score entries a s → Standing score entries b s' → s' ≤ s
  kept : ∀ c ∈ out, ∀ e ∈ entries, 0 < score e →
    (c.isTest = true ∧ e.isTest = false ∨ c.isTest = e.isTest ∧ c.isField = true ∧ e.isField = false) →
    Shown score out e
  best : ∀ c ∈ out, ∀ e ∈ entries, 0 < score e → c.isTest = e.isTest →
    c.isField = e.isField → ¬ Shown score out e →
    ∀ s s', Standing score entries c s → Standing score entries (candidate (score e, e)) s' → s' ≤ s
  stable : (entries.map (·.nodeUid)).Nodup → ∀ entries', entries'.Perm entries →
    rank score near entries' topN = out

variable {score : SeedVectorEntry F → S} {near : S → S → Bool} {entries : List (SeedVectorEntry F)} {topN : ℕ}

omit [LinearOrder S] in
lemma markTies_unmarked (near : S → S → Bool) (l : List (RankedCandidate S)) :
    (markTies near l).map RankedCandidate.unmarked = l.map RankedCandidate.unmarked := by
  induction l with
  | nil => rfl
  | cons a l ih =>
    cases l with
    | nil => rfl
    | cons b rest =>
      rw [markTies, List.map_cons, ih, List.map_cons]
      rfl

variable [Zero S]

def ranking (score : SeedVectorEntry F → S) (entries : List (SeedVectorEntry F)) : List (Scored F S) :=
  sortBy (rankOrder (effective (scoredOf score entries))) (scoredOf score entries)

lemma rank_unmarked : (rank score near entries topN).map RankedCandidate.unmarked =
    ((ranking score entries).take topN).map candidate := by
  rw [rank, markTies_unmarked, List.map_map]
  rfl

lemma mem_scoredOf {p : Scored F S} : p ∈ scoredOf score entries ↔ p.2 ∈ entries ∧ 0 < p.1 ∧ p.1 = score p.2 := by
  rw [scoredOf, List.mem_filter, List.mem_map, decide_eq_true_eq]
  constructor
  · rintro ⟨⟨e, he, rfl⟩, hpos⟩
    exact ⟨he, hpos, rfl⟩
  · rintro ⟨he, hpos, hscore⟩
    exact ⟨⟨p.2, he, Prod.ext hscore.symm rfl⟩, hpos⟩

lemma mem_implementationScores {c : RankedCandidate S} {q : String} (hq : c.qualifiedName = some q) {s : S} :
    s ∈ implementationScores score entries c ↔
      ∃ p ∈ scoredOf score entries, implKey p = some (c.isTest, q) ∧ p.1 = s := by
  constructor
  · rintro ⟨i, hi, hpos, hdecl, htest, ⟨q', hq', hname⟩, rfl⟩
    obtain rfl := Option.some.inj (hq.symm.trans hq')
    exact ⟨(score i, i), mem_scoredOf.mpr ⟨hi, hpos, rfl⟩, implKey_eq_some.mpr ⟨hdecl, htest, hname⟩, rfl⟩
  · rintro ⟨p, hp, hkey, rfl⟩
    obtain ⟨hi, hpos, hscore⟩ := mem_scoredOf.mp hp
    obtain ⟨hdecl, htest, hname⟩ := implKey_eq_some.mp hkey
    exact ⟨p.2, hi, hscore ▸ hpos, hdecl, htest, ⟨q, hq, hname⟩, hscore.symm⟩

lemma standing_effective (p : Scored F S) :
    Standing score entries (candidate p) (effective (scoredOf score entries) p) := by
  cases hdecl : p.2.isDecl with
  | false =>
    rw [effective_impl _ hdecl]
    exact .own (Or.inl hdecl)
  | true =>
    rw [effective, hdecl, if_pos rfl]
    cases hq : p.2.qualifiedName with
    | none =>
      refine .own (Or.inr (Set.eq_empty_iff_forall_notMem.mpr ?_))
      rintro s ⟨-, -, -, -, -, ⟨q, hname, -⟩, -⟩
      exact absurd (hq.symm.trans hname) nofun
    | some q =>
      have hname : (candidate p).qualifiedName = some q := hq
      rw [Option.bind_some]
      cases hm : (implMinScore (scoredOf score entries))[(p.2.isTest, q)]? with
      | none =>
        refine .own (Or.inr (Set.eq_empty_iff_forall_notMem.mpr fun s hs => ?_))
        obtain ⟨i, hi, hkey, -⟩ := (mem_implementationScores hname).mp hs
        obtain ⟨m, hm', -⟩ := implMinScore_le hi hkey
        exact absurd (hm.symm.trans hm') nofun
      | some m =>
        refine .worst hdecl ⟨(mem_implementationScores hname).mpr (exists_of_implMinScore hm), fun s hs => ?_⟩
        obtain ⟨i, hi, hkey, rfl⟩ := (mem_implementationScores hname).mp hs
        obtain ⟨m', hm', hle⟩ := implMinScore_le hi hkey
        rwa [Option.getD_some, Option.some.inj (hm.symm.trans hm')]

lemma Standing.unique {c : RankedCandidate S} {s s' : S} (h : Standing score entries c s)
    (h' : Standing score entries c s') : s = s' := by
  cases h with
  | own hown =>
    cases h' with
    | own => rfl
    | worst hdecl hleast =>
      rcases hown with hnot | hempty
      · exact absurd (hdecl.symm.trans hnot) nofun
      · exact absurd hleast.1 (hempty ▸ Set.notMem_empty _)
  | worst hdecl hleast =>
    cases h' with
    | own hown =>
      rcases hown with hnot | hempty
      · exact absurd (hdecl.symm.trans hnot) nofun
      · exact absurd hleast.1 (hempty ▸ Set.notMem_empty _)
    | worst _ hleast' => exact hleast.unique hleast'

lemma standing_le {p p' : Scored F S} (hle : (rankOrder (effective (scoredOf score entries)) p p').isLE)
    (htest : p.2.isTest = p'.2.isTest) (hfield : p.2.isField = p'.2.isField) {s s' : S}
    (hs : Standing score entries (candidate p) s) (hs' : Standing score entries (candidate p') s') : s' ≤ s := by
  rw [hs.unique (standing_effective p), hs'.unique (standing_effective p')]
  exact (((rankOrder_isLE hle).2 htest).2 hfield).1

lemma mem_ranking {p : Scored F S} : p ∈ ranking score entries ↔ p ∈ scoredOf score entries :=
  (sortBy_perm _ _).mem_iff

lemma rank_pairwise {R : RankedCandidate S → RankedCandidate S → Prop}
    (hmarks : ∀ a b, R a.unmarked b.unmarked → R a b)
    (h : ∀ p ∈ scoredOf score entries, ∀ p' ∈ scoredOf score entries,
      (rankOrder (effective (scoredOf score entries)) p p').isLE → R (candidate p) (candidate p')) :
    (rank score near entries topN).Pairwise R := by
  refine List.Pairwise.imp (hmarks _ _) (List.pairwise_map.mp ?_)
  rw [rank_unmarked, List.pairwise_map]
  have hsorted := (@pairwise_sortBy _ (rankOrder (effective (scoredOf score entries))) _
    (scoredOf score entries)).sublist
    (List.take_sublist topN _)
  refine hsorted.imp_of_mem fun hp hp' hle => h _ ?_ _ ?_ hle
  · exact mem_ranking.mp (List.mem_of_mem_take hp)
  · exact mem_ranking.mp (List.mem_of_mem_take hp')

lemma rank_declarations : (rank score near entries topN).Pairwise fun a b => a.isTest = b.isTest →
    a.isField = b.isField →
    a.qualifiedName.isSome → a.qualifiedName = b.qualifiedName → b.isDecl = false → a.isDecl = false := by
  refine rank_pairwise (fun _ _ h => h) fun p hp p' hp' hle htest hfield hsome hname hdecl' => ?_
  obtain ⟨-, htiers⟩ := rankOrder_isLE hle
  obtain ⟨-, hscores⟩ := htiers htest
  obtain ⟨heff, hsame⟩ := hscores hfield
  by_contra hdecl
  rw [Bool.not_eq_false] at hdecl
  obtain ⟨q, hq⟩ := Option.isSome_iff_exists.mp hsome
  have hkey : implKey p' = some (p.2.isTest, q) := by
    have hq' : p'.2.qualifiedName = some q := hname.symm.trans hq
    rw [implKey, if_neg (by rw [show p'.2.isDecl = false from hdecl']; exact Bool.false_ne_true), hq',
      Option.map_some, show p'.2.isTest = p.2.isTest from htest.symm]
  obtain ⟨m, hm, hle'⟩ := implMinScore_le hp' hkey
  have heffp : effective (scoredOf score entries) p = m := by
    rw [effective, show p.2.isDecl = true from hdecl, if_pos rfl, show p.2.qualifiedName = some q from hq,
      Option.bind_some, hm, Option.getD_some]
  refine absurd (hsame (le_antisymm heff ?_) hdecl') ?_
  · rwa [effective_impl _ hdecl', heffp]
  · rw [Bool.not_eq_false]
    exact hdecl

lemma shown_or_behind {p' : Scored F S} (hp' : p' ∈ scoredOf score entries) :
    p' ∈ (ranking score entries).take topN ∨
      ∀ p ∈ (ranking score entries).take topN, (rankOrder (effective (scoredOf score entries)) p p').isLE := by
  have hsorted := @pairwise_sortBy _ (rankOrder (effective (scoredOf score entries))) _ (scoredOf score entries)
  rw [← ranking, ← List.take_append_drop topN (ranking score entries), List.pairwise_append] at hsorted
  have hmem := mem_ranking.mpr hp'
  rw [← List.take_append_drop topN (ranking score entries)] at hmem
  exact (List.mem_append.mp hmem).imp_right fun hdrop p hp => hsorted.2.2 p hp p' hdrop

lemma mem_rank_unmarked {c : RankedCandidate S} (hc : c ∈ rank score near entries topN) :
    ∃ p ∈ (ranking score entries).take topN, candidate p = c.unmarked := by
  have hmem := List.mem_map_of_mem (f := RankedCandidate.unmarked) hc
  rw [rank_unmarked] at hmem
  exact List.mem_map.mp hmem

lemma shown_of_mem {p : Scored F S} (hp : p ∈ (ranking score entries).take topN) :
    ∃ c ∈ rank score near entries topN, c.unmarked = candidate p := by
  have hmem := List.mem_map_of_mem (f := candidate) hp
  rw [← @rank_unmarked _ _ _ score near entries topN] at hmem
  exact List.mem_map.mp hmem

lemma rank_perm (hnodup : (entries.map (·.nodeUid)).Nodup) {entries' : List (SeedVectorEntry F)}
    (h : entries'.Perm entries) :
    rank score near entries' topN = rank score near entries topN := by
  have hscored : (scoredOf score entries').Perm (scoredOf score entries) := (h.map _).filter _
  have heffective : effective (scoredOf score entries') = effective (scoredOf score entries) := by
    funext p
    rw [effective, implMinScore_perm hscored, ← effective]
  rw [rank, rank, heffective, sortBy_eq_of_perm hscored]
  intro p hp p' hp' htie
  have hp := mem_scoredOf.mp (hscored.mem_iff.mp hp)
  have hp' := mem_scoredOf.mp (hscored.mem_iff.mp hp')
  have hentry : p.2 = p'.2 := List.inj_on_of_nodup_map hnodup hp.1 hp'.1 (rankOrder_eq htie)
  exact Prod.ext (by rw [hp.2.2, hp'.2.2, hentry]) hentry

lemma rank_subperm : ((rank score near entries topN).map RankedCandidate.unmarked).Subperm
    ((entries.filter (0 < score ·)).map fun e => candidate (score e, e)) := by
  have hscored : (scoredOf score entries).map candidate =
      (entries.filter (0 < score ·)).map fun e => candidate (score e, e) := by
    rw [scoredOf, List.filter_map, List.map_map]
    rfl
  rw [rank_unmarked, ← hscored]
  exact ((List.take_sublist topN _).map candidate).subperm.trans ((sortBy_perm _ _).map candidate).subperm

lemma Standing.of_unmarked {c : RankedCandidate S} {s : S} (h : Standing score entries c s) :
    Standing score entries c.unmarked s := by
  cases h with
  | own hown => exact Standing.own (c := c.unmarked) hown
  | worst hdecl hleast => exact Standing.worst (c := c.unmarked) hdecl hleast

theorem rank_ranked (score : SeedVectorEntry F → S) (near : S → S → Bool)
    (entries : List (SeedVectorEntry F)) (topN : ℕ) :
    Ranked score near entries topN (rank score near entries topN) := by
  have hlength : (ranking score entries).length = entries.countP (0 < score ·) := by
    rw [ranking, (sortBy_perm _ _).length_eq, scoredOf, ← List.countP_eq_length_filter, List.countP_map]
    rfl
  refine ⟨?_, rank_subperm, ?_, ?_, rank_declarations, ?_, ?_, ?_, fun hnodup entries' h => rank_perm hnodup h⟩
  · rw [← List.length_map RankedCandidate.unmarked, rank_unmarked, List.length_map, List.length_take, hlength]
  · exact rank_pairwise (fun _ _ h => h) fun p _ p' _ hle => (rankOrder_isLE hle).1
  · exact rank_pairwise (fun _ _ h => h) fun p _ p' _ hle htest => ((rankOrder_isLE hle).2 htest).1
  · refine rank_pairwise (fun a b h => ?_) fun p _ p' _ hle htest hfield s s' hs hs' =>
      standing_le hle htest hfield hs hs'
    exact fun htest hfield s s' hs hs' => h htest hfield s s' hs.of_unmarked hs'.of_unmarked
  · intro c hc e he hpos hlower
    obtain ⟨p, hp, hcandidate⟩ := mem_rank_unmarked hc
    have htest : p.2.isTest = c.isTest := congrArg RankedCandidate.isTest hcandidate
    have hfield : p.2.isField = c.isField := congrArg RankedCandidate.isField hcandidate
    rcases shown_or_behind ((mem_scoredOf (p := (score e, e))).mpr ⟨he, hpos, rfl⟩) with hshown | hbehind
    · exact shown_of_mem hshown
    · obtain ⟨hpartition, htier⟩ := rankOrder_isLE (hbehind p hp)
      rw [htest, hfield] at htier
      rcases hlower with ⟨htest', he'⟩ | ⟨htest', hfield', he'⟩
      · have hfalse := hpartition he'
        rw [htest, htest'] at hfalse
        cases hfalse
      · have hfalse := (htier htest').1 he'
        rw [hfield'] at hfalse
        cases hfalse
  · intro c hc e he hpos htest hfield hleft s s' hs hs'
    obtain ⟨p, hp, hcandidate⟩ := mem_rank_unmarked hc
    have htest' : p.2.isTest = c.isTest := congrArg RankedCandidate.isTest hcandidate
    have hfield' : p.2.isField = c.isField := congrArg RankedCandidate.isField hcandidate
    rcases shown_or_behind ((mem_scoredOf (p := (score e, e))).mpr ⟨he, hpos, rfl⟩) with hshown | hbehind
    · exact absurd (shown_of_mem hshown) hleft
    · exact standing_le (hbehind p hp) (htest'.trans htest) (hfield'.trans hfield)
        (hcandidate ▸ hs.of_unmarked) hs'

end Ranked

end RepoGraph.Seed
