import RepoGraph.Agent.PackageGroups
import RepoGraph.Lib.Tally

/-! The names of package groups: each is the end of its key, and groups that would have shown one name show
different ones. -/

namespace RepoGraph.Agent

open Lib Lib.Text

section Segments

variable {key name : String} {k : ℕ}

def IsSegmentSuffix (name key : String) : Prop :=
  ∃ before last, segments key = before ++ last ∧ last ≠ [] ∧ name = join "/" last

lemma segments_ne_nil (key : String) : segments key ≠ [] := by
  simpa [segments, split] using splitAll_ne_nil '/' key.toList

lemma join_segments (key : String) : join "/" (segments key) = key := join_split key '/'

lemma segments_join {pieces : List String} (hne : pieces ≠ []) (h : ∀ p ∈ pieces, p ∈ segments key) :
    segments (join "/" pieces) = pieces := by
  have hsplit : split (join (String.singleton '/') pieces) '/' = pieces :=
    split_join hne fun p hp => not_mem_of_mem_split (h p hp)
  exact hsplit

lemma isSegmentSuffix_drop (h : k < (segments key).length) :
    IsSegmentSuffix (join "/" ((segments key).drop k)) key := by
  refine ⟨(segments key).take k, _, (List.take_append_drop k _).symm, ?_, rfl⟩
  rw [Ne, List.drop_eq_nil_iff]
  omega

lemma isSegmentSuffix_last {last : String} (h : (segments key).getLast? = some last) :
    IsSegmentSuffix last key := by
  refine ⟨(segments key).dropLast, [last], ?_, by simp, by simp [join]⟩
  exact (List.dropLast_append_getLast? last h).symm

lemma lastSegment_suffix (key : String) : IsSegmentSuffix (lastSegment key) key := by
  rw [lastSegment, List.getLast?_eq_some_getLast (segments_ne_nil key), Option.getD_some]
  exact isSegmentSuffix_last (List.getLast?_eq_some_getLast _)

lemma sharedSegments_le (limit : ℕ) (xs ys : List String) : sharedSegments limit xs ys ≤ limit := by
  induction limit generalizing xs ys with
  | zero => cases xs <;> cases ys <;> simp [sharedSegments]
  | succ limit ih =>
    cases xs with
    | nil => simp [sharedSegments]
    | cons x xs =>
      cases ys with
      | nil => simp [sharedSegments]
      | cons y ys =>
        unfold sharedSegments
        split
        · have := ih xs ys
          omega
        · omega

lemma take_sharedSegments {limit len : ℕ} {xs ys : List String} (hle : len ≤ sharedSegments limit xs ys) :
    ys.take len <+: xs := by
  induction len generalizing limit xs ys with
  | zero => simp
  | succ len ih =>
    cases limit with
    | zero => cases xs <;> cases ys <;> simp [sharedSegments] at hle
    | succ limit =>
      cases xs with
      | nil => simp [sharedSegments] at hle
      | cons x xs =>
        cases ys with
        | nil => simp [sharedSegments] at hle
        | cons y ys =>
          unfold sharedSegments at hle
          by_cases he : x = y
          · rw [if_pos he] at hle
            subst he
            simpa using ih (Nat.le_of_succ_le_succ hle)
          · rw [if_neg he] at hle
            omega

lemma narrowPrefix_le (first : List String) (len : ℕ)
    (keys : List String) : narrowPrefix first len keys ≤ len := by
  induction keys generalizing len with
  | nil => exact le_refl _
  | cons k keys ih =>
    have hshared := sharedSegments_le len (segments k) first
    unfold narrowPrefix
    dsimp only
    split
    · omega
    · exact (ih _).trans hshared

lemma take_narrowPrefix {first : List String} {len : ℕ} {keys : List String} {k : String} (hk : k ∈ keys) :
    first.take (narrowPrefix first len keys) <+: segments k := by
  induction keys generalizing len with
  | nil => simp at hk
  | cons k' keys ih =>
    unfold narrowPrefix
    dsimp only
    split
    · simp
    · rcases List.mem_cons.mp hk with rfl | hk
      · exact take_sharedSegments (narrowPrefix_le _ _ _)
      · exact ih hk

lemma commonSegmentPrefix_initial {keys : List String}
    (hk : key ∈ keys) : commonSegmentPrefix keys <+: segments key := by
  cases keys with
  | nil => simp at hk
  | cons k keys =>
    rcases List.mem_cons.mp hk with rfl | hk
    · exact List.take_prefix _ _
    · exact take_narrowPrefix hk

lemma displayName_suffix {common : List String} (h : common <+: segments key) :
    IsSegmentSuffix (displayName key common) key := by
  unfold displayName
  dsimp only
  by_cases hlen : (segments key).length > common.length
  · rw [if_pos hlen]
    exact isSegmentSuffix_drop hlen
  · rw [if_neg hlen]
    obtain rfl : common = segments key := h.eq_of_length_le (by omega)
    rw [List.getLast?_eq_some_getLast (segments_ne_nil key), Option.getD_some]
    exact isSegmentSuffix_last (List.getLast?_eq_some_getLast _)

lemma segmentSuffix_of_le (h : k ≤ (segments key).length) :
    segmentSuffix key k = join "/" ((segments key).drop ((segments key).length - k)) := if_pos h

lemma segmentSuffix_self (key : String) : segmentSuffix key (segments key).length = key := by
  rw [segmentSuffix_of_le (le_refl _), Nat.sub_self, List.drop_zero, join_segments]

lemma segmentSuffix_suffix (hpos : 0 < k)
    (h : k ≤ (segments key).length) : IsSegmentSuffix (segmentSuffix key k) key := by
  rw [segmentSuffix_of_le h]
  exact isSegmentSuffix_drop (by omega)

lemma length_segments_suffix (hpos : 0 < k) (h : k ≤ (segments key).length) :
    (segments (segmentSuffix key k)).length = k := by
  have hne : (segments key).drop ((segments key).length - k) ≠ [] := by
    rw [Ne, List.drop_eq_nil_iff]
    omega
  rw [segmentSuffix_of_le h, segments_join hne fun p hp => List.mem_of_mem_drop hp, List.length_drop]
  omega

end Segments

section Distinguishing

variable {key other : String} {others : List String} {p q : ℕ}

lemma shortestDistinguishingSuffix_spec (key : String) (others : List String) (p : ℕ) :
    ∃ k, 0 < k ∧ k ≤ (segments key).length ∧ shortestDistinguishingSuffix key others p = segmentSuffix key k ∧
      (k = (segments key).length ∨
        ∀ q other, others[q]? = some other → q ≠ p → segmentSuffix other k ≠ segmentSuffix key k) := by
  have hlen : 0 < (segments key).length := List.length_pos_of_ne_nil (segments_ne_nil key)
  unfold shortestDistinguishingSuffix
  dsimp only
  split
  · rename_i k hk
    have hmem := List.mem_of_find?_eq_some hk
    have hunique := List.find?_some hk
    rw [List.mem_range'_1] at hmem
    refine ⟨k, by omega, by omega, rfl, .inr ?_⟩
    intro q other hother hne
    simp only [List.all_eq_true, decide_eq_true_eq] at hunique
    exact (hunique (other, q) (List.mk_mem_zipIdx_iff_getElem?.mpr hother)).resolve_left hne
  · exact ⟨_, hlen, le_refl _, (segmentSuffix_self key).symm, .inl rfl⟩

lemma shortestDistinguishingSuffix_suffix (key : String) (others : List String) (p : ℕ) :
    IsSegmentSuffix (shortestDistinguishingSuffix key others p) key := by
  obtain ⟨k, hpos, hle, heq, -⟩ := shortestDistinguishingSuffix_spec key others p
  rw [heq]
  exact segmentSuffix_suffix hpos hle

/-- Of distinct keys, two show different suffixes: equal ones would have equally many segments. -/
lemma shortestDistinguishingSuffix_ne (hdistinct : others.Nodup) (hp : others[p]? = some key)
    (hq : others[q]? = some other) (hne : p ≠ q) :
    shortestDistinguishingSuffix key others p ≠ shortestDistinguishingSuffix other others q := by
  obtain ⟨k, hpos, hle, heq, hk⟩ := shortestDistinguishingSuffix_spec key others p
  obtain ⟨k', hpos', hle', heq', hk'⟩ := shortestDistinguishingSuffix_spec other others q
  intro hsame
  rw [heq, heq'] at hsame
  have hcount := congrArg (fun s => (segments s).length) hsame
  rw [length_segments_suffix hpos hle, length_segments_suffix hpos' hle'] at hcount
  subst hcount
  rcases hk with hk | hk
  · rcases hk' with hk' | hk'
    · have hsame' : key = other := by
        rw [← segmentSuffix_self key, ← segmentSuffix_self other, ← hk, ← hk']
        exact hsame
      subst hsame'
      obtain ⟨hplt, hpget⟩ := List.getElem?_eq_some_iff.mp hp
      obtain ⟨hqlt, hqget⟩ := List.getElem?_eq_some_iff.mp hq
      exact hne ((hdistinct.getElem_inj_iff).mp (hpget.trans hqget.symm))
    · exact hk' p key hp hne hsame
  · exact hk q other hq (Ne.symm hne) hsame.symm

end Distinguishing

section Renaming

variable {named named' : List NamedGroup} {idxs : List ℕ} {i j : ℕ} {e f : NamedGroup} {display : String}

def keysAt (named : List NamedGroup) (idxs : List ℕ) : List String :=
  idxs.filterMap fun i => named[i]?.map NamedGroup.key

def renamed (keys : List String) (pos : ℕ) (e : NamedGroup) : NamedGroup :=
  { e with display := shortestDistinguishingSuffix e.key keys pos }

lemma renameColliding_eq (hidxs : idxs.Nodup) (named : List NamedGroup) (i : ℕ) :
    (renameColliding named idxs)[i]? = named[i]?.map fun e =>
      if 2 ≤ idxs.length ∧ i ∈ idxs then renamed (keysAt named idxs) (idxs.idxOf i) e else e := by
  unfold renameColliding
  dsimp only
  by_cases hlen : idxs.length < 2
  · rw [if_pos hlen]
    simp [Nat.not_le.mpr hlen]
  · rw [if_neg hlen]
    have hmodify := getElem?_foldl_modify (renamed (keysAt named idxs)) hidxs 0 named i
    simp only [Nat.zero_add] at hmodify
    simp only [Nat.not_lt.mp hlen, true_and]
    exact hmodify

lemma keysAt_renameColliding (hidxs : idxs.Nodup) (named : List NamedGroup) (idxs' : List ℕ) :
    keysAt (renameColliding named idxs) idxs' = keysAt named idxs' := by
  apply List.filterMap_congr
  intro i _
  rw [renameColliding_eq hidxs, Option.map_map]
  congr 1
  funext e
  rw [Function.comp_apply]
  split <;> rfl

lemma foldl_renameColliding {sets : List (List ℕ)} (hnodup : ∀ idxs ∈ sets, idxs.Nodup)
    (hdisjoint : sets.Pairwise List.Disjoint) (named : List NamedGroup) (i : ℕ) :
    (sets.foldl renameColliding named)[i]? = named[i]?.map fun e =>
      match sets.find? (i ∈ ·) with
      | some idxs => if 2 ≤ idxs.length then renamed (keysAt named idxs) (idxs.idxOf i) e else e
      | none => e := by
  induction sets generalizing named with
  | nil => simp
  | cons idxs sets ih =>
    obtain ⟨hidxs, hsets⟩ := List.forall_mem_cons.mp hnodup
    obtain ⟨hfirst, hrest⟩ := List.pairwise_cons.mp hdisjoint
    rw [List.foldl_cons, ih hsets hrest, renameColliding_eq hidxs, Option.map_map, List.find?_cons]
    congr 1
    funext e
    simp only [Function.comp_apply, keysAt_renameColliding hidxs]
    by_cases hin : i ∈ idxs
    · have hnone : sets.find? (i ∈ ·) = none := by
        rw [List.find?_eq_none]
        intro idxs' hidxs'
        simpa using hfirst idxs' hidxs' hin
      simp [hin, hnone]
    · simp [hin]

def indicesOf (named : List NamedGroup) (display : String) : List ℕ :=
  (named.zipIdx.filter (·.1.display = display)).map Prod.snd

lemma mem_indicesOf : i ∈ indicesOf named display ↔ ∃ e, named[i]? = some e ∧ e.display = display := by
  simp only [indicesOf, List.mem_map, List.mem_filter, decide_eq_true_eq, Prod.exists,
    List.mk_mem_zipIdx_iff_getElem?]
  constructor
  · rintro ⟨e, i, ⟨he, hdisplay⟩, rfl⟩
    exact ⟨e, he, hdisplay⟩
  · rintro ⟨e, he, hdisplay⟩
    exact ⟨e, i, ⟨he, hdisplay⟩, rfl⟩

lemma nodup_indicesOf (named : List NamedGroup) (display : String) : (indicesOf named display).Nodup := by
  have hsub : (indicesOf named display).Sublist (named.zipIdx.map Prod.snd) := List.filter_sublist.map _
  rw [List.zipIdx_map_snd] at hsub
  exact hsub.nodup List.nodup_range'

lemma groupsByDisplay_eq (named : List NamedGroup) (display : String) : (groupsByDisplay named)[display]? =
    if indicesOf named display = [] then none else some (indicesOf named display) := by
  have hgroup := getElem?_foldl_group (fun e : NamedGroup × ℕ => e.1.display) (fun (l : List ℕ) e => l ++ [e.2]) []
    named.zipIdx (∅ : BTreeMap String (List ℕ)) display
  have hconcat : ∀ (l : List (NamedGroup × ℕ)) (acc : List ℕ),
      l.foldl (fun (l : List ℕ) e => l ++ [e.2]) acc = acc ++ l.map Prod.snd := by
    intro l
    induction l with
    | nil => simp
    | cons e l ih =>
      intro acc
      rw [List.foldl_cons, ih]
      simp
  have hlookup : (groupsByDisplay named)[display]? = _ := hgroup
  rw [hlookup, hconcat]
  simp only [indicesOf, List.map_eq_nil_iff]
  simp

lemma mem_displaySets {idxs : List ℕ} {display : String} :
    (display, idxs) ∈ (groupsByDisplay named).toList ↔ idxs = indicesOf named display ∧ idxs ≠ [] := by
  rw [Std.ExtTreeMap.mem_toList_iff_getElem?_eq_some, groupsByDisplay_eq]
  by_cases hnil : indicesOf named display = []
  · rw [if_pos hnil]
    simp only [reduceCtorEq, false_iff, not_and, not_not]
    rintro rfl
    exact hnil
  · rw [if_neg hnil, Option.some.injEq, eq_comm]
    refine ⟨fun h => ⟨h, h ▸ hnil⟩, fun h => h.1⟩

lemma disambiguate_eq (h : named[i]? = some e) : (disambiguate named)[i]? = some (
    if 2 ≤ (indicesOf named e.display).length then
      renamed (keysAt named (indicesOf named e.display)) ((indicesOf named e.display).idxOf i) e
    else e) := by
  have hnodup : ∀ idxs ∈ (groupsByDisplay named).toList.map Prod.snd, idxs.Nodup := by
    intro idxs hidxs
    obtain ⟨⟨display, _⟩, hmem, rfl⟩ := List.mem_map.mp hidxs
    obtain ⟨rfl, -⟩ := mem_displaySets.mp hmem
    exact nodup_indicesOf _ _
  have hdisjoint : ((groupsByDisplay named).toList.map Prod.snd).Pairwise List.Disjoint := by
    have hkeys := Tally.nodup_keys_toList (groupsByDisplay named)
    rw [List.pairwise_map]
    refine (List.pairwise_map.mp hkeys).imp_of_mem ?_
    rintro ⟨display, idxs⟩ ⟨display', idxs'⟩ hmem hmem' hne i hi hi'
    obtain ⟨rfl, -⟩ := mem_displaySets.mp hmem
    obtain ⟨rfl, -⟩ := mem_displaySets.mp hmem'
    obtain ⟨e, he, rfl⟩ := mem_indicesOf.mp hi
    obtain ⟨e', he', rfl⟩ := mem_indicesOf.mp hi'
    obtain rfl := Option.some.inj (he.symm.trans he')
    exact hne rfl
  have hi : i ∈ indicesOf named e.display := mem_indicesOf.mpr ⟨e, h, rfl⟩
  have hfind : ((groupsByDisplay named).toList.map Prod.snd).find? (i ∈ ·) = some (indicesOf named e.display) := by
    cases hfound : ((groupsByDisplay named).toList.map Prod.snd).find? (i ∈ ·) with
    | none =>
      have hset := mem_displaySets.mpr ⟨rfl, List.ne_nil_of_mem hi⟩
      exact absurd (decide_eq_true hi) (List.find?_eq_none.mp hfound _ (List.mem_map_of_mem hset))
    | some idxs =>
      obtain ⟨⟨display, _⟩, hmem, rfl⟩ := List.mem_map.mp (List.mem_of_find?_eq_some hfound)
      obtain ⟨rfl, -⟩ := mem_displaySets.mp hmem
      have hin := List.find?_some hfound
      rw [decide_eq_true_eq] at hin
      obtain ⟨e', he', rfl⟩ := mem_indicesOf.mp hin
      obtain rfl := Option.some.inj (h.symm.trans he')
      rfl
  rw [disambiguate, foldl_renameColliding hnodup hdisjoint, h, hfind, Option.map_some]

lemma getElem?_keysAt (hvalid : ∀ i ∈ idxs, ∃ e, named[i]? = some e) (p : ℕ) :
    (keysAt named idxs)[p]? = idxs[p]?.bind fun i => named[i]?.map NamedGroup.key := by
  induction idxs generalizing p with
  | nil => simp [keysAt]
  | cons i idxs ih =>
    obtain ⟨⟨e, he⟩, hrest⟩ := List.forall_mem_cons.mp hvalid
    have hcons : keysAt named (i :: idxs) = e.key :: keysAt named idxs := by simp [keysAt, he]
    rw [hcons]
    cases p with
    | zero => simp [he]
    | succ p => simpa using ih hrest p

lemma nodup_keysAt (hkeys : (named.map NamedGroup.key).Nodup)
    (hidxs : idxs.Nodup) : (keysAt named idxs).Nodup := by
  refine List.Nodup.filterMap ?_ hidxs
  intro i j k hi hj
  rw [Option.mem_def, ← List.getElem?_map] at hi hj
  obtain ⟨hilt, hi⟩ := List.getElem?_eq_some_iff.mp hi
  obtain ⟨hjlt, hj⟩ := List.getElem?_eq_some_iff.mp hj
  exact (hkeys.getElem_inj_iff).mp (hi.trans hj.symm)

end Renaming

section Names

variable {acc : BTreeMap String GroupTotals} {named : List NamedGroup} {e : NamedGroup} {i : ℕ}
  {dirs : List DirGroup} {roots : List ManifestRoot}

lemma keys_namedGroups (acc : BTreeMap String GroupTotals) :
    (namedGroups acc).map NamedGroup.key = acc.toList.map Prod.fst := by
  rw [namedGroups, List.map_map]
  rfl

lemma namedGroups_suffix (he : e ∈ namedGroups acc) : IsSegmentSuffix e.display e.key := by
  obtain ⟨⟨key, total, test, isManifest⟩, hmem, rfl⟩ := List.mem_map.mp he
  cases isManifest with
  | true => exact lastSegment_suffix key
  | false =>
    refine displayName_suffix (commonSegmentPrefix_initial ?_)
    exact List.mem_map.mpr ⟨(key, total, test, false), List.mem_filter.mpr ⟨hmem, rfl⟩, rfl⟩

lemma disambiguate_none (h : named[i]? = none) : (disambiguate named)[i]? = none := by
  have hkept : ∀ (sets : List (List ℕ)) (named : List NamedGroup),
      (sets.foldl renameColliding named).length = named.length := by
    intro sets
    induction sets with
    | nil => simp
    | cons idxs sets ih =>
      intro named
      rw [List.foldl_cons, ih]
      unfold renameColliding
      dsimp only
      split
      · rfl
      · generalize idxs.zipIdx = turns
        generalize idxs.filterMap (fun i => named[i]?.map NamedGroup.key) = keys
        induction turns generalizing named with
        | nil => rfl
        | cons turn turns ih' => rw [List.foldl_cons, ih', List.length_modify]
  rw [List.getElem?_eq_none_iff, disambiguate, hkept]
  exact List.getElem?_eq_none_iff.mp h

lemma map_disambiguate {α : Type} (g : NamedGroup → α)
    (hg : ∀ keys pos e, g (renamed keys pos e) = g e) (named : List NamedGroup) :
    (disambiguate named).map g = named.map g := by
  apply List.ext_getElem?
  intro i
  rw [List.getElem?_map, List.getElem?_map]
  cases h : named[i]? with
  | none => rw [disambiguate_none h]
  | some e =>
    rw [disambiguate_eq h, Option.map_some, Option.map_some]
    congr 1
    split
    · exact hg _ _ _
    · rfl

lemma keys_disambiguate (named : List NamedGroup) :
    (disambiguate named).map NamedGroup.key = named.map NamedGroup.key :=
  map_disambiguate NamedGroup.key (fun _ _ _ => rfl) named

lemma mem_disambiguate {e' : NamedGroup} (h : e' ∈ disambiguate named) :
    ∃ (i : ℕ) (e : NamedGroup), named[i]? = some e ∧ (disambiguate named)[i]? = some e' := by
  obtain ⟨i, hi⟩ := List.mem_iff_getElem?.mp h
  cases he : named[i]? with
  | none =>
    rw [disambiguate_none he] at hi
    cases hi
  | some e => exact ⟨i, e, he, hi⟩

lemma disambiguate_suffix (hsuffix : ∀ e ∈ named, IsSegmentSuffix e.display e.key) {e' : NamedGroup}
    (h : e' ∈ disambiguate named) : IsSegmentSuffix e'.display e'.key := by
  obtain ⟨i, e, he, he'⟩ := mem_disambiguate h
  rw [disambiguate_eq he] at he'
  obtain rfl := Option.some.inj he'
  split
  · exact shortestDistinguishingSuffix_suffix _ _ _
  · exact hsuffix e (List.mem_of_getElem? he)

lemma disambiguate_collision (hkeys : (named.map NamedGroup.key).Nodup) {i j : ℕ}
    {e f e' f' : NamedGroup} (hij : i ≠ j)
    (hi : named[i]? = some e) (hj : named[j]? = some f) (hi' : (disambiguate named)[i]? = some e')
    (hj' : (disambiguate named)[j]? = some f') (hsame : e'.display = f'.display) :
    e.display ≠ f.display ∧ (2 ≤ (indicesOf named e.display).length ∨ 2 ≤ (indicesOf named f.display).length) := by
  have hdiffer : e.display ≠ f.display := by
    intro heq
    have hin : i ∈ indicesOf named e.display := mem_indicesOf.mpr ⟨e, hi, rfl⟩
    have hjn : j ∈ indicesOf named e.display := mem_indicesOf.mpr ⟨f, hj, heq.symm⟩
    have hlarge : 2 ≤ (indicesOf named e.display).length := by
      have hsubset : [i, j] ⊆ indicesOf named e.display := by simp [hin, hjn]
      have hle := (List.nodup_cons.mpr ⟨by simpa using hij, List.nodup_singleton j⟩).length_le_of_subset hsubset
      simpa using hle
    have hvalid : ∀ p ∈ indicesOf named e.display, ∃ e, named[p]? = some e := fun p hp =>
      (mem_indicesOf.mp hp).imp fun _ h => h.1
    have hplace : ∀ {p g}, p ∈ indicesOf named e.display → named[p]? = some g →
        (keysAt named (indicesOf named e.display))[(indicesOf named e.display).idxOf p]? = some g.key := by
      intro p g hp hg
      rw [getElem?_keysAt hvalid, List.getElem?_idxOf hp, Option.bind_some, hg]
      rfl
    have hne : (indicesOf named e.display).idxOf i ≠ (indicesOf named e.display).idxOf j := by
      intro hpos
      exact hij ((List.idxOf_inj hin).mp hpos)
    rw [disambiguate_eq hi, if_pos hlarge] at hi'
    rw [disambiguate_eq hj, ← heq, if_pos hlarge] at hj'
    obtain rfl := Option.some.inj hi'
    obtain rfl := Option.some.inj hj'
    exact shortestDistinguishingSuffix_ne (nodup_keysAt hkeys (nodup_indicesOf _ _))
      (hplace hin hi) (hplace hjn hj) hne hsame
  refine ⟨hdiffer, ?_⟩
  by_contra hnone
  rw [not_or] at hnone
  rw [disambiguate_eq hi, if_neg hnone.1] at hi'
  rw [disambiguate_eq hj, if_neg hnone.2] at hj'
  obtain rfl := Option.some.inj hi'
  obtain rfl := Option.some.inj hj'
  exact hdiffer hsame

/-- The names that the groups would show were none of them shared. -/
def firstNames (dirs : List DirGroup) (roots : List ManifestRoot) : List (String × String) :=
  (namedGroups (foldDirs dirs roots)).map fun e => (e.key, e.display)

def groupNames (dirs : List DirGroup) (roots : List ManifestRoot) : List (String × String) :=
  (disambiguate (namedGroups (foldDirs dirs roots))).map fun e => (e.key, e.display)

def SharedName (names : List (String × String)) (name : String) : Prop :=
  ∃ k k', k ≠ k' ∧ (k, name) ∈ names ∧ (k', name) ∈ names

lemma sharedName_of_indices (hkeys : (named.map NamedGroup.key).Nodup) {display : String}
    (h : 2 ≤ (indicesOf named display).length) :
    SharedName (named.map fun e => (e.key, e.display)) display := by
  have hfirst := mem_indicesOf.mp (List.getElem_mem (l := indicesOf named display) (n := 0) (by omega))
  have hsecond := mem_indicesOf.mp (List.getElem_mem (l := indicesOf named display) (n := 1) (by omega))
  obtain ⟨e, he, hedisplay⟩ := hfirst
  obtain ⟨f, hf, hfdisplay⟩ := hsecond
  refine ⟨e.key, f.key, ?_, ?_, ?_⟩
  · intro hkey
    have hmap : (named.map NamedGroup.key)[(indicesOf named display)[0]]? =
        (named.map NamedGroup.key)[(indicesOf named display)[1]]? := by
      rw [List.getElem?_map, List.getElem?_map, he, hf, Option.map_some, Option.map_some, hkey]
    have hlt : (indicesOf named display)[0] < (named.map NamedGroup.key).length := by
      rw [List.length_map]
      exact (List.getElem?_eq_some_iff.mp he).1
    have hplaces := (List.getElem?_inj hlt hkeys).mp hmap
    exact absurd (((nodup_indicesOf named display).getElem_inj_iff).mp hplaces) (by decide)
  · exact List.mem_map.mpr ⟨e, List.mem_of_getElem? he, by rw [hedisplay]⟩
  · exact List.mem_map.mpr ⟨f, List.mem_of_getElem? hf, by rw [hfdisplay]⟩

/-- Every name is a whole-segment suffix of the key of its group, and two groups share one only where they would
have shown different names and one of these was shared. -/
theorem package_names_laws (dirs : List DirGroup) (roots : List ManifestRoot) :
    ((rollupPackageGroups dirs roots).map PackageGroup.name).Perm ((groupNames dirs roots).map Prod.snd) ∧
      ((groupNames dirs roots).map Prod.fst).Nodup ∧
      (∀ k name, (k, name) ∈ groupNames dirs roots → IsSegmentSuffix name k) ∧
      ∀ k k' name, k ≠ k' → (k, name) ∈ groupNames dirs roots → (k', name) ∈ groupNames dirs roots →
        ∃ first first', (k, first) ∈ firstNames dirs roots ∧ (k', first') ∈ firstNames dirs roots ∧
          first ≠ first' ∧
          (SharedName (firstNames dirs roots) first ∨ SharedName (firstNames dirs roots) first') := by
  let named := namedGroups (foldDirs dirs roots)
  have hkeys : (named.map NamedGroup.key).Nodup := by
    rw [keys_namedGroups]
    exact Tally.nodup_keys_toList _
  have hnames : (groupNames dirs roots).map Prod.fst = named.map NamedGroup.key := by
    rw [groupNames, List.map_map]
    exact keys_disambiguate named
  have hplace : ∀ {k name}, (k, name) ∈ groupNames dirs roots → ∃ (i : ℕ) (e e' : NamedGroup),
      named[i]? = some e ∧ (disambiguate named)[i]? = some e' ∧ e.key = k ∧ e'.display = name := by
    intro k name h
    obtain ⟨e', hmem, he'⟩ := List.mem_map.mp h
    obtain ⟨rfl, rfl⟩ := Prod.mk.inj he'
    obtain ⟨i, e, he, hi⟩ := mem_disambiguate hmem
    have hkey := congrArg (·[i]?) (keys_disambiguate named)
    rw [List.getElem?_map, List.getElem?_map, hi, he] at hkey
    exact ⟨i, e, e', he, hi, (Option.some.inj hkey).symm, rfl⟩
  refine ⟨?_, hnames ▸ hkeys, ?_, ?_⟩
  · refine ((sortBy_perm groupOrder _).map PackageGroup.name).trans (.of_eq ?_)
    rw [groupNames, List.map_map, List.map_map]
    rfl
  · intro k name h
    obtain ⟨e', hmem, he'⟩ := List.mem_map.mp h
    obtain ⟨rfl, rfl⟩ := Prod.mk.inj he'
    exact disambiguate_suffix (fun e he => namedGroups_suffix he) hmem
  · intro k k' name hne h h'
    obtain ⟨i, e, e', he, hi, rfl, hname⟩ := hplace h
    obtain ⟨j, f, f', hf, hj, rfl, hname'⟩ := hplace h'
    have hij : i ≠ j := by
      rintro rfl
      obtain rfl := Option.some.inj (he.symm.trans hf)
      exact hne rfl
    obtain ⟨hdiffer, hshared⟩ := disambiguate_collision hkeys hij he hf hi hj (hname.trans hname'.symm)
    refine ⟨e.display, f.display, List.mem_map.mpr ⟨e, List.mem_of_getElem? he, rfl⟩,
      List.mem_map.mpr ⟨f, List.mem_of_getElem? hf, rfl⟩, hdiffer, ?_⟩
    exact hshared.imp (sharedName_of_indices hkeys) (sharedName_of_indices hkeys)

/-- Two crates named alike are told apart by paths, one of which is what a plain directory shows. -/
theorem renamed_crate_meets_directory :
    let roots := [⟨"a/x", .rustCrate⟩, ⟨"b/x", .rustCrate⟩]
    let dirs := [⟨"a/x", 4, 0⟩, ⟨"b/x", 3, 0⟩, ⟨"p/a/x", 2, 0⟩, ⟨"p/q", 1, 0⟩]
    rollupPackageGroups dirs roots = [⟨"a/x", 4, 0⟩, ⟨"b/x", 3, 0⟩, ⟨"a/x", 2, 0⟩, ⟨"q", 1, 0⟩] ∧
      ¬ ((rollupPackageGroups dirs roots).map PackageGroup.name).Nodup := by
  have hrun : rollupPackageGroups [⟨"a/x", 4, 0⟩, ⟨"b/x", 3, 0⟩, ⟨"p/a/x", 2, 0⟩, ⟨"p/q", 1, 0⟩]
      [⟨"a/x", .rustCrate⟩, ⟨"b/x", .rustCrate⟩] =
        [⟨"a/x", 4, 0⟩, ⟨"b/x", 3, 0⟩, ⟨"a/x", 2, 0⟩, ⟨"q", 1, 0⟩] := by decide +kernel
  dsimp only
  rw [hrun]
  exact ⟨rfl, by decide⟩

end Names

end RepoGraph.Agent
