import RepoGraph.DaemonRuntime.Registry

/-! The alias index and the path index of the registry undo each other in every state a run reaches, and a
saved registry is loaded again with the same entries and aliases. -/

namespace RepoGraph.DaemonRuntime

open Lib

namespace RepoRegistry

def aliasAt (r : RepoRegistry) (p : CanonicalPath) : Option String := (r.byPath.lookup p).bind (·.alias_)

structure Consistent (r : RepoRegistry) : Prop where
  keyed : ∀ p e, r.byPath.lookup p = some e → e.canonicalPath = p
  inverse : Inverse r.aliasAt r.byAlias.lookup

structure Same (r r' : RepoRegistry) : Prop where
  byPath : ∀ p, r.byPath.lookup p = r'.byPath.lookup p
  byAlias : ∀ a, r.byAlias.lookup a = r'.byAlias.lookup a

variable {r r' : RepoRegistry} {p : CanonicalPath} {e : RegistryEntry} {alias_ : String}

lemma aliasAt_of_lookup (h : r.byPath.lookup p = some e) : r.aliasAt p = e.alias_ := by
  rw [aliasAt, h, Option.bind_some]

lemma empty_consistent : empty.Consistent where
  keyed p e h := by simp [empty] at h
  inverse := by
    have hname : empty.aliasAt = fun _ => none := by
      funext p
      simp [aliasAt, empty]
    have hfind : empty.byAlias.lookup = fun _ => none := by
      funext a
      simp [empty]
    rw [hname, hfind]
    exact .empty

lemma lookup_insert (m : IterMap String CanonicalPath) (alias_ : String) (p : CanonicalPath) (a : String) :
    (m.insert alias_ p).lookup a = Function.update m.lookup alias_ (some p) a := by
  by_cases ha : a = alias_
  · subst ha
    rw [AList.lookup_insert, Function.update_self]
  · rw [AList.lookup_insert_ne ha, Function.update_of_ne ha]

lemma lookup_removeMapping (m : IterMap String CanonicalPath) (old : Option String) (a : String) :
    (removeMapping m old).lookup a = Inverse.without m.lookup old a := by
  cases old with
  | none => simp [removeMapping, Inverse.without]
  | some old =>
    rw [removeMapping, Inverse.without]
    by_cases ha : old = a
    · subst ha
      rw [AList.lookup_erase, if_pos rfl]
    · rw [AList.lookup_erase_ne (Ne.symm ha), if_neg fun h => ha (Option.some.inj h)]

lemma aliasAt_insertIn (o : EntryOrder) (r : RepoRegistry) (p : CanonicalPath) (e : RegistryEntry)
    (byAlias : IterMap String CanonicalPath) (dirty : Bool) :
    aliasAt { byPath := r.byPath.insertIn o p e, byAlias, dirty } = Function.update r.aliasAt p e.alias_ := by
  funext q
  rw [aliasAt, IterMap.lookup_insertIn]
  by_cases hq : q = p
  · subst hq
    rw [if_pos rfl, Function.update_self, Option.bind_some]
  · rw [if_neg hq, Function.update_of_ne hq, aliasAt]

lemma keyed_insertIn (hkeyed : ∀ q e, r.byPath.lookup q = some e → e.canonicalPath = q) (o : EntryOrder)
    (he : e.canonicalPath = p) (q : CanonicalPath) (e' : RegistryEntry)
    (h : (r.byPath.insertIn o p e).lookup q = some e') : e'.canonicalPath = q := by
  rw [IterMap.lookup_insertIn] at h
  split at h
  · rename_i hq
    rw [← Option.some.inj h, hq, he]
  · exact hkeyed q e' h

lemma keyed_modify (hkeyed : ∀ q e, r.byPath.lookup q = some e → e.canonicalPath = q)
    {f : RegistryEntry → RegistryEntry} (hf : ∀ e, (f e).canonicalPath = e.canonicalPath)
    (q : CanonicalPath) (e' : RegistryEntry) (h : (r.byPath.modify p f).lookup q = some e') :
    e'.canonicalPath = q := by
  rw [IterMap.lookup_modify] at h
  obtain ⟨e, he, rfl⟩ := Option.map_eq_some_iff.mp h
  split
  · rw [hf, hkeyed q e he]
  · exact hkeyed q e he

lemma Consistent.realias (h : r.Consistent) (hp : r.byPath.lookup p = some e)
    (hfree : r.byAlias.lookup alias_ = none ∨ r.byAlias.lookup alias_ = some p) :
    (r.realias p e alias_).Consistent where
  keyed := keyed_modify h.keyed fun _ => rfl
  inverse := by
    have hname : (r.realias p e alias_).aliasAt = Function.update r.aliasAt p (some alias_) := by
      funext q
      rw [aliasAt, RepoRegistry.realias, IterMap.lookup_modify]
      by_cases hq : q = p
      · subst hq
        simp [hp, RegistryEntry.withAlias]
      · simp [hq, aliasAt]
    have hfind : (r.realias p e alias_).byAlias.lookup =
        Function.update (Inverse.without r.byAlias.lookup (r.aliasAt p)) alias_ (some p) := by
      funext a
      have hremoved : (removeMapping r.byAlias e.alias_).lookup = Inverse.without r.byAlias.lookup e.alias_ :=
        funext (lookup_removeMapping r.byAlias e.alias_)
      rw [RepoRegistry.realias, lookup_insert, hremoved, aliasAt_of_lookup hp]
    rw [hname, hfind]
    exact h.inverse.relink hfree

variable (allocateDbPath : CanonicalPath → String)

lemma Consistent.register (h : r.Consistent) (o : EntryOrder) (repoPath : String)
    (canonical : Except String CanonicalPath) (repoUid : String) :
    (r.register allocateDbPath o repoPath canonical repoUid).2.Consistent := by
  rw [RepoRegistry.register]
  split
  · exact h
  · rename_i p _
    split
    · exact h
    · rename_i hp
      refine ⟨keyed_insertIn h.keyed o rfl, ?_⟩
      have hname : r.aliasAt p = none := by rw [aliasAt, hp, Option.bind_none]
      rw [aliasAt_insertIn]
      change Inverse (Function.update r.aliasAt p none) r.byAlias.lookup
      rw [← hname, Function.update_eq_self]
      exact h.inverse

lemma Consistent.registerWithAlias (h : r.Consistent) (o : EntryOrder) (repoPath alias_ : String)
    (canonical : Except String CanonicalPath) (repoUid : String) :
    (r.registerWithAlias allocateDbPath o repoPath alias_ canonical repoUid).2.Consistent := by
  rw [RepoRegistry.registerWithAlias]
  split
  · exact h
  · rename_i hfree
    split
    · exact h
    · rename_i p _
      split
      · rename_i e hp
        exact h.realias hp (.inl hfree)
      · rename_i hp
        refine ⟨keyed_insertIn h.keyed o rfl, ?_⟩
        have hname : r.aliasAt p = none := by rw [aliasAt, hp, Option.bind_none]
        rw [aliasAt_insertIn, funext (lookup_insert r.byAlias alias_ p)]
        exact h.inverse.link hname hfree

lemma Consistent.recordIndex (h : r.Consistent) (path timestamp snapshotUid : String) :
    (r.recordIndex path timestamp snapshotUid).2.Consistent := by
  rw [RepoRegistry.recordIndex]
  split
  · exact h
  · refine ⟨keyed_modify h.keyed fun _ => rfl, ?_⟩
    rename_i p _
    have hname : aliasAt
        { r with
          byPath := r.byPath.modify p (·.recordIndex timestamp snapshotUid)
          dirty := true } = r.aliasAt := by
      funext q
      rw [aliasAt, IterMap.lookup_modify, aliasAt]
      cases hq : r.byPath.lookup q with
      | none => rfl
      | some e =>
        rw [Option.map_some, Option.bind_some, Option.bind_some]
        split
        · rfl
        · rfl
    rw [hname]
    exact h.inverse

lemma Consistent.setAlias (h : r.Consistent) (path alias_ : String) :
    (r.setAlias path alias_).2.Consistent := by
  rw [RepoRegistry.setAlias]
  split
  · exact h
  · rename_i hfree
    split
    · exact h
    · rename_i p e hp
      obtain ⟨q, hq, hp⟩ := Option.bind_eq_some_iff.mp hp
      obtain ⟨e', he, hpair⟩ := Option.map_eq_some_iff.mp hp
      obtain ⟨rfl, rfl⟩ := Prod.mk.inj hpair
      refine h.realias he ?_
      -- no conflict: the alias is free, or it is the one of this very path
      cases ha : r.byAlias.lookup alias_ with
      | none => exact .inl rfl
      | some existing =>
        rw [ha, Option.filter_eq_none_iff] at hfree
        have hsame : q = existing := by simpa [hq] using hfree existing rfl
        exact .inr (by rw [hsame])

lemma Consistent.remove (h : r.Consistent) (path : String) : (r.remove path).2.Consistent := by
  rw [RepoRegistry.remove]
  split
  · exact h
  · rename_i p e hp
    obtain ⟨q, -, hp⟩ := Option.bind_eq_some_iff.mp hp
    obtain ⟨e', he, hpair⟩ := Option.map_eq_some_iff.mp hp
    obtain ⟨rfl, rfl⟩ := Prod.mk.inj hpair
    constructor
    · intro q' e'' hq'
      by_cases hne : q' = q
      · subst hne
        simp at hq'
      · rw [AList.lookup_erase_ne hne] at hq'
        exact h.keyed q' e'' hq'
    · have hname : aliasAt
          { byPath := r.byPath.erase q
            byAlias := removeMapping r.byAlias e'.alias_
            dirty := true } = Function.update r.aliasAt q none := by
        funext q'
        rw [aliasAt]
        by_cases hne : q' = q
        · subst hne
          simp
        · rw [AList.lookup_erase_ne hne, Function.update_of_ne hne, aliasAt]
      rw [hname, funext (lookup_removeMapping r.byAlias e'.alias_), ← aliasAt_of_lookup he]
      exact h.inverse.unlink q

lemma Same.symm (h : r.Same r') : r'.Same r := ⟨fun p => (h.byPath p).symm, fun a => (h.byAlias a).symm⟩

lemma Same.trans {r'' : RepoRegistry} (h : r.Same r') (h' : r'.Same r'') : r.Same r'' :=
  ⟨fun p => (h.byPath p).trans (h'.byPath p), fun a => (h.byAlias a).trans (h'.byAlias a)⟩

lemma Consistent.of_same (h : r.Consistent) (hsame : r'.Same r) : r'.Consistent where
  keyed p e he := h.keyed p e (by rw [← hsame.byPath]; exact he)
  inverse := by
    intro p a
    change r'.byAlias.lookup a = some p ↔ r'.aliasAt p = some a
    rw [hsame.byAlias, aliasAt, hsame.byPath]
    exact h.inverse p a

/-! Loading: the entries of a file come one after the other into empty maps. -/

section Load

variable (o : EntryOrder) {l : List RegistryEntry}

def ofEntries (l : List RegistryEntry) : RepoRegistry := l.foldl (insertEntry o) empty

lemma ofEntries_snoc (l : List RegistryEntry) (e : RegistryEntry) :
    ofEntries o (l ++ [e]) = insertEntry o (ofEntries o l) e := by
  rw [ofEntries, List.foldl_append]
  rfl

lemma lookup_ofEntries (hpaths : (l.map (·.canonicalPath)).Nodup) (p : CanonicalPath) (e : RegistryEntry) :
    (ofEntries o l).byPath.lookup p = some e ↔ e ∈ l ∧ e.canonicalPath = p := by
  induction l using List.reverseRecOn with
  | nil => simp [ofEntries, empty]
  | append_singleton l e' ih =>
    rw [List.map_append, List.nodup_append] at hpaths
    obtain ⟨hpaths, -, hnew⟩ := hpaths
    have hfresh : ∀ e ∈ l, e.canonicalPath ≠ e'.canonicalPath := fun e he =>
      hnew _ (List.mem_map_of_mem he) _ (by simp)
    rw [ofEntries_snoc, insertEntry, IterMap.lookup_insertIn, List.mem_append, List.mem_singleton]
    by_cases hp : p = e'.canonicalPath
    · subst hp
      rw [if_pos rfl]
      constructor
      · intro h
        obtain rfl := Option.some.inj h
        exact ⟨.inr rfl, rfl⟩
      · rintro ⟨he | rfl, hpath⟩
        · exact absurd hpath (hfresh e he)
        · rfl
    · rw [if_neg hp, ih hpaths]
      constructor
      · rintro ⟨he, hpath⟩
        exact ⟨.inl he, hpath⟩
      · rintro ⟨he | rfl, hpath⟩
        · exact ⟨he, hpath⟩
        · exact absurd hpath.symm hp

lemma lookup_alias_ofEntries
    (haliases : ∀ e ∈ l, ∀ e' ∈ l, ∀ a, e.alias_ = some a → e'.alias_ = some a → e = e') (a : String)
    (p : CanonicalPath) :
    (ofEntries o l).byAlias.lookup a = some p ↔ ∃ e ∈ l, e.alias_ = some a ∧ e.canonicalPath = p := by
  induction l using List.reverseRecOn with
  | nil => simp [ofEntries, empty]
  | append_singleton l e' ih =>
    have hold : ∀ e ∈ l, ∀ e' ∈ l, ∀ a, e.alias_ = some a → e'.alias_ = some a → e = e' := fun e he e' he' =>
      haliases e (List.mem_append_left _ he) e' (List.mem_append_left _ he')
    have hmem : ∀ q : RegistryEntry → Prop, (∃ e ∈ l ++ [e'], q e) ↔ (∃ e ∈ l, q e) ∨ q e' := by
      intro q
      simp only [List.mem_append, List.mem_singleton, or_and_right, exists_or, exists_eq_left]
    rw [ofEntries_snoc, insertEntry, hmem, ← ih hold]
    cases hnew : e'.alias_ with
    | none => simp
    | some a' =>
      change (AList.insert a' e'.canonicalPath (ofEntries o l).byAlias).lookup a = some p ↔ _
      rw [lookup_insert]
      by_cases ha : a = a'
      · subst ha
        rw [Function.update_self]
        constructor
        · intro h
          exact .inr ⟨rfl, Option.some.inj h⟩
        · rintro (h | ⟨-, rfl⟩)
          · -- an earlier entry of the alias is this very entry
            obtain ⟨e, he, halias, rfl⟩ := (ih hold).mp h
            rw [haliases e (List.mem_append_left _ he) e' (by simp) a halias hnew]
          · rfl
      · rw [Function.update_of_ne ha]
        simp [Ne.symm ha]

lemma mem_repos (h : r.Consistent) : e ∈ r.file.repos ↔ r.byPath.lookup e.canonicalPath = some e := by
  rw [file, List.mem_map]
  constructor
  · rintro ⟨⟨p, e'⟩, hmem, rfl⟩
    have hlookup := IterMap.mem_entries.mp hmem
    rw [h.keyed p e' hlookup]
    exact hlookup
  · intro hlookup
    exact ⟨⟨e.canonicalPath, e⟩, IterMap.mem_entries.mpr hlookup, rfl⟩

lemma repos_paths (h : r.Consistent) : (r.file.repos.map (·.canonicalPath)).Nodup := by
  have hkeys : r.file.repos.map (·.canonicalPath) = r.byPath.entries.keys := by
    rw [file, List.map_map, List.keys]
    apply List.map_congr_left
    rintro ⟨p, e⟩ hmem
    exact h.keyed p e (IterMap.mem_entries.mp hmem)
  rw [hkeys]
  exact r.byPath.nodupKeys

lemma repos_aliases (h : r.Consistent) {e e' : RegistryEntry} (he : e ∈ r.file.repos) (he' : e' ∈ r.file.repos)
    (a : String) (ha : e.alias_ = some a) (ha' : e'.alias_ = some a) : e = e' := by
  rw [mem_repos h] at he he'
  have hpath : e.canonicalPath = e'.canonicalPath :=
    h.inverse.unique ((aliasAt_of_lookup he).trans ha) ((aliasAt_of_lookup he').trans ha')
  rw [hpath, he'] at he
  exact (Option.some.inj he).symm

lemma ofEntries_file (h : r.Consistent) : (ofEntries o r.file.repos).Same r where
  byPath p := by
    apply Option.ext
    intro e
    rw [lookup_ofEntries o (repos_paths h), mem_repos h]
    constructor
    · rintro ⟨he, rfl⟩
      exact he
    · intro he
      have hp := h.keyed p e he
      exact ⟨hp ▸ he, hp⟩
  byAlias a := by
    apply Option.ext
    intro p
    have hunique : ∀ e ∈ r.file.repos, ∀ e' ∈ r.file.repos, ∀ a, e.alias_ = some a → e'.alias_ = some a → e = e' :=
      fun e he e' he' => repos_aliases h he he'
    rw [lookup_alias_ofEntries o hunique, h.inverse p a, aliasAt, Option.bind_eq_some_iff]
    constructor
    · rintro ⟨e, he, ha, rfl⟩
      exact ⟨e, (mem_repos h).mp he, ha⟩
    · rintro ⟨e, he, ha⟩
      have hp := h.keyed p e he
      exact ⟨e, (mem_repos h).mpr (hp ▸ he), ha, hp⟩

end Load

/-! Resolution. -/

structure IsLongestAncestor (r : RepoRegistry) (p : CanonicalPath) (e : RegistryEntry) : Prop where
  registered : r.byPath.lookup e.canonicalPath = some e
  ancestor : e.canonicalPath.names <+: p.names
  longest : ∀ q e', r.byPath.lookup q = some e' → q.names <+: p.names →
    q.names.length ≤ e.canonicalPath.names.length

lemma IsLongestAncestor.unique {e' : RegistryEntry} (h : r.IsLongestAncestor p e) (h' : r.IsLongestAncestor p e') :
    e = e' := by
  have hlen : e.canonicalPath.names.length = e'.canonicalPath.names.length :=
    le_antisymm (h'.longest _ _ h.registered h.ancestor) (h.longest _ _ h'.registered h'.ancestor)
  have hnames : e.canonicalPath.names = e'.canonicalPath.names :=
    (List.prefix_of_prefix_length_le h.ancestor h'.ancestor hlen.le).eq_of_length hlen
  have hpath : e.canonicalPath = e'.canonicalPath := by
    rw [CanonicalPath.mk.injEq]
    exact hnames
  have hreg := h.registered
  rw [hpath, h'.registered] at hreg
  exact (Option.some.inj hreg).symm

lemma longestBy_entries (h : r.Consistent) (e : RegistryEntry) :
    (longestBy (fun e => p.startsWith e.1) (fun e => e.1.byteLen) r.byPath.entries).1.map Sigma.snd = some e ↔
      r.IsLongestAncestor p e := by
  have hpre : ∀ q : CanonicalPath, p.startsWith q = true ↔ q.names <+: p.names := fun q => by
    rw [CanonicalPath.startsWith, List.isPrefixOf_iff_prefix]
  have hsound : ∀ e, (longestBy (fun e => p.startsWith e.1) (fun e => e.1.byteLen) r.byPath.entries).1.map
      Sigma.snd = some e → r.IsLongestAncestor p e := by
    intro e hbest
    obtain ⟨⟨q, e'⟩, hsome, rfl⟩ := Option.map_eq_some_iff.mp hbest
    obtain ⟨hmem, hstarts, hmax⟩ := longestBy_eq_some hsome
    have hlookup := IterMap.mem_entries.mp hmem
    obtain rfl := h.keyed q e' hlookup
    refine ⟨hlookup, (hpre _).mp hstarts, ?_⟩
    intro q e'' hq hqp
    change q.names.length ≤ e'.canonicalPath.names.length
    by_contra hlt
    have hbytes : q.byteLen ≤ e'.canonicalPath.byteLen :=
      hmax ⟨q, e''⟩ (IterMap.mem_entries.mpr hq) ((hpre q).mpr hqp)
    have hshorter : e'.canonicalPath.names <+: q.names :=
      List.prefix_of_prefix_length_le ((hpre _).mp hstarts) hqp (by omega)
    have := CanonicalPath.byteLen_lt hshorter (by omega)
    omega
  constructor
  · exact hsound e
  · intro hlongest
    cases hbest : (longestBy (fun e => p.startsWith e.1) (fun e => e.1.byteLen) r.byPath.entries).1 with
    | none =>
      -- no key is of length zero, so the scan that finds nothing has passed no ancestor
      have hzero : e.canonicalPath.byteLen = 0 :=
        longestBy_eq_none hbest (IterMap.mem_entries.mpr hlongest.registered)
        ((hpre _).mpr hlongest.ancestor)
      have hpos := e.canonicalPath.byteLen_pos
      exact absurd hzero (by omega)
    | some found =>
      have hfound : r.IsLongestAncestor p found.2 := hsound found.2 (by rw [hbest, Option.map_some])
      rw [Option.map_some, hfound.unique hlongest]

lemma resolve_canonical (h : r.Consistent) (path : String) (e : RegistryEntry) :
    r.resolve path (.ok p) = some e ↔
      r.byPath.lookup p = some e ∨ (r.byPath.lookup p = none ∧ r.IsLongestAncestor p e) := by
  rw [resolve]
  cases hp : r.byPath.lookup p with
  | some e' => simp
  | none =>
    simp only [reduceCtorEq, false_or, true_and]
    exact longestBy_entries h e

lemma resolveAlias_eq_some (h : r.Consistent) (e : RegistryEntry) :
    r.resolveAlias alias_ = some e ↔ r.byPath.lookup e.canonicalPath = some e ∧ e.alias_ = some alias_ := by
  rw [resolveAlias, Option.bind_eq_some_iff]
  constructor
  · rintro ⟨p, hp, he⟩
    have hname := (h.inverse p alias_).mp hp
    rw [aliasAt_of_lookup he] at hname
    obtain rfl := h.keyed p e he
    exact ⟨he, hname⟩
  · rintro ⟨he, hname⟩
    exact ⟨e.canonicalPath, (h.inverse _ _).mpr ((aliasAt_of_lookup he).trans hname), he⟩

/-! What an operation does to the maps: nothing at all, or a change that marks the registry as dirty. -/

section Touched

variable (allocateDbPath : CanonicalPath → String)

def Touches {α : Type} (r : RepoRegistry) (result : Except RegistryError α × RepoRegistry) : Prop :=
  result.2 = r ∨ (∃ a, result.1 = .ok a) ∧ result.2.dirty = true

lemma touches_register (o : EntryOrder) (repoPath : String) (canonical : Except String CanonicalPath)
    (repoUid : String) : r.Touches (r.register allocateDbPath o repoPath canonical repoUid) := by
  rw [RepoRegistry.register]
  split
  · exact .inl rfl
  · split
    · exact .inl rfl
    · exact .inr ⟨⟨_, rfl⟩, rfl⟩

lemma touches_registerWithAlias (o : EntryOrder) (repoPath alias_ : String)
    (canonical : Except String CanonicalPath) (repoUid : String) :
    r.Touches (r.registerWithAlias allocateDbPath o repoPath alias_ canonical repoUid) := by
  rw [RepoRegistry.registerWithAlias]
  split
  · exact .inl rfl
  · split
    · exact .inl rfl
    · split
      · exact .inr ⟨⟨_, rfl⟩, rfl⟩
      · exact .inr ⟨⟨_, rfl⟩, rfl⟩

lemma touches_recordIndex (path timestamp snapshotUid : String) :
    r.Touches (r.recordIndex path timestamp snapshotUid) := by
  rw [RepoRegistry.recordIndex]
  split
  · exact .inl rfl
  · exact .inr ⟨⟨_, rfl⟩, rfl⟩

lemma touches_setAlias (path alias_ : String) : r.Touches (r.setAlias path alias_) := by
  rw [RepoRegistry.setAlias]
  split
  · exact .inl rfl
  · split
    · exact .inl rfl
    · exact .inr ⟨⟨_, rfl⟩, rfl⟩

lemma touches_remove (path : String) : r.Touches (r.remove path) := by
  rw [RepoRegistry.remove]
  split
  · exact .inl rfl
  · exact .inr ⟨⟨_, rfl⟩, rfl⟩

end Touched

end RepoRegistry

namespace RegistryState

open RepoRegistry

variable {β : Type} {allocateDbPath : CanonicalPath → String} {format : RegistryFormat β}

/-- The file is that of some consistent registry or cannot be read at all. A clean registry stands in its
file, when no write was lost. -/
structure Kept (format : RegistryFormat β) (flushed : Prop) (s : RegistryState β) : Prop where
  consistent : s.registry.Consistent
  readable : ∀ content, s.disk = some content →
    (∃ saved : RepoRegistry, saved.Consistent ∧ content = format.write saved.file) ∨
      ∃ e, format.read content = .error e
  synced : flushed → s.registry.dirty = false →
    (s.disk = none ∧ s.registry.Same .empty) ∨
      ∃ saved : RepoRegistry, saved.Same s.registry ∧ s.disk = some (format.write saved.file)

variable {flushed : Prop} {s t : RegistryState β}

lemma Kept.of_touches {α : Type} (h : s.Kept format flushed) {result : Except RegistryError α × RepoRegistry}
    (htouches : s.registry.Touches result) (hconsistent : result.2.Consistent) :
    (s.returning result).2.Kept format flushed where
  consistent := hconsistent
  readable := h.readable
  synced hflushed hclean := by
    cases htouches with
    | inl hsame =>
      have hclean' : s.registry.dirty = false := by
        rw [← hsame]
        exact hclean
      simpa [returning, hsame] using h.synced hflushed hclean'
    | inr hdirty =>
      have hclean' : result.2.dirty = false := hclean
      rw [hdirty.2] at hclean'
      exact absurd hclean' (by simp)

lemma save_cases (format : RegistryFormat β) (s : RegistryState β) (fileIo : SaveIo) :
    save format s fileIo = (.ok (), s) ∧ s.registry.dirty = false ∨
      (∃ e, save format s fileIo = (.error e, s)) ∨
      ∃ content, save format s fileIo =
          (.ok (), { registry := { s.registry with dirty := false }, disk := some content }) ∧
        (content = format.write s.registry.file ∨
          (RegistryOp.save fileIo).losesFlush = true ∧ ∃ e, format.read content = .error e) := by
  simp only [RepoRegistry.save]
  by_cases hdirty : s.registry.dirty = true
  · rw [if_pos hdirty]
    cases fileIo with
    | createFails e => exact .inr (.inl ⟨_, rfl⟩)
    | writeFails e => exact .inr (.inl ⟨_, rfl⟩)
    | renameFails e => exact .inr (.inl ⟨_, rfl⟩)
    | written => exact .inr (.inr ⟨_, rfl, .inl rfl⟩)
    | flushLost kept =>
      refine .inr (.inr ⟨_, rfl, ?_⟩)
      exact (format.read_cut s.registry.file kept).imp_right fun h => ⟨rfl, h⟩
  · rw [if_neg hdirty]
    exact .inl ⟨rfl, by simpa using hdirty⟩

lemma same_clean (r : RepoRegistry) : r.Same { r with dirty := false } := ⟨fun _ => rfl, fun _ => rfl⟩

lemma Kept.save (h : s.Kept format flushed) {fileIo : SaveIo}
    (hflushed : flushed → (RegistryOp.save fileIo).losesFlush = false) :
    (RepoRegistry.save format s fileIo).2.Kept format flushed := by
  rcases save_cases format s fileIo with ⟨hsave, -⟩ | ⟨e, hsave⟩ | ⟨content, hsave, hcontent⟩
  · rw [hsave]
    exact h
  · rw [hsave]
    exact h
  · rw [hsave]
    refine ⟨h.consistent.of_same (same_clean _).symm, ?_, ?_⟩
    · intro content' hdisk
      obtain rfl : content = content' := Option.some.inj hdisk
      exact hcontent.imp (fun hwhole => ⟨s.registry, h.consistent, hwhole⟩) And.right
    · intro hall _
      refine .inr ⟨s.registry, same_clean _, ?_⟩
      rcases hcontent with rfl | ⟨hlost, -⟩
      · rfl
      · rw [hflushed hall] at hlost
        exact absurd hlost (by simp)

lemma withStateRoot_ok {o : EntryOrder} {disk : Option β} {createError openError : Option String}
    {r : RepoRegistry} (h : withStateRoot format o disk createError openError = .ok r) :
    (disk = none ∧ r = .empty) ∨ ∃ content registryFile, disk = some content ∧
      format.read content = .ok registryFile ∧ r = ofEntries o registryFile.repos := by
  simp only [RepoRegistry.withStateRoot] at h
  cases createError with
  | some e => exact absurd h (by simp)
  | none =>
    cases disk with
    | none =>
      obtain rfl := Except.ok.inj h
      exact .inl ⟨rfl, rfl⟩
    | some content =>
      cases openError with
      | some e => exact absurd h (by simp [load])
      | none =>
        cases hread : format.read content with
        | error e => simp [load, hread] at h
        | ok registryFile =>
          simp only [load, hread, Except.ok.injEq] at h
          exact .inr ⟨content, registryFile, rfl, hread, h.symm⟩

lemma Kept.load (h : s.Kept format flushed) {o : EntryOrder} {createError openError : Option String}
    {r : RepoRegistry} (hr : withStateRoot format o s.disk createError openError = .ok r) :
    Kept format flushed { s with registry := r } := by
  rcases withStateRoot_ok hr with ⟨hdisk, rfl⟩ | ⟨content, registryFile, hdisk, hread, rfl⟩
  · exact ⟨empty_consistent, h.readable, fun _ _ => .inl ⟨hdisk, ⟨fun _ => rfl, fun _ => rfl⟩⟩⟩
  · rcases h.readable content hdisk with ⟨saved, hsaved, rfl⟩ | ⟨e, he⟩
    · rw [format.read_write] at hread
      obtain rfl := Except.ok.inj hread
      have hsame := ofEntries_file o hsaved
      exact ⟨hsaved.of_same hsame, h.readable, fun _ _ => .inr ⟨saved, hsame.symm, hdisk⟩⟩
    · rw [he] at hread
      exact absurd hread (by simp)

lemma Kept.apply (h : s.Kept format flushed) {op : RegistryOp} (hflushed : flushed → op.losesFlush = false) :
    (apply allocateDbPath format s op).2.Kept format flushed := by
  cases op with
  | register o repoPath canonical repoUid =>
    exact h.of_touches (touches_register ..) (h.consistent.register ..)
  | registerWithAlias o repoPath alias_ canonical repoUid =>
    exact h.of_touches (touches_registerWithAlias ..) (h.consistent.registerWithAlias ..)
  | recordIndex path timestamp snapshotUid =>
    exact h.of_touches (touches_recordIndex ..) (h.consistent.recordIndex ..)
  | setAlias path alias_ => exact h.of_touches (touches_setAlias ..) (h.consistent.setAlias ..)
  | remove path => exact h.of_touches (touches_remove ..) (h.consistent.remove ..)
  | save fileIo => exact h.save hflushed
  | load o createError openError =>
    rw [RegistryState.apply]
    split
    · rename_i r hr
      exact h.load hr
    · exact h

lemma run_kept (ops : List RegistryOp) :
    (run allocateDbPath format ops).Kept format (∀ op ∈ ops, op.losesFlush = false) := by
  refine run_invariant (fun ops s => Kept format (∀ op ∈ ops, op.losesFlush = false) s) ?_ ?_ ops
  · exact ⟨empty_consistent, fun _ hdisk => absurd hdisk (by simp [new]),
      fun _ _ => .inl ⟨rfl, ⟨fun _ => rfl, fun _ => rfl⟩⟩⟩
  · intro ops s op h
    have hall : ((∀ op' ∈ ops ++ [op], op'.losesFlush = false) → op.losesFlush = false) :=
      fun hflushed => hflushed op (by simp)
    have hbefore : (∀ op' ∈ ops ++ [op], op'.losesFlush = false) → ∀ op' ∈ ops, op'.losesFlush = false :=
      fun hflushed op' hop => hflushed op' (List.mem_append_left _ hop)
    exact Kept.apply ⟨h.consistent, h.readable, fun hflushed => h.synced (hbefore hflushed)⟩ hall

lemma returning_error {α : Type} {result : Except RegistryError α × RepoRegistry} {e : RegistryError}
    (htouches : s.registry.Touches result) (he : (s.returning result).1 = .error e) :
    (s.returning result).2 = s := by
  rcases htouches with hsame | ⟨⟨a, ha⟩, -⟩
  · rw [returning, hsame]
  · rw [returning, ha] at he
    exact absurd he (by simp [Except.map])

lemma apply_error {op : RegistryOp} {e : RegistryError} (he : (apply allocateDbPath format s op).1 = .error e) :
    (apply allocateDbPath format s op).2 = s := by
  cases op with
  | register o repoPath canonical repoUid => exact returning_error (touches_register ..) he
  | registerWithAlias o repoPath alias_ canonical repoUid =>
    exact returning_error (touches_registerWithAlias ..) he
  | recordIndex path timestamp snapshotUid => exact returning_error (touches_recordIndex ..) he
  | setAlias path alias_ => exact returning_error (touches_setAlias ..) he
  | remove path => exact returning_error (touches_remove ..) he
  | save fileIo =>
    change (RepoRegistry.save format s fileIo).1 = .error e at he
    change (RepoRegistry.save format s fileIo).2 = s
    rcases save_cases format s fileIo with ⟨hsave, -⟩ | ⟨e', hsave⟩ | ⟨content, hsave, -⟩
    · rw [hsave]
    · rw [hsave]
    · rw [hsave] at he
      exact absurd he (by simp)
  | load o createError openError =>
    rw [RegistryState.apply] at he ⊢
    split at he
    · exact absurd he (by simp)
    · rfl

lemma load_saved (h : s.Kept format flushed) (hflushed : flushed) {fileIo : SaveIo}
    (hwhole : (RegistryOp.save fileIo).losesFlush = false)
    (hsave : RepoRegistry.save format s fileIo = (.ok (), t))
    (o : EntryOrder) : ∃ r, withStateRoot format o t.disk none none = .ok r ∧ r.Same s.registry := by
  have hfile : (t.disk = none ∧ s.registry.Same .empty) ∨
      ∃ saved : RepoRegistry, saved.Same s.registry ∧ t.disk = some (format.write saved.file) := by
    rcases save_cases format s fileIo with ⟨hs, hclean⟩ | ⟨e, hs⟩ | ⟨content, hs, hcontent⟩
    · obtain rfl : s = t := congrArg Prod.snd (hs.symm.trans hsave)
      exact h.synced hflushed hclean
    · rw [hs] at hsave
      exact absurd (congrArg Prod.fst hsave) (by simp)
    · obtain rfl := congrArg Prod.snd (hs.symm.trans hsave)
      rcases hcontent with rfl | ⟨hlost, -⟩
      · exact .inr ⟨s.registry, ⟨fun _ => rfl, fun _ => rfl⟩, rfl⟩
      · rw [hwhole] at hlost
        exact absurd hlost (by simp)
  rcases hfile with ⟨hdisk, hsame⟩ | ⟨saved, hsame, hdisk⟩
  · exact ⟨.empty, by rw [hdisk]; rfl, hsame.symm⟩
  · refine ⟨ofEntries o saved.file.repos, ?_, (ofEntries_file o (h.consistent.of_same hsame)).trans hsame⟩
    rw [hdisk, withStateRoot, RepoRegistry.load, format.read_write]
    rfl

theorem registry_consistent (allocateDbPath : CanonicalPath → String) (format : RegistryFormat β)
    (ops : List RegistryOp) :
    let s : RegistryState β := run allocateDbPath format ops
    (∀ a p, s.registry.byAlias.lookup a = some p ↔
      ∃ e, s.registry.byPath.lookup p = some e ∧ e.alias_ = some a) ∧
    (∀ op e, (apply allocateDbPath format s op).1 = .error e →
      (apply allocateDbPath format s op).2.registry = s.registry) ∧
    (∀ path p e, s.registry.resolve path (.ok p) = some e ↔ s.registry.byPath.lookup p = some e ∨
      (s.registry.byPath.lookup p = none ∧ s.registry.IsLongestAncestor p e)) ∧
    (∀ path failure, s.registry.resolve path (.error failure) =
      (canonicalPathOf path).bind s.registry.byPath.lookup) ∧
    (∀ fileIo t, (∀ op ∈ ops ++ [.save fileIo], op.losesFlush = false) →
      RepoRegistry.save format s fileIo = (.ok (), t) →
      ∀ o, ∃ r, withStateRoot format o t.disk none none = .ok r ∧ r.Same s.registry) := by
  intro s
  have hkept : s.Kept format (∀ op ∈ ops, op.losesFlush = false) := run_kept ops
  refine ⟨?_, ?_, ?_, fun path failure => rfl, ?_⟩
  · intro a p
    rw [hkept.consistent.inverse p a, aliasAt, Option.bind_eq_some_iff]
  · intro op e he
    rw [apply_error he]
  · intro path p e
    exact resolve_canonical hkept.consistent path e
  · intro fileIo t hflushed hsave o
    have hbefore : ∀ op ∈ ops, op.losesFlush = false := fun op hop => hflushed op (List.mem_append_left _ hop)
    exact load_saved hkept hbefore (hflushed _ (by simp)) hsave o

section Sample

def srvPath : CanonicalPath := ⟨[⟨"srv", by decide⟩]⟩

def gonePath : CanonicalPath := ⟨[⟨"srv", by decide⟩, ⟨"gone", by decide⟩]⟩

def srvDbPath (_ : CanonicalPath) : String := "/state/databases/93b1c5e0a7d2f648.db"

def srvEntry : RegistryEntry :=
  { canonicalPath := srvPath, alias_ := some "main", dbPath := srvDbPath srvPath, repoUid := "repo_01h",
    lastIndexedAt := none, lastSnapshotUid := none }

def srvFile : RegistryFile := { version := 1, repos := [srvEntry] }

def srvText : String :=
  "\x7b\n  \"version\": 1,\n  \"repos\": [\n    \x7b\n      \"canonical_path\": \"/srv\",\n      \"alias\": \"main\",\n      \"db_path\": \"/state/databases/93b1c5e0a7d2f648.db\",\n      \"repo_uid\": \"repo_01h\"\n    \x7d\n  ]\n\x7d"

def cutOffMessage : String := "EOF while parsing a value at line 1 column 0"

lemma srvText_ne_empty : srvText ≠ "" := by simp [srvText]

/-- The text of one registry is spelled out; that of another stands for itself. -/
inductive SampleText
  | text (s : String)
  | textOf (file : RegistryFile)
  deriving DecidableEq

def sampleFormat : RegistryFormat SampleText where
  write file := if file = srvFile then .text srvText else .textOf file
  read
    | .text s => if s = srvText then .ok srvFile else .error cutOffMessage
    | .textOf file => .ok file
  cut
    | kept, .text s => .text (.ofList (s.toList.take kept))
    | 0, .textOf _ => .text ""
    | kept + 1, .textOf file => .textOf file
  read_write file := by
    by_cases hfile : file = srvFile
    · simp [hfile]
    · simp [hfile]
  read_cut file kept := by
    by_cases hfile : file = srvFile
    · by_cases hwhole : String.ofList (srvText.toList.take kept) = srvText
      · exact .inl (by simp [hfile, hwhole])
      · exact .inr ⟨cutOffMessage, by simp [hfile, hwhole]⟩
    · cases kept with
      | zero => exact .inr ⟨cutOffMessage, by simp [hfile, srvText_ne_empty]⟩
      | succ kept => exact .inl (by simp [hfile])

def bucketsAsInserted : EntryOrder := .asInserted _ _

def srvRegistered : List RegistryOp :=
  [.register bucketsAsInserted "/srv" (.ok srvPath) "repo_01h", .setAlias "/srv/" "main"]

def srvState : RegistryState SampleText := run srvDbPath sampleFormat srvRegistered

/-- A saved registry of one aliased repository is loaded again. -/
theorem registry_consistent_srv : ∃ t r, RepoRegistry.save sampleFormat srvState .written = (.ok (), t) ∧
    withStateRoot sampleFormat bucketsAsInserted t.disk none none = .ok r ∧ r.Same srvState.registry := by
  have hconsistent := registry_consistent srvDbPath sampleFormat srvRegistered
  obtain ⟨r, hr, hsame⟩ := hconsistent.2.2.2.2 .written _ (by decide) rfl bucketsAsInserted
  exact ⟨_, r, rfl, hr, hsame⟩

/-- A path below a registered repository that does not exist (any more) resolves to nothing; and a save
that the disk has no room for reports success and leaves a file that no later daemon can read. -/
theorem registry_inconsistent :
    (srvState.registry.IsLongestAncestor gonePath srvEntry ∧ canonicalPathOf "/srv/gone" = some gonePath ∧
      srvState.registry.resolve "/srv/gone" (.error "No such file or directory (os error 2)") = none) ∧
    ∃ t, RepoRegistry.save sampleFormat srvState (.flushLost 0) = (.ok (), t) ∧
      withStateRoot sampleFormat bucketsAsInserted t.disk none none =
        .error (.parse "failed to parse registry: EOF while parsing a value at line 1 column 0") := by
  refine ⟨⟨⟨?_, ?_, ?_⟩, by decide, by decide⟩, _, rfl, ?_⟩
  · decide
  · decide
  · intro q e' hq _
    have hmem := IterMap.mem_entries.mpr hq
    have hentries : srvState.registry.byPath.entries = [⟨srvPath, srvEntry⟩] := by decide
    rw [hentries, List.mem_singleton] at hmem
    obtain ⟨rfl, -⟩ := Sigma.mk.inj hmem
    exact le_refl _
  · have hfile : srvState.registry.file = srvFile := by decide
    have hempty : sampleFormat.cut 0 (sampleFormat.write srvState.registry.file) = .text "" := by
      rw [hfile]
      rfl
    rw [withStateRoot, hempty, RepoRegistry.load]
    simp only [sampleFormat, if_neg (Ne.symm srvText_ne_empty)]
    rfl

end Sample

end RegistryState

end RepoGraph.DaemonRuntime
