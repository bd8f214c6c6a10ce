import Mathlib.Tactic

/-! Tables whose columns may name rows of other tables, and the DELETE statement with the actions of its
foreign keys. -/

namespace RepoGraph.Lib.Relational

inductive OnDelete
  | cascade
  | setNull
  | noAction
  deriving DecidableEq, Repr

structure ForeignKey (τ φ : Type) where
  child : τ
  column : φ
  parent : τ
  onDelete : OnDelete
  deriving DecidableEq, Repr

structure Row (τ φ : Type) where
  table : τ
  key : String
  col : φ → Option String

variable {τ φ : Type}

def Row.id (r : Row τ φ) : τ × String := (r.table, r.key)

def ForeignKey.Links (fk : ForeignKey τ φ) (r p : Row τ φ) : Prop :=
  fk.child = r.table ∧ fk.parent = p.table ∧ r.col fk.column = some p.key

def Refers (fks : List (ForeignKey τ φ)) (action : OnDelete) (r p : Row τ φ) : Prop :=
  ∃ fk ∈ fks, fk.onDelete = action ∧ fk.Links r p

variable [DecidableEq τ]

instance instDecidableLinks (fk : ForeignKey τ φ) (r p : Row τ φ) : Decidable (fk.Links r p) :=
  inferInstanceAs (Decidable (_ ∧ _))

instance instDecidableRefers (fks : List (ForeignKey τ φ)) (action : OnDelete) (r p : Row τ φ) :
    Decidable (Refers fks action r p) :=
  inferInstanceAs (Decidable (∃ fk ∈ fks, _))

section Delete

variable (fks : List (ForeignKey τ φ))

def cascadeStep (rows doomed : List (Row τ φ)) : List (Row τ φ) :=
  rows.filter fun r => ∃ p ∈ doomed, p.id = r.id ∨ Refers fks .cascade r p

def cascade (rows : List (Row τ φ)) : ℕ → List (Row τ φ) → List (Row τ φ)
  | 0, doomed => doomed
  | rounds + 1, doomed =>
    let next := cascadeStep fks rows doomed
    if next.length = doomed.length then doomed else cascade rows rounds next

def nullify [DecidableEq φ] (doomed : List (Row τ φ)) (r : Row τ φ) : Row τ φ :=
  { r with
    col := fun c =>
      if ∃ fk ∈ fks, fk.onDelete = .setNull ∧ fk.column = c ∧ ∃ p ∈ doomed, fk.Links r p then none else r.col c }

structure Deletion (τ φ : Type) where
  rows : List (Row τ φ)
  changes : ℕ

def doomedRows (cond : Row τ φ → Bool) (rows : List (Row τ φ)) : List (Row τ φ) :=
  cascade fks rows rows.length (rows.filter cond)

def keptRows (cond : Row τ φ → Bool) (rows : List (Row τ φ)) : List (Row τ φ) :=
  rows.filter fun r => ¬ ∃ p ∈ doomedRows fks cond rows, p.id = r.id

/-- DELETE: the matching rows with all that cascades from them; nothing when a row that stays names one of
them without an action. The changes counted are those of the statement itself, not of its actions. -/
def deleteWhere [DecidableEq φ] (cond : Row τ φ → Bool) (rows : List (Row τ φ)) : Option (Deletion τ φ) :=
  let doomed := doomedRows fks cond rows
  let kept := keptRows fks cond rows
  if ∃ r ∈ kept, ∃ p ∈ doomed, Refers fks .noAction r p then none
  else some ⟨kept.map (nullify fks doomed), (rows.filter cond).length⟩

end Delete

def KeysUnique (rows : List (Row τ φ)) : Prop := (rows.map Row.id).Nodup

def Referential (fks : List (ForeignKey τ φ)) (rows : List (Row τ φ)) : Prop :=
  ∀ r ∈ rows, ∀ fk ∈ fks, fk.child = r.table → ∀ k, r.col fk.column = some k → ∃ p ∈ rows, fk.Links r p

inductive Doomed (fks : List (ForeignKey τ φ)) (cond : Row τ φ → Bool) (rows : List (Row τ φ)) : Row τ φ → Prop
  | matched {r : Row τ φ} (hr : r ∈ rows) (hcond : cond r = true) : Doomed fks cond rows r
  | cascaded {r p : Row τ φ} (hr : r ∈ rows) (hp : Doomed fks cond rows p) (href : Refers fks .cascade r p) :
    Doomed fks cond rows r

section Cascade

variable {fks : List (ForeignKey τ φ)} {cond : Row τ φ → Bool} {rows : List (Row τ φ)}

omit [DecidableEq τ] in
lemma KeysUnique.eq_of_id (h : KeysUnique rows) {r p : Row τ φ} (hr : r ∈ rows) (hp : p ∈ rows)
    (hid : p.id = r.id) : p = r :=
  List.inj_on_of_nodup_map h hp hr hid

omit [DecidableEq τ] in
lemma Doomed.mem {r : Row τ φ} (h : Doomed fks cond rows r) : r ∈ rows := by
  cases h <;> assumption

omit [DecidableEq τ] in
lemma Doomed.invariant {q : Row τ φ → Prop} (hmatched : ∀ r ∈ rows, cond r = true → q r)
    (hcascaded : ∀ r ∈ rows, ∀ p ∈ rows, Refers fks .cascade r p → q p → q r) {r : Row τ φ}
    (h : Doomed fks cond rows r) : q r := by
  induction h with
  | matched hr hcond => exact hmatched _ hr hcond
  | cascaded hr hp href ih => exact hcascaded _ hr _ hp.mem href ih

lemma cascadeStep_sublist (doomed : List (Row τ φ)) : (cascadeStep fks rows doomed).Sublist rows :=
  List.filter_sublist

variable (fks rows) in
lemma filter_sublist_cascadeStep (keep : Row τ φ → Bool) :
    (rows.filter keep).Sublist (cascadeStep fks rows (rows.filter keep)) := by
  have hfilter : rows.filter keep = (cascadeStep fks rows (rows.filter keep)).filter keep := by
    rw [cascadeStep, List.filter_filter]
    refine List.filter_congr fun r hr => ?_
    by_cases hkeep : keep r
    · have hself : ∃ p ∈ rows.filter keep, p.id = r.id ∨ Refers fks .cascade r p :=
        ⟨r, List.mem_filter.mpr ⟨hr, hkeep⟩, .inl rfl⟩
      rw [hkeep, decide_eq_true hself, Bool.and_self]
    · simp [hkeep]
  conv_lhs => rw [hfilter]
  exact List.filter_sublist

variable (fks) in
lemma cascadeStep_cascade (rounds : ℕ) (keep : Row τ φ → Bool)
    (h : rows.length ≤ rounds + (rows.filter keep).length) :
    ∃ keep' : Row τ φ → Bool, cascade fks rows rounds (rows.filter keep) = rows.filter keep' ∧
      cascadeStep fks rows (rows.filter keep') = rows.filter keep' := by
  induction rounds generalizing keep with
  | zero =>
    refine ⟨keep, rfl, ?_⟩
    have hall : rows.filter keep = rows := List.Sublist.eq_of_length_le List.filter_sublist (by omega)
    have hle := filter_sublist_cascadeStep fks rows keep
    rw [hall] at hle ⊢
    exact List.Sublist.antisymm (cascadeStep_sublist _) hle
  | succ rounds ih =>
    have hsub := filter_sublist_cascadeStep fks rows keep
    rw [cascade]
    by_cases hlen : (cascadeStep fks rows (rows.filter keep)).length = (rows.filter keep).length
    · rw [if_pos hlen]
      exact ⟨keep, rfl, (hsub.eq_of_length hlen.symm).symm⟩
    · rw [if_neg hlen]
      have hlt := lt_of_le_of_ne hsub.length_le (Ne.symm hlen)
      exact ih _ (by rw [cascadeStep] at hlt; omega)

lemma subset_cascade (rounds : ℕ) (keep : Row τ φ → Bool) :
    rows.filter keep ⊆ cascade fks rows rounds (rows.filter keep) := by
  induction rounds generalizing keep with
  | zero => exact fun _ h => h
  | succ rounds ih =>
    rw [cascade]
    split
    · exact fun _ h => h
    · exact fun r hr => ih _ ((filter_sublist_cascadeStep fks rows keep).subset hr)

lemma cascade_invariant {q : Row τ φ → Prop}
    (hstep : ∀ r ∈ rows, ∀ p, q p → p.id = r.id ∨ Refers fks .cascade r p → q r) (rounds : ℕ)
    {doomed : List (Row τ φ)} (h : ∀ r ∈ doomed, q r) : ∀ r ∈ cascade fks rows rounds doomed, q r := by
  induction rounds generalizing doomed with
  | zero => exact h
  | succ rounds ih =>
    rw [cascade]
    split
    · exact h
    · refine ih fun r hr => ?_
      obtain ⟨hrows, hex⟩ := List.mem_filter.mp hr
      obtain ⟨p, hp, hrel⟩ := of_decide_eq_true hex
      exact hstep r hrows p (h p hp) hrel

lemma mem_doomedRows (hkeys : KeysUnique rows) {r : Row τ φ} :
    r ∈ doomedRows fks cond rows ↔ Doomed fks cond rows r := by
  constructor
  · intro h
    refine cascade_invariant (q := Doomed fks cond rows) (fun r hr p hp hrel => ?_) _ (fun r hr => ?_) r h
    · rcases hrel with hid | href
      · rwa [← hkeys.eq_of_id hr hp.mem hid]
      · exact .cascaded hr hp href
    · obtain ⟨hr, hcond⟩ := List.mem_filter.mp hr
      exact .matched hr hcond
  · intro h
    obtain ⟨keep, heq, hfix⟩ := cascadeStep_cascade fks rows.length cond (Nat.le_add_right _ _)
    rw [doomedRows, heq]
    induction h with
    | matched hr hcond =>
      rw [← heq]
      exact subset_cascade _ _ (List.mem_filter.mpr ⟨hr, hcond⟩)
    | @cascaded r p hr hp href ih =>
      rw [← hfix]
      exact List.mem_filter.mpr ⟨hr, decide_eq_true ⟨p, ih, .inr href⟩⟩

lemma mem_keptRows (hkeys : KeysUnique rows) {r : Row τ φ} :
    r ∈ keptRows fks cond rows ↔ r ∈ rows ∧ ¬ Doomed fks cond rows r := by
  simp only [keptRows, List.mem_filter, decide_eq_true_eq, and_congr_right_iff]
  intro hr
  refine not_congr ⟨fun ⟨p, hp, hid⟩ => ?_, fun h => ⟨r, (mem_doomedRows hkeys).mpr h, rfl⟩⟩
  have hdoomed := (mem_doomedRows hkeys).mp hp
  rwa [← hkeys.eq_of_id hr hdoomed.mem hid]

end Cascade

section Deletion

variable [DecidableEq φ] {fks : List (ForeignKey τ φ)} {cond : Row τ φ → Bool} {rows : List (Row τ φ)}

@[simp] lemma nullify_table (doomed : List (Row τ φ)) (r : Row τ φ) : (nullify fks doomed r).table = r.table := rfl

@[simp] lemma nullify_key (doomed : List (Row τ φ)) (r : Row τ φ) : (nullify fks doomed r).key = r.key := rfl

@[simp] lemma nullify_id (doomed : List (Row τ φ)) (r : Row τ φ) : (nullify fks doomed r).id = r.id := rfl

lemma nullify_col_of_ne {c : φ} (hc : ∀ fk ∈ fks, fk.onDelete = .setNull → fk.column ≠ c) (doomed : List (Row τ φ))
    (r : Row τ φ) : (nullify fks doomed r).col c = r.col c := by
  refine if_neg ?_
  rintro ⟨fk, hfk, haction, hcol, -⟩
  exact hc fk hfk haction hcol

lemma nullify_col_eq_some {c : φ} {k : String} {doomed : List (Row τ φ)} {r : Row τ φ}
    (h : (nullify fks doomed r).col c = some k) :
    r.col c = some k ∧ ∀ fk ∈ fks, fk.onDelete = .setNull → fk.column = c → ∀ p ∈ doomed, ¬ fk.Links r p := by
  have h : (if _ then none else r.col c) = some k := h
  split_ifs at h with hnull
  refine ⟨h, fun fk hfk haction hcol p hp hlinks => hnull ⟨fk, hfk, haction, hcol, p, hp, hlinks⟩⟩

lemma nullify_eq_self {doomed : List (Row τ φ)} {r : Row τ φ} (h : ∀ p ∈ doomed, ¬ Refers fks .setNull r p) :
    nullify fks doomed r = r := by
  have hcol : (nullify fks doomed r).col = r.col := by
    funext c
    refine if_neg ?_
    rintro ⟨fk, hfk, haction, -, p, hp, hlinks⟩
    exact h p hp ⟨fk, hfk, haction, hlinks⟩
  calc nullify fks doomed r = { r with col := (nullify fks doomed r).col } := rfl
    _ = r := by rw [hcol]

lemma deleteWhere_eq_some {d : Deletion τ φ} (h : deleteWhere fks cond rows = some d) :
    (∀ r ∈ keptRows fks cond rows, ∀ p ∈ doomedRows fks cond rows, ¬ Refers fks .noAction r p) ∧
      d = ⟨(keptRows fks cond rows).map (nullify fks (doomedRows fks cond rows)), (rows.filter cond).length⟩ := by
  rw [deleteWhere] at h
  split_ifs at h with hblocked
  push Not at hblocked
  exact ⟨hblocked, (Option.some.inj h).symm⟩

lemma KeysUnique.deleteWhere (hkeys : KeysUnique rows) {d : Deletion τ φ}
    (h : deleteWhere fks cond rows = some d) :
    KeysUnique d.rows := by
  obtain ⟨-, rfl⟩ := deleteWhere_eq_some h
  have hsub : ((keptRows fks cond rows).map Row.id).Sublist (rows.map Row.id) := List.filter_sublist.map _
  simpa [KeysUnique, List.map_map, Function.comp_def] using hkeys.sublist hsub

lemma mem_deleteWhere (hkeys : KeysUnique rows) {d : Deletion τ φ} (h : deleteWhere fks cond rows = some d)
    {r : Row τ φ} : r ∈ d.rows ↔
      ∃ r₀ ∈ rows, ¬ Doomed fks cond rows r₀ ∧ r = nullify fks (doomedRows fks cond rows) r₀ := by
  obtain ⟨-, rfl⟩ := deleteWhere_eq_some h
  simp only [List.mem_map, mem_keptRows hkeys, and_assoc, eq_comm]

lemma Referential.deleteWhere (hkeys : KeysUnique rows) (href : Referential fks rows) {d : Deletion τ φ}
    (h : deleteWhere fks cond rows = some d) : Referential fks d.rows := by
  intro r hr fk hfk hchild k hk
  obtain ⟨r₀, hr₀, hkept, rfl⟩ := (mem_deleteWhere hkeys h).mp hr
  obtain ⟨hk₀, hnull⟩ := nullify_col_eq_some hk
  obtain ⟨p, hp, hlinks⟩ := href r₀ hr₀ fk hfk hchild k hk₀
  have hpkept : ¬ Doomed fks cond rows p := by
    intro hdoomed
    have hmem := (mem_doomedRows hkeys).mpr hdoomed
    cases haction : fk.onDelete with
    | cascade => exact hkept (.cascaded hr₀ hdoomed ⟨fk, hfk, haction, hlinks⟩)
    | setNull => exact hnull fk hfk haction rfl p hmem hlinks
    | noAction =>
      exact (deleteWhere_eq_some h).1 r₀ ((mem_keptRows hkeys).mpr ⟨hr₀, hkept⟩) p hmem ⟨fk, hfk, haction, hlinks⟩
  refine ⟨nullify fks (doomedRows fks cond rows) p, (mem_deleteWhere hkeys h).mpr ⟨p, hp, hpkept, rfl⟩, ?_⟩
  exact ⟨hchild, hlinks.2.1, hk.trans (hk₀.symm.trans hlinks.2.2)⟩

lemma deleteWhere_eq_filter (hkeys : KeysUnique rows) {gone : Row τ φ → Bool}
    (hgone : ∀ r ∈ rows, Doomed fks cond rows r ↔ gone r = true)
    (hkept : ∀ r ∈ rows, gone r = false → ∀ p ∈ rows, gone p = true →
      ¬ Refers fks .setNull r p ∧ ¬ Refers fks .noAction r p) :
    deleteWhere fks cond rows = some ⟨rows.filter fun r => !gone r, (rows.filter cond).length⟩ := by
  have hdoomed : ∀ p ∈ doomedRows fks cond rows, p ∈ rows ∧ gone p = true := by
    intro p hp
    have h := (mem_doomedRows hkeys).mp hp
    exact ⟨h.mem, (hgone p h.mem).mp h⟩
  have hkeep : keptRows fks cond rows = rows.filter fun r => !gone r := by
    refine List.filter_congr fun r hr => ?_
    have hiff : (∃ p ∈ doomedRows fks cond rows, p.id = r.id) ↔ gone r = true := by
      rw [← hgone r hr]
      refine ⟨fun ⟨p, hp, hid⟩ => ?_, fun h => ⟨r, (mem_doomedRows hkeys).mpr h, rfl⟩⟩
      rw [← hkeys.eq_of_id hr (hdoomed p hp).1 hid]
      exact (mem_doomedRows hkeys).mp hp
    simp only [hiff, Bool.not_eq_true, Bool.decide_eq_false]
  have hfree : ∀ r ∈ keptRows fks cond rows, ∀ p ∈ doomedRows fks cond rows,
      ¬ Refers fks .setNull r p ∧ ¬ Refers fks .noAction r p := by
    intro r hr p hp
    rw [hkeep] at hr
    obtain ⟨hr, hnot⟩ := List.mem_filter.mp hr
    exact hkept r hr (by simpa using hnot) p (hdoomed p hp).1 (hdoomed p hp).2
  have hblocked : ¬ ∃ r ∈ keptRows fks cond rows, ∃ p ∈ doomedRows fks cond rows, Refers fks .noAction r p := by
    rintro ⟨r, hr, p, hp, href⟩
    exact (hfree r hr p hp).2 href
  rw [deleteWhere, if_neg hblocked]
  have hmap : (keptRows fks cond rows).map (nullify fks (doomedRows fks cond rows)) = keptRows fks cond rows :=
    (List.map_congr_left fun r hr => nullify_eq_self fun p hp => (hfree r hr p hp).1).trans (List.map_id' _)
  rw [hmap, hkeep]

end Deletion

section Insert

variable {fks : List (ForeignKey τ φ)} {rows : List (Row τ φ)} {row : Row τ φ}

omit [DecidableEq τ] in
lemma KeysUnique.append (h : KeysUnique rows) (hrow : ∀ r ∈ rows, r.id ≠ row.id) : KeysUnique (rows ++ [row]) := by
  rw [KeysUnique, List.map_append, List.nodup_append]
  refine ⟨h, by simp, ?_⟩
  simp only [List.mem_map, List.map_cons, List.map_nil, List.mem_singleton]
  rintro _ ⟨r, hr, rfl⟩ _ rfl
  exact hrow r hr

omit [DecidableEq τ] in
lemma Referential.append (h : Referential fks rows)
    (hrow : ∀ fk ∈ fks, fk.child = row.table → ∀ k, row.col fk.column = some k →
      ∃ p ∈ rows ++ [row], fk.Links row p) :
    Referential fks (rows ++ [row]) := by
  intro r hr fk hfk hchild k hk
  rcases List.mem_append.mp hr with hr | hr
  · obtain ⟨p, hp, hlinks⟩ := h r hr fk hfk hchild k hk
    exact ⟨p, List.mem_append_left _ hp, hlinks⟩
  · rw [List.mem_singleton] at hr
    subst hr
    exact hrow fk hfk hchild k hk

end Insert

end RepoGraph.Lib.Relational
