import Mathlib.Tactic

/-! Relative paths in a tree whose nodes are named by the labels on the way down from the root. A path
goes by its segments, each of which stays, goes up or goes down, and there is no way up from the root: a
reader of paths either stops there or reads on as if it had stayed. -/

namespace RepoGraph.Lib.PathWalk

inductive Move
  | stay
  | up
  | down
  deriving DecidableEq, Repr

variable {σ : Type*} (move : σ → Move)

inductive Walk : List σ → List σ → List σ → Prop
  | here (place : List σ) : Walk place [] place
  | stay {place segs goal : List σ} {seg : σ} :
      move seg = .stay → Walk place segs goal → Walk place (seg :: segs) goal
  | up {place segs goal : List σ} {label seg : σ} :
      move seg = .up → Walk place segs goal → Walk (place ++ [label]) (seg :: segs) goal
  | down {place segs goal : List σ} {seg : σ} :
      move seg = .down → Walk (place ++ [seg]) segs goal → Walk place (seg :: segs) goal

def Climbs (place segs : List σ) : Prop := ∀ goal, ¬ Walk move place segs goal

def checked (place : Option (List σ)) (seg : σ) : Option (List σ) :=
  place.bind fun place =>
    match move seg with
    | .stay => some place
    | .up => if place.isEmpty then none else some place.dropLast
    | .down => some (place ++ [seg])

def clamped (place : List σ) (seg : σ) : List σ :=
  match move seg with
  | .stay => place
  | .up => place.dropLast
  | .down => place ++ [seg]

variable {move} {place goal other segs rest : List σ}

lemma foldl_checked_none (segs : List σ) : segs.foldl (checked move) none = none := by
  induction segs with
  | nil => rfl
  | cons seg segs ih => exact ih

lemma Walk.foldl_checked (h : Walk move place segs goal) : segs.foldl (checked move) (some place) = some goal := by
  induction h with
  | here place => rfl
  | stay hmove _ ih => simpa [checked, hmove] using ih
  | up hmove _ ih => simpa [checked, hmove] using ih
  | down hmove _ ih => simpa [checked, hmove] using ih

lemma walk_of_foldl_checked (h : segs.foldl (checked move) (some place) = some goal) :
    Walk move place segs goal := by
  induction segs generalizing place with
  | nil =>
    obtain rfl : place = goal := by simpa using h
    exact .here place
  | cons seg segs ih =>
    rw [List.foldl_cons] at h
    cases hmove : move seg with
    | stay =>
      apply Walk.stay hmove
      apply ih
      simpa [checked, hmove] using h
    | up =>
      rcases place.eq_nil_or_concat with rfl | ⟨lower, label, rfl⟩
      · simp [checked, hmove, foldl_checked_none] at h
      · rw [List.concat_eq_append] at h ⊢
        apply Walk.up hmove
        apply ih
        simpa [checked, hmove] using h
    | down =>
      apply Walk.down hmove
      apply ih
      simpa [checked, hmove] using h

theorem walk_iff_foldl_checked : Walk move place segs goal ↔ segs.foldl (checked move) (some place) = some goal :=
  ⟨Walk.foldl_checked, walk_of_foldl_checked⟩

lemma Walk.unique (h : Walk move place segs goal) (h' : Walk move place segs other) : goal = other :=
  Option.some.inj (h.foldl_checked.symm.trans h'.foldl_checked)

lemma climbs_iff_foldl_checked : Climbs move place segs ↔ segs.foldl (checked move) (some place) = none := by
  rw [Option.eq_none_iff_forall_ne_some]
  exact forall_congr' fun goal => not_congr walk_iff_foldl_checked

lemma climbs_or_walk (move : σ → Move) (place segs : List σ) :
    Climbs move place segs ∨ ∃ goal, Walk move place segs goal := by
  rw [climbs_iff_foldl_checked]
  simp only [walk_iff_foldl_checked]
  exact (Option.eq_none_or_eq_some _)

lemma Climbs.not_walk (h : Climbs move place segs) : ¬ Walk move place segs goal := h goal

theorem Walk.foldl_clamped (h : Walk move place segs goal) : segs.foldl (clamped move) place = goal := by
  induction h with
  | here place => rfl
  | stay hmove _ ih => simpa [clamped, hmove] using ih
  | up hmove _ ih => simpa [clamped, hmove] using ih
  | down hmove _ ih => simpa [clamped, hmove] using ih

lemma Walk.append (h : Walk move place segs goal) (h' : Walk move goal rest other) :
    Walk move place (segs ++ rest) other := by
  rw [walk_iff_foldl_checked] at *
  rw [List.foldl_append, h, h']

lemma walk_of_forall_down (h : ∀ seg ∈ segs, move seg = .down) : Walk move place segs (place ++ segs) := by
  induction segs generalizing place with
  | nil =>
    rw [List.append_nil]
    exact .here place
  | cons seg segs ih =>
    obtain ⟨hseg, hsegs⟩ := List.forall_mem_cons.mp h
    have hrest : Walk move (place ++ [seg]) segs (place ++ [seg] ++ segs) := ih hsegs
    rw [List.append_assoc, List.singleton_append] at hrest
    exact .down hseg hrest

lemma walk_of_forall_up (h : ∀ seg ∈ segs, move seg = .up) (hlen : segs.length ≤ place.length) :
    Walk move place segs (place.take (place.length - segs.length)) := by
  induction segs generalizing place with
  | nil =>
    rw [List.length_nil, Nat.sub_zero, List.take_length]
    exact .here place
  | cons seg segs ih =>
    obtain ⟨hseg, hsegs⟩ := List.forall_mem_cons.mp h
    rcases place.eq_nil_or_concat with rfl | ⟨lower, label, rfl⟩
    · simp at hlen
    · rw [List.concat_eq_append] at hlen ⊢
      simp only [List.length_append, List.length_cons, List.length_nil] at hlen
      have hrest : Walk move lower segs (lower.take (lower.length - segs.length)) := ih hsegs (by omega)
      have hlt : lower.length - segs.length ≤ lower.length := by omega
      apply Walk.up hseg
      simp only [List.length_append, List.length_cons, List.length_nil, Nat.zero_add, Nat.add_sub_add_right]
      rwa [List.take_append_of_le_length hlt]

lemma Walk.forall_mem {p : σ → Prop} (h : Walk move place segs goal) (hplace : ∀ label ∈ place, p label)
    (hsegs : ∀ seg ∈ segs, move seg = .down → p seg) : ∀ label ∈ goal, p label := by
  induction h with
  | here place => exact hplace
  | stay _ _ ih => exact ih hplace fun seg hseg => hsegs seg (List.mem_cons_of_mem _ hseg)
  | up _ _ ih =>
    apply ih
    · exact fun label hlabel => hplace label (List.mem_append_left _ hlabel)
    · exact fun seg hseg => hsegs seg (List.mem_cons_of_mem _ hseg)
  | down hmove _ ih =>
    apply ih
    · intro label hlabel
      rcases List.mem_append.mp hlabel with hlabel | hlabel
      · exact hplace label hlabel
      · obtain rfl := List.mem_singleton.mp hlabel
        exact hsegs _ (List.mem_cons_self ..) hmove
    · exact fun seg hseg => hsegs seg (List.mem_cons_of_mem _ hseg)

section FilePaths

def fileMove (seg : String) : Move :=
  if seg = "" ∨ seg = "." then .stay else if seg = ".." then .up else .down

lemma checked_fileMove (place : Option (List String)) (seg : String) :
    checked fileMove place seg = place.bind fun place =>
      if seg = "" ∨ seg = "." then some place
      else if seg = ".." then if place = [] then none else some place.dropLast
      else some (place ++ [seg]) := by
  unfold checked fileMove
  congr 1
  funext place
  split_ifs <;> simp_all

lemma clamped_fileMove (place : List String) (seg : String) :
    clamped fileMove place seg =
      if seg = "" ∨ seg = "." then place else if seg = ".." then place.dropLast else place ++ [seg] := by
  unfold clamped fileMove
  split_ifs <;> rfl

end FilePaths

end RepoGraph.Lib.PathWalk
