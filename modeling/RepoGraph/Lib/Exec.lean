import Mathlib.Logic.Relation
import Mathlib.Tactic

/-! Partial computations: a run ends in a value, in a panic, or with its fuel spent. A loop is
total correctness by an invariant and a variant. -/

namespace RepoGraph.Lib

inductive Fault
  | panic (message : String)
  | outOfFuel
  deriving DecidableEq, Repr

abbrev Exec (α : Type) := Except Fault α

variable {α β σ ρ ε : Type}

def expect (message : String) : Option α → Exec α
  | some a => .ok a
  | none => .error (.panic message)

def unwrapOr (message : String) : Except ε α → Exec α
  | .ok a => .ok a
  | .error _ => .error (.panic message)

@[simp] lemma expect_some (message : String) (a : α) : expect message (some a) = .ok a := rfl

@[simp] lemma unwrapOr_ok (message : String) (a : α) :
    unwrapOr message (.ok a : Except ε α) = .ok a := rfl

lemma bind_ok {x : Except ε α} {f : α → Except ε β} {b : β} :
    (x >>= f) = .ok b ↔ ∃ a, x = .ok a ∧ f a = .ok b := by
  cases x with
  | error e => simp [bind, Except.bind]
  | ok a => simp [bind, Except.bind]

lemma map_eq_ok {x : Except ε α} {f : α → β} {b : β} : f <$> x = .ok b ↔ ∃ a, x = .ok a ∧ f a = b := by
  cases x with
  | error e => simp [Functor.map, Except.map]
  | ok a => simp [Functor.map, Except.map]

@[simp] lemma ok_bind (a : α) (f : α → Except ε β) : ((.ok a : Except ε α) >>= f) = f a := rfl

lemma foldlM_ok {f : σ → α → Except ε σ} {l : List α} (h : ∀ a ∈ l, ∀ s, ∃ s', f s a = .ok s') (s : σ) :
    ∃ s', l.foldlM f s = .ok s' := by
  induction l generalizing s with
  | nil => exact ⟨s, rfl⟩
  | cons a l ih =>
    obtain ⟨s₁, hs₁⟩ := h a List.mem_cons_self s
    obtain ⟨s', hs'⟩ := ih (fun b hb => h b (List.mem_cons_of_mem _ hb)) s₁
    exact ⟨s', by rw [List.foldlM_cons, hs₁, ok_bind, hs']⟩

lemma mapM_getElem? {f : α → Except ε β} {l : List α} {bs : List β} (h : l.mapM f = .ok bs) {i : ℕ} {a : α}
    (hi : l[i]? = some a) : ∃ b, f a = .ok b ∧ bs[i]? = some b := by
  induction l generalizing bs i with
  | nil => simp at hi
  | cons c l ih =>
    rw [List.mapM_cons] at h
    obtain ⟨b, hb, h⟩ := bind_ok.mp h
    obtain ⟨bs', hbs, h⟩ := bind_ok.mp h
    obtain rfl := Except.ok.inj h
    cases i with
    | zero =>
      obtain rfl : c = a := by simpa using hi
      exact ⟨b, hb, by simp⟩
    | succ i =>
      obtain ⟨b', hb', hi'⟩ := ih hbs (by simpa using hi)
      exact ⟨b', hb', by simpa using hi'⟩

lemma mapM_eq_ok {f : α → Except ε β} {l : List α} {bs : List β} :
    l.mapM f = .ok bs ↔ List.Forall₂ (fun a b => f a = .ok b) l bs := by
  induction l generalizing bs with
  | nil =>
    constructor
    · intro h
      cases h
      exact .nil
    · intro h
      cases h
      rfl
  | cons a l ih =>
    rw [List.mapM_cons]
    constructor
    · intro h
      obtain ⟨b, hb, h⟩ := bind_ok.mp h
      obtain ⟨bs', hbs, h⟩ := bind_ok.mp h
      obtain rfl := Except.ok.inj h
      exact .cons hb (ih.mp hbs)
    · intro h
      cases h with
      | cons hb hbs => rw [hb, ok_bind, ih.mpr hbs, ok_bind]; rfl

lemma mem_mapM {f : α → Except ε β} {l : List α} {bs : List β} (h : l.mapM f = .ok bs) {b : β} :
    b ∈ bs ↔ ∃ a ∈ l, f a = .ok b := by
  induction mapM_eq_ok.mp h with
  | nil => simp
  | @cons a c l cs hac hrest ih =>
    rw [List.mem_cons, ih (mapM_eq_ok.mpr hrest), List.exists_mem_cons_iff, hac, Except.ok.injEq, eq_comm]

lemma of_mapM {f : α → Except ε β} {l : List α} {bs : List β} (h : l.mapM f = .ok bs) {a : α} (ha : a ∈ l) :
    ∃ b, f a = .ok b := by
  induction mapM_eq_ok.mp h with
  | nil => simp at ha
  | cons hb hrest ih =>
    rcases List.mem_cons.mp ha with rfl | ha
    · exact ⟨_, hb⟩
    · exact ih (mapM_eq_ok.mpr hrest) ha

lemma mapM_eq_map {f : α → Except ε β} {g : α → β} {l : List α} (h : ∀ a ∈ l, f a = .ok (g a)) :
    l.mapM f = .ok (l.map g) := by
  rw [mapM_eq_ok, List.forall₂_map_right_iff, List.forall₂_same]
  exact h

lemma exists_mapM {f : α → Except ε β} {l : List α} (h : ∀ a ∈ l, ∃ b, f a = .ok b) : ∃ bs, l.mapM f = .ok bs := by
  induction l with
  | nil => exact ⟨[], rfl⟩
  | cons a l ih =>
    obtain ⟨b, hb⟩ := h a List.mem_cons_self
    obtain ⟨bs, hbs⟩ := ih fun a' ha' => h a' (List.mem_cons_of_mem _ ha')
    exact ⟨b :: bs, mapM_eq_ok.mpr (.cons hb (mapM_eq_ok.mp hbs))⟩

section Ensures

/-- Total correctness of a fallible computation, with a condition on its errors. -/
def Ensures (x : Except ε α) (post : α → Prop) (exc : ε → Prop) : Prop :=
  match x with
  | .ok a => post a
  | .error e => exc e

variable {x : Except ε α} {post : α → Prop} {exc : ε → Prop}

@[simp] lemma ensures_ok {a : α} : Ensures (.ok a : Except ε α) post exc ↔ post a := Iff.rfl

@[simp] lemma ensures_error {e : ε} : Ensures (.error e : Except ε α) post exc ↔ exc e := Iff.rfl

lemma Ensures.bind {mid : α → Prop} {f : α → Except ε β} {post : β → Prop} (hx : Ensures x mid exc)
    (hf : ∀ a, mid a → Ensures (f a) post exc) : Ensures (x >>= f) post exc := by
  cases x with
  | error e => exact hx
  | ok a => exact hf a hx

lemma Ensures.mono {post' : α → Prop} {exc' : ε → Prop} (h : Ensures x post exc) (hpost : ∀ a, post a → post' a)
    (hexc : ∀ e, exc e → exc' e) : Ensures x post' exc' := by
  cases x with
  | error e => exact hexc e h
  | ok a => exact hpost a h

lemma Ensures.of_true (x : Except ε α) : Ensures x (fun _ => True) fun _ => True := by
  cases x <;> trivial

end Ensures

def loop (body : σ → Exec (σ ⊕ ρ)) : ℕ → σ → Exec ρ
  | 0, _ => .error .outOfFuel
  | fuel + 1, s => do
    match ← body s with
    | .inl s' => loop body fuel s'
    | .inr r => .ok r

lemma loop_next {body : σ → Exec (σ ⊕ ρ)} {s s' : σ} (h : body s = .ok (.inl s')) (fuel : ℕ) :
    loop body (fuel + 1) s = loop body fuel s' := by
  simp [loop, h]

lemma loop_done {body : σ → Exec (σ ⊕ ρ)} {s : σ} {r : ρ} (h : body s = .ok (.inr r)) (fuel : ℕ) :
    loop body (fuel + 1) s = .ok r := by
  simp [loop, h]

def polls (body : σ → Exec (σ ⊕ ρ)) (due : σ → Bool) : ℕ → σ → ℕ
  | 0, _ => 0
  | fuel + 1, s =>
    (if due s then 1 else 0) +
      match body s with
      | .ok (.inl s') => polls body due fuel s'
      | _ => 0

lemma polls_next {body : σ → Exec (σ ⊕ ρ)} {s s' : σ} (h : body s = .ok (.inl s')) (due : σ → Bool) (fuel : ℕ) :
    polls body due (fuel + 1) s = (if due s then 1 else 0) + polls body due fuel s' := by
  simp [polls, h]

lemma polls_done {body : σ → Exec (σ ⊕ ρ)} {s : σ} {r : ρ} (h : body s = .ok (.inr r)) (due : σ → Bool)
    (fuel : ℕ) : polls body due (fuel + 1) s = if due s then 1 else 0 := by
  simp [polls, h]

/-- What one round of a loop has to establish: it stays inside the invariant and lowers the
variant, or it leaves with a result that meets the postcondition. -/
def Round (inv : σ → Prop) (variant : σ → ℕ) (post : ρ → Prop) (s : σ) (o : Exec (σ ⊕ ρ)) : Prop :=
  (∃ s', o = .ok (.inl s') ∧ inv s' ∧ variant s' < variant s) ∨ ∃ r, o = .ok (.inr r) ∧ post r

theorem loop_terminates {body : σ → Exec (σ ⊕ ρ)} {inv : σ → Prop} {post : ρ → Prop}
    (variant : σ → ℕ) (hround : ∀ s, inv s → Round inv variant post s (body s))
    {fuel : ℕ} {s : σ} (hs : inv s) (hfuel : variant s < fuel) :
    ∃ r, loop body fuel s = .ok r ∧ post r := by
  induction fuel generalizing s with
  | zero => omega
  | succ fuel ih =>
    rcases hround s hs with ⟨s', hb, hs', hlt⟩ | ⟨r, hb, hr⟩
    · rw [loop_next hb]
      exact ih hs' (by omega)
    · exact ⟨r, loop_done hb fuel, hr⟩

/-- A loop and its interrupted version: each round of `cut` either stops the run or does what `body`
does, so the run is stopped or ends as the run of `body` does. -/
theorem loop_interrupted {body cut : σ → Exec (σ ⊕ ρ)} {inv : σ → Prop} {quiet broken : ρ → Prop}
    (hround : ∀ s, inv s → (∃ r, cut s = .ok (.inr r) ∧ broken r) ∨
      cut s = body s ∧ (∀ s', body s = .ok (.inl s') → inv s') ∧ ∀ r, body s = .ok (.inr r) → quiet r)
    {fuel : ℕ} {s : σ} {r : ρ} (hs : inv s) (h : loop body fuel s = .ok r) :
    loop cut fuel s = .ok r ∧ quiet r ∨ ∃ r', loop cut fuel s = .ok r' ∧ broken r' := by
  induction fuel generalizing s with
  | zero => cases h
  | succ fuel ih =>
    rcases hround s hs with ⟨r', hcut, hr'⟩ | ⟨hcut, hnext, hdone⟩
    · exact Or.inr ⟨r', loop_done hcut fuel, hr'⟩
    · obtain ⟨o, hbody, ho⟩ := bind_ok.mp h
      rw [hbody] at hcut
      cases o with
      | inl s' =>
        rw [loop_next hcut]
        exact ih (hnext s' hbody) ho
      | inr r' =>
        obtain rfl := Except.ok.inj ho
        exact Or.inl ⟨loop_done hcut fuel, hdone r' hbody⟩

/-- Two runs in step: rounds related by `R` go on in related states or end in results related by `S`. -/
theorem loop_related {body body' : σ → Exec (σ ⊕ ρ)} {R : σ → σ → Prop} {S : ρ → ρ → Prop}
    (hround : ∀ s s', R s s' →
      (∀ t, body s = .ok (.inl t) → ∃ t', body' s' = .ok (.inl t') ∧ R t t') ∧
        ∀ r, body s = .ok (.inr r) → ∃ r', body' s' = .ok (.inr r') ∧ S r r')
    {fuel : ℕ} {s s' : σ} {r : ρ} (hs : R s s') (h : loop body fuel s = .ok r) :
    ∃ r', loop body' fuel s' = .ok r' ∧ S r r' := by
  induction fuel generalizing s s' with
  | zero => cases h
  | succ fuel ih =>
    obtain ⟨hnext, hdone⟩ := hround s s' hs
    obtain ⟨o, hbody, ho⟩ := bind_ok.mp h
    cases o with
    | inl t =>
      obtain ⟨t', hbody', ht⟩ := hnext t hbody
      rw [loop_next hbody']
      exact ih ht ho
    | inr r₀ =>
      obtain rfl := Except.ok.inj ho
      obtain ⟨r', hbody', hr⟩ := hdone r₀ hbody
      exact ⟨r', loop_done hbody' fuel, hr⟩

lemma loop_mono {body : σ → Exec (σ ⊕ ρ)} {fuel fuel' : ℕ} {s : σ} {r : ρ} (h : loop body fuel s = .ok r)
    (hle : fuel ≤ fuel') : loop body fuel' s = .ok r := by
  induction fuel generalizing s fuel' with
  | zero => cases h
  | succ fuel ih =>
    obtain ⟨fuel', rfl⟩ : ∃ n, fuel' = n + 1 := ⟨fuel' - 1, by omega⟩
    obtain ⟨o, hbody, ho⟩ := bind_ok.mp h
    cases o with
    | inl s' =>
      rw [loop_next hbody]
      exact ih ho (by omega)
    | inr r' =>
      obtain rfl := Except.ok.inj ho
      exact loop_done hbody fuel'

/-- A run and a run that makes some of its rounds: every other round leaves the second state as it is. -/
theorem loop_stutter {τ : Type} {body : σ → Exec (σ ⊕ ρ)} {body' : τ → Exec (τ ⊕ ρ)} {R : σ → τ → Prop}
    (hround : ∀ s t, R s t →
      (∀ s', body s = .ok (.inl s') → R s' t ∨ ∃ t', body' t = .ok (.inl t') ∧ R s' t') ∧
        ∀ r, body s = .ok (.inr r) → body' t = .ok (.inr r))
    {fuel : ℕ} {s : σ} {t : τ} {r : ρ} (hs : R s t)
      (h : loop body fuel s = .ok r) : loop body' fuel t = .ok r := by
  induction fuel generalizing s t with
  | zero => cases h
  | succ fuel ih =>
    obtain ⟨hnext, hdone⟩ := hround s t hs
    obtain ⟨o, hbody, ho⟩ := bind_ok.mp h
    cases o with
    | inl s' =>
      rcases hnext s' hbody with hs' | ⟨t', hbody', hs'⟩
      · exact loop_mono (ih hs' ho) (by omega)
      · rw [loop_next hbody']
        exact ih hs' ho
    | inr r₀ =>
      obtain rfl := Except.ok.inj ho
      exact loop_done (hdone r₀ hbody) fuel

end RepoGraph.Lib
