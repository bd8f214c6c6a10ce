import Mathlib.Order.Defs.Unbundled
import Mathlib.Tactic

/-! Programs whose steps may fail: a run ends in a value or in an error and leaves the state it reached, and
a run that needs more rounds than it is given does not end. -/

namespace RepoGraph.Lib

def FaultM (σ ε α : Type) := σ → Option (Except ε α × σ)

namespace FaultM

variable {σ ε α β : Type}

instance : Monad (FaultM σ ε) where
  pure a := fun s => some (.ok a, s)
  bind p f := fun s =>
    match p s with
    | none => none
    | some (.ok a, t) => f a t
    | some (.error e, t) => some (.error e, t)

instance : MonadStateOf σ (FaultM σ ε) where
  get := fun s => some (.ok s, s)
  set s := fun _ => some (.ok (), s)
  modifyGet f := fun s => some (.ok (f s).1, (f s).2)

instance : MonadExceptOf ε (FaultM σ ε) where
  throw e := fun s => some (.error e, s)
  tryCatch p handle := fun s =>
    match p s with
    | some (.error e, t) => handle e t
    | outcome => outcome

/-- The outcome of a program as a value; what the program did to the state stays. -/
def attempt (p : FaultM σ ε α) : FaultM σ ε (Except ε α) := fun s => (p s).map fun (r, t) => (.ok r, t)

def unfinished : FaultM σ ε α := fun _ => none

def onlyIf (c : Bool) (p : FaultM σ ε Unit) : FaultM σ ε Unit := if c then p else pure ()

def Ends (p : FaultM σ ε α) (s : σ) (r : Except ε α) (t : σ) : Prop := p s = some (r, t)

variable {s t : σ} {p : FaultM σ ε α} {f : α → FaultM σ ε β}

lemma ends_pure {a : α} {r : Except ε α} : Ends (pure a : FaultM σ ε α) s r t ↔ r = .ok a ∧ t = s := by
  constructor
  · rintro ⟨⟩
    exact ⟨rfl, rfl⟩
  · rintro ⟨rfl, rfl⟩
    rfl

lemma ends_throw {e : ε} {r : Except ε α} : Ends (throw e : FaultM σ ε α) s r t ↔ r = .error e ∧ t = s := by
  constructor
  · rintro ⟨⟩
    exact ⟨rfl, rfl⟩
  · rintro ⟨rfl, rfl⟩
    rfl

lemma ends_get {r : Except ε σ} : Ends (get : FaultM σ ε σ) s r t ↔ r = .ok s ∧ t = s := by
  constructor
  · rintro ⟨⟩
    exact ⟨rfl, rfl⟩
  · rintro ⟨rfl, rfl⟩
    rfl

lemma ends_set {u : σ} {r : Except ε PUnit} : Ends (set u : FaultM σ ε PUnit) s r t ↔ r = .ok () ∧ t = u := by
  constructor
  · rintro ⟨⟩
    exact ⟨rfl, rfl⟩
  · rintro ⟨rfl, rfl⟩
    rfl

lemma ends_modify {g : σ → σ} {r : Except ε PUnit} :
    Ends (modify g : FaultM σ ε PUnit) s r t ↔ r = .ok () ∧ t = g s := by
  constructor
  · rintro ⟨⟩
    exact ⟨rfl, rfl⟩
  · rintro ⟨rfl, rfl⟩
    rfl

lemma ends_attempt {r : Except ε (Except ε α)} : Ends (attempt p) s r t ↔ ∃ r₀, Ends p s r₀ t ∧ r = .ok r₀ := by
  rw [Ends, attempt, Option.map_eq_some_iff]
  constructor
  · rintro ⟨⟨r₀, t'⟩, hp, he⟩
    obtain ⟨rfl, rfl⟩ := Prod.mk.inj he
    exact ⟨r₀, hp, rfl⟩
  · rintro ⟨r₀, hp, rfl⟩
    exact ⟨(r₀, t), hp, rfl⟩

lemma ends_bind {r : Except ε β} : Ends (p >>= f) s r t ↔
    (∃ e, Ends p s (.error e) t ∧ r = .error e) ∨ ∃ a u, Ends p s (.ok a) u ∧ Ends (f a) u r t := by
  have hbind : (p >>= f) s = match p s with
      | none => none
      | some (.ok a, u) => f a u
      | some (.error e, u) => some (.error e, u) := rfl
  simp only [Ends, hbind]
  cases hp : p s with
  | none => simp
  | some outcome =>
    obtain ⟨r₀, u⟩ := outcome
    cases r₀ with
    | error e =>
      constructor
      · intro h
        cases h
        exact Or.inl ⟨e, rfl, rfl⟩
      · rintro (⟨e', he, rfl⟩ | ⟨a, v, he, -⟩)
        · cases he
          rfl
        · cases he
    | ok a =>
      constructor
      · intro h
        exact Or.inr ⟨a, u, rfl, h⟩
      · rintro (⟨e, he, -⟩ | ⟨b, v, he, h⟩)
        · cases he
        · cases he
          exact h

def Keeps (R : σ → σ → Prop) (p : FaultM σ ε α) : Prop := ∀ ⦃s r t⦄, Ends p s r t → R s t

variable {R : σ → σ → Prop}

lemma Keeps.pure [Std.Refl R] (a : α) : Keeps R (pure a : FaultM σ ε α) := by
  intro s r t h
  obtain ⟨-, rfl⟩ := ends_pure.mp h
  exact refl _

lemma Keeps.throw [Std.Refl R] (e : ε) : Keeps R (throw e : FaultM σ ε α) := by
  intro s r t h
  obtain ⟨-, rfl⟩ := ends_throw.mp h
  exact refl _

lemma Keeps.get [Std.Refl R] : Keeps R (get : FaultM σ ε σ) := by
  intro s r t h
  obtain ⟨-, rfl⟩ := ends_get.mp h
  exact refl _

lemma Keeps.unfinished : Keeps R (unfinished : FaultM σ ε α) := by
  intro s r t h
  cases h

lemma Keeps.attempt (hp : Keeps R p) : Keeps R (attempt p) := by
  intro s r t h
  obtain ⟨r₀, h, -⟩ := ends_attempt.mp h
  exact hp h

lemma Keeps.bind [IsTrans σ R] (hp : Keeps R p) (hf : ∀ a, Keeps R (f a)) : Keeps R (p >>= f) := by
  intro s r t h
  rcases ends_bind.mp h with ⟨e, h, -⟩ | ⟨a, u, h, h'⟩
  · exact hp h
  · exact IsTrans.trans s u t (hp h) (hf a h')

lemma Keeps.onlyIf [Std.Refl R] {c : Bool} {q : FaultM σ ε Unit} (hq : Keeps R q) : Keeps R (onlyIf c q) := by
  cases c with
  | false => exact Keeps.pure ()
  | true => exact hq

lemma Keeps.foldlM [Std.Refl R] [IsTrans σ R] {γ : Type} {g : β → γ → FaultM σ ε β} (hg : ∀ b c, Keeps R (g b c))
    (l : List γ) (b : β) : Keeps R (l.foldlM g b) := by
  induction l generalizing b with
  | nil => exact Keeps.pure b
  | cons c l ih => exact Keeps.bind (hg b c) ih

def NeverFails (p : FaultM σ ε α) : Prop := ∀ ⦃s r t⦄, Ends p s r t → ∃ a, r = .ok a

lemma NeverFails.pure (a : α) : NeverFails (pure a : FaultM σ ε α) := fun _ _ _ h => ⟨a, (ends_pure.mp h).1⟩

lemma NeverFails.modify (g : σ → σ) : NeverFails (modify g : FaultM σ ε PUnit) := fun _ _ _ h =>
  ⟨(), (ends_modify.mp h).1⟩

lemma NeverFails.attempt : NeverFails (attempt p) := by
  intro s r t h
  obtain ⟨r₀, -, rfl⟩ := ends_attempt.mp h
  exact ⟨r₀, rfl⟩

lemma NeverFails.bind (hp : NeverFails p) (hf : ∀ a, NeverFails (f a)) : NeverFails (p >>= f) := by
  intro s r t h
  rcases ends_bind.mp h with ⟨e, h, -⟩ | ⟨a, u, -, h⟩
  · obtain ⟨a, he⟩ := hp h
    cases he
  · exact hf a h

end FaultM

end RepoGraph.Lib
