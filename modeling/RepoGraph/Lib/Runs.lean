import Mathlib.Data.Fintype.Basic
import Mathlib.Data.List.Induction
import Mathlib.Tactic

/-! Runs of a deterministic transition function, and invariants that may refer to the history. -/

namespace RepoGraph.Lib

variable {σ ε : Type} (step : σ → ε → σ) (init : σ)

def run (events : List ε) : σ := events.foldl step init

@[simp] lemma run_snoc (events : List ε) (e : ε) :
    run step init (events ++ [e]) = step (run step init events) e := by
  simp [run]

variable {step init}

theorem run_invariant (inv : List ε → σ → Prop) (hinit : inv [] init)
    (hstep : ∀ events s e, inv events s → inv (events ++ [e]) (step s e)) (events : List ε) :
    inv events (run step init events) := by
  induction events using List.reverseRecOn with
  | nil => exact hinit
  | append_singleton events e ih =>
    rw [run_snoc]
    exact hstep events _ e ih

lemma forall_prefix_snoc (p : List ε → ε → Prop) (events : List ε) :
    (∀ pre e, pre ++ [e] <+: events → p pre e) ↔ ∀ k, (h : k < events.length) → p (events.take k) events[k] := by
  constructor
  · intro h k hk
    apply h
    rw [← List.take_succ_eq_append_getElem hk]
    exact List.take_prefix _ _
  · intro h pre e hpre
    have hlen : pre.length < events.length := by
      have := hpre.length_le
      simp only [List.length_append, List.length_singleton] at this
      omega
    have hk := h pre.length hlen
    obtain ⟨rest, rfl⟩ := hpre
    simpa using hk

/-! Parties: one of them moves, the others stay. -/

variable {ι α : Type} [DecidableEq ι]

lemma comp_update {β : Type} (g : α → β) (f : ι → α) (i : ι) (a : α) :
    (fun j => g (Function.update f i a j)) = Function.update (fun j => g (f j)) i (g a) :=
  Function.comp_update g f i a

lemma card_filter_update [Fintype ι] (p : α → Prop) [DecidablePred p] (f : ι → α) (i : ι) (a : α) :
    (Finset.univ.filter fun j => p (Function.update f i a j)).card + (if p (f i) then 1 else 0) =
      (Finset.univ.filter fun j => p (f j)).card + (if p a then 1 else 0) := by
  have h₁ : ∀ g : ι → α, (Finset.univ.filter fun j => p (g j)).card =
      (if p (g i) then 1 else 0) + ((Finset.univ.erase i).filter fun j => p (g j)).card := by
    intro g
    rw [← Finset.insert_erase (Finset.mem_univ i), Finset.filter_insert]
    by_cases h : p (g i)
    · rw [if_pos h, if_pos h, Finset.card_insert_of_notMem (by simp)]
      simp [add_comm]
    · rw [if_neg h, if_neg h]
      simp
  have h₂ : ((Finset.univ.erase i).filter fun j => p (Function.update f i a j)) =
      (Finset.univ.erase i).filter fun j => p (f j) := by
    apply Finset.filter_congr
    intro j hj
    rw [Function.update_of_ne (Finset.ne_of_mem_erase hj)]
  rw [h₁ (Function.update f i a), h₁ f, h₂, Function.update_self]
  omega

end RepoGraph.Lib
