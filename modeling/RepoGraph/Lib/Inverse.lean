import Mathlib.Logic.Function.Basic
import Mathlib.Tactic

/-! Two partial maps that undo each other: the name of a key, at most one, and the key of a name. -/

namespace RepoGraph.Lib

variable {κ ν : Type}

def Inverse (nameOf : κ → Option ν) (keyOf : ν → Option κ) : Prop :=
  ∀ k n, keyOf n = some k ↔ nameOf k = some n

namespace Inverse

variable {nameOf : κ → Option ν} {keyOf : ν → Option κ} {k k' : κ} {n : ν}

lemma empty : Inverse (fun _ : κ => none) (fun _ : ν => none) := by
  intro k n
  simp

lemma unique (h : Inverse nameOf keyOf) (hk : nameOf k = some n) (hk' : nameOf k' = some n) : k = k' := by
  have hkey := (h k n).mpr hk
  rw [(h k' n).mpr hk'] at hkey
  exact (Option.some.inj hkey).symm

variable [DecidableEq κ] [DecidableEq ν]

def without (keyOf : ν → Option κ) (name : Option ν) (n : ν) : Option κ :=
  if name = some n then none else keyOf n

lemma unlink (h : Inverse nameOf keyOf) (k : κ) :
    Inverse (Function.update nameOf k none) (without keyOf (nameOf k)) := by
  intro k' n
  rw [without]
  by_cases hk : k' = k
  · subst hk
    rw [Function.update_self]
    constructor
    · intro hfind
      split at hfind
      · exact absurd hfind (by simp)
      · rename_i hne
        exact absurd ((h k' n).mp hfind) hne
    · intro hname
      exact absurd hname (by simp)
  · rw [Function.update_of_ne hk, ← h k' n]
    by_cases hn : nameOf k = some n
    · rw [if_pos hn, (h k n).mpr hn]
      simp [Ne.symm hk]
    · rw [if_neg hn]

lemma link (h : Inverse nameOf keyOf) (hk : nameOf k = none) (hn : keyOf n = none) :
    Inverse (Function.update nameOf k (some n)) (Function.update keyOf n (some k)) := by
  intro k' n'
  by_cases hk' : k' = k
  · subst hk'
    rw [Function.update_self]
    by_cases hn' : n' = n
    · subst hn'
      simp
    · rw [Function.update_of_ne hn', h k' n', hk]
      simp [Ne.symm hn']
  · rw [Function.update_of_ne hk', ← h k' n']
    by_cases hn' : n' = n
    · subst hn'
      rw [Function.update_self, hn]
      simp [Ne.symm hk']
    · rw [Function.update_of_ne hn']

lemma relink (h : Inverse nameOf keyOf) (hn : keyOf n = none ∨ keyOf n = some k) :
    Inverse (Function.update nameOf k (some n))
      (Function.update (without keyOf (nameOf k)) n (some k)) := by
  have hfree : without keyOf (nameOf k) n = none := by
    rw [without]
    cases hn with
    | inl hnone => rw [hnone, ite_self]
    | inr hown => rw [if_pos ((h k n).mp hown)]
  have hlinked := (h.unlink k).link (Function.update_self ..) hfree
  rwa [Function.update_idem] at hlinked

end Inverse

end RepoGraph.Lib
