import Mathlib.Order.Defs.LinearOrder
import Mathlib.Tactic

/-! Pages of a list that is sorted by a key: a page holds the first entries behind a cursor, and the next cursor is
the key of its last entry. -/

namespace RepoGraph.Lib.Pages

variable {α κ : Type} [LinearOrder κ] {key : α → κ} {l batch rest : List α} {cursor : Option κ} {last : α}

def behind (key : α → κ) (cursor : Option κ) (l : List α) : List α := l.filter fun a => ∀ c ∈ cursor, c < key a

def page (key : α → κ) (limit : ℕ) (cursor : Option κ) (l : List α) : List α := (behind key cursor l).take limit

@[simp] lemma behind_none : behind key none l = l := by simp [behind]

lemma mem_behind {a : α} : a ∈ behind key cursor l ↔ a ∈ l ∧ ∀ c ∈ cursor, c < key a := by simp [behind]

lemma behind_last (hsorted : l.Pairwise fun a b => key a < key b) (hsplit : behind key cursor l = batch ++ rest)
    (hlast : batch.getLast? = some last) : behind key (some (key last)) l = rest := by
  have hmem : last ∈ behind key cursor l := by
    rw [hsplit]
    exact List.mem_append_left _ (List.mem_of_getLast? hlast)
  have hcursor := (mem_behind.mp hmem).2
  have hsub : behind key (some (key last)) l = behind key (some (key last)) (behind key cursor l) := by
    unfold behind
    rw [List.filter_filter]
    apply List.filter_congr
    intro a _
    rw [Bool.eq_iff_iff]
    simp only [Option.mem_def, Option.some.injEq, forall_eq', Bool.and_eq_true, decide_eq_true_eq]
    exact ⟨fun h => ⟨h, fun c hc => (hcursor c hc).trans h⟩, fun h => h.1⟩
  have hpairs : (batch ++ rest).Pairwise fun a b => key a < key b := by
    rw [← hsplit]
    exact hsorted.filter _
  obtain ⟨hbatch, -, hacross⟩ := List.pairwise_append.mp hpairs
  obtain ⟨init, rfl⟩ := List.getLast?_eq_some_iff.mp hlast
  rw [hsub, hsplit]
  unfold behind
  rw [List.filter_append]
  have hbefore : (init ++ [last]).filter (fun a => ∀ c ∈ some (key last), c < key a) = [] := by
    apply List.filter_eq_nil_iff.mpr
    intro a ha
    simp only [Option.mem_def, Option.some.injEq, forall_eq', decide_eq_true_eq, not_lt]
    rcases List.mem_append.mp ha with ha | ha
    · exact ((List.pairwise_append.mp hbatch).2.2 a ha last (by simp)).le
    · rw [List.mem_singleton.mp ha]
  have hafter : rest.filter (fun a => ∀ c ∈ some (key last), c < key a) = rest := by
    apply List.filter_eq_self.mpr
    intro a ha
    simpa using hacross last (by simp) a ha
  rw [hbefore, hafter, List.nil_append]

lemma behind_page (hsorted : l.Pairwise fun a b => key a < key b) {limit : ℕ}
    (hlast : (page key limit cursor l).getLast? = some last) :
    behind key (some (key last)) l = (behind key cursor l).drop limit :=
  behind_last hsorted (List.take_append_drop limit _).symm hlast

end RepoGraph.Lib.Pages
