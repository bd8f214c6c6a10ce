import Mathlib.Tactic

/-! The text functions of a database, by characters counted from one: the place of a character, and the part of a
text from a place on or up to it. -/

namespace RepoGraph.Lib.SqlText

def instr (s : List Char) (c : Char) : ℕ := if c ∈ s then s.idxOf c + 1 else 0

/-- The characters from a place on; a negative count takes them from before it. -/
def substr (s : List Char) (place : ℕ) (count : ℤ) : List Char :=
  let start := place - 1
  let n := if place = 0 then count.natAbs - 1 else count.natAbs
  if count < 0 then (s.drop (start - n)).take (min n start) else (s.drop start).take n

def between (a b : ℕ) (s : List Char) : List Char := (s.take (max a b)).drop (min a b)

variable {s before rest : List Char} {c : Char} {a b : ℕ}

lemma between_of_le (h : a ≤ b) : between a b s = (s.take b).drop a := by
  rw [between, max_eq_right h, min_eq_left h]

lemma between_of_ge (h : b ≤ a) : between a b s = (s.take a).drop b := by
  rw [between, max_eq_left h, min_eq_right h]

lemma substr_between (s : List Char) (a b : ℕ) : substr s (a + 1) ((b : ℤ) - a) = between a b s := by
  unfold substr
  dsimp only
  rw [if_neg (Nat.succ_ne_zero a), Nat.add_sub_cancel]
  rcases le_total a b with h | h
  · have hcount : ((b : ℤ) - a).natAbs = b - a := by omega
    rw [if_neg (by omega), hcount, between_of_le h, List.drop_take]
  · have hcount : ((b : ℤ) - a).natAbs = a - b := by omega
    rw [between_of_ge h, List.drop_take]
    rcases h.eq_or_lt with rfl | hlt
    · simp
    · rw [if_pos (by omega), hcount, Nat.sub_sub_self h, min_eq_left (Nat.sub_le a b)]

lemma between_append (before rest : List Char) (a b : ℕ) :
    between (before.length + a) (before.length + b) (before ++ rest) = between a b rest := by
  rw [between, between, Nat.add_max_add_left, Nat.add_min_add_left, List.take_length_add_append,
    List.drop_length_add_append]

end RepoGraph.Lib.SqlText
