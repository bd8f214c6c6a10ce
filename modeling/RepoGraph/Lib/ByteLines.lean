import RepoGraph.Lib.Scanner
import RepoGraph.Lib.Search

/-! The lines of a stream of bytes, and the numbers written in them. -/

namespace RepoGraph.Lib.ByteLines

section Lines

def lineFeed : UInt8 := 0x0a

/-- A line with its line feed, and what is behind it; the last line may have none. -/
def readLine : List UInt8 → List UInt8 × List UInt8
  | [] => ([], [])
  | b :: rest => if b = lineFeed then ([b], rest) else (b :: (readLine rest).1, (readLine rest).2)

lemma readLine_append (bytes : List UInt8) : (readLine bytes).1 ++ (readLine bytes).2 = bytes := by
  induction bytes with
  | nil => rfl
  | cons b rest ih =>
    rw [readLine]
    split
    · rfl
    · exact congrArg (b :: ·) ih

lemma length_readLine {bytes : List UInt8} (h : bytes ≠ []) : (readLine bytes).2.length < bytes.length := by
  have happend := congrArg List.length (readLine_append bytes)
  have hline : (readLine bytes).1 ≠ [] := by
    obtain ⟨b, rest, rfl⟩ := List.exists_cons_of_ne_nil h
    rw [readLine]
    split <;> simp
  rw [List.length_append] at happend
  have hpos := List.length_pos_iff.mpr hline
  omega

lemma readLine_terminated {line : List UInt8} (h : lineFeed ∉ line) (rest : List UInt8) :
    readLine (line ++ lineFeed :: rest) = (line ++ [lineFeed], rest) := by
  induction line with
  | nil => rw [List.nil_append, readLine, if_pos rfl, List.nil_append]
  | cons b line ih =>
    obtain ⟨hb, hline⟩ := not_or.mp (List.mem_cons.not.mp h)
    rw [List.cons_append, readLine, if_neg (Ne.symm hb), ih hline, List.cons_append]

lemma utf8_append (s t : String) : Wire.utf8 (s ++ t) = Wire.utf8 s ++ Wire.utf8 t := by
  rw [Scanner.utf8_eq, Scanner.utf8_eq, Scanner.utf8_eq, String.toList_append, List.flatMap_append]

lemma not_mem_utf8 {s : String} (h : '\n' ∉ s.toList) : lineFeed ∉ Wire.utf8 s := by
  rw [Scanner.utf8_eq, List.mem_flatMap]
  rintro ⟨c, hc, hbyte⟩
  rcases Nat.lt_or_ge c.toNat 128 with hascii | hother
  · rw [Scanner.utf8EncodeChar_ascii hascii, List.mem_singleton] at hbyte
    have hcode : c.toNat = 10 := by
      have hnat := congrArg UInt8.toNat hbyte
      rw [UInt8.toNat_ofNat_of_lt' (by change _ < 256; omega)] at hnat
      exact hnat.symm
    have hbreak : c = '\n' := Char.toNat_inj.mp hcode
    exact h (hbreak ▸ hc)
  · have hlarge := Scanner.utf8EncodeChar_not_ascii hother _ hbyte
    exact absurd hlarge (by decide)

lemma readLine_cases (bytes : List UInt8) :
    (∃ line rest, lineFeed ∉ line ∧ bytes = line ++ lineFeed :: rest ∧
      readLine bytes = (line ++ [lineFeed], rest)) ∨ lineFeed ∉ bytes ∧ readLine bytes = (bytes, []) := by
  induction bytes with
  | nil => exact .inr ⟨List.not_mem_nil, rfl⟩
  | cons b rest ih =>
    by_cases hb : b = lineFeed
    · exact .inl ⟨[], rest, List.not_mem_nil, by rw [hb]; rfl, by rw [readLine, if_pos hb, hb]; rfl⟩
    · rcases ih with ⟨line, rest', hline, rfl, hread⟩ | ⟨hrest, hread⟩
      · refine .inl ⟨b :: line, rest', ?_, rfl, ?_⟩
        · exact List.not_mem_cons_of_ne_of_not_mem (Ne.symm hb) hline
        · rw [readLine, if_neg hb, hread]
          rfl
      · refine .inr ⟨List.not_mem_cons_of_ne_of_not_mem (Ne.symm hb) hrest, ?_⟩
        rw [readLine, if_neg hb, hread]

end Lines

section Numbers

def unsigned : List Char → List Char
  | '+' :: digits => digits
  | digits => digits

/-- An unsigned number of a bounded width as `str::parse` reads it. -/
def parseUnsigned (bits : ℕ) (s : String) : Option ℕ :=
  let digits := unsigned s.toList
  if digits = [] ∨ ¬ digits.all Char.isDigit then none
  else if Nat.ofDigitChars 10 digits 0 < 2 ^ bits then some (Nat.ofDigitChars 10 digits 0)
  else none

lemma toList_toString (n : ℕ) : (toString n).toList = Nat.toDigits 10 n := by
  rw [Nat.toString_eq_repr, Nat.toList_repr]

lemma isDigit_of_mem_toString {n : ℕ} {c : Char} (h : c ∈ (toString n).toList) : c.isDigit = true := by
  rw [toList_toString] at h
  exact Nat.isDigit_of_mem_toDigits (by decide) (by decide) h

lemma toString_ne_nil (n : ℕ) : (toString n).toList ≠ [] := by
  rw [toList_toString]
  exact Nat.toDigits_ne_nil

lemma parseUnsigned_toString {bits n : ℕ} (h : n < 2 ^ bits) : parseUnsigned bits (toString n) = some n := by
  obtain ⟨c, cs, hlist⟩ := List.exists_cons_of_ne_nil (toString_ne_nil n)
  have hdigits : ∀ d ∈ c :: cs, d.isDigit = true := fun d hd => isDigit_of_mem_toString (hlist ▸ hd)
  have hsign : c ≠ '+' := by
    rintro rfl
    exact absurd (hdigits '+' List.mem_cons_self) (by decide)
  have hall : (c :: cs).all Char.isDigit = true := List.all_eq_true.mpr hdigits
  have hvalue : Nat.ofDigitChars 10 (c :: cs) 0 = n := by
    rw [← hlist, toList_toString, Nat.ofDigitChars_ten_toDigits]
  have hunsigned : unsigned (c :: cs) = c :: cs := by
    unfold unsigned
    split
    · rename_i heq
      exact absurd (List.cons.inj heq).1 hsign
    · rfl
  rw [parseUnsigned, hlist, hunsigned, hall, hvalue]
  simp [h]

lemma not_isWhitespace_of_isDigit {c : Char} (h : c.isDigit = true) : Text.isWhitespace c = false := by
  have hbounds : 48 ≤ c.toNat ∧ c.toNat ≤ 57 := by
    simpa [Char.isDigit, UInt32.le_iff_toNat_le] using h
  simp only [Text.isWhitespace, Bool.or_eq_false_iff, Bool.and_eq_false_iff, decide_eq_false_iff_not]
  omega

lemma trim_toString (n : ℕ) : Text.trim (" " ++ toString n) = toString n := by
  have hsolid : Text.IsSolid Text.isWhitespace (toString n) := by
    have hdigit : ∀ c ∈ (toString n).toList, Text.isWhitespace c = false := fun c hc =>
      not_isWhitespace_of_isDigit (isDigit_of_mem_toString hc)
    constructor
    · obtain ⟨c, cs, hlist⟩ := List.exists_cons_of_ne_nil (toString_ne_nil n)
      exact ⟨c, cs, hlist, hdigit c (hlist ▸ List.mem_cons_self)⟩
    · refine ⟨_, _, (List.dropLast_append_getLast (toString_ne_nil n)).symm, hdigit _ (List.getLast_mem _)⟩
  have hspace : ∀ c ∈ " ".toList, Text.isWhitespace c = true := fun c hc => by
    obtain rfl := List.mem_singleton.mp hc
    rfl
  have htrim := Text.trimBy_solid hsolid hspace ""
  rw [String.append_empty] at htrim
  rw [Text.trim, htrim]
  exact String.append_empty

end Numbers

end RepoGraph.Lib.ByteLines
