import RepoGraph.Lib.TextLaws
import RepoGraph.Lib.Wire

/-! A text read by a machine that looks at most two symbols ahead, and blanks some of the symbols it takes. A
machine that stops at ASCII symbols only does the same on the bytes of a text as on its characters. -/

namespace RepoGraph.Lib.Scanner

/-- One step: the state behind it, how many symbols it takes besides the first, and whether they are blanked. -/
structure Move (σ : Type) where
  next : σ
  more : ℕ
  blank : Bool

abbrev Step (σ : Type) := σ → Char → Option Char → Option Char → Move σ

variable {σ : Type} (step : Step σ)

/-- Which symbols are blanked; the number counts the symbols that the last step has still to take. -/
def marks : σ → ℕ → Bool → List Char → List Bool
  | _, _, _, [] => []
  | s, k + 1, m, _ :: l => m :: marks s k m l
  | s, 0, _, a :: l =>
    let move := step s a l[0]? l[1]?
    move.blank :: marks move.next move.more move.blank l

@[simp] lemma marks_nil (s : σ) (k : ℕ) (m : Bool) : marks step s k m [] = [] := by
  cases k <;> rfl

@[simp] lemma length_marks (s : σ) (k : ℕ) (m : Bool)
    (l : List Char) : (marks step s k m l).length = l.length := by
  induction l generalizing s k m with
  | nil => simp
  | cons a l ih => cases k <;> simp [marks, ih]

lemma marks_zero (s : σ) (m m' : Bool) (l : List Char) : marks step s 0 m l = marks step s 0 m' l := by
  cases l <;> rfl

def blanked {α : Type} (space : α) (l : List α) (ms : List Bool) : List α :=
  List.zipWith (fun a m => if m then space else a) l ms

lemma blanked_cons {α : Type} (space a : α) (l : List α) (m : Bool) (ms : List Bool) :
    blanked space (a :: l) (m :: ms) = (if m then space else a) :: blanked space l ms := rfl

lemma getElem?_blanked {α : Type} (space : α) {l : List α} {ms : List Bool}
    (hlength : l.length = ms.length) (i : ℕ) :
    (blanked space l ms)[i]? = l[i]? ∨ l[i]?.isSome ∧ (blanked space l ms)[i]? = some space := by
  by_cases hi : i < l.length
  · have hms : i < ms.length := hlength ▸ hi
    cases hm : ms[i] <;> simp [blanked, hi, hms, hm]
  · refine .inl ?_
    simp [blanked, hi]

lemma getElem?_marks {s : σ} {k i : ℕ} {m : Bool} {l : List Char} (hi : i < k) (hl : i < l.length) :
    (marks step s k m l)[i]? = some m := by
  induction l generalizing k i with
  | nil => simp at hl
  | cons a l ih =>
    match k, i with
    | k + 1, 0 => rfl
    | k + 1, i + 1 =>
      rw [marks, List.getElem?_cons_succ]
      exact ih (by omega) (by simpa using hl)

lemma blanked_false {α : Type} (space : α) (l : List α) : blanked space l (List.replicate l.length false) = l := by
  induction l with
  | nil => rfl
  | cons a l ih =>
    rw [List.length_cons, List.replicate_succ, blanked, List.zipWith_cons_cons]
    exact congrArg (a :: ·) ih

lemma map_blanked {α β : Type} (f : α → β) (space : α) (l : List α) (ms : List Bool) :
    (blanked space l ms).map f = blanked (f space) (l.map f) ms := by
  rw [blanked, blanked, List.map_zipWith, List.zipWith_map_left]
  congr 1
  funext a m
  split <;> rfl

section Blanked

structure Spares (kept : Char) : Prop where
  first : ∀ s a b c, (step s a b c).blank → a ≠ kept
  second : ∀ s a b c, (step s a b c).blank → 0 < (step s a b c).more → b ≠ some kept
  third : ∀ s a b c, (step s a b c).blank → 1 < (step s a b c).more → c ≠ some kept
  atMost : ∀ s a b c, (step s a b c).more ≤ 2

variable {step} {kept : Char}

lemma Spares.kept_unmarked (h : Spares step kept) (l : List Char) (s : σ) (k : ℕ) (m : Bool) (hk : k ≤ 2)
    (hfirst : m → 0 < k → l[0]? ≠ some kept) (hsecond : m → 1 < k → l[1]? ≠ some kept) :
    List.Forall₂ (fun a b => a = kept → b = false) l (marks step s k m l) := by
  induction l generalizing s k m with
  | nil => exact .nil
  | cons a l ih =>
    match k with
    | 0 =>
      refine .cons (fun ha => ?_) (ih _ _ _ (h.atMost ..) (fun hm hk => ?_) fun hm hk => ?_)
      · by_contra hblank
        exact h.first s a _ _ (by simpa using hblank) ha
      · exact h.second s a _ _ hm hk
      · exact h.third s a _ _ hm hk
    | k + 1 =>
      refine .cons (fun ha => ?_) (ih s k m (by omega) (fun hm hpos => ?_) fun _ hpos => by omega)
      · by_contra hm
        exact hfirst (by simpa using hm) (Nat.succ_pos k) (by simp [ha])
      · simpa using hsecond hm (by omega)

end Blanked

section Again

/-- A machine under which blanked symbols stay invisible: to the state in which it blanks belongs one in which it
reads over the blanks, and a step that keeps its symbols is the same when what comes behind them has been
blanked. -/
structure Settles (visible : σ → σ) : Prop where
  blank : ∀ s a b c, (step s a b c).blank → visible (step s a b c).next = visible s
  space : ∀ s b c, step (visible s) ' ' b c = ⟨visible s, 0, false⟩
  kept : ∀ s a b c b' c', (step s a b c).blank = false →
    (b' = b ∨ (step s a b c).more = 0 ∧ b.isSome ∧ b' = some ' ') →
    (c' = c ∨ (step s a b c).more ≤ 1 ∧ c.isSome ∧ c' = some ' ') →
      step (visible s) a b' c' = ⟨visible (step s a b c).next, (step s a b c).more, false⟩

variable {step} {visible : σ → σ}

lemma getElem?_blanked_pending (s : σ) {k i : ℕ} (l : List Char) (hi : i < k) :
    (blanked ' ' l (marks step s k false l))[i]? = l[i]? := by
  by_cases hl : i < l.length
  · have hbound : i < (marks step s k false l).length := by simpa using hl
    have hmark := getElem?_marks step hi hl (s := s) (m := false)
    rw [List.getElem?_eq_getElem hbound, Option.some_inj] at hmark
    simp [blanked, hl, hmark]
  · simp [blanked, hl]

lemma Settles.marks_blanked (h : Settles step visible) (l : List Char) (s : σ) (k : ℕ) (m : Bool) :
    marks step (visible s) (if m then 0 else k) false (blanked ' ' l (marks step s k m l)) =
      List.replicate l.length false := by
  have hspace : ∀ s l, marks step (visible s) 0 false (' ' :: l) = false :: marks step (visible s) 0 false l := by
    intro s l
    rw [marks, h.space]
  induction l generalizing s k m with
  | nil => simp [blanked]
  | cons a l ih =>
    rw [List.length_cons, List.replicate_succ]
    match k with
    | 0 =>
      rw [ite_self, marks, blanked_cons]
      have hih := ih (step s a l[0]? l[1]?).next (step s a l[0]? l[1]?).more (step s a l[0]? l[1]?).blank
      cases hblank : (step s a l[0]? l[1]?).blank with
      | true =>
        rw [hblank, if_pos rfl, h.blank s a _ _ hblank] at hih
        rw [if_pos rfl, hspace, hih]
      | false =>
        rw [hblank, if_neg Bool.false_ne_true] at hih
        rw [if_neg Bool.false_ne_true, marks, h.kept s a l[0]? l[1]? _ _ hblank ?_ ?_, hih]
        · rcases Nat.eq_zero_or_pos (step s a l[0]? l[1]?).more with hmore | hmore
          · exact (getElem?_blanked ' ' (by simp) 0).imp_right fun hspace => ⟨hmore, hspace⟩
          · exact .inl (getElem?_blanked_pending _ l hmore)
        · rcases Nat.lt_or_ge 1 (step s a l[0]? l[1]?).more with hmore | hmore
          · exact .inl (getElem?_blanked_pending _ l hmore)
          · exact (getElem?_blanked ' ' (by simp) 1).imp_right fun hspace => ⟨hmore, hspace⟩
    | k + 1 =>
      have hih := ih s k m
      rw [marks, blanked_cons]
      cases m with
      | true =>
        rw [if_pos rfl] at hih
        rw [if_pos rfl, if_pos rfl, hspace, hih]
      | false =>
        rw [if_neg Bool.false_ne_true] at hih
        rw [if_neg Bool.false_ne_true, if_neg Bool.false_ne_true, marks, hih]

end Again

section Bytes

/-- A byte as a machine for characters sees it; those of ASCII characters are the characters. -/
def latin (b : UInt8) : Char := .ofNat b.toNat

def codes (c : Char) : List Char := (String.utf8EncodeChar c).map latin

lemma toNat_latin (b : UInt8) : (latin b).toNat = b.toNat := by
  have hlt := b.toNat_lt
  rw [latin, Char.ofNat, dif_pos (.inl (by omega))]
  rfl

lemma latin_ascii {c : Char} (h : c.toNat < 128) : latin (.ofNat c.toNat) = c := by
  rw [latin, UInt8.toNat_ofNat_of_lt' (by change _ < 256; omega), Char.ofNat_toNat]

lemma utf8EncodeChar_ascii {c : Char} (h : c.toNat < 128) : String.utf8EncodeChar c = [.ofNat c.toNat] := by
  have hascii : c.val.toNat ≤ 0x7f := Nat.le_of_lt_succ h
  unfold String.utf8EncodeChar
  exact if_pos hascii

lemma utf8EncodeChar_not_ascii {c : Char} (h : 128 ≤ c.toNat) : ∀ b ∈ String.utf8EncodeChar c, 128 ≤ b.toNat := by
  have hascii : ¬ c.val.toNat ≤ 0x7f := Nat.not_le_of_lt h
  have hbyte : ∀ n, 128 ≤ n → n < 256 → 128 ≤ (UInt8.ofNat n).toNat := fun n h h' => by
    rw [UInt8.toNat_ofNat_of_lt' h']
    exact h
  unfold String.utf8EncodeChar
  dsimp only
  rw [if_neg hascii]
  split_ifs <;> simp only [List.forall_mem_cons, List.not_mem_nil, false_implies, implies_true, and_true]
  · exact ⟨hbyte _ (by omega) (by omega), hbyte _ (by omega) (by omega)⟩
  · exact ⟨hbyte _ (by omega) (by omega), hbyte _ (by omega) (by omega), hbyte _ (by omega) (by omega)⟩
  · exact ⟨hbyte _ (by omega) (by omega), hbyte _ (by omega) (by omega), hbyte _ (by omega) (by omega),
      hbyte _ (by omega) (by omega)⟩

lemma codes_ascii {c : Char} (h : c.toNat < 128) : codes c = [c] := by
  rw [codes, utf8EncodeChar_ascii h, List.map_singleton, latin_ascii h]

lemma codes_not_ascii {c : Char} (h : 128 ≤ c.toNat) :
    ∃ x xs, codes c = x :: xs ∧ xs.length + 1 = c.utf8Size ∧ 128 ≤ x.toNat ∧ ∀ y ∈ xs, 128 ≤ y.toNat := by
  obtain ⟨b, bs, hbytes⟩ := List.exists_cons_of_ne_nil (@String.utf8EncodeChar_ne_nil c)
  have hhigh := utf8EncodeChar_not_ascii h
  have hlength := String.length_utf8EncodeChar c
  rw [hbytes] at hhigh hlength
  obtain ⟨hb, hbs⟩ := List.forall_mem_cons.mp hhigh
  refine ⟨latin b, bs.map latin, by rw [codes, hbytes, List.map_cons], by simpa using hlength, ?_, ?_⟩
  · rwa [toNat_latin]
  · intro y hy
    obtain ⟨b', hb', rfl⟩ := List.mem_map.mp hy
    rw [toNat_latin]
    exact hbs b' hb'

/-- A machine that only ASCII symbols stop: it reads over any other one, cannot tell two others apart behind the
one it is at, and takes none with it unless it would mark the rest of it the same way. -/
structure AsciiOnly (plain : σ → Bool) : Prop where
  other : ∀ s a b c, 128 ≤ a.toNat → step s a b c = ⟨s, 0, plain s⟩
  second : ∀ s a b b' c c', 128 ≤ b.toNat → 128 ≤ b'.toNat → step s a (some b) c = step s a (some b') c'
  third : ∀ s a b c c', 128 ≤ c.toNat → 128 ≤ c'.toNat → step s a (some b) (some c) = step s a (some b) (some c')
  taken : ∀ s a b c, (step s a b c).more = 0 ∨
    (step s a b c).more = 1 ∧
      (∀ d, b = some d → d.toNat < 128 ∨ plain (step s a b c).next = (step s a b c).blank) ∨
    (step s a b c).more = 2 ∧ (∀ d, b = some d → d.toNat < 128) ∧ ∀ d, c = some d → d.toNat < 128

variable {step} {plain : σ → Bool}

def Pending (plain : σ → Bool) (s : σ) (k : ℕ) (m : Bool) (l : List Char) : Prop :=
  k = 0 ∨ k = 1 ∧ (∀ d, l[0]? = some d → d.toNat < 128 ∨ plain s = m) ∨
    k = 2 ∧ (∀ d, l[0]? = some d → d.toNat < 128) ∧ ∀ d, l[1]? = some d → d.toNat < 128

lemma AsciiOnly.marks_others (h : AsciiOnly step plain) (s : σ) {xs : List Char}
    (hxs : ∀ x ∈ xs, 128 ≤ x.toNat) (m : Bool)
    (l : List Char) : marks step s 0 m (xs ++ l) = List.replicate xs.length (plain s) ++
      marks step s 0 (plain s) l := by
  induction xs generalizing m with
  | nil => exact marks_zero step s m (plain s) l
  | cons x xs ih =>
    obtain ⟨hx, hxs⟩ := List.forall_mem_cons.mp hxs
    rw [List.cons_append, marks, h.other s x _ _ hx, ih hxs, List.length_cons,
      List.replicate_succ, List.cons_append]

lemma AsciiOnly.step_codes (h : AsciiOnly step plain) (s : σ) (a : Char) (l : List Char) :
    step s a (l.flatMap codes)[0]? (l.flatMap codes)[1]? = step s a l[0]? l[1]? := by
  cases l with
  | nil => rfl
  | cons b l =>
    rcases Nat.lt_or_ge b.toNat 128 with hb | hb
    · rw [List.flatMap_cons, codes_ascii hb, List.singleton_append,
        List.getElem?_cons_zero, List.getElem?_cons_succ, List.getElem?_cons_zero, List.getElem?_cons_succ]
      cases l with
      | nil => rfl
      | cons c l =>
        rcases Nat.lt_or_ge c.toNat 128 with hc | hc
        · rw [List.flatMap_cons, codes_ascii hc]
          rfl
        · obtain ⟨x, xs, hcodes, -, hx, -⟩ := codes_not_ascii hc
          rw [List.flatMap_cons, hcodes]
          exact h.third s a b x c hx hc
    · obtain ⟨x, xs, hcodes, -, hx, -⟩ := codes_not_ascii hb
      rw [List.flatMap_cons, hcodes]
      exact h.second s a x b _ _ hx hb

theorem AsciiOnly.marks_codes (h : AsciiOnly step plain) (l : List Char) (s : σ) (k : ℕ) (m : Bool)
    (hpending : Pending plain s k m l) :
    marks step s k m (l.flatMap codes) =
      (l.zip (marks step s k m l)).flatMap fun p => List.replicate p.1.utf8Size p.2 := by
  induction l generalizing s k m with
  | nil => simp
  | cons a l ih =>
    have hsize : ∀ {c : Char}, c.toNat < 128 → c.utf8Size = 1 := fun hc => by
      rw [← String.length_utf8EncodeChar, utf8EncodeChar_ascii hc]
      rfl
    match k with
    | 0 =>
      rcases Nat.lt_or_ge a.toNat 128 with ha | ha
      · have hnext : Pending plain (step s a l[0]? l[1]?).next (step s a l[0]? l[1]?).more
            (step s a l[0]? l[1]?).blank l :=
          h.taken s a l[0]? l[1]?
        rw [List.flatMap_cons, codes_ascii ha, List.singleton_append, marks, h.step_codes,
          marks, List.zip_cons_cons, List.flatMap_cons, hsize ha, ih _ _ _ hnext]
        rfl
      · obtain ⟨x, xs, hcodes, hlength, hx, hxs⟩ := codes_not_ascii ha
        have hothers := h.marks_others s (List.forall_mem_cons.mpr ⟨hx, hxs⟩) m (l.flatMap codes)
        rw [List.flatMap_cons, hcodes, hothers, marks, h.other s a _ _ ha, List.zip_cons_cons, List.flatMap_cons,
          ih s 0 (plain s) (.inl rfl), List.length_cons, hlength]
    | k + 1 =>
      rcases Nat.lt_or_ge a.toNat 128 with ha | ha
      · have hnext : Pending plain s k m l := by
          rcases hpending with hk | ⟨hk, -⟩ | ⟨hk, -, hsecond⟩
          · omega
          · exact .inl (by omega)
          · exact .inr (.inl ⟨by omega, fun d hd => .inl (hsecond d (by simpa using hd))⟩)
        rw [List.flatMap_cons, codes_ascii ha, List.singleton_append, marks, marks,
          List.zip_cons_cons, List.flatMap_cons, hsize ha, ih s k m hnext]
        rfl
      · obtain ⟨x, xs, hcodes, hlength, hx, hxs⟩ := codes_not_ascii ha
        obtain ⟨rfl, rfl⟩ : k = 0 ∧ plain s = m := by
          rcases hpending with hk | ⟨hk, hfirst⟩ | ⟨-, hfirst, -⟩
          · omega
          · rcases hfirst a rfl with ha' | hm
            · omega
            · exact ⟨by omega, hm⟩
          · have ha' := hfirst a rfl
            omega
        have hothers := h.marks_others s hxs (plain s) (l.flatMap codes)
        rw [List.flatMap_cons, hcodes, List.cons_append, marks, hothers, marks,
          List.zip_cons_cons, List.flatMap_cons,
          ih s 0 (plain s) (.inl rfl), ← hlength, List.replicate_succ, List.cons_append]

def blankedBytes (step : Step σ) (s : σ) (bytes : List UInt8) : List UInt8 :=
  blanked 0x20 bytes (marks step s 0 false (bytes.map latin))

def blankedText (step : Step σ) (s : σ) (text : List Char) : List Char :=
  (text.zip (marks step s 0 false text)).flatMap fun p => if p.2 then List.replicate p.1.utf8Size ' ' else [p.1]

lemma Spares.blankedBytes_kept {kept : Char} (h : Spares step kept) (s : σ) (bytes : List UInt8) :
    List.Forall₂ (fun b b' => b' = b ∨ latin b ≠ kept ∧ b' = 0x20) bytes (blankedBytes step s bytes) := by
  have hkept := h.kept_unmarked (bytes.map latin) s 0 false (by omega) (by simp) (by simp)
  rw [List.forall₂_map_left_iff] at hkept
  rw [blankedBytes]
  generalize marks step s 0 false (bytes.map latin) = ms at hkept
  induction hkept with
  | nil => exact .nil
  | @cons b m bytes ms hb _ ih =>
    refine .cons ?_ ih
    cases m with
    | true => exact .inr ⟨fun hkept => Bool.false_ne_true (hb hkept).symm, rfl⟩
    | false => exact .inl rfl

theorem Settles.blankedBytes_idempotent {visible : σ → σ} (h : Settles step visible) {s : σ} (hs : visible s = s)
    (bytes : List UInt8) : blankedBytes step s (blankedBytes step s bytes) = blankedBytes step s bytes := by
  have hmarks := h.marks_blanked (bytes.map latin) s 0 false
  have hspace : latin 0x20 = ' ' := rfl
  rw [hs, ite_self, ← hspace, ← map_blanked, List.length_map] at hmarks
  have hlength : (blankedBytes step s bytes).length = bytes.length := by simp [blankedBytes, blanked]
  rw [blankedBytes, blankedBytes, hmarks, ← blankedBytes, ← hlength, blanked_false]

lemma utf8_eq (s : String) : Wire.utf8 s = s.toList.flatMap String.utf8EncodeChar := by
  rw [Wire.utf8, ← String.utf8Encode_toList, List.utf8Encode, List.toList_data_toByteArray]

lemma blanked_append {α : Type} (space : α) {l l' : List α} {ms ms' : List Bool} (h : l.length = ms.length) :
    blanked space (l ++ l') (ms ++ ms') = blanked space l ms ++ blanked space l' ms' :=
  List.zipWith_append h

lemma blanked_true {α : Type} (space : α) (l : List α) :
    blanked space l (List.replicate l.length true) = List.replicate l.length space := by
  induction l with
  | nil => rfl
  | cons a l ih => rw [List.length_cons, List.replicate_succ, List.replicate_succ, blanked_cons, if_pos rfl, ih]

lemma blanked_codes (l : List (Char × Bool)) :
    blanked (0x20 : UInt8) ((l.map Prod.fst).flatMap String.utf8EncodeChar)
        (l.flatMap fun p => List.replicate p.1.utf8Size p.2) =
      (l.flatMap fun p => if p.2 then List.replicate p.1.utf8Size ' ' else [p.1]).flatMap
        String.utf8EncodeChar := by
  induction l with
  | nil => rfl
  | cons p l ih =>
    obtain ⟨c, m⟩ := p
    have hsize := String.length_utf8EncodeChar c
    rw [List.map_cons, List.flatMap_cons, List.flatMap_cons, List.flatMap_cons, List.flatMap_append,
      blanked_append _ (by simp), ih]
    congr 1
    cases m with
    | true =>
      have hspaces : ∀ n, (List.replicate n ' ').flatMap String.utf8EncodeChar =
          List.replicate n 0x20 := fun n => by
        induction n with
        | zero => rfl
        | succ n ihn =>
          rw [List.replicate_succ, List.flatMap_cons, ihn]
          rfl
      rw [if_pos rfl, hspaces, ← hsize, blanked_true]
    | false =>
      rw [if_neg Bool.false_ne_true, List.flatMap_singleton, ← hsize, blanked_false]

theorem AsciiOnly.blankedBytes_utf8 (h : AsciiOnly step plain) (s : σ) (text : String) :
    blankedBytes step s (Wire.utf8 text) = Wire.utf8 (.ofList (blankedText step s text.toList)) := by
  have hcodes : (text.toList.flatMap String.utf8EncodeChar).map latin = text.toList.flatMap codes := by
    rw [List.map_flatMap]
    rfl
  have hzip : (text.toList.zip (marks step s 0 false text.toList)).map Prod.fst = text.toList :=
    List.map_fst_zip (by simp)
  have hcodesEq := blanked_codes (text.toList.zip (marks step s 0 false text.toList))
  rw [hzip] at hcodesEq
  rw [blankedBytes, utf8_eq, utf8_eq, hcodes, h.marks_codes text.toList s 0 false (.inl rfl),
    String.toList_ofList, hcodesEq, blankedText]

end Bytes

end RepoGraph.Lib.Scanner
