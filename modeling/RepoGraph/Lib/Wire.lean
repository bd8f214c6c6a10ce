import RepoGraph.Lib.Containers

/-! Binary layouts: fixed-width little-endian integers, length prefixes of eight bytes, one tag byte for an
option, fields one after the other. A layout carries its own law, for what fits the length prefixes. -/

namespace RepoGraph.Lib

/-- A writer and the reader of its bytes at the front of a longer input. -/
structure Wire (α : Type) where
  put : α → List UInt8
  get : List UInt8 → Option (α × List UInt8)
  put_pos : ∀ a, 0 < (put a).length
  get_put : ∀ a rest, (put a).length < 2 ^ 64 → get (put a ++ rest) = some (a, rest)

namespace Wire

variable {α β : Type}

def putNat : ℕ → ℕ → List UInt8
  | 0, _ => []
  | width + 1, n => UInt8.ofNat n :: putNat width (n / 256)

def getNat : ℕ → List UInt8 → Option (ℕ × List UInt8)
  | 0, bytes => some (0, bytes)
  | _ + 1, [] => none
  | width + 1, b :: bytes => (getNat width bytes).map fun p => (b.toNat + 256 * p.1, p.2)

@[simp] lemma length_putNat (width n : ℕ) : (putNat width n).length = width := by
  induction width generalizing n with
  | zero => rfl
  | succ width ih => simp [putNat, ih]

lemma getNat_putNat {width n : ℕ} (h : n < 256 ^ width) (rest : List UInt8) :
    getNat width (putNat width n ++ rest) = some (n, rest) := by
  induction width generalizing n with
  | zero =>
    obtain rfl : n = 0 := by simpa using h
    rfl
  | succ width ih =>
    have hdiv : n / 256 < 256 ^ width := by
      rw [Nat.div_lt_iff_lt_mul (by norm_num)]
      simpa [pow_succ] using h
    simp only [putNat, getNat, List.cons_append, ih hdiv, Option.map_some, UInt8.toNat_ofNat']
    congr 2
    omega

def through (w : Wire α) (write : β → α) (read : α → Option β) (h : ∀ b, read (write b) = some b) :
    Wire β where
  put b := w.put (write b)
  get bytes := (w.get bytes).bind fun p => (read p.1).map (·, p.2)
  put_pos b := w.put_pos (write b)
  get_put b rest hsize := by simp [w.get_put _ _ hsize, h]

def byte : Wire UInt8 where
  put b := [b]
  get
    | [] => none
    | b :: rest => some (b, rest)
  put_pos _ := by simp
  get_put _ _ _ := rfl

def uint32 : Wire UInt32 where
  put n := putNat 4 n.toNat
  get bytes := (getNat 4 bytes).map fun p => (.ofNat p.1, p.2)
  put_pos _ := by simp
  get_put n rest _ := by
    have hn : n.toNat < 256 ^ 4 := n.toNat_lt
    simp [getNat_putNat hn]

def uint64 : Wire UInt64 where
  put n := putNat 8 n.toNat
  get bytes := (getNat 8 bytes).map fun p => (.ofNat p.1, p.2)
  put_pos _ := by simp
  get_put n rest _ := by
    have hn : n.toNat < 256 ^ 8 := n.toNat_lt
    simp [getNat_putNat hn]

def bool : Wire Bool :=
  byte.through (fun b => if b then 1 else 0)
    (fun n => if n = 0 then some false else if n = 1 then some true else none) (by decide)

def option (w : Wire α) : Wire (Option α) where
  put
    | none => [0]
    | some a => 1 :: w.put a
  get
    | [] => none
    | tag :: rest =>
      if tag = 0 then some (none, rest)
      else if tag = 1 then (w.get rest).map fun p => (some p.1, p.2)
      else none
  put_pos a := by cases a <;> simp
  get_put a rest hsize := by
    cases a with
    | none => rfl
    | some a =>
      have ha : (w.put a).length < 2 ^ 64 := Nat.lt_of_succ_lt hsize
      simp [w.get_put a rest ha]

def pair (w : Wire α) (w' : Wire β) : Wire (α × β) where
  put p := w.put p.1 ++ w'.put p.2
  get bytes := (w.get bytes).bind fun p => (w'.get p.2).map fun q => ((p.1, q.1), q.2)
  put_pos p := by
    rw [List.length_append]
    exact Nat.add_pos_left (w.put_pos p.1) _
  get_put p rest hsize := by
    rw [List.length_append] at hsize
    rw [List.append_assoc, w.get_put p.1 _ (by omega), Option.bind_some, w'.get_put p.2 _ (by omega)]
    rfl

def getMany (w : Wire α) : ℕ → List UInt8 → Option (List α × List UInt8)
  | 0, bytes => some ([], bytes)
  | n + 1, bytes => (w.get bytes).bind fun p => (getMany w n p.2).map fun q => (p.1 :: q.1, q.2)

lemma getMany_flatMap (w : Wire α) {l : List α} (h : (l.flatMap w.put).length < 2 ^ 64) (rest : List UInt8) :
    getMany w l.length (l.flatMap w.put ++ rest) = some (l, rest) := by
  induction l with
  | nil => rfl
  | cons a l ih =>
    rw [List.flatMap_cons, List.length_append] at h
    rw [List.flatMap_cons, List.append_assoc, List.length_cons, getMany, w.get_put a _ (by omega),
      Option.bind_some, ih (by omega)]
    rfl

lemma length_le_flatMap (w : Wire α) (l : List α) : l.length ≤ (l.flatMap w.put).length := by
  induction l with
  | nil => simp
  | cons a l ih =>
    have ha := w.put_pos a
    rw [List.flatMap_cons, List.length_append, List.length_cons]
    omega

def list (w : Wire α) : Wire (List α) where
  put l := putNat 8 l.length ++ l.flatMap w.put
  get bytes := (getNat 8 bytes).bind fun p => getMany w p.1 p.2
  put_pos l := by simp
  get_put l rest hsize := by
    rw [List.length_append, length_putNat] at hsize
    have hcount : l.length < 256 ^ 8 := lt_of_le_of_lt (w.length_le_flatMap l) (by omega)
    rw [List.append_assoc, getNat_putNat hcount, Option.bind_some, w.getMany_flatMap (by omega)]

def utf8 (s : String) : List UInt8 := s.toByteArray.data.toList

def ofUtf8 (bytes : List UInt8) : Option String := String.fromUTF8? ⟨bytes.toArray⟩

lemma ofUtf8_utf8 (s : String) : ofUtf8 (utf8 s) = some s := by
  rw [ofUtf8, utf8, Array.toArray_toList, String.fromUTF8?, dif_pos s.isValidUTF8]
  rfl

def string : Wire String := byte.list.through utf8 ofUtf8 ofUtf8_utf8

section Ordered

variable {κ ν : Type} [Ord κ] [Std.TransOrd κ] [Std.LawfulEqOrd κ] [DecidableEq κ]

def set (w : Wire κ) : Wire (BTreeSet κ) :=
  w.list.through Std.ExtTreeSet.toList (fun l => some (.ofList l compare))
    (fun s => congrArg some (ofList_toList_set s))

def map (w : Wire κ) (w' : Wire ν) : Wire (BTreeMap κ ν) :=
  (w.pair w').list.through Std.ExtTreeMap.toList (fun l => some (.ofList l compare))
    (fun m => congrArg some (ofList_toList_map m))

end Ordered

end Wire

end RepoGraph.Lib
