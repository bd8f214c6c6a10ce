import RepoGraph.Lib.Readback
import RepoGraph.ModuleCycleCert

/-! Reading a certificate fingerprint back: over which strings it determines the verdict. -/

namespace RepoGraph.ModuleCycleCert

open Lib Lib.Text Lib.Readback

def Spelled (allowed : Set Char) (s : String) : Prop := ∀ c ∈ s.toList, c ∈ allowed

@[mk_iff]
structure LivePartition.Over (allowed : Set Char) (p : LivePartition) : Prop where
  id : Spelled allowed p.id
  sourceInputsHash : Spelled allowed p.sourceInputsHash
  producerFingerprint : Spelled allowed p.producerFingerprint

/-- The inputs of the certificate are over an alphabet, an expected id possibly being empty. -/
structure Over (allowed : Set Char) (mayBeEmpty : Prop) (live : LiveCycleState)
    (baseline : Option BaselineInput) : Prop where
  partitions : ∀ p ∈ live.partitions, p.Over allowed
  expected : ∀ b ∈ baseline, ∀ id ∈ b.expectedPartitionIds, Spelled allowed id ∧ (id = "" → mayBeEmpty)

def bitChar (b : Bool) : Char := if b then '1' else '0'

lemma toList_bit (b : Bool) : (bit b).toList = [bitChar b] := by
  cases b <;> rfl

lemma bitChar_injective : Function.Injective bitChar := by
  intro b b'
  cases b <;> cases b' <;> simp [bitChar]

lemma isDigit_bitChar (b : Bool) : (bitChar b).isDigit = true := by
  cases b <;> decide

lemma isDigit_of_mem_decimal {n : ℕ} {c : Char} (h : c ∈ (decimal n).toList) : c.isDigit = true := by
  rw [decimal, Nat.toString_eq_repr, Nat.toList_repr] at h
  exact Nat.isDigit_of_mem_toDigits (by decide) (by decide) h

lemma not_mem_decimal {n : ℕ} {c : Char} (h : c.isDigit = false) : c ∉ (decimal n).toList := by
  intro hc
  simp [isDigit_of_mem_decimal hc] at h

lemma number_end {n n' : ℕ} {c : Char} {a a' : List Char} (hc : c.isDigit = false)
    (h : a ++ c :: (decimal n).toList = a' ++ c :: (decimal n').toList) : a = a' :=
  (append_run (q := fun c => c.isDigit = true) h (fun _ => isDigit_of_mem_decimal) (by simp [hc])
    (fun _ => isDigit_of_mem_decimal) (by simp [hc])).1

section Partitions

def stamp (p : LivePartition) : List Char :=
  (decimal p.epoch.toNat).toList ++ [':', 'f', bitChar p.fresh, ':', 't', 's', bitChar p.ts, ':']

def freeFields (p : LivePartition) : List Char :=
  p.sourceInputsHash.toList ++ ':' :: p.producerFingerprint.toList

lemma toList_partitionPart (p : LivePartition) :
    (partitionPart p).toList = p.id.toList ++ '@' :: (stamp p ++ freeFields p) := by
  delta partitionPart
  simp [stamp, freeFields, toList_bit]

variable {p q : LivePartition}

lemma at_not_mem_stamp : '@' ∉ stamp p := by
  have hdigits := not_mem_decimal (n := p.epoch.toNat) (c := '@') (by decide)
  cases hf : p.fresh <;> cases ht : p.ts <;> simp [stamp, hdigits, bitChar, hf, ht]

lemma stamp_readback {x y : List Char} (h : stamp p ++ x = stamp q ++ y) :
    p.fresh = q.fresh ∧ p.ts = q.ts := by
  simp only [stamp, List.append_assoc, List.cons_append, List.nil_append] at h
  have hrest := (append_marker h (not_mem_decimal (by decide)) (not_mem_decimal (by decide))).2
  simp only [List.cons.injEq, true_and] at hrest
  exact ⟨bitChar_injective hrest.1, bitChar_injective hrest.2.1⟩

variable {allowed : Set Char}

/-- An id that runs on past the stamp of another reading holds that stamp, and the second stamp stands in
the free fields of the other. -/
lemma stamp_spelled {m : List Char} (hp : p.Over allowed) (hq : q.Over allowed) (hm : m ≠ [])
    (hid : q.id.toList = p.id.toList ++ m)
    (h : '@' :: (stamp p ++ freeFields p) = m ++ '@' :: (stamp q ++ freeFields q)) :
    (∀ c ∈ '@' :: stamp p, c ∈ allowed) ∧ ∀ c ∈ stamp q, c ≠ ':' → c ∈ allowed := by
  obtain ⟨e, m, rfl⟩ := List.exists_cons_of_ne_nil hm
  obtain ⟨rfl, htail⟩ := List.cons.inj (by simpa using h)
  obtain ⟨k, rfl, hfree⟩ := marker_behind htail at_not_mem_stamp
  constructor
  · intro c hc
    refine hq.id c ?_
    rw [hid, ← List.cons_append]
    exact List.mem_append_right _ (List.mem_append_left _ hc)
  · intro c hc hcolon
    have hmem : c ∈ freeFields p := by simp [hfree, hc]
    simp only [freeFields, List.mem_append, List.mem_cons, hcolon, false_or] at hmem
    rcases hmem with hmem | hmem
    · exact hp.sourceInputsHash c hmem
    · exact hp.producerFingerprint c hmem

lemma bitChar_mem_stamp : bitChar p.fresh ∈ stamp p ∧ bitChar p.ts ∈ stamp p := by
  simp [stamp]

lemma eq_false_of_bitChar {b : Bool} (h : bitChar b ∈ allowed) (hone : '1' ∉ allowed) : b = false := by
  cases b
  · rfl
  · exact (hone h).elim

lemma bitChar_ne_colon (b : Bool) : bitChar b ≠ ':' := by
  cases b <;> decide

lemma part_readback_of_prefix {m : List Char} (hlimit : ¬ Spelled allowed "@:fts1") (hp : p.Over allowed)
    (hq : q.Over allowed) (hid : q.id.toList = p.id.toList ++ m)
    (h : '@' :: (stamp p ++ freeFields p) = m ++ '@' :: (stamp q ++ freeFields q)) :
    p.fresh = q.fresh ∧ p.ts = q.ts ∧ (p.fresh = true → p.id = q.id) := by
  by_cases hm : m = []
  · subst hm
    obtain ⟨hfresh, hts⟩ := stamp_readback (List.cons.inj h).2
    exact ⟨hfresh, hts, fun _ => String.ext (by simpa using hid.symm)⟩
  · obtain ⟨hstamp, hstamp'⟩ := stamp_spelled hp hq hm hid h
    have hone : '1' ∉ allowed := by
      intro hone
      have hchars : ∀ c ∈ "@:fts1".toList, c ∈ '@' :: stamp p ∨ c = '1' := by simp [stamp]
      refine hlimit fun c hc => ?_
      rcases hchars c hc with hc | rfl
      · exact hstamp c hc
      · exact hone
    have hbits := bitChar_mem_stamp (p := p)
    have hbits' := bitChar_mem_stamp (p := q)
    have hfresh := eq_false_of_bitChar (hstamp _ (List.mem_cons_of_mem _ hbits.1)) hone
    have hts := eq_false_of_bitChar (hstamp _ (List.mem_cons_of_mem _ hbits.2)) hone
    have hfresh' := eq_false_of_bitChar (hstamp' _ hbits'.1 (bitChar_ne_colon _)) hone
    have hts' := eq_false_of_bitChar (hstamp' _ hbits'.2 (bitChar_ne_colon _)) hone
    exact ⟨by rw [hfresh, hfresh'], by rw [hts, hts'], by simp [hfresh]⟩

lemma part_readback (hlimit : ¬ Spelled allowed "@:fts1") (hp : p.Over allowed) (hq : q.Over allowed)
    (h : partitionPart p = partitionPart q) :
    p.fresh = q.fresh ∧ p.ts = q.ts ∧ (p.fresh = true → p.id = q.id) := by
  have hlist := congrArg String.toList h
  rw [toList_partitionPart, toList_partitionPart] at hlist
  rcases List.append_eq_append_iff.mp hlist with ⟨m, hid, hrest⟩ | ⟨m, hid, hrest⟩
  · exact part_readback_of_prefix hlimit hp hq hid hrest
  · obtain ⟨hfresh, hts, hids⟩ := part_readback_of_prefix hlimit hq hp hid hrest
    exact ⟨hfresh.symm, hts.symm, fun hf => (hids (hfresh ▸ hf)).symm⟩

end Partitions

section Texts

lemma toList_join (pieces : List String) :
    (join "," pieces).toList = [','].intercalate (pieces.map String.toList) := by
  simp [join]

def partsText (live : LiveCycleState) : List Char :=
  [','].intercalate ((sortBy compare (live.partitions.map partitionPart)).map String.toList)

def expectedText (b : BaselineInput) : List Char :=
  [','].intercalate (b.expectedPartitionIds.toList.map String.toList)

def baselineEnd (b : BaselineInput) : List Char :=
  [':', 'n', 't', 's', bitChar b.hasNonTsCycleSource, ':', 'i'] ++
    'e' :: (decimal b.repoIndexEpoch.toNat).toList ++ [':', 'l'] ++
    'v' :: (decimal b.languageSupportVersion.toNat).toList ++ [':', 'i'] ++
    'p' :: (decimal b.importCompletenessPolicyVersion.toNat).toList ++ [']']

lemma toList_fingerprint (live : LiveCycleState) (b : BaselineInput) :
    (certificateInputsFingerprint live (some b)).toList =
      (classesPart live.observationClasses).toList ++ ("|parts[".toList ++
        (partsText live ++ (']' :: "|base[".toList ++ expectedText b) ++ baselineEnd b)) := by
  delta certificateInputsFingerprint baselinePart
  simp [partsText, expectedText, baselineEnd, toList_join, toList_bit]

lemma bit_readback {label x y : List Char} {b b' : Bool}
    (h : label ++ ([bitChar b] ++ x) = label ++ ([bitChar b'] ++ y)) : b = b' ∧ x = y := by
  obtain ⟨hb, hx⟩ := List.cons.inj (List.append_cancel_left h)
  exact ⟨bitChar_injective hb, hx⟩

lemma classesPart_readback {o o' : ObservationClassSummary} {x y : List Char}
    (h : (classesPart o).toList ++ x = (classesPart o').toList ++ y) : o = o' ∧ x = y := by
  obtain ⟨ext, ast, wsl, unp, alu, dyu, unr⟩ := o
  obtain ⟨ext', ast', wsl', unp', alu', dyu', unr'⟩ := o'
  delta classesPart at h
  simp only [String.toList_append, toList_bit, List.append_assoc] at h
  obtain ⟨rfl, h₁⟩ := bit_readback h
  obtain ⟨rfl, h₂⟩ := bit_readback h₁
  obtain ⟨rfl, h₃⟩ := bit_readback h₂
  obtain ⟨rfl, h₄⟩ := bit_readback h₃
  obtain ⟨rfl, h₅⟩ := bit_readback h₄
  obtain ⟨rfl, h₆⟩ := bit_readback h₅
  obtain ⟨rfl, h₇⟩ := bit_readback h₆
  exact ⟨rfl, List.append_cancel_left h₇⟩

lemma baselineEnd_readback {b b' : BaselineInput} {x y : List Char}
    (h : x ++ baselineEnd b = y ++ baselineEnd b') :
    x = y ∧ b.hasNonTsCycleSource = b'.hasNonTsCycleSource := by
  simp only [baselineEnd, ← List.append_assoc] at h
  have hip := number_end (by decide) (List.append_cancel_right h)
  have hlv := number_end (by decide) (List.append_cancel_right hip)
  have hie := number_end (by decide) (List.append_cancel_right hlv)
  obtain ⟨hxy, hends⟩ := List.append_inj' hie rfl
  simp only [List.cons.injEq, true_and] at hends
  exact ⟨hxy, bitChar_injective hends.1⟩

end Texts

section Delimiter

variable {allowed : Set Char} {live : LiveCycleState}

lemma mem_partitionPart {p : LivePartition} (hp : p.Over allowed) {c : Char}
    (h : c ∈ (partitionPart p).toList) :
    c ∈ allowed ∨ c.isDigit = true ∨ c ∈ ['@', ':', 'f', 't', 's'] := by
  simp only [toList_partitionPart, stamp, freeFields, List.mem_append, List.mem_cons] at h
  rcases h with hid | rfl | (hepoch | hstamp) | hhash | rfl | hproducer
  · exact Or.inl (hp.id c hid)
  · simp
  · exact Or.inr (Or.inl (isDigit_of_mem_decimal hepoch))
  · rcases hstamp with rfl | rfl | rfl | rfl | rfl | rfl | rfl | rfl | hnil <;>
      simp_all [isDigit_bitChar]
  · exact Or.inl (hp.sourceInputsHash c hhash)
  · simp
  · exact Or.inl (hp.producerFingerprint c hproducer)

lemma mem_partsText (hlive : ∀ p ∈ live.partitions, p.Over allowed) {c : Char} (h : c ∈ partsText live) :
    c ∈ allowed ∨ c.isDigit = true ∨ c ∈ [',', '@', ':', 'f', 't', 's'] := by
  rcases mem_intercalate h with rfl | ⟨l, hl, hc⟩
  · simp
  · obtain ⟨part, hpart, rfl⟩ := List.mem_map.mp hl
    obtain ⟨p, hp, rfl⟩ := List.mem_map.mp ((sortBy_perm _ _).mem_iff.mp hpart)
    rcases mem_partitionPart (hlive p hp) hc with ha | hd | hs
    · exact Or.inl ha
    · exact Or.inr (Or.inl hd)
    · exact Or.inr (Or.inr (List.mem_cons_of_mem _ hs))

lemma onlyAfter_partitionPart {p : LivePartition} (hp : p.Over allowed) (hs : 's' ∉ allowed) :
    OnlyAfter 't' 's' (partitionPart p).toList := by
  have hts : OnlyAfter 't' 's' ['t', 's'] := by
    intro u v h
    match u with
    | [] => simp at h
    | [x] => exact ⟨[], by simpa using (List.cons.inj h).1.symm⟩
    | _ :: _ :: _ => simp at h
  have hbit : ∀ b, bitChar b ≠ 's' := by decide
  have hdigits := not_mem_decimal (n := p.epoch.toNat) (c := 's') (by decide)
  have hid : 's' ∉ p.id.toList := fun h => hs (hp.id _ h)
  have hhash : 's' ∉ p.sourceInputsHash.toList := fun h => hs (hp.sourceInputsHash _ h)
  have hproducer : 's' ∉ p.producerFingerprint.toList := fun h => hs (hp.producerFingerprint _ h)
  have hsplit : (partitionPart p).toList =
      (p.id.toList ++ '@' :: (decimal p.epoch.toNat).toList ++ [':', 'f', bitChar p.fresh, ':']) ++ ['t', 's'] ++
        (bitChar p.ts :: ':' :: freeFields p) := by
    simp [toList_partitionPart, stamp]
  rw [hsplit]
  refine (OnlyAfter.append (.of_not_mem ?_) hts).append (.of_not_mem ?_)
  · simp [hid, hdigits, (hbit p.fresh).symm]
  · simp [freeFields, hhash, hproducer, (hbit p.ts).symm]

lemma onlyAfter_partsText (hlive : ∀ p ∈ live.partitions, p.Over allowed) (hs : 's' ∉ allowed) :
    OnlyAfter 't' 's' (partsText live) := by
  refine OnlyAfter.intercalate (.of_not_mem (by decide)) ?_
  intro l hl
  obtain ⟨part, hpart, rfl⟩ := List.mem_map.mp hl
  obtain ⟨p, hp, rfl⟩ := List.mem_map.mp ((sortBy_perm _ _).mem_iff.mp hpart)
  exact onlyAfter_partitionPart (hlive p hp) hs

lemma delimiter_absent (hlimit : ¬ Spelled allowed "]|base[")
    (hlive : ∀ p ∈ live.partitions, p.Over allowed) : ¬ ']' :: "|base[".toList <:+: partsText live := by
  rintro ⟨u, v, huv⟩
  refine hlimit ?_
  have hmem : ∀ c ∈ "]|base[".toList, c ∈ partsText live := by
    intro c hc
    rw [← huv]
    exact List.mem_append_left _ (List.mem_append_right _ hc)
  have hs : 's' ∈ allowed := by
    by_contra hs
    obtain ⟨u', hu'⟩ := onlyAfter_partsText hlive hs (u ++ "]|ba".toList) ("e[".toList ++ v)
      (by rw [← huv]; simp)
    simpa using congrArg List.getLast? hu'
  intro c hc
  rcases mem_partsText hlive (hmem c hc) with ha | hother
  · exact ha
  · obtain rfl : c = 's' := by
      revert hother
      simp only [String.reduceToList, List.mem_cons, List.not_mem_nil, or_false] at hc
      rcases hc with rfl | rfl | rfl | rfl | rfl | rfl | rfl <;> decide
    exact hs

end Delimiter

section Verdict

variable {allowed : Set Char}

lemma pieces_readback {ls ls' : List String}
    (h : [','].intercalate (ls.map String.toList) = [','].intercalate (ls'.map String.toList))
    (hls : ∀ s ∈ ls, s ≠ "" ∧ ',' ∉ s.toList) (hls' : ∀ s ∈ ls', s ≠ "" ∧ ',' ∉ s.toList) : ls = ls' := by
  have hinj : Function.Injective String.toList := fun _ _ => String.toList_injective
  refine List.map_injective_iff.mpr hinj (intercalate_injective h ?_ ?_)
  · simpa using hls
  · simpa using hls'

lemma expectedText_readback {b b' : BaselineInput} (hcomma : ',' ∉ allowed)
    (hb : ∀ id ∈ b.expectedPartitionIds, Spelled allowed id ∧ id ≠ "")
    (hb' : ∀ id ∈ b'.expectedPartitionIds, Spelled allowed id ∧ id ≠ "")
    (h : expectedText b = expectedText b') :
    b.expectedPartitionIds.toList = b'.expectedPartitionIds.toList := by
  refine pieces_readback h ?_ ?_
  · intro id hid
    obtain ⟨hspelled, hne⟩ := hb id (Std.ExtTreeSet.mem_toList.mp hid)
    exact ⟨hne, fun hc => hcomma (hspelled _ hc)⟩
  · intro id hid
    obtain ⟨hspelled, hne⟩ := hb' id (Std.ExtTreeSet.mem_toList.mp hid)
    exact ⟨hne, fun hc => hcomma (hspelled _ hc)⟩

lemma sortedParts_pieces {live : LiveCycleState} (hcomma : ',' ∉ allowed)
    (hlive : ∀ p ∈ live.partitions, p.Over allowed) :
    ∀ s ∈ sortBy compare (live.partitions.map partitionPart), s ≠ "" ∧ ',' ∉ s.toList := by
  intro s hs
  obtain ⟨p, hp, rfl⟩ := List.mem_map.mp ((sortBy_perm _ _).mem_iff.mp hs)
  refine ⟨fun he => ?_, fun hc => ?_⟩
  · simpa [toList_partitionPart] using congrArg String.toList he
  · rcases mem_partitionPart (hlive p hp) hc with ha | hother
    · exact hcomma ha
    · revert hother
      decide

lemma partsText_readback {live live' : LiveCycleState} (hcomma : ',' ∉ allowed)
    (hlive : ∀ p ∈ live.partitions, p.Over allowed) (hlive' : ∀ p ∈ live'.partitions, p.Over allowed)
    (h : partsText live = partsText live') :
    (live.partitions.map partitionPart).Perm (live'.partitions.map partitionPart) := by
  have hsorted := pieces_readback h (sortedParts_pieces hcomma hlive) (sortedParts_pieces hcomma hlive')
  refine (sortBy_perm compare _).symm.trans ?_
  rw [hsorted]
  exact sortBy_perm compare _

def Matched (live live' : LiveCycleState) : Prop :=
  ∀ p ∈ live.partitions, ∃ q ∈ live'.partitions,
    p.fresh = q.fresh ∧ p.ts = q.ts ∧ (p.fresh = true → p.id = q.id)

lemma matched_of_perm {live live' : LiveCycleState} (hlimit : ¬ Spelled allowed "@:fts1")
    (hlive : ∀ p ∈ live.partitions, p.Over allowed) (hlive' : ∀ p ∈ live'.partitions, p.Over allowed)
    (h : (live.partitions.map partitionPart).Perm (live'.partitions.map partitionPart)) :
    Matched live live' := by
  intro p hp
  obtain ⟨q, hq, hparts⟩ := List.mem_map.mp (h.mem_iff.mp (List.mem_map_of_mem hp))
  exact ⟨q, hq, part_readback hlimit (hlive p hp) (hlive' q hq) hparts.symm⟩

lemma Matched.mem_fresh {live live' : LiveCycleState} (h : Matched live live') {id : String}
    (hid : id ∈ (live.partitions.filter LivePartition.fresh).map LivePartition.id) :
    id ∈ (live'.partitions.filter LivePartition.fresh).map LivePartition.id := by
  obtain ⟨p, hp, rfl⟩ := List.mem_map.mp hid
  obtain ⟨hmem, hfresh⟩ := List.mem_filter.mp hp
  obtain ⟨q, hq, hf, -, hids⟩ := h p hmem
  exact List.mem_map.mpr ⟨q, List.mem_filter.mpr ⟨hq, hf ▸ hfresh⟩, (hids hfresh).symm⟩

lemma Matched.any_not_ts {live live' : LiveCycleState} (h : Matched live live')
    (hany : live.partitions.any (fun p => !p.ts) = true) : live'.partitions.any (fun p => !p.ts) = true := by
  obtain ⟨p, hp, hts⟩ := List.any_eq_true.mp hany
  obtain ⟨q, hq, -, ht, -⟩ := h p hp
  exact List.any_eq_true.mpr ⟨q, hq, ht ▸ hts⟩

lemma verdict_of_matched {live live' : LiveCycleState} {b b' : BaselineInput} (h : Matched live live')
    (h' : Matched live' live) (hclasses : live.observationClasses = live'.observationClasses)
    (hexpected : b.expectedPartitionIds.toList = b'.expectedPartitionIds.toList)
    (hnts : b.hasNonTsCycleSource = b'.hasNonTsCycleSource) :
    evaluateModuleCycleCompleteness live (some b) = evaluateModuleCycleCompleteness live' (some b') := by
  have hfresh : ∀ id, id ∈ (live.partitions.filter LivePartition.fresh).map LivePartition.id ↔
      id ∈ (live'.partitions.filter LivePartition.fresh).map LivePartition.id :=
    fun id => ⟨h.mem_fresh, h'.mem_fresh⟩
  have hts : live.partitions.any (fun p => !p.ts) = live'.partitions.any (fun p => !p.ts) :=
    Bool.eq_iff_iff.mpr ⟨h.any_not_ts, h'.any_not_ts⟩
  simp only [evaluateModuleCycleCompleteness, hexpected, hnts, hclasses, hts, hfresh]

def Determines (allowed : Set Char) (mayBeEmpty : Prop) : Prop :=
  ∀ live baseline live' baseline',
    Over allowed mayBeEmpty live baseline → Over allowed mayBeEmpty live' baseline' →
    certificateInputsFingerprint live baseline = certificateInputsFingerprint live' baseline' →
    evaluateModuleCycleCompleteness live baseline = evaluateModuleCycleCompleteness live' baseline'

lemma fingerprint_none_ne_some (live live' : LiveCycleState) (b : BaselineInput) :
    certificateInputsFingerprint live none ≠ certificateInputsFingerprint live' (some b) := by
  intro h
  have hnone : ∃ text, (certificateInputsFingerprint live none).toList = text ++ ['E'] := by
    refine ⟨(classesPart live.observationClasses).toList ++ "|parts[".toList ++ partsText live ++
      "]|base:NON".toList, ?_⟩
    delta certificateInputsFingerprint baselinePart
    simp [partsText, toList_join]
  have hsome : ∃ text, (certificateInputsFingerprint live' (some b)).toList = text ++ [']'] := by
    rw [toList_fingerprint, baselineEnd]
    simp only [← List.append_assoc]
    exact ⟨_, rfl⟩
  obtain ⟨text, hnone⟩ := hnone
  obtain ⟨text', hsome⟩ := hsome
  rw [h, hsome] at hnone
  exact absurd (List.append_inj_right' hnone rfl) (by decide)

lemma determines_of_limits {mayBeEmpty : Prop} (hempty : ¬ mayBeEmpty) (hcomma : ',' ∉ allowed)
    (hstamp : ¬ Spelled allowed "@:fts1") (hdelimiter : ¬ Spelled allowed "]|base[") :
    Determines allowed mayBeEmpty := by
  intro live baseline live' baseline' hover hover' h
  cases baseline with
  | none =>
    cases baseline' with
    | none => rfl
    | some b' => exact (fingerprint_none_ne_some _ _ _ h).elim
  | some b =>
    cases baseline' with
    | none => exact (fingerprint_none_ne_some _ _ _ h.symm).elim
    | some b' =>
      have hlist := congrArg String.toList h
      rw [toList_fingerprint, toList_fingerprint] at hlist
      obtain ⟨hclasses, hrest⟩ := classesPart_readback hlist
      obtain ⟨htexts, hnts⟩ := baselineEnd_readback (List.append_cancel_left hrest)
      obtain ⟨hparts, hexp⟩ := append_delimiter (by decide) (delimiter_absent hdelimiter hover.partitions)
        (delimiter_absent hdelimiter hover'.partitions) htexts
      have hnonempty : ∀ {live b}, Over allowed mayBeEmpty live (some b) →
          ∀ id ∈ b.expectedPartitionIds, Spelled allowed id ∧ id ≠ "" := by
        intro live b hover id hid
        obtain ⟨hspelled, he⟩ := hover.expected b rfl id hid
        exact ⟨hspelled, fun hnil => hempty (he hnil)⟩
      have hperm := partsText_readback hcomma hover.partitions hover'.partitions hparts
      exact verdict_of_matched (matched_of_perm hstamp hover.partitions hover'.partitions hperm)
        (matched_of_perm hstamp hover'.partitions hover.partitions hperm.symm) hclasses
        (expectedText_readback hcomma (hnonempty hover) (hnonempty hover') hexp) hnts

end Verdict

namespace Fixture

def part (id hash producer : String) : LivePartition := ⟨id, 1, true, true, hash, producer⟩

def state (parts : List LivePartition) : LiveCycleState := ⟨parts, .default⟩

def baseline (expected : List String) : BaselineInput := ⟨.ofList expected compare, false, 1, 1, 1⟩

end Fixture

section Collisions

open Fixture

variable {allowed : Set Char} {mayBeEmpty : Prop}

lemma over_fixture {parts : List LivePartition} {expected : List String}
    (hparts : ∀ p ∈ parts, p.Over allowed)
    (hexpected : ∀ id ∈ expected, Spelled allowed id ∧ (id = "" → mayBeEmpty)) :
    Over allowed mayBeEmpty (state parts) (some (baseline expected)) := by
  refine ⟨hparts, ?_⟩
  intro b hb id hid
  obtain rfl := Option.some.inj hb
  refine hexpected id ?_
  simpa [baseline, Std.ExtTreeSet.mem_ofList] using hid

lemma not_determines (parts parts' : List LivePartition) (expected expected' : List String)
    (hparts : ∀ p ∈ parts ++ parts', p.Over allowed)
    (hexpected : ∀ id ∈ expected ++ expected', Spelled allowed id ∧ (id = "" → mayBeEmpty))
    (hsame : certificateInputsFingerprint (state parts) (some (baseline expected)) =
      certificateInputsFingerprint (state parts') (some (baseline expected')))
    (hdiffer : evaluateModuleCycleCompleteness (state parts) (some (baseline expected)) ≠
      evaluateModuleCycleCompleteness (state parts') (some (baseline expected'))) :
    ¬ Determines allowed mayBeEmpty := by
  intro h
  rw [List.forall_mem_append] at hparts hexpected
  exact hdiffer (h _ _ _ _ (over_fixture hparts.1 hexpected.1) (over_fixture hparts.2 hexpected.2) hsame)

lemma not_determines_of_empty (hempty : mayBeEmpty) : ¬ Determines allowed mayBeEmpty := by
  refine not_determines [] [] [] [""] ?_ ?_ (by decide) (by decide)
  · simp
  · simp [Spelled, hempty]

lemma not_determines_of_comma (hcomma : ',' ∈ allowed) : ¬ Determines allowed mayBeEmpty := by
  refine not_determines [part "," "" "", part ",," "" ""] [part "," "" "", part ",," "" ""] [",", ",,"]
    [",,,,"] ?_ ?_ (by decide) (by decide)
  · simp [LivePartition.over_iff, Spelled, part, hcomma]
  · simp [Spelled, hcomma]

lemma not_determines_of_stamp (hstamp : Spelled allowed "@:fts1") : ¬ Determines allowed mayBeEmpty := by
  simp only [Spelled, String.reduceToList, List.forall_mem_cons] at hstamp
  refine not_determines [part "1" "@1" "f1:ts1::"] [part "1@1:f1:ts1:" "" ""] ["1"] ["1"] ?_ ?_ (by decide)
    (by decide)
  · simp [LivePartition.over_iff, Spelled, part, hstamp]
  · simp [Spelled, hstamp]

lemma not_determines_of_delimiter (hdelimiter : Spelled allowed "]|base[") :
    ¬ Determines allowed mayBeEmpty := by
  simp only [Spelled, String.reduceToList, List.forall_mem_cons] at hdelimiter
  refine not_determines [part "a" "" ""] [part "a" "" "]|base[a"] ["a]|base[a"] ["a"] ?_ ?_ (by decide)
    (by decide)
  · simp [LivePartition.over_iff, Spelled, part, hdelimiter]
  · simp [Spelled, hdelimiter]

/-- The fingerprint determines the verdict exactly over the alphabets that keep its separators apart from
the strings it joins, with no empty expected id. -/
theorem fingerprint_determines_iff (allowed : Set Char) (mayBeEmpty : Prop) :
    Determines allowed mayBeEmpty ↔ ¬ mayBeEmpty ∧ ',' ∉ allowed ∧ ¬ Spelled allowed "@:fts1" ∧
      ¬ Spelled allowed "]|base[" := by
  constructor
  · intro h
    exact ⟨fun hempty => not_determines_of_empty hempty h, fun hcomma => not_determines_of_comma hcomma h,
      fun hstamp => not_determines_of_stamp hstamp h,
      fun hdelimiter => not_determines_of_delimiter hdelimiter h⟩
  · rintro ⟨hempty, hcomma, hstamp, hdelimiter⟩
    exact determines_of_limits hempty hcomma hstamp hdelimiter

/-- Expecting `a` and `b` has the fingerprint of expecting `a,b`, which is not loaded. -/
theorem fingerprint_reused_across_verdicts :
    certificateInputsFingerprint (state [part "a" "" "", part "b" "" ""]) (some (baseline ["a", "b"])) =
        certificateInputsFingerprint (state [part "a" "" "", part "b" "" ""]) (some (baseline ["a,b"])) ∧
      evaluateModuleCycleCompleteness (state [part "a" "" "", part "b" "" ""]) (some (baseline ["a", "b"])) =
        .completeForModuleImportCycles ∧
      evaluateModuleCycleCompleteness (state [part "a" "" "", part "b" "" ""]) (some (baseline ["a,b"])) =
        .incompleteMissingPartitions := by
  decide

end Collisions

end RepoGraph.ModuleCycleCert
