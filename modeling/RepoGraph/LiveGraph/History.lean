import RepoGraph.LiveGraph.Envelope

/-! The history of a slot, without summaries, epochs or tables: the last IR it was given and what
happened to it since. The live graph refines it. -/

namespace RepoGraph.LiveGraph

open Lib Ir TrustModel

/-- What one slot has been through; `reasons` and `factsSince` count from the last load or swap. -/
structure Past where
  lastIr : PartitionIr
  language : LanguageSupport
  resident : Bool
  status : RefreshStatus
  reasons : Finset DegradationReason
  facts : List ValueFact
  factsSince : Bool

def Past.next (id : String) (past : Option Past) : Mutation → Option Past
  | .loadPartition _ id' ir language =>
    if id = id' then some ⟨ir, language, true, .current, ∅, [], false⟩ else past
  | .swapPartition _ id' newIr =>
    if id = id' then
      some ⟨newIr, (past.map Past.language).getD .typeScriptPrimary, true, .current, ∅,
        (past.map Past.facts).getD [], false⟩
    else past
  | .unloadPartition id' => past.map fun p => if id = id' then { p with resident := false } else p
  | .beginRefresh id' => past.map fun p => if id = id' then { p with status := .refreshing } else p
  | .markStale id' => past.map fun p => if id = id' then { p with status := .stale } else p
  | .markRefreshFailed id' => past.map fun p => if id = id' then { p with status := .refreshFailed } else p
  | .addPartitionDegradation id' reason =>
    past.map fun p => if id = id' then { p with reasons := insert reason p.reasons } else p
  | .loadValueFacts id' facts =>
    past.map fun p => if id = id' then { p with facts := facts, factsSince := true } else p

def past (ms : List Mutation) (id : String) : Option Past := run (Past.next id) none ms

structure Represents (p : Past) (s : Slot) : Prop where
  defines : s.defines = (contribution p.lastIr).1
  refCounts : s.refCounts = (contribution p.lastIr).2
  ir : s.ir = if p.resident then some p.lastIr else none
  language : s.language = p.language
  status : s.status = p.status
  reasons : s.partitionDegradationReasons = p.reasons
  facts : s.valueFacts = p.facts
  factsEpoch : ∀ e, s.valueFactsEpoch = some e → e ≤ s.epoch
  factsSince : p.factsSince = true ↔ s.valueFactsEpoch = some s.epoch

lemma Represents.eq_lastIr {p : Past} {s : Slot} (h : Represents p s) {ir : PartitionIr}
    (hir : s.ir = some ir) : ir = p.lastIr := by
  rw [h.ir] at hir
  split at hir
  · exact (Option.some.inj hir).symm
  · simp at hir

lemma represents_loadedSlot (g : LiveGraph) (id : String) (ir : PartitionIr) (language : LanguageSupport) :
    Represents ⟨ir, language, true, .current, ∅, [], false⟩ (g.loadedSlot id ir language) where
  defines := rfl
  refCounts := rfl
  ir := rfl
  language := rfl
  status := rfl
  reasons := rfl
  facts := rfl
  factsEpoch := by simp [loadedSlot]
  factsSince := by simp [loadedSlot]

lemma represents_swappedSlot {g : LiveGraph} {id : String} (newIr : PartitionIr) {p : Option Past}
    (h : Option.Rel Represents p (g.slot id)) :
    Represents ⟨newIr, (p.map Past.language).getD .typeScriptPrimary, true, .current, ∅,
      (p.map Past.facts).getD [], false⟩ (g.swappedSlot id newIr) := by
  -- The epoch moves on past the one the facts were loaded for.
  have hepoch : ∀ e, (g.slot id).bind Slot.valueFactsEpoch = some e → e < g.nextEpoch id := by
    intro e he
    obtain ⟨s, hs, hse⟩ := Option.bind_eq_some_iff.mp he
    rw [hs] at h
    cases h with
    | some hr =>
      have hle := hr.factsEpoch e hse
      simp only [nextEpoch, hs, Option.map_some, Option.getD_some]
      omega
  refine ⟨rfl, rfl, rfl, ?_, rfl, rfl, ?_, fun e he => (hepoch e he).le, ?_⟩
  · simp only [swappedSlot]
    generalize g.slot id = s at h
    cases h with
    | none => rfl
    | some hr => exact hr.language
  · simp only [swappedSlot]
    generalize g.slot id = s at h
    cases h with
    | none => rfl
    | some hr => exact hr.facts
  · simp only [Bool.false_eq_true, false_iff]
    intro he
    exact absurd (hepoch _ he) (lt_irrefl _)

lemma Represents.map {id id' : String} {f : Past → Past} {f' : Slot → Slot}
    (hf : ∀ p s, Represents p s → Represents (f p) (f' s)) {p : Option Past} {s : Option Slot}
    (h : Option.Rel Represents p s) :
    Option.Rel Represents (p.map fun p => if id = id' then f p else p)
      (s.map fun s => if id = id' then f' s else s) := by
  cases h with
  | none => exact .none
  | some hr =>
    by_cases hid : id = id'
    · simp only [hid, if_true]
      exact .some (hf _ _ hr)
    · simp only [hid, if_false]
      exact .some hr

lemma represents_apply {g : LiveGraph} {id : String} {p : Option Past}
    (h : Option.Rel Represents p (g.slot id)) (m : Mutation) :
    Option.Rel Represents (Past.next id p m) ((g.apply m).slot id) := by
  rw [slot_apply]
  cases m <;> simp only [Past.next, Mutation.onSlot]
  case loadPartition order id' ir language =>
    split
    · exact .some (represents_loadedSlot g id ir language)
    · exact h
  case swapPartition order id' newIr =>
    split
    · exact .some (represents_swappedSlot newIr h)
    · exact h
  case unloadPartition id' =>
    refine Represents.map ?_ h
    exact fun p s hr => { hr with ir := rfl }
  case beginRefresh | markStale | markRefreshFailed =>
    refine Represents.map ?_ h
    exact fun p s hr => { hr with status := rfl }
  case addPartitionDegradation id' reason =>
    refine Represents.map ?_ h
    exact fun p s hr => { hr with reasons := by simp [hr.reasons] }
  case loadValueFacts id' facts =>
    refine Represents.map ?_ h
    exact fun p s hr => { hr with facts := rfl, factsEpoch := by simp, factsSince := by simp }

theorem after_represents (ms : List Mutation) (id : String) :
    Option.Rel Represents (past ms id) ((after ms).slot id) := by
  refine run_invariant (fun ms (g : LiveGraph) => Option.Rel Represents (past ms id) (g.slot id)) .none ?_ ms
  intro ms g m h
  rw [past, run_snoc]
  exact represents_apply h m

lemma past_of_slot {ms : List Mutation} {id : String} {s : Slot} (h : (after ms).slot id = some s) :
    ∃ p, past ms id = some p ∧ Represents p s := by
  have hrel := after_represents ms id
  rw [h] at hrel
  cases hp : past ms id with
  | none =>
    rw [hp] at hrel
    cases hrel
  | some p =>
    rw [hp] at hrel
    cases hrel with
    | some hr => exact ⟨p, rfl, hr⟩

def WellFormed (g : LiveGraph) : Prop := ∀ id s, g.slot id = some s → ∃ p, Represents p s

lemma after_wellFormed (ms : List Mutation) : (after ms).WellFormed := by
  intro id s hs
  obtain ⟨p, -, hr⟩ := past_of_slot hs
  exact ⟨p, hr⟩

lemma WellFormed.fromNode {g : LiveGraph} (hg : g.WellFormed) {id key : String} {s : Slot}
    {b : IdentityBasis} (hs : g.slot id = some s) (hb : s.defines[key]? = some b) : FromNode b := by
  obtain ⟨p, hr⟩ := hg id s hs
  rw [hr.defines] at hb
  exact defines_basis p.lastIr hb

lemma slot_of_past {ms : List Mutation} {id : String} {p : Past} (h : past ms id = some p) :
    ∃ s, (after ms).slot id = some s ∧ Represents p s := by
  have hrel := after_represents ms id
  rw [h] at hrel
  cases hs : (after ms).slot id with
  | none =>
    rw [hs] at hrel
    cases hrel
  | some s =>
    rw [hs] at hrel
    cases hrel with
    | some hr => exact ⟨s, rfl, hr⟩

end RepoGraph.LiveGraph
