import RepoGraph.Lib.Runs
import RepoGraph.LiveGraph.Slots
import RepoGraph.LiveGraph.Overlay

/-! The live graph and its mutators. -/

namespace RepoGraph

open Lib Ir TrustModel ImportResolver

structure LiveGraph where
  slots : IterMap String LiveGraph.Slot
  xrefEpoch : ℕ
  xpartOverlay : List ResolvedImportEdgeCandidate

namespace LiveGraph

def new : LiveGraph := ⟨∅, 0, []⟩

def slot (g : LiveGraph) (id : String) : Option Slot := g.slots.lookup id

def residentIr (g : LiveGraph) (id : String) : Option PartitionIr := (g.slot id).bind Slot.ir

def residentIrs (g : LiveGraph) : List PartitionIr := g.slots.entries.filterMap (fun e => e.2.ir)

def rebuildXpartOverlay (g : LiveGraph) : LiveGraph := { g with xpartOverlay := overlayOf g.residentIrs }

def nextEpoch (g : LiveGraph) (id : String) : ℕ := ((g.slot id).map (fun s => s.epoch + 1)).getD 1

def loadedSlot (g : LiveGraph) (id : String) (ir : PartitionIr) (language : LanguageSupport) : Slot where
  epoch := g.nextEpoch id
  status := .current
  ir := some ir
  language := language
  defines := (contribution ir).1
  refCounts := (contribution ir).2
  valueFacts := []
  valueFactsEpoch := none
  partitionDegradationReasons := ∅

def loadPartition (order : BucketOrder String Slot) (g : LiveGraph) (id : String) (ir : PartitionIr)
    (language : LanguageSupport) : LiveGraph :=
  rebuildXpartOverlay { g with slots := g.slots.insertIn order id (g.loadedSlot id ir language) }

def unloadPartition (g : LiveGraph) (id : String) : LiveGraph :=
  rebuildXpartOverlay { g with slots := g.slots.modify id (fun s => { s with ir := none }) }

def setStatus (g : LiveGraph) (id : String) (status : RefreshStatus) : LiveGraph :=
  { g with slots := g.slots.modify id (fun s => { s with status := status }) }

def beginRefresh (g : LiveGraph) (id : String) : LiveGraph := g.setStatus id .refreshing

def markStale (g : LiveGraph) (id : String) : LiveGraph := g.setStatus id .stale

def markRefreshFailed (g : LiveGraph) (id : String) : LiveGraph := g.setStatus id .refreshFailed

def addPartitionDegradation (g : LiveGraph) (id : String) (reason : DegradationReason) : LiveGraph :=
  { g with slots := g.slots.modify id (fun s =>
    { s with partitionDegradationReasons := insert reason s.partitionDegradationReasons }) }

def Slot.reasons (s : Slot) : List DegradationReason :=
  DegradationReason.all.filter (· ∈ s.partitionDegradationReasons)

def partitionReasons (g : LiveGraph) (id : String) : List DegradationReason :=
  ((g.slot id).map Slot.reasons).getD []

def swappedSlot (g : LiveGraph) (id : String) (newIr : PartitionIr) : Slot where
  epoch := g.nextEpoch id
  status := .current
  ir := some newIr
  language := ((g.slot id).map Slot.language).getD .typeScriptPrimary
  defines := (contribution newIr).1
  refCounts := (contribution newIr).2
  valueFacts := ((g.slot id).map Slot.valueFacts).getD []
  valueFactsEpoch := (g.slot id).bind Slot.valueFactsEpoch
  partitionDegradationReasons := ∅

def swapPartition (order : BucketOrder String Slot) (g : LiveGraph) (id : String) (newIr : PartitionIr) :
    LiveGraph :=
  rebuildXpartOverlay { g with
    slots := g.slots.insertIn order id (g.swappedSlot id newIr), xrefEpoch := g.xrefEpoch + 1 }

def loadValueFacts (g : LiveGraph) (id : String) (facts : List ValueFact) : LiveGraph :=
  { g with slots := g.slots.modify id (fun s =>
    { s with valueFacts := facts, valueFactsEpoch := some s.epoch }) }

/-- One call of a mutator; an insertion also fixes the order its table is left in. -/
inductive Mutation
  | loadPartition (order : BucketOrder String Slot) (id : String) (ir : PartitionIr)
      (language : LanguageSupport)
  | unloadPartition (id : String)
  | swapPartition (order : BucketOrder String Slot) (id : String) (newIr : PartitionIr)
  | beginRefresh (id : String)
  | markStale (id : String)
  | markRefreshFailed (id : String)
  | addPartitionDegradation (id : String) (reason : DegradationReason)
  | loadValueFacts (id : String) (facts : List ValueFact)

def apply (g : LiveGraph) : Mutation → LiveGraph
  | .loadPartition order id ir language => g.loadPartition order id ir language
  | .unloadPartition id => g.unloadPartition id
  | .swapPartition order id newIr => g.swapPartition order id newIr
  | .beginRefresh id => g.beginRefresh id
  | .markStale id => g.markStale id
  | .markRefreshFailed id => g.markRefreshFailed id
  | .addPartitionDegradation id reason => g.addPartitionDegradation id reason
  | .loadValueFacts id facts => g.loadValueFacts id facts

def after (ms : List Mutation) : LiveGraph := run apply new ms

def Mutation.onSlot (g : LiveGraph) (id : String) : Mutation → Option Slot → Option Slot
  | .loadPartition _ id' ir language, s => if id = id' then some (g.loadedSlot id ir language) else s
  | .unloadPartition id', s => s.map (fun s => if id = id' then { s with ir := none } else s)
  | .swapPartition _ id' newIr, s => if id = id' then some (g.swappedSlot id newIr) else s
  | .beginRefresh id', s => s.map (fun s => if id = id' then { s with status := .refreshing } else s)
  | .markStale id', s => s.map (fun s => if id = id' then { s with status := .stale } else s)
  | .markRefreshFailed id', s => s.map (fun s => if id = id' then { s with status := .refreshFailed } else s)
  | .addPartitionDegradation id' reason, s => s.map (fun s => if id = id' then
      { s with partitionDegradationReasons := insert reason s.partitionDegradationReasons } else s)
  | .loadValueFacts id' facts, s => s.map (fun s => if id = id' then
      { s with valueFacts := facts, valueFactsEpoch := some s.epoch } else s)

/-- The slot view of a step: every invariant of a single slot is read off this equation. -/
lemma slot_apply (g : LiveGraph) (m : Mutation) (id : String) :
    (g.apply m).slot id = m.onSlot g id (g.slot id) := by
  cases m with
  | loadPartition order id' ir language =>
    simp only [apply, loadPartition, rebuildXpartOverlay, slot, Mutation.onSlot, IterMap.lookup_insertIn]
    by_cases h : id = id'
    · simp [h]
    · simp [h]
  | swapPartition order id' newIr =>
    simp only [apply, swapPartition, rebuildXpartOverlay, slot, Mutation.onSlot, IterMap.lookup_insertIn]
    by_cases h : id = id'
    · simp [h]
    · simp [h]
  | unloadPartition id' => exact IterMap.lookup_modify id' id _ g.slots
  | beginRefresh id' => exact IterMap.lookup_modify id' id _ g.slots
  | markStale id' => exact IterMap.lookup_modify id' id _ g.slots
  | markRefreshFailed id' => exact IterMap.lookup_modify id' id _ g.slots
  | addPartitionDegradation id' reason => exact IterMap.lookup_modify id' id _ g.slots
  | loadValueFacts id' facts => exact IterMap.lookup_modify id' id _ g.slots

namespace Fixture

open Ir.Fixture

def load (id : String) (ir : PartitionIr) : Mutation :=
  .loadPartition (.asInserted String Slot) id ir .typeScriptPrimary

def both : List Mutation := [load "engine" engine, load "api" api]

end Fixture

end LiveGraph

end RepoGraph
