import RepoGraph.Lib.Text
import RepoGraph.Lib.Containers

/-! The completeness certificate of module import cycles: its inputs, its verdict and the fingerprint
under which a verdict is cached. -/

namespace RepoGraph.ModuleCycleCert

open Lib Lib.Text

inductive ModuleCycleCompleteness
  | completeForModuleImportCycles
  | incompleteMissingPartitions
  | incompleteUnsupportedLanguage
  | incompleteImportClasses
  | unknownBaselineMissing
  | unknown
  deriving DecidableEq, Repr

structure LivePartition where
  id : String
  epoch : UInt64
  fresh : Bool
  ts : Bool
  sourceInputsHash : String
  producerFingerprint : String
  deriving DecidableEq, Repr

structure ObservationClassSummary where
  hasExternalNonlocal : Bool
  hasAssetNonrelevant : Bool
  hasWorkspaceLocalUnedgeable : Bool
  hasUnresolvedPackage : Bool
  hasAliasUnresolved : Bool
  hasDynamicUnresolved : Bool
  hasUnresolvedAfterOverlay : Bool
  deriving DecidableEq, Repr

def ObservationClassSummary.default : ObservationClassSummary :=
  ⟨false, false, false, false, false, false, false⟩

inductive ObservationClass
  | resolvedEdge
  | externalNonLocal
  | assetNonRelevant
  | workspaceLocalUnedgeable
  | unresolvedPackage
  | aliasUnresolved
  | dynamicUnresolved
  | unresolvedAfterOverlay
  deriving DecidableEq, Repr

namespace ObservationClass

def foldInto (o : ObservationClassSummary) : ObservationClass → ObservationClassSummary
  | .resolvedEdge => o
  | .externalNonLocal => { o with hasExternalNonlocal := true }
  | .assetNonRelevant => { o with hasAssetNonrelevant := true }
  | .workspaceLocalUnedgeable => { o with hasWorkspaceLocalUnedgeable := true }
  | .unresolvedPackage => { o with hasUnresolvedPackage := true }
  | .aliasUnresolved => { o with hasAliasUnresolved := true }
  | .dynamicUnresolved => { o with hasDynamicUnresolved := true }
  | .unresolvedAfterOverlay => { o with hasUnresolvedAfterOverlay := true }

def isBlocking : ObservationClass → Bool
  | .workspaceLocalUnedgeable | .unresolvedPackage | .aliasUnresolved | .dynamicUnresolved
  | .unresolvedAfterOverlay => true
  | _ => false

def isEdge : ObservationClass → Bool
  | .resolvedEdge => true
  | _ => false

def asStr : ObservationClass → String
  | .resolvedEdge => "ResolvedEdge"
  | .externalNonLocal => "ExternalNonLocal"
  | .assetNonRelevant => "AssetNonRelevant"
  | .workspaceLocalUnedgeable => "WorkspaceLocalUnedgeable"
  | .unresolvedPackage => "UnresolvedPackage"
  | .aliasUnresolved => "AliasUnresolved"
  | .dynamicUnresolved => "DynamicUnresolved"
  | .unresolvedAfterOverlay => "UnresolvedAfterOverlay"

def flag (o : ObservationClassSummary) : ObservationClass → Bool
  | .resolvedEdge => false
  | .externalNonLocal => o.hasExternalNonlocal
  | .assetNonRelevant => o.hasAssetNonrelevant
  | .workspaceLocalUnedgeable => o.hasWorkspaceLocalUnedgeable
  | .unresolvedPackage => o.hasUnresolvedPackage
  | .aliasUnresolved => o.hasAliasUnresolved
  | .dynamicUnresolved => o.hasDynamicUnresolved
  | .unresolvedAfterOverlay => o.hasUnresolvedAfterOverlay

lemma flag_foldInto (o : ObservationClassSummary) (c c' : ObservationClass) :
    c.flag (c'.foldInto o) = true ↔ c.flag o = true ∨ c = c' ∧ c.isEdge = false := by
  cases c <;> cases c' <;> simp [flag, foldInto, isEdge]

lemma asStr_injective : Function.Injective asStr := by
  intro c c' h
  cases c <;> cases c' <;> first | rfl | (exact absurd h (by decide))

end ObservationClass

structure LiveCycleState where
  partitions : List LivePartition
  observationClasses : ObservationClassSummary
  deriving DecidableEq, Repr

structure BaselineInput where
  expectedPartitionIds : BTreeSet String
  hasNonTsCycleSource : Bool
  repoIndexEpoch : UInt64
  languageSupportVersion : UInt32
  importCompletenessPolicyVersion : UInt32

def evaluateModuleCycleCompleteness (live : LiveCycleState) : Option BaselineInput → ModuleCycleCompleteness
  | none => .unknownBaselineMissing
  | some baseline =>
    let loadedFresh := (live.partitions.filter LivePartition.fresh).map LivePartition.id
    if ¬ baseline.expectedPartitionIds.toList.all (· ∈ loadedFresh) then .incompleteMissingPartitions
    else if baseline.hasNonTsCycleSource || live.partitions.any (fun p => !p.ts) then
      .incompleteUnsupportedLanguage
    else
      let o := live.observationClasses
      if o.hasWorkspaceLocalUnedgeable || o.hasUnresolvedPackage || o.hasAliasUnresolved ||
          o.hasDynamicUnresolved || o.hasUnresolvedAfterOverlay then .incompleteImportClasses
      else .completeForModuleImportCycles

def bit (b : Bool) : String := if b then "1" else "0"

def decimal (n : ℕ) : String := toString n

def partitionPart (p : LivePartition) : String :=
  p.id ++ "@" ++ decimal p.epoch.toNat ++ ":f" ++ bit p.fresh ++ ":ts" ++ bit p.ts ++ ":" ++
    p.sourceInputsHash ++ ":" ++ p.producerFingerprint

def classesPart (o : ObservationClassSummary) : String :=
  "obs[ext" ++ bit o.hasExternalNonlocal ++ ":ast" ++ bit o.hasAssetNonrelevant ++ ":wsl" ++
    bit o.hasWorkspaceLocalUnedgeable ++ ":unp" ++ bit o.hasUnresolvedPackage ++ ":alu" ++
    bit o.hasAliasUnresolved ++ ":dyu" ++ bit o.hasDynamicUnresolved ++ ":unr" ++
    bit o.hasUnresolvedAfterOverlay ++ "]"

def baselinePart : Option BaselineInput → String
  | none => "|base:NONE"
  | some b =>
    "|base[" ++ join "," b.expectedPartitionIds.toList ++ ":nts" ++ bit b.hasNonTsCycleSource ++ ":ie" ++
      decimal b.repoIndexEpoch.toNat ++ ":lv" ++ decimal b.languageSupportVersion.toNat ++ ":ip" ++
      decimal b.importCompletenessPolicyVersion.toNat ++ "]"

def certificateInputsFingerprint (live : LiveCycleState) (baseline : Option BaselineInput) : String :=
  let parts := sortBy compare (live.partitions.map partitionPart)
  classesPart live.observationClasses ++ "|parts[" ++ join "," parts ++ "]" ++ baselinePart baseline

end RepoGraph.ModuleCycleCert
