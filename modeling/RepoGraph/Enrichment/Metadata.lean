import RepoGraph.Enrichment.Contracts
import RepoGraph.Indexer.Types

/-! The enrichment inside the JSON of an unresolved edge: written by a merge patch over what is stored, read
back field by field. -/

namespace RepoGraph.Enrichment

open Indexer

namespace MergePatch

def erase (fields : Json.Fields) (key : String) : Json.Fields := fields.filter (·.1 ≠ key)

mutual

/-- The merge patch of RFC 7396: objects are merged field by field, a null removes its field, and any other
patch replaces the target. -/
def mergePatch (target : Json) : Json → Json
  | .object fields => .object (mergeFields (target.asObject.getD []) fields)
  | patch => patch
  termination_by structural patch => patch

def mergeFields (target : Json.Fields) : Json.Fields → Json.Fields
  | [] => target
  | field :: rest => mergeFields (mergeField target field) rest
  termination_by structural fields => fields

def mergeField (target : Json.Fields) : String × Json → Json.Fields
  | (key, value) =>
    if value matches .null then erase target key
    else Json.insert target key (mergePatch ((target.lookup key).getD .null) value)
  termination_by structural field => field

end

lemma lookup_cons (k a : String) (v : Json) (l : Json.Fields) :
    List.lookup a ((k, v) :: l) = if a = k then some v else l.lookup a := by
  rw [List.lookup_cons]
  by_cases h : a = k
  · rw [if_pos h, h, beq_self_eq_true]
  · rw [if_neg h, beq_eq_false_iff_ne.mpr h]

lemma lookup_insert (fields : Json.Fields) (key a : String) (v : Json) :
    (Json.insert fields key v).lookup a = if a = key then some v else fields.lookup a := by
  induction fields with
  | nil =>
    rw [Json.insert, lookup_cons]
  | cons entry rest ih =>
    obtain ⟨k, v'⟩ := entry
    unfold Json.insert
    by_cases hk : k = key
    · rw [if_pos hk, lookup_cons, lookup_cons, hk]
      by_cases ha : a = key <;> simp [ha]
    · rw [if_neg hk]
      by_cases hlt : k < key
      · rw [if_pos hlt, lookup_cons, lookup_cons, ih]
        by_cases hak : a = k
        · have hne : a ≠ key := by rw [hak]; exact hk
          rw [if_pos hak, if_neg hne, if_pos hak]
        · rw [if_neg hak, if_neg hak]
      · rw [if_neg hlt, lookup_cons]

def IsLeaf : Json → Prop
  | .bool _ | .number _ | .string _ | .array _ => True
  | _ => False

lemma mergeField_leaf (target : Json.Fields) (key : String) {v : Json} (h : IsLeaf v) :
    mergeField target (key, v) = Json.insert target key v := by
  cases v with
  | null => cases h
  | object fields => cases h
  | _ => rfl

lemma lookup_mergeFields {fields : Json.Fields} (hleaf : ∀ f ∈ fields, IsLeaf f.2)
    (hkeys : (fields.map Prod.fst).Nodup) (target : Json.Fields) (a : String) :
    (mergeFields target fields).lookup a = (fields.lookup a).or (target.lookup a) := by
  induction fields generalizing target with
  | nil => simp [mergeFields]
  | cons f rest ih =>
    obtain ⟨key, v⟩ := f
    obtain ⟨hkey, hkeys⟩ := List.nodup_cons.mp hkeys
    rw [mergeFields, ih (fun f hf => hleaf f (List.mem_cons_of_mem _ hf)) hkeys,
      mergeField_leaf _ _ (hleaf _ List.mem_cons_self), lookup_insert, lookup_cons]
    by_cases ha : a = key
    · have hnone : rest.lookup a = none := by
        rw [List.lookup_eq_none_iff]
        intro f hf
        have hne : f.1 ≠ a := fun he => hkey (List.mem_map.mpr ⟨f, hf, he.trans ha⟩)
        exact bne_iff_ne.mpr (Ne.symm hne)
      rw [if_pos ha, if_pos ha, hnone]
      rfl
    · rw [if_neg ha, if_neg ha]

end MergePatch

open MergePatch

def ReceiverTypeOrigin.asStr : ReceiverTypeOrigin → String
  | compiler => "compiler"
  | failed => "failed"

def putOption (fields : Json.Fields) (key : String) : Option String → Json.Fields
  | some s => Json.insert fields key (.string s)
  | none => fields

/-- The fields written under `enrichment`; an absent optional value writes no field. -/
def enrichmentFields (m : EnrichmentMetadata) : Json.Fields :=
  let fields := [("isExternalType", .bool m.isExternalType), ("origin", .string m.origin.asStr)]
  putOption (putOption (putOption fields "receiverType" m.receiverType) "typeDisplayName" m.typeDisplayName)
    "failureReason" m.failureReason

def metadataToDbJson (m : EnrichmentMetadata) : Json := .object [("enrichment", .object (enrichmentFields m))]

def asBool : Json → Option Bool
  | .bool b => some b
  | _ => none

def parseOrigin (s : String) : Option ReceiverTypeOrigin :=
  if s = "compiler" then some .compiler else if s = "failed" then some .failed else none

def metadataFromDbJson (value : Json) : Option EnrichmentMetadata := do
  let enrichment ← value.get "enrichment"
  let origin ← (← (enrichment.get "origin").bind Json.asStr) |> parseOrigin
  some
    { receiverType := (enrichment.get "receiverType").bind Json.asStr
      typeDisplayName := (enrichment.get "typeDisplayName").bind Json.asStr
      isExternalType := ((enrichment.get "isExternalType").bind asBool).getD false
      origin := origin
      failureReason := (enrichment.get "failureReason").bind Json.asStr }

def mergedMetadata (stored : Option Json) (m : EnrichmentMetadata) : Json :=
  match stored with
  | none => metadataToDbJson m
  | some value => mergePatch value (metadataToDbJson m)

def storedField (stored : Option Json) (key : String) : Option Json :=
  (stored.bind (·.get "enrichment")).bind (·.get key)

/-- `json_extract` of a field of the enrichment: NULL where the field is not there or null. -/
def jsonExtract (stored : Option Json) (key : String) : Option Json :=
  match storedField stored key with
  | some .null => none
  | value => value

def optionField (key : String) (value : Option String) : Json.Fields :=
  (value.map fun s => (key, .string s)).toList

lemma enrichmentFields_eq (m : EnrichmentMetadata) :
    enrichmentFields m =
      optionField "failureReason" m.failureReason ++
        ([("isExternalType", .bool m.isExternalType), ("origin", .string m.origin.asStr)] ++
          (optionField "receiverType" m.receiverType ++ optionField "typeDisplayName" m.typeDisplayName)) := by
  obtain ⟨receiverType, typeDisplayName, isExternalType, origin, failureReason⟩ := m
  cases receiverType <;> cases typeDisplayName <;> cases failureReason <;> rfl

lemma enrichmentFields_leaf (m : EnrichmentMetadata) : ∀ f ∈ enrichmentFields m, IsLeaf f.2 := by
  have hoption : ∀ (key : String) (value : Option String), ∀ f ∈ optionField key value, IsLeaf f.2 := by
    intro key value f hf
    cases value with
    | none => cases hf
    | some s =>
      obtain rfl := List.mem_singleton.mp hf
      trivial
  intro f hf
  rw [enrichmentFields_eq] at hf
  simp only [List.mem_append, List.mem_cons, List.not_mem_nil, or_false] at hf
  rcases hf with hf | (rfl | rfl) | hf | hf
  · exact hoption _ _ f hf
  · trivial
  · trivial
  · exact hoption _ _ f hf
  · exact hoption _ _ f hf

lemma enrichmentFields_keys (m : EnrichmentMetadata) : ((enrichmentFields m).map Prod.fst).Nodup := by
  rw [enrichmentFields_eq]
  obtain ⟨receiverType, typeDisplayName, isExternalType, origin, failureReason⟩ := m
  cases receiverType <;> cases typeDisplayName <;> cases failureReason <;> simp [optionField]

lemma lookup_origin (m : EnrichmentMetadata) :
    (enrichmentFields m).lookup "origin" = some (.string m.origin.asStr) := by
  obtain ⟨receiverType, typeDisplayName, isExternalType, origin, failureReason⟩ := m
  cases receiverType <;> cases typeDisplayName <;> cases failureReason <;> rfl

lemma lookup_isExternalType (m : EnrichmentMetadata) :
    (enrichmentFields m).lookup "isExternalType" = some (.bool m.isExternalType) := by
  obtain ⟨receiverType, typeDisplayName, isExternalType, origin, failureReason⟩ := m
  cases receiverType <;> cases typeDisplayName <;> cases failureReason <;> rfl

lemma lookup_receiverType (m : EnrichmentMetadata) :
    (enrichmentFields m).lookup "receiverType" = m.receiverType.map .string := by
  obtain ⟨receiverType, typeDisplayName, isExternalType, origin, failureReason⟩ := m
  cases receiverType <;> cases typeDisplayName <;> cases failureReason <;> rfl

lemma lookup_typeDisplayName (m : EnrichmentMetadata) :
    (enrichmentFields m).lookup "typeDisplayName" = m.typeDisplayName.map .string := by
  obtain ⟨receiverType, typeDisplayName, isExternalType, origin, failureReason⟩ := m
  cases receiverType <;> cases typeDisplayName <;> cases failureReason <;> rfl

lemma storedField_merged (stored : Option Json) (m : EnrichmentMetadata) (key : String) :
    storedField (some (mergedMetadata stored m)) key =
      ((enrichmentFields m).lookup key).or (storedField stored key) := by
  cases stored with
  | none =>
    have hfield : storedField (some (mergedMetadata none m)) key = (enrichmentFields m).lookup key := by
      change ((metadataToDbJson m).get "enrichment").bind (·.get key) = _
      rw [metadataToDbJson, Json.get, lookup_cons, if_pos rfl]
      rfl
    rw [hfield]
    exact (Option.or_none).symm
  | some value =>
    have hfield : storedField (some (mergedMetadata (some value) m)) key =
        (mergeFields ((((value.asObject.getD []).lookup "enrichment").getD .null).asObject.getD [])
          (enrichmentFields m)).lookup key := by
      have hget : (mergedMetadata (some value) m).get "enrichment" =
          some (mergePatch (((value.asObject.getD []).lookup "enrichment").getD .null)
            (.object (enrichmentFields m))) := by
        change (Json.insert (value.asObject.getD []) "enrichment" _).lookup "enrichment" = _
        rw [lookup_insert, if_pos rfl]
      rw [storedField, Option.bind_some, hget]
      rfl
    have hstored : storedField (some value) key =
        ((((value.asObject.getD []).lookup "enrichment").getD .null).asObject.getD []).lookup key := by
      rw [storedField, Option.bind_some]
      cases value with
      | object fields =>
        change (fields.lookup "enrichment").bind (·.get key) =
          (((fields.lookup "enrichment").getD .null).asObject.getD []).lookup key
        cases fields.lookup "enrichment" with
        | none => rfl
        | some enrichment => cases enrichment <;> rfl
      | _ => rfl
    rw [hfield, hstored, lookup_mergeFields (enrichmentFields_leaf m) (enrichmentFields_keys m)]

end RepoGraph.Enrichment
