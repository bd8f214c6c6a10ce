import RepoGraph.Indexer.Types
import RepoGraph.Lib.Folds
import RepoGraph.Lib.IterMap
import RepoGraph.Lib.Search

/-! Boundary facts that provide or consume an address, paired by an index over the providers: by address or command
first, and for a consumer that finds none by the path alone or by the command without its binary. -/

namespace RepoGraph.Classification

open Lib Lib.Text Indexer

inductive BoundaryMechanism
  | http
  | grpc
  | rpc
  | cliCommand
  | filesystem
  | databaseSql
  | databaseNosql
  | cache
  | objectStore
  | ipcSharedMemory
  | ioctl
  | queue
  | event
  | socket
  | deviceProtocol
  | registerMap
  | other
  deriving DecidableEq, Repr

inductive BoundaryMatchBasis
  | exactContract
  | addressMatch
  | operationMatch
  | heuristic
  deriving DecidableEq, Repr

structure BoundaryProviderFact where
  mechanism : BoundaryMechanism
  address : String
  metadata : Json.Fields

structure MatchableProviderFact where
  factUid : String
  fact : BoundaryProviderFact

structure BoundaryConsumerFact where
  mechanism : BoundaryMechanism
  address : String
  metadata : Json.Fields

structure MatchableConsumerFact where
  factUid : String
  fact : BoundaryConsumerFact

structure BoundaryLinkCandidate where
  providerFactUid : String
  consumerFactUid : String
  matchBasis : BoundaryMatchBasis
  deriving DecidableEq, Repr

section Keys

def paramWildcard : String := "{_}"

def normalizeSegment (segment : String) : String :=
  if startsWith segment "\x7b" && endsWith segment "\x7d" then paramWildcard
  else if startsWith segment ":" && decide (segment.utf8ByteSize > 1) then paramWildcard
  else segment

def normalizeHttpPath (path : String) : String :=
  if path = "" ∨ path = "/" then "/" else join "/" ((split path '/').map normalizeSegment)

def httpMethod (upper : String → String) (metadata : Json.Fields) : Option String :=
  ((metadata.lookup "httpMethod").bind Json.asStr).map upper

def httpComputeMatcherKey (upper : String → String) (address : String) (metadata : Json.Fields) : String :=
  (httpMethod upper metadata).getD "*" ++ " " ++ normalizeHttpPath address

def cliComputeMatcherKey (lower : String → String) (address : String) : String := trim (lower address)

end Keys

section Match

def indexBy (key : MatchableProviderFact → String) (providers : List MatchableProviderFact) :
    HashMap String (List MatchableProviderFact) :=
  providers.foldl (fun m p => m.insert (key p) ((m[key p]?).getD [] ++ [p])) ∅

def link (c : MatchableConsumerFact) (basis : BoundaryMatchBasis)
    (p : MatchableProviderFact) : BoundaryLinkCandidate where
  providerFactUid := p.factUid
  consumerFactUid := c.factUid
  matchBasis := basis

def linksUnder (index : HashMap String (List MatchableProviderFact)) (key : String) (basis : BoundaryMatchBasis)
    (c : MatchableConsumerFact) (otherwise : List BoundaryLinkCandidate) : List BoundaryLinkCandidate :=
  match index[key]? with
  | some found => found.map (link c basis)
  | none => otherwise

def httpMatch (upper : String → String) (providers : List MatchableProviderFact)
    (consumers : List MatchableConsumerFact) : List BoundaryLinkCandidate :=
  if providers.isEmpty || consumers.isEmpty then []
  else
    let providerIndex := indexBy (fun p => httpComputeMatcherKey upper p.fact.address p.fact.metadata) providers
    let providerByPathOnly := indexBy (fun p => normalizeHttpPath p.fact.address) providers
    consumers.flatMap fun c =>
      let consumerKey := httpComputeMatcherKey upper c.fact.address c.fact.metadata
      let method := httpMethod upper c.fact.metadata
      linksUnder providerIndex consumerKey .addressMatch c
        (if method = none ∨ method = some "*" then
          linksUnder providerByPathOnly (normalizeHttpPath c.fact.address) .heuristic c []
        else [])

def cliMatch (lower : String → String) (providers : List MatchableProviderFact)
    (consumers : List MatchableConsumerFact) : List BoundaryLinkCandidate :=
  if providers.isEmpty || consumers.isEmpty then []
  else
    let providerIndex := indexBy (fun p => cliComputeMatcherKey lower p.fact.address) providers
    consumers.flatMap fun c =>
      let consumerKey := cliComputeMatcherKey lower c.fact.address
      let tokens := splitWhitespace consumerKey
      linksUnder providerIndex consumerKey .operationMatch c
        (if tokens.length ≥ 3 then linksUnder providerIndex (join " " tokens.tail) .heuristic c [] else [])

def groupByMechanism {α : Type} (mechanism : α → BoundaryMechanism) (facts : List α) :
    IterMap BoundaryMechanism (List α) :=
  facts.foldl (fun m f => m.entryOrDefault (.asInserted _ _) (mechanism f) (· ++ [f])) ∅

def mechCandidates (upper lower : String → String)
    (providersByMech : IterMap BoundaryMechanism (List MatchableProviderFact))
    (consumersByMech : IterMap BoundaryMechanism (List MatchableConsumerFact)) (mech : BoundaryMechanism) :
    List BoundaryLinkCandidate :=
  match providersByMech.lookup mech, consumersByMech.lookup mech with
  | some mechProviders, some mechConsumers =>
    match mech with
    | .http => httpMatch upper mechProviders mechConsumers
    | .cliCommand => cliMatch lower mechProviders mechConsumers
    | _ => []
  | _, _ => []

def matchBoundaryFacts (upper lower : String → String) (providers : List MatchableProviderFact)
    (consumers : List MatchableConsumerFact) : List BoundaryLinkCandidate :=
  let providersByMech := groupByMechanism (·.fact.mechanism) providers
  let consumersByMech := groupByMechanism (·.fact.mechanism) consumers
  [BoundaryMechanism.http, .cliCommand].flatMap (mechCandidates upper lower providersByMech consumersByMech)

end Match

section Paths

inductive Segment
  | wildcard
  | literal (text : String)
  deriving DecidableEq, Repr

def IsParam (segment : String) : Prop := (∃ x, segment = "\x7b" ++ x ++ "\x7d") ∨ ∃ x ≠ "", segment = ":" ++ x

variable {s a b : String}

lemma braced_iff : (startsWith s "\x7b" && endsWith s "\x7d") = true ↔ ∃ x, s = "\x7b" ++ x ++ "\x7d" := by
  rw [Bool.and_eq_true, startsWith_iff, endsWith_iff]
  constructor
  · rintro ⟨⟨rest, hs⟩, front, hs'⟩
    rcases middle_or_overlap (hs.symm.trans hs') with ⟨mid, rfl⟩ | ⟨overlap, hne, hopen, hclose⟩
    · exact ⟨mid, by rw [hs, String.append_assoc]⟩
    · have hopen' : ['{'] = front.toList ++ overlap.toList := by rw [← String.toList_append, ← hopen]; rfl
      have hclose' : ['}'] = overlap.toList ++ rest.toList := by rw [← String.toList_append, ← hclose]; rfl
      have hempty : overlap.toList ≠ [] := by simpa using hne
      obtain ⟨c, more, hmore⟩ := List.exists_cons_of_ne_nil hempty
      have hlast : c = '}' := by simpa [hmore] using (congrArg List.head? hclose').symm
      have hmem : '}' ∈ ['{'] := by
        rw [hopen', hmore, hlast]
        simp
      simp at hmem
  · rintro ⟨x, rfl⟩
    exact ⟨⟨x ++ "\x7d", String.append_assoc ..⟩, "\x7b" ++ x, rfl⟩

lemma colon_iff : (startsWith s ":" && decide (s.utf8ByteSize > 1)) = true ↔ ∃ x ≠ "", s = ":" ++ x := by
  rw [Bool.and_eq_true, startsWith_iff, decide_eq_true_eq]
  constructor
  · rintro ⟨⟨x, rfl⟩, hsize⟩
    refine ⟨x, ?_, rfl⟩
    rintro rfl
    exact absurd hsize (by decide)
  · rintro ⟨x, hx, rfl⟩
    have hpos : 0 < x.utf8ByteSize := Nat.pos_of_ne_zero (String.utf8ByteSize_eq_zero_iff.not.mpr hx)
    have hone : ":".utf8ByteSize = 1 := rfl
    exact ⟨⟨x, rfl⟩, by rw [String.utf8ByteSize_append, hone]; omega⟩

lemma isParam_iff (s : String) :
    (startsWith s "\x7b" && endsWith s "\x7d" || startsWith s ":" && decide (s.utf8ByteSize > 1)) = true ↔
      IsParam s := by
  rw [Bool.or_eq_true, braced_iff, colon_iff, IsParam]

instance : DecidablePred IsParam := fun s => decidable_of_iff _ (isParam_iff s)

def segmentOf (segment : String) : Segment := if IsParam segment then .wildcard else .literal segment

def segments (path : String) : List Segment := (split path '/').map segmentOf

def orRoot (path : String) : String := if path = "" then "/" else path

lemma isParam_wildcard : IsParam paramWildcard := .inl ⟨"_", rfl⟩

lemma normalizeSegment_eq (s : String) : normalizeSegment s = if IsParam s then paramWildcard else s := by
  rw [normalizeSegment]
  by_cases hbraced : ∃ x, s = "\x7b" ++ x ++ "\x7d"
  · have hparam : IsParam s := .inl hbraced
    rw [if_pos (braced_iff.mpr hbraced), if_pos hparam]
  · rw [if_neg (braced_iff.not.mpr hbraced)]
    by_cases hcolon : ∃ x ≠ "", s = ":" ++ x
    · have hparam : IsParam s := .inr hcolon
      rw [if_pos (colon_iff.mpr hcolon), if_pos hparam]
    · have hparam : ¬ IsParam s := by
        rintro (h | h)
        · exact hbraced h
        · exact hcolon h
      rw [if_neg (colon_iff.not.mpr hcolon), if_neg hparam]

lemma normalizeSegment_idem (s : String) : normalizeSegment (normalizeSegment s) = normalizeSegment s := by
  rw [normalizeSegment_eq s]
  split
  · rw [normalizeSegment_eq, if_pos isParam_wildcard]
  · rename_i h
    rw [normalizeSegment_eq, if_neg h]

lemma normalizeSegment_eq_iff : normalizeSegment a = normalizeSegment b ↔ segmentOf a = segmentOf b := by
  rw [normalizeSegment_eq, normalizeSegment_eq, segmentOf, segmentOf]
  by_cases ha : IsParam a
  · by_cases hb : IsParam b
    · simp [ha, hb]
    · have hne : paramWildcard ≠ b := fun h => hb (h ▸ isParam_wildcard)
      simp [ha, hb, hne]
  · by_cases hb : IsParam b
    · have hne : a ≠ paramWildcard := fun h => ha (h ▸ isParam_wildcard)
      simp [ha, hb, hne]
    · simp [ha, hb]

lemma map_normalizeSegment_eq_iff {l l' : List String} :
    l.map normalizeSegment = l'.map normalizeSegment ↔ l.map segmentOf = l'.map segmentOf := by
  induction l generalizing l' with
  | nil => cases l' <;> simp
  | cons s l ih =>
    cases l' with
    | nil => simp
    | cons s' l' => simp only [List.map_cons, List.cons.injEq, normalizeSegment_eq_iff, ih]

lemma slash_notMem_normalizeSegment (h : '/' ∉ s.toList) : '/' ∉ (normalizeSegment s).toList := by
  rw [normalizeSegment_eq]
  split
  · decide
  · exact h

lemma normalizeHttpPath_eq (path : String) :
    normalizeHttpPath path = join "/" ((split (orRoot path) '/').map normalizeSegment) := by
  have hroot : join "/" ((split "/" '/').map normalizeSegment) = "/" := by decide +kernel
  rw [normalizeHttpPath, orRoot]
  by_cases hempty : path = ""
  · rw [if_pos (.inl hempty), if_pos hempty, hroot]
  · by_cases hslash : path = "/"
    · rw [if_pos (.inr hslash), if_neg hempty, hslash, hroot]
    · rw [if_neg (not_or.mpr ⟨hempty, hslash⟩), if_neg hempty]

lemma split_normalizeHttpPath (path : String) :
    split (normalizeHttpPath path) '/' = (split (orRoot path) '/').map normalizeSegment := by
  have hslash : "/" = String.singleton '/' := rfl
  rw [normalizeHttpPath_eq, hslash]
  apply split_join
  · simpa [split] using splitAll_ne_nil _ _
  · intro segment hsegment
    obtain ⟨s, hs, rfl⟩ := List.mem_map.mp hsegment
    exact slash_notMem_normalizeSegment (not_mem_of_mem_split hs)

lemma normalizeHttpPath_eq_iff :
    normalizeHttpPath a = normalizeHttpPath b ↔ segments (orRoot a) = segments (orRoot b) := by
  rw [segments, segments, ← map_normalizeSegment_eq_iff]
  constructor
  · intro h
    rw [← split_normalizeHttpPath, ← split_normalizeHttpPath, h]
  · intro h
    rw [normalizeHttpPath_eq, normalizeHttpPath_eq, h]

lemma normalizeHttpPath_ne_empty (path : String) : normalizeHttpPath path ≠ "" := by
  intro h
  have hsplit := split_normalizeHttpPath path
  rw [h] at hsplit
  have hempty : split "" '/' = [""] := by decide +kernel
  rw [hempty] at hsplit
  obtain ⟨s, hs, hnormal⟩ := List.map_eq_singleton_iff.mp hsplit.symm
  rw [normalizeSegment_eq] at hnormal
  split at hnormal
  · exact absurd hnormal (by decide)
  · have hroot : orRoot path = "" := by rw [← join_split (orRoot path) '/', hs, hnormal]; rfl
    rw [orRoot] at hroot
    split at hroot
    · exact absurd hroot (by decide)
    · contradiction

theorem normalizeHttpPath_idem (path : String) : normalizeHttpPath (normalizeHttpPath path) =
    normalizeHttpPath path := by
  rw [normalizeHttpPath_eq (normalizeHttpPath path), orRoot, if_neg (normalizeHttpPath_ne_empty path),
    split_normalizeHttpPath, List.map_map]
  have hidem : normalizeSegment ∘ normalizeSegment = normalizeSegment := funext normalizeSegment_idem
  rw [hidem, ← normalizeHttpPath_eq]

end Paths

end RepoGraph.Classification
