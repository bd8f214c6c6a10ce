import RepoGraph.Lib.Text

/-! The data that flows through the enrichment of a snapshot: what a resolver found out about the receiver of a
call, and the edges that a promotion adds for it. -/

namespace RepoGraph.Enrichment

open Lib

inductive UnresolvedCategory
  | callsObjMethodNeedsTypeInfo
  | callsThisWildcardMethodNeedsTypeInfo
  deriving DecidableEq, Repr

namespace UnresolvedCategory

def asStr : UnresolvedCategory → String
  | callsObjMethodNeedsTypeInfo => "calls_obj_method_needs_type_info"
  | callsThisWildcardMethodNeedsTypeInfo => "calls_this_wildcard_method_needs_type_info"

def parse (s : String) : Option UnresolvedCategory :=
  if s = "calls_obj_method_needs_type_info" then some callsObjMethodNeedsTypeInfo
  else if s = "calls_this_wildcard_method_needs_type_info" then some callsThisWildcardMethodNeedsTypeInfo
  else none

end UnresolvedCategory

inductive EnrichmentLanguage
  | typeScript
  | rust
  | java
  deriving DecidableEq, Repr

namespace EnrichmentLanguage

def fromExtension (ending : String) : Option EnrichmentLanguage :=
  if ending ∈ ["ts", "tsx", "js", "jsx", "mts", "cts", "mjs", "cjs"] then some typeScript
  else if ending = "rs" then some rust
  else if ending = "java" then some java
  else none

def fromPath (path : String) : Option EnrichmentLanguage := (Text.split path '.').getLast?.bind fromExtension

end EnrichmentLanguage

structure EligibleEdge where
  edgeUid : String
  snapshotUid : String
  repoUid : String
  sourceNodeUid : String
  targetKey : String
  sourceFilePath : String
  lineStart : ℕ
  colStart : ℕ
  category : UnresolvedCategory
  language : EnrichmentLanguage
  deriving DecidableEq, Repr

inductive ReceiverTypeOrigin
  | compiler
  | failed
  deriving DecidableEq, Repr

structure ReceiverTypeResult where
  edgeUid : String
  receiverType : Option String
  origin : ReceiverTypeOrigin
  typeDisplayName : Option String
  isExternalType : Bool
  failureReason : Option String
  deriving DecidableEq, Repr

namespace ReceiverTypeResult

def success (edgeUid receiverType : String) (typeDisplayName : Option String) (isExternalType : Bool) :
    ReceiverTypeResult where
  edgeUid := edgeUid
  receiverType := some receiverType
  origin := .compiler
  typeDisplayName := typeDisplayName
  isExternalType := isExternalType
  failureReason := none

def failed (edgeUid reason : String) : ReceiverTypeResult where
  edgeUid := edgeUid
  receiverType := none
  origin := .failed
  typeDisplayName := none
  isExternalType := false
  failureReason := some reason

end ReceiverTypeResult

structure EnrichmentMetadata where
  receiverType : Option String
  typeDisplayName : Option String
  isExternalType : Bool
  origin : ReceiverTypeOrigin
  failureReason : Option String
  deriving DecidableEq, Repr

def EnrichmentMetadata.ofResult (r : ReceiverTypeResult) : EnrichmentMetadata where
  receiverType := r.receiverType
  typeDisplayName := r.typeDisplayName
  isExternalType := r.isExternalType
  origin := r.origin
  failureReason := r.failureReason

structure PromotionCandidate where
  edgeUid : String
  snapshotUid : String
  repoUid : String
  sourceNodeUid : String
  targetKey : String
  lineStart : Option ℕ
  colStart : Option ℕ
  lineEnd : Option ℕ
  colEnd : Option ℕ
  category : UnresolvedCategory
  enrichment : EnrichmentMetadata
  deriving DecidableEq, Repr

structure EdgeLocation where
  lineStart : ℕ
  colStart : ℕ
  lineEnd : ℕ
  colEnd : ℕ
  deriving DecidableEq, Repr

structure PromotedEdge where
  edgeUid : String
  snapshotUid : String
  repoUid : String
  sourceNodeUid : String
  targetNodeUid : String
  edgeType : String
  resolution : String
  extractor : String
  location : Option EdgeLocation
  metadataJson : String
  deriving DecidableEq, Repr

inductive SymbolSubtype
  | class_
  | enum
  | method
  | getter
  | setter
  | function
  | other
  deriving DecidableEq, Repr

namespace SymbolSubtype

/-- The upper case of a character, for the characters whose upper case is of ASCII letters. -/
def upperCase (c : Char) : List Char :=
  if c.isLower then [c.toUpper]
  else
    match c with
    | 'ß' => ['S', 'S']
    | 'ı' => ['I']
    | 'ſ' => ['S']
    | 'ﬀ' => ['F', 'F']
    | 'ﬁ' => ['F', 'I']
    | 'ﬂ' => ['F', 'L']
    | 'ﬃ' => ['F', 'F', 'I']
    | 'ﬄ' => ['F', 'F', 'L']
    | 'ﬅ' => ['S', 'T']
    | 'ﬆ' => ['S', 'T']
    | c => [c]

def parse (s : String) : SymbolSubtype :=
  let upper := String.ofList (s.toList.flatMap upperCase)
  if upper = "CLASS" then class_
  else if upper = "ENUM" then enum
  else if upper = "METHOD" then method
  else if upper = "GETTER" then getter
  else if upper = "SETTER" then setter
  else if upper = "FUNCTION" then function
  else other

def isUsableReceiverType : SymbolSubtype → Bool
  | class_ | enum => true
  | _ => false

end SymbolSubtype

structure SymbolInfo where
  nodeUid : String
  stableKey : String
  qualifiedName : Option String
  subtype : SymbolSubtype
  deriving DecidableEq, Repr

end RepoGraph.Enrichment
