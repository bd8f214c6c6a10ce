import RepoGraph.Lib.IterMap
import RepoGraph.Lib.Text

/-! Data of the indexer: extracted edges, the nodes they may bind to, and the metadata carrier of an
edge, a JSON text. -/

namespace RepoGraph.Indexer

open Lib

inductive EdgeType
  | imports
  | calls
  | implements
  | instantiates
  | reads
  | writes
  | accesses
  | emits
  | consumes
  | routesTo
  | registeredBy
  | gatedBy
  | dependsOn
  | owns
  | testedBy
  | covers
  | throws
  | catches
  | transitionsTo
  deriving DecidableEq, Repr

inductive Resolution
  | static
  | dynamic
  | inferred
  deriving DecidableEq, Repr

structure SourceLocation where
  lineStart : ℤ
  colStart : ℤ
  lineEnd : ℤ
  colEnd : ℤ
  deriving DecidableEq, Repr

structure ExtractedEdge where
  edgeUid : String
  snapshotUid : String
  repoUid : String
  sourceNodeUid : String
  targetKey : String
  edgeType : EdgeType
  resolution : Resolution
  extractor : String
  location : Option SourceLocation
  metadataJson : Option String
  deriving DecidableEq, Repr

structure ResolverNode where
  nodeUid : String
  stableKey : String
  name : String
  qualifiedName : Option String
  kind : String
  subtype : Option String
  fileUid : Option String
  forwardDecl : Bool
  superclasses : List String
  deriving DecidableEq, Repr

inductive ImportKind
  | named
  | defaultImport
  | namespaceImport
  deriving DecidableEq, Repr

structure ImportBinding where
  identifier : String
  specifier : String
  importedName : Option String
  kind : ImportKind
  deriving DecidableEq, Repr

structure RustModDeclaration where
  name : String
  inlinePath : List String
  deriving DecidableEq, Repr

abbrev ImportBindingsByFile := IterMap String (List ImportBinding)

abbrev RustModDeclsByFile := IterMap String (List RustModDeclaration)

inductive UnresolvedEdgeCategory
  | importsFileNotFound
  | importsAmbiguousMatch
  | importsWildcard
  | importsAmbiguousSuffix
  | instantiatesClassNotFound
  | implementsInterfaceNotFound
  | callsThisWildcardMethodNeedsTypeInfo
  | callsThisMethodNeedsClassContext
  | callsObjMethodNeedsTypeInfo
  | callsFunctionAmbiguousOrMissing
  | other
  deriving DecidableEq, Repr

inductive TypeOnlyDisposition
  | typeOnly
  | runtime
  | unreadable
  deriving DecidableEq, Repr

/-- A JSON value; the fields of an object stand in the order of their keys. -/
inductive Json
  | null
  | bool (b : Bool)
  | number (text : String)
  | string (s : String)
  | array (items : List Json)
  | object (fields : List (String × Json))

namespace Json

abbrev Fields := List (String × Json)

def get (key : String) : Json → Option Json
  | .object fields => fields.lookup key
  | _ => none

def asStr : Json → Option String
  | .string s => some s
  | _ => none

def asArray : Json → Option (List Json)
  | .array items => some items
  | _ => none

def asObject : Json → Option Fields
  | .object fields => some fields
  | _ => none

def insert (fields : Fields) (key : String) (value : Json) : Fields :=
  match fields with
  | [] => [(key, value)]
  | (k, v) :: rest =>
    if k = key then (key, value) :: rest
    else if k < key then (k, v) :: insert rest key value
    else (key, value) :: (k, v) :: rest

def strings (l : List String) : Json := .array (l.map .string)

def asStrings (value : Json) : Option (List String) := value.asArray.bind (·.mapM asStr)

end Json

/-- What the indexer takes from libraries: the JSON reader and printer, and the Unicode classes of the
characters of identifiers. -/
structure Externals where
  fromStr : String → Option Json
  toString : Json → String
  isAlphabetic : Char → Bool
  isNumeric : Char → Bool

namespace Externals

variable (ext : Externals)

def isAlphanumeric (c : Char) : Bool := ext.isAlphabetic c || ext.isNumeric c

def parsed (metadataJson : Option String) : Option Json := metadataJson.bind ext.fromStr

/-- The extractor's keys with the resolver's keys put over them; a carrier that is no object gives none. -/
def mergeMetadata (metadataJson : Option String) (keys : List (String × Json)) : String :=
  let fields := ((ext.parsed metadataJson).bind Json.asObject).getD []
  ext.toString (.object (keys.foldl (fun fields entry => Json.insert fields entry.1 entry.2) fields))

def typeOnlyDispositionOf (metadataJson : Option String) : Option TypeOnlyDisposition :=
  metadataJson.bind fun raw =>
    match ext.fromStr raw with
    | none => some .unreadable
    | some value =>
      match value.get "isTypeOnly" with
      | none => none
      | some (.bool true) => some .typeOnly
      | some (.bool false) => some .runtime
      | some _ => some .unreadable

end Externals

def fileKey (repoUid path : String) : String := s!"{repoUid}:{path}:FILE"

def rustExtractorPrefix : String := "rust-core:"

def javaExtractorPrefix : String := "java-core:"

def pythonExtractorPrefix : String := "python-core:"

def tsExtractorPrefix : String := "ts-core:"

def cExtractorPrefix : String := "c-core:"

def cppExtractorPrefix : String := "cpp-core:"

def pythonExtractorBeforeReceiverBinding : String := "python-core:0.1.0"

def isCFamilyExtractor (extractor : String) : Bool :=
  Text.startsWith extractor cExtractorPrefix || Text.startsWith extractor cppExtractorPrefix

end RepoGraph.Indexer
