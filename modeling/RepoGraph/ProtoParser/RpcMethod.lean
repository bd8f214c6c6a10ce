import RepoGraph.Lib.Search

/-! The methods of a protobuf service, read off the nodes of a syntax tree, with the text of the declaration as
the fallback. A node is given with the text it covers. -/

namespace RepoGraph.ProtoParser

open Lib.Text

inductive SyntaxNode
  | mk (kind text : String) (row : ℕ) (children : List SyntaxNode)

namespace SyntaxNode

def kind : SyntaxNode → String
  | mk kind _ _ _ => kind

def text : SyntaxNode → String
  | mk _ text _ _ => text

def row : SyntaxNode → ℕ
  | mk _ _ row _ => row

def children : SyntaxNode → List SyntaxNode
  | mk _ _ _ children => children

end SyntaxNode

structure ProtoOption where
  name : String
  value : String
  deriving DecidableEq, Repr

structure ProtoMethod where
  name : String
  fullName : String
  inputType : String
  outputType : String
  clientStreaming : Bool
  serverStreaming : Bool
  options : List ProtoOption
  line : ℕ
  deriving DecidableEq, Repr

inductive Panic
  | sliceOutOfRange
  deriving DecidableEq, Repr

def sliceOf (text : String) (lo hi : ℕ) : Except Panic String :=
  match slice text lo hi with
  | some piece => .ok piece
  | none => .error .sliceOutOfRange

def extractOption (node : SyntaxNode) : Option ProtoOption :=
  let found : Option String × Option String := node.children.foldl (fun found child =>
    if child.kind ∈ ["option_name", "full_ident", "identifier"] then (found.1.or (some child.text), found.2)
    else if child.kind ∈ ["constant", "string", "int_lit", "bool"] then
      (found.1, some (trimBy (· = Char.ofNat 39) (trimBy (· = Char.ofNat 34) child.text)))
    else found) (none, none)
  found.1.map fun name => { name, value := found.2.getD "" }

def streamingFlags (text : String) : Bool × Bool :=
  if containsStr text "stream" then
    let parts := splitStr text "returns"
    (parts[0]?.any (containsStr · "stream"), parts[1]?.any (containsStr · "stream"))
  else (false, false)

structure MethodParts where
  name : String := ""
  inputType : String := ""
  outputType : String := ""
  options : List ProtoOption := []

def isNameNode (node : SyntaxNode) : Bool := ["rpc_name", "identifier"].contains node.kind

def isTypeNode (node : SyntaxNode) : Bool := ["message_type", "message_or_enum_type", "type"].contains node.kind

def MethodParts.add (parts : MethodParts) (child : SyntaxNode) : MethodParts :=
  if isNameNode child then if parts.name = "" then { parts with name := child.text } else parts
  else if isTypeNode child then
    if parts.inputType = "" then { parts with inputType := child.text }
    else if parts.outputType = "" then { parts with outputType := child.text }
    else parts
  else if child.kind = "rpc_body" then
    { parts with
      options := parts.options ++
        (child.children.filter fun node => node.kind = "option").filterMap extractOption }
  else parts

structure RpcHeader where
  name : String
  inputType : String
  outputType : String
  clientStreaming : Bool
  serverStreaming : Bool
  deriving DecidableEq, Repr

def streamedType (text : String) : Bool × String :=
  if startsWith text "stream" then (true, trim (trimStart text "stream")) else (false, text)

def parseHeader (text : String) : Except Panic (Option RpcHeader) :=
  match findChar text '(' with
  | none => .ok none
  | some nameEnd => do
    let name := trim (← sliceOf text 0 nameEnd)
    let inputStart := nameEnd + 1
    match findChar text ')' with
    | none => .ok none
    | some inputEnd =>
      let (clientStreaming, inputType) := streamedType (trim (← sliceOf text inputStart inputEnd))
      match findStr text "returns" with
      | none => .ok none
      | some returnsIdx =>
        match findChar (← sliceOf text returnsIdx text.utf8ByteSize) '(' with
        | none => .ok none
        | some opened =>
          let outputStart := opened + returnsIdx + 1
          match findChar (← sliceOf text outputStart text.utf8ByteSize) ')' with
          | none => .ok none
          | some closed =>
            let outputEnd := closed + outputStart
            let (serverStreaming, outputType) := streamedType (trim (← sliceOf text outputStart outputEnd))
            return some { name, inputType, outputType, clientStreaming, serverStreaming }

def parseRpcText (text : String) : Except Panic (Option RpcHeader) :=
  let text := trim text
  if !startsWith text "rpc" then .ok none else parseHeader (trim (trimStart text "rpc"))

def extractMethod (node : SyntaxNode) (serviceFullName : String) : Except Panic (Option ProtoMethod) := do
  let parts := node.children.foldl MethodParts.add {}
  let flags := streamingFlags node.text
  let read : RpcHeader := { parts with clientStreaming := flags.1, serverStreaming := flags.2 }
  let header ←
    if read.name = "" ∨ read.inputType = "" ∨ read.outputType = "" then do
      match ← parseRpcText node.text with
      | none => pure read
      | some parsed =>
        pure { parsed with
          name := if read.name = "" then parsed.name else read.name
          inputType := if read.inputType = "" then parsed.inputType else read.inputType
          outputType := if read.outputType = "" then parsed.outputType else read.outputType }
    else pure read
  if header.name = "" then return none
  return some { header with
    fullName := s!"{serviceFullName}.{header.name}"
    options := parts.options
    line := node.row + 1 }

end RepoGraph.ProtoParser
