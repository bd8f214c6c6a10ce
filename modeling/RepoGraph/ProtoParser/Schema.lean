import RepoGraph.ProtoParser.RpcMethod

/-! The schema of a protobuf file, read off its syntax tree: messages within messages, their fields and enums,
and the names in full. -/

namespace RepoGraph.ProtoParser

open Lib.Text

inductive ProtoFieldLabel
  | optional
  | required
  | repeated
  deriving DecidableEq, Repr

structure ProtoField where
  name : String
  number : ℤ
  fieldType : String
  label : ProtoFieldLabel
  isMap : Bool
  mapKeyType : Option String
  mapValueType : Option String
  oneofName : Option String
  defaultValue : Option String
  options : List ProtoOption
  line : ℕ
  deriving DecidableEq, Repr

structure ProtoOneof where
  name : String
  fieldNames : List String
  deriving DecidableEq, Repr

structure ProtoEnumValue where
  name : String
  number : ℤ
  options : List ProtoOption
  line : ℕ
  deriving DecidableEq, Repr

structure ProtoEnum where
  name : String
  fullName : String
  values : List ProtoEnumValue
  options : List ProtoOption
  lineStart : ℕ
  lineEnd : ℕ
  deriving DecidableEq, Repr

structure ProtoMessage where
  name : String
  fullName : String
  fields : List ProtoField
  nestedMessages : List ProtoMessage
  nestedEnums : List ProtoEnum
  oneofs : List ProtoOneof
  options : List ProtoOption
  lineStart : ℕ
  lineEnd : ℕ

structure ProtoService where
  name : String
  fullName : String
  methods : List ProtoMethod
  options : List ProtoOption
  lineStart : ℕ
  lineEnd : ℕ
  deriving DecidableEq, Repr

structure ProtoFile where
  path : String
  package : String
  syntaxVersion : String
  imports : List String
  messages : List ProtoMessage
  enums : List ProtoEnum
  services : List ProtoService
  options : List ProtoOption

def unquote (text : String) : String := trimBy (· = Char.ofNat 39) (trimBy (· = Char.ofNat 34) text)

def qualify (parent name : String) : String := if parent = "" then name else parent ++ "." ++ name

def SyntaxNode.endRow (node : SyntaxNode) : ℕ := node.row + node.text.toList.count '\n'

section Numbers

def decimalValue (digits : List Char) : ℕ := digits.foldl (fun n c => n * 10 + (c.toNat - '0'.toNat)) 0

def splitSign : List Char → Bool × List Char
  | '-' :: digits => (true, digits)
  | '+' :: digits => (false, digits)
  | digits => (false, digits)

def parseI32 (text : String) : Option ℤ :=
  let (negative, digits) := splitSign text.toList
  if digits = [] ∨ ¬ digits.all Char.isDigit then none
  else
    let n : ℤ := if negative then -(decimalValue digits : ℤ) else decimalValue digits
    if -2 ^ 31 ≤ n ∧ n < 2 ^ 31 then some n else none

end Numbers

section Header

def extractSyntax (node : SyntaxNode) : String :=
  match node.children.find? fun child =>
      startsWith child.kind (String.singleton (Char.ofNat 34)) || child.kind = "string" with
  | some child => unquote child.text
  | none => "proto3"

def extractPackage (node : SyntaxNode) : String :=
  match node.children.find? (·.kind = "full_ident") with
  | some child => child.text
  | none => ""

def extractImport (node : SyntaxNode) : Option String :=
  (node.children.find? (·.kind = "string")).map fun child => unquote child.text

end Header

section Fields

def labelOf : String → Option ProtoFieldLabel
  | "optional" => some .optional
  | "required" => some .required
  | "repeated" => some .repeated
  | _ => none

def extractFieldOption (node : SyntaxNode) : ProtoOption :=
  let found : Option String × Option String := node.children.foldl (fun found child =>
    if child.kind ∈ ["option_name", "identifier"] then (found.1.or (some child.text), found.2)
    else if child.kind ∈ ["constant", "string", "int_lit", "bool"] then (found.1, some child.text)
    else found) (none, none)
  { name := found.1.getD "", value := found.2.getD "" }

structure FieldParts where
  name : String := ""
  number : ℤ := 0
  fieldType : String := ""
  label : ProtoFieldLabel := .optional
  options : List ProtoOption := []

def FieldParts.add (parts : FieldParts) (child : SyntaxNode) : FieldParts :=
  if child.kind ∈ ["field_name", "identifier"] then
    if parts.fieldType = "" then { parts with label := (labelOf child.text).getD parts.label }
    else if parts.name = "" then { parts with name := child.text }
    else parts
  else if child.kind ∈ ["type", "message_or_enum_type"] then { parts with fieldType := child.text }
  else if child.kind ∈ ["field_number", "int_lit"] then
    { parts with number := (parseI32 child.text).getD parts.number }
  else if child.kind = "field_options" then
    { parts with
      options := parts.options ++ (child.children.filter (·.kind = "field_option")).map extractFieldOption }
  else { parts with label := (labelOf child.text).getD parts.label }

def parseFieldText (text : String) : Option (ProtoFieldLabel × String × String × ℤ) := do
  let parts := splitWhitespace (trim text)
  if parts.length < 3 then none
  else
    let first ← parts.head?
    let (label, parts) := match labelOf first with
      | some label => (label, parts.tail)
      | none => (.optional, parts)
    let fieldType ← parts[0]?
    let name ← parts[1]?
    let parts := parts.drop 2
    let parts := if parts.head? = some "=" then parts.tail else parts
    let number ← parseI32 (trimEndBy (· = '[') (trimEndBy (· = ';') (← parts.head?)))
    return (label, fieldType, trimEndBy (· = ';') name, number)

def extractField (node : SyntaxNode) : Option ProtoField :=
  let parts := node.children.foldl FieldParts.add {}
  let parts : FieldParts :=
    if parts.name = "" ∨ parts.fieldType = "" then
      match parseFieldText node.text with
      | some (label, fieldType, name, number) =>
        { parts with
          name := if parts.name = "" then name else parts.name
          fieldType := if parts.fieldType = "" then fieldType else parts.fieldType
          number := if parts.number = 0 then number else parts.number
          label }
      | none => parts
    else parts
  if parts.name = "" ∨ parts.fieldType = "" then none
  else some { parts with
    isMap := false, mapKeyType := none, mapValueType := none, oneofName := none, defaultValue := none
    line := node.row + 1 }

structure MapParts where
  name : String := ""
  number : ℤ := 0
  keyType : String := ""
  valueType : String := ""

def MapParts.add (parts : MapParts) (child : SyntaxNode) : MapParts :=
  if child.kind = "key_type" then { parts with keyType := child.text }
  else if child.kind ∈ ["type", "message_or_enum_type"] then
    if parts.keyType = "" then { parts with keyType := child.text } else { parts with valueType := child.text }
  else if child.kind ∈ ["map_name", "identifier"] then { parts with name := child.text }
  else if child.kind ∈ ["field_number", "int_lit"] then
    { parts with number := (parseI32 child.text).getD parts.number }
  else parts

def extractMapField (node : SyntaxNode) : Option ProtoField :=
  let parts := node.children.foldl MapParts.add {}
  if parts.name = "" then none
  else some {
    name := parts.name
    number := parts.number
    fieldType := "map<" ++ parts.keyType ++ ", " ++ parts.valueType ++ ">"
    label := .repeated
    isMap := true
    mapKeyType := some parts.keyType
    mapValueType := some parts.valueType
    oneofName := none
    defaultValue := none
    options := []
    line := node.row + 1 }

def scalarKeywords : List String :=
  ["string", "int32", "int64", "uint32", "uint64", "bool", "bytes", "float", "double"]

def extractOneofFieldName (node : SyntaxNode) : Option String :=
  (node.children.find? fun child =>
    child.kind ∈ ["field_name", "identifier"] ∧ child.text ∉ scalarKeywords).map SyntaxNode.text

def firstName (kinds : List String) (children : List SyntaxNode) : String :=
  children.foldl (fun name child => if child.kind ∈ kinds ∧ name = "" then child.text else name) ""

def bodyNodes (kind : String) (children : List SyntaxNode) : List SyntaxNode :=
  (children.filter (·.kind = kind)).flatMap SyntaxNode.children

def extractOneof (node : SyntaxNode) : Option ProtoOneof :=
  let name := firstName ["oneof_name", "identifier"] node.children
  let members := (bodyNodes "oneof_body" node.children).filter (·.kind = "oneof_field")
  if name = "" then none else some { name, fieldNames := members.filterMap extractOneofFieldName }

end Fields

section Enums

structure EnumValueParts where
  name : String := ""
  number : ℤ := 0

def EnumValueParts.add (parts : EnumValueParts) (child : SyntaxNode) : EnumValueParts :=
  if child.kind = "identifier" then if parts.name = "" then { parts with name := child.text } else parts
  else if child.kind ∈ ["int_lit", "-"] then
    if child.text = "-" then parts else { parts with number := (parseI32 child.text).getD parts.number }
  else parts

def extractEnumValue (node : SyntaxNode) : Option ProtoEnumValue :=
  let parts := node.children.foldl EnumValueParts.add {}
  let parts : EnumValueParts :=
    if parts.name = "" then
      let texts := split (trim node.text) '='
      { name := ((texts[0]?).map trim).getD parts.name
        number := ((texts[1]?).bind fun text => parseI32 (trimEndBy (· = ';') (trim text))).getD parts.number }
    else parts
  if parts.name = "" then none else some { parts with options := [], line := node.row + 1 }

def extractEnum (node : SyntaxNode) (parentFullName : String) : Option ProtoEnum :=
  let name := firstName ["enum_name", "identifier"] node.children
  let body := bodyNodes "enum_body" node.children
  if name = "" then none
  else some {
    name
    fullName := qualify parentFullName name
    values := (body.filter (·.kind ∈ ["enum_field", "enum_value"])).filterMap extractEnumValue
    options := (body.filter (·.kind = "option")).filterMap extractOption
    lineStart := node.row + 1
    lineEnd := node.endRow + 1 }

end Enums

section Messages

structure MessageParts where
  name : String := ""
  fields : List ProtoField := []
  nestedMessages : List ProtoMessage := []
  nestedEnums : List ProtoEnum := []
  oneofs : List ProtoOneof := []
  options : List ProtoOption := []

def markFields (o : ProtoOneof) (fields : List ProtoField) : List ProtoField :=
  o.fieldNames.foldl (fun fields fieldName =>
    fields.map fun field =>
      if field.name = fieldName then { field with oneofName := some o.name } else field) fields

def MessageParts.addOneof (parts : MessageParts) (o : ProtoOneof) : MessageParts :=
  { parts with fields := markFields o parts.fields, oneofs := parts.oneofs ++ [o] }

mutual

def extractMessage : SyntaxNode → String → Option ProtoMessage
  | .mk kind text row children, parentFullName =>
    let parts := extractMessageParts children parentFullName {}
    if parts.name = "" then none
    else some {
      name := parts.name
      fullName := qualify parentFullName parts.name
      fields := parts.fields
      nestedMessages := parts.nestedMessages
      nestedEnums := parts.nestedEnums
      oneofs := parts.oneofs
      options := parts.options
      lineStart := row + 1
      lineEnd := (SyntaxNode.mk kind text row []).endRow + 1 }

def extractMessageParts : List SyntaxNode → String → MessageParts → MessageParts
  | [], _, parts => parts
  | .mk kind text _ children :: rest, parentFullName, parts =>
    let parts :=
      if kind ∈ ["message_name", "identifier"] then if parts.name = "" then { parts with name := text } else parts
      else if kind = "message_body" then extractMessageBody children parentFullName parts
      else parts
    extractMessageParts rest parentFullName parts

def extractMessageBody : List SyntaxNode → String → MessageParts → MessageParts
  | [], _, parts => parts
  | child :: rest, parentFullName, parts =>
    let parts : MessageParts :=
      match child.kind with
      | "field" => { parts with fields := parts.fields ++ (extractField child).toList }
      | "message" =>
        { parts with
          nestedMessages := parts.nestedMessages ++
            (extractMessage child (qualify parentFullName parts.name)).toList }
      | "enum" =>
        { parts with
          nestedEnums := parts.nestedEnums ++ (extractEnum child (qualify parentFullName parts.name)).toList }
      | "oneof" =>
        match extractOneof child with
        | some o => parts.addOneof o
        | none => parts
      | "option" => { parts with options := parts.options ++ (extractOption child).toList }
      | "map_field" => { parts with fields := parts.fields ++ (extractMapField child).toList }
      | _ => parts
    extractMessageBody rest parentFullName parts

end

end Messages

section File

structure ServiceParts where
  name : String := ""
  methods : List ProtoMethod := []
  options : List ProtoOption := []

def ServiceParts.addMember (package : String) (parts : ServiceParts)
    (child : SyntaxNode) : Except Panic ServiceParts :=
  if child.kind = "rpc" then do
    let method ← extractMethod child (qualify package parts.name)
    return { parts with methods := parts.methods ++ method.toList }
  else if child.kind = "option" then .ok { parts with options := parts.options ++ (extractOption child).toList }
  else .ok parts

def ServiceParts.add (package : String) (parts : ServiceParts) (child : SyntaxNode) : Except Panic ServiceParts :=
  if child.kind = "service_name" then
    let parts := match child.children.find? (·.kind = "identifier") with
      | some identifier => { parts with name := identifier.text }
      | none => parts
    .ok (if parts.name = "" then { parts with name := child.text } else parts)
  else if child.kind = "service_body" then child.children.foldlM (ServiceParts.addMember package) parts
  else parts.addMember package child

def extractService (node : SyntaxNode) (package : String) : Except Panic (Option ProtoService) := do
  let parts ← node.children.foldlM (ServiceParts.add package) {}
  if parts.name = "" then return none
  return some { parts with
    fullName := qualify package parts.name
    lineStart := node.row + 1
    lineEnd := node.endRow + 1 }

def ProtoFile.add (file : ProtoFile) (child : SyntaxNode) : Except Panic ProtoFile :=
  match child.kind with
  | "syntax" => .ok { file with syntaxVersion := extractSyntax child }
  | "package" => .ok { file with package := extractPackage child }
  | "import" => .ok { file with imports := file.imports ++ (extractImport child).toList }
  | "option" => .ok { file with options := file.options ++ (extractOption child).toList }
  | "message" => .ok { file with messages := file.messages ++ (extractMessage child file.package).toList }
  | "enum" => .ok { file with enums := file.enums ++ (extractEnum child file.package).toList }
  | "service" => do
    let service ← extractService child file.package
    return { file with services := file.services ++ service.toList }
  | _ => .ok file

def extractProtoFile (path : String) (root : SyntaxNode) : Except Panic ProtoFile :=
  root.children.foldlM ProtoFile.add {
    path, package := "", syntaxVersion := "proto3", imports := [], messages := [], enums := [], services := []
    options := [] }

end File

end RepoGraph.ProtoParser
