import RepoGraph.ProtoParser.Schema

/-! What a protobuf file declares, and the syntax trees that are made of the declared nodes, with any others
between them. -/

namespace RepoGraph.ProtoParser

open Lib.Text

abbrev Ident := { name : String // name ≠ "" }

section Numerals

structure HexDigit where
  value : Fin 16
  capital : Bool
  deriving DecidableEq, Repr

def digitChar (d : ℕ) : Char := Char.ofNat ('0'.toNat + d)

def HexDigit.char (d : HexDigit) : Char :=
  if d.value.val < 10 then digitChar d.value
  else Char.ofNat ((if d.capital then 'A'.toNat else 'a'.toNat) + d.value - 10)

instance ten_neZero : NeZero 10 := ⟨by decide⟩

inductive IntLit
  | decimal (lead : Fin 10) (digits : List (Fin 10)) (h : lead ≠ 0)
  | octal (digits : List (Fin 8))
  | hex (mark : Bool) (digits : List HexDigit)
  deriving DecidableEq, Repr

def IntLit.text : IntLit → String
  | .decimal lead digits _ => .ofList ((lead :: digits).map fun d => digitChar d.val)
  | .octal digits => .ofList ('0' :: digits.map fun d => digitChar d.val)
  | .hex mark digits => .ofList ('0' :: (if mark then 'X' else 'x') :: digits.map HexDigit.char)

def numeral (base : ℕ) (digits : List ℕ) : ℕ := digits.foldl (fun n d => n * base + d) 0

def IntLit.value : IntLit → ℕ
  | .decimal lead digits _ => numeral 10 ((lead :: digits).map (·.val))
  | .octal digits => numeral 8 (digits.map (·.val))
  | .hex _ digits => numeral 16 (digits.map (·.value.val))

end Numerals

section Decls

structure EnumValueDecl where
  name : Ident
  negative : Bool
  literal : IntLit

def EnumValueDecl.number (v : EnumValueDecl) : ℤ := if v.negative then -(v.literal.value : ℤ) else v.literal.value

structure EnumDecl where
  name : Ident
  values : List EnumValueDecl

structure OneofDecl where
  name : Ident
  members : List Ident

inductive Body
  | nil
  | field (name : Ident) (rest : Body)
  | enum (e : EnumDecl) (rest : Body)
  | oneof (o : OneofDecl) (rest : Body)
  | message (name : Ident) (body rest : Body)

inductive TopDecl
  | package (name : String)
  | message (name : Ident) (body : Body)
  | enum (e : EnumDecl)
  | service

def Body.enums : Body → List EnumDecl
  | .nil => []
  | .enum e rest => e :: rest.enums
  | .field _ rest | .oneof _ rest | .message _ _ rest => rest.enums

inductive Item
  | field (name : String)
  | oneof (o : OneofDecl)

def Body.items : Body → List Item
  | .nil => []
  | .field name rest => .field name :: rest.items
  | .oneof o rest => .oneof o :: rest.items
  | .enum _ rest | .message _ _ rest => rest.items

end Decls

section Nodes

def typeKinds : List String := ["type", "message_or_enum_type"]

def fieldNameKinds : List String := ["field_name", "identifier"]

structure FieldNode (node : SyntaxNode) (name : Ident) : Prop where
  kind : node.kind = "field"
  children : ∃ typeNode nameNode,
    node.children.filter (·.kind ∈ fieldNameKinds ++ typeKinds) = [typeNode, nameNode] ∧
      typeNode.kind ∈ typeKinds ∧ typeNode.text ≠ "" ∧ nameNode.kind ∈ fieldNameKinds ∧ nameNode.text = name

structure MapFieldNode (node : SyntaxNode) (name : Ident) : Prop where
  kind : node.kind = "map_field"
  name : (node.children.filter (·.kind ∈ ["map_name", "identifier"])).map SyntaxNode.text = [name.val]

structure EnumValueNode (node : SyntaxNode) (v : EnumValueDecl) : Prop where
  kind : node.kind ∈ ["enum_field", "enum_value"]
  children : (node.children.filter (·.kind ∈ ["identifier", "int_lit", "-"])).map (fun n => (n.kind, n.text)) =
    ("identifier", v.name.val) :: (if v.negative then [("-", "-")] else []) ++ [("int_lit", v.literal.text)]

structure EnumNode (node : SyntaxNode) (e : EnumDecl) : Prop where
  kind : node.kind = "enum"
  name : (node.children.filter (·.kind ∈ ["enum_name", "identifier"])).map SyntaxNode.text = [e.name.val]
  values : List.Forall₂ EnumValueNode
    ((bodyNodes "enum_body" node.children).filter (·.kind ∈ ["enum_field", "enum_value"])) e.values

structure OneofFieldNode (node : SyntaxNode) (member : Ident) : Prop where
  kind : node.kind = "oneof_field"
  name : (node.children.filter (·.kind ∈ fieldNameKinds)).map SyntaxNode.text = [member.val]

structure OneofNode (node : SyntaxNode) (o : OneofDecl) : Prop where
  kind : node.kind = "oneof"
  name : (node.children.filter (·.kind ∈ ["oneof_name", "identifier"])).map SyntaxNode.text = [o.name.val]
  members : List.Forall₂ OneofFieldNode
    ((bodyNodes "oneof_body" node.children).filter (·.kind = "oneof_field")) o.members

structure MessageNode (node : SyntaxNode) (name : Ident) (inner : List SyntaxNode) : Prop where
  kind : node.kind = "message"
  children : ∃ nameNode bodyNode,
    node.children.filter (·.kind ∈ ["message_name", "identifier", "message_body"]) = [nameNode, bodyNode] ∧
      nameNode.kind ∈ ["message_name", "identifier"] ∧ nameNode.text = name ∧
      bodyNode.kind = "message_body" ∧ bodyNode.children = inner

def memberKinds : List String := ["field", "map_field", "enum", "oneof", "message"]

inductive BodyNodes : List SyntaxNode → Body → Prop
  | nil : BodyNodes [] .nil
  | skip {node nodes body} (hkind : node.kind ∉ memberKinds) (rest : BodyNodes nodes body) :
      BodyNodes (node :: nodes) body
  | field {node nodes name body} (h : FieldNode node name) (rest : BodyNodes nodes body) :
      BodyNodes (node :: nodes) (.field name body)
  | mapField {node nodes name body} (h : MapFieldNode node name) (rest : BodyNodes nodes body) :
      BodyNodes (node :: nodes) (.field name body)
  | enum {node nodes e body} (h : EnumNode node e) (rest : BodyNodes nodes body) :
      BodyNodes (node :: nodes) (.enum e body)
  | oneof {node nodes o body} (h : OneofNode node o) (rest : BodyNodes nodes body) :
      BodyNodes (node :: nodes) (.oneof o body)
  | message {node nodes name inner body more} (h : MessageNode node name inner) (hinner : BodyNodes inner body)
      (rest : BodyNodes nodes more) : BodyNodes (node :: nodes) (.message name body more)

structure RpcNode (node : SyntaxNode) : Prop where
  name : ∃ name ≠ "", ∃ more, (node.children.filter isNameNode).map SyntaxNode.text = name :: more
  types : ∃ input ≠ "", ∃ output ≠ "", ∃ more,
    (node.children.filter isTypeNode).map SyntaxNode.text = input :: output :: more

structure ServiceNode (node : SyntaxNode) : Prop where
  kind : node.kind = "service"
  rpcs : ∀ rpc ∈ node.children ++ bodyNodes "service_body" node.children, rpc.kind = "rpc" → RpcNode rpc

def topKinds : List String := ["package", "message", "enum", "service"]

inductive FileNodes : List SyntaxNode → List TopDecl → Prop
  | nil : FileNodes [] []
  | skip {node nodes decls} (hkind : node.kind ∉ topKinds) (rest : FileNodes nodes decls) :
      FileNodes (node :: nodes) decls
  | package {node nodes name decls} (hkind : node.kind = "package")
      (hname : (node.children.filter (·.kind = "full_ident")).map SyntaxNode.text = [name])
      (rest : FileNodes nodes decls) : FileNodes (node :: nodes) (.package name :: decls)
  | message {node nodes name inner body decls} (h : MessageNode node name inner) (hinner : BodyNodes inner body)
      (rest : FileNodes nodes decls) : FileNodes (node :: nodes) (.message name body :: decls)
  | enum {node nodes e decls} (h : EnumNode node e) (rest : FileNodes nodes decls) :
      FileNodes (node :: nodes) (.enum e :: decls)
  | service {node nodes decls} (h : ServiceNode node) (rest : FileNodes nodes decls) :
      FileNodes (node :: nodes) (.service :: decls)

end Nodes

end RepoGraph.ProtoParser
