import RepoGraph.ProtoParser.SchemaNodes

/-! A file as it is declared and as it is read. Both name what they find in a scope and descend into messages; they
part where a message stands before the package, a number has a sign, or a oneof has members of its own. -/

namespace RepoGraph.ProtoParser

open Lib Lib.Text

structure Reading (S : Type) where
  fullName : S → String → String
  enter : S → String → S
  number : EnumValueDecl → ℤ
  fields : Body → List ProtoField → Prop

section Readings

variable {S : Type} (r : Reading S)

def Reading.Enum (s : S) (e : EnumDecl) (out : ProtoEnum) : Prop :=
  out.name = e.name ∧ out.fullName = r.fullName s e.name ∧
    List.Forall₂ (fun v w => w.name = v.name.val ∧ w.number = r.number v) e.values out.values

def Reading.Messages : S → Body → List ProtoMessage → Prop
  | _, .nil, ms => ms = []
  | s, .field _ rest, ms | s, .enum _ rest, ms | s, .oneof _ rest, ms => Reading.Messages s rest ms
  | s, .message name body rest, ms => ∃ m more, ms = m :: more ∧
      (m.name = name ∧ m.fullName = r.fullName s name ∧
        Reading.Messages (r.enter s name) body m.nestedMessages ∧
        List.Forall₂ (r.Enum (r.enter s name)) body.enums m.nestedEnums ∧ r.fields body m.fields) ∧
      Reading.Messages s rest more

def Reading.Message (s : S) (name : Ident) (body : Body) (m : ProtoMessage) : Prop :=
  m.name = name ∧ m.fullName = r.fullName s name ∧ r.Messages (r.enter s name) body m.nestedMessages ∧
    List.Forall₂ (r.Enum (r.enter s name)) body.enums m.nestedEnums ∧ r.fields body m.fields

end Readings

section Declared

def MembersAreFields (body : Body) (fields : List ProtoField) : Prop :=
  ∀ o, Item.oneof o ∈ body.items → ∀ member ∈ o.members, ∃ f ∈ fields, f.name = member ∧
    f.oneofName = some o.name.val

def declared : Reading (List String) where
  fullName scope name := join "." (scope ++ [name])
  enter scope name := scope ++ [name]
  number := EnumValueDecl.number
  fields := MembersAreFields

end Declared

section AsRead

def addMarks (out : List (String × Option String)) : Item → List (String × Option String)
  | .field name => out ++ [(name, none)]
  | .oneof o => out.map (markOf o.name o.listed)

def asRead : Reading String where
  fullName := qualify
  enter := qualify
  number := EnumValueDecl.read
  fields body fields := fields.map mark = body.items.foldl addMarks []

structure BodyRead (parent : String) (body : Body) (parts out : MessageParts) : Prop where
  name : out.name = parts.name
  messages : ∃ ms, out.nestedMessages = parts.nestedMessages ++ ms ∧
    asRead.Messages (qualify parent parts.name) body ms
  enums : ∃ es, out.nestedEnums = parts.nestedEnums ++ es ∧
    List.Forall₂ (asRead.Enum (qualify parent parts.name)) body.enums es
  fields : out.fields.map mark = body.items.foldl addMarks (parts.fields.map mark)

variable {node : SyntaxNode} {nodes inner : List SyntaxNode} {name : Ident} {body : Body} {parent : String}
  {parts : MessageParts}

lemma extractMessageParts_filter (children : List SyntaxNode) (parent : String) (parts : MessageParts) :
    extractMessageParts children parent parts = extractMessageParts
      (children.filter (·.kind ∈ ["message_name", "identifier", "message_body"])) parent parts := by
  induction children generalizing parts with
  | nil => rfl
  | cons child children ih =>
    obtain ⟨kind, text, row, inner⟩ := child
    by_cases hkind : kind ∈ ["message_name", "identifier", "message_body"]
    · rw [List.filter_cons_of_pos (by simpa [SyntaxNode.kind] using hkind),
        extractMessageParts, extractMessageParts]
      exact ih _
    · rw [List.filter_cons_of_neg (by simpa [SyntaxNode.kind] using hkind), extractMessageParts]
      simp only [List.mem_cons, List.not_mem_nil, or_false, not_or] at hkind
      rw [if_neg (by simp [hkind]), if_neg hkind.2.2]
      exact ih parts

lemma extractMessage_read (h : MessageNode node name inner)
    (hbody : ∀ parent parts, BodyRead parent body parts (extractMessageBody inner parent parts))
    (parent : String) :
    ∃ m, extractMessage node parent = some m ∧ asRead.Message parent name body m := by
  obtain ⟨nameNode, bodyNode, hchildren, hname, htext, hkind, hinner⟩ := h.children
  have hparts : extractMessageParts node.children parent {} =
      extractMessageBody inner parent { name := name.val } := by
    rw [extractMessageParts_filter, hchildren]
    obtain ⟨kind, text, row, children⟩ := nameNode
    obtain ⟨kind', text', row', children'⟩ := bodyNode
    simp only [SyntaxNode.kind, SyntaxNode.text, SyntaxNode.children] at hname htext hkind hinner
    subst htext hkind hinner
    rw [extractMessageParts, if_pos hname, extractMessageParts, extractMessageParts]
    simp
  have hread := hbody parent { name := name.val }
  rw [← hparts] at hread
  obtain ⟨ms, hms, hmessages⟩ := hread.messages
  obtain ⟨es, hes, henums⟩ := hread.enums
  obtain ⟨kind, text, row, children⟩ := node
  unfold extractMessage
  rw [SyntaxNode.children] at hread hms hes
  have hfound : (extractMessageParts children parent {}).name = name := hread.name
  simp only [hfound, name.property, if_false, hms, hes, List.nil_append]
  exact ⟨_, rfl, rfl, rfl, hmessages, henums, hread.fields⟩

lemma extractMessageBody_skip (h : node.kind ∉ memberKinds) : ∃ options,
    extractMessageBody (node :: nodes) parent parts = extractMessageBody nodes parent { parts with options } := by
  simp only [memberKinds, List.mem_cons, List.not_mem_nil, or_false, not_or] at h
  obtain ⟨hfield, hmap, henum, honeof, hmessage⟩ := h
  rw [extractMessageBody]
  split
  · contradiction
  · contradiction
  · contradiction
  · contradiction
  · exact ⟨_, rfl⟩
  · contradiction
  · exact ⟨parts.options, rfl⟩

lemma bodyRead_field {f : ProtoField} {rest : Body} (hname : f.name = name.val) (hnone : f.oneofName = none)
    (h : ∀ parts, BodyRead parent rest parts (extractMessageBody nodes parent parts)) :
    BodyRead parent (.field name rest) parts
      (extractMessageBody nodes parent { parts with fields := parts.fields ++ [f] }) := by
  obtain ⟨hsame, hmessages, henums, hfields⟩ := h { parts with fields := parts.fields ++ [f] }
  refine ⟨hsame, hmessages, henums, ?_⟩
  rw [hfields, List.map_append, Body.items, List.foldl_cons, List.map_singleton, mark, hname, hnone]
  rfl

lemma extractMessageBody_read (h : BodyNodes nodes body) (parent : String) (parts : MessageParts) :
    BodyRead parent body parts (extractMessageBody nodes parent parts) := by
  induction h generalizing parent parts with
  | nil => exact ⟨rfl, ⟨[], (List.append_nil _).symm, rfl⟩, ⟨[], (List.append_nil _).symm, .nil⟩, rfl⟩
  | skip hkind _ ih =>
    obtain ⟨options, hskip⟩ := extractMessageBody_skip hkind
    rw [hskip]
    obtain ⟨hname, hmessages, henums, hfields⟩ := ih parent { parts with options }
    exact ⟨hname, hmessages, henums, hfields⟩
  | field hnode _ ih =>
    obtain ⟨f, hf, hname, hnone⟩ := extractField_eq hnode
    rw [extractMessageBody, hnode.kind, hf]
    exact bodyRead_field hname hnone (ih parent)
  | mapField hnode _ ih =>
    obtain ⟨f, hf, hname, hnone⟩ := extractMapField_eq hnode
    rw [extractMessageBody, hnode.kind, hf]
    exact bodyRead_field hname hnone (ih parent)
  | enum hnode _ ih =>
    obtain ⟨out, hout, hread⟩ := extractEnum_eq hnode (qualify parent parts.name)
    rw [extractMessageBody, hnode.kind, hout]
    obtain ⟨hname, hmessages, ⟨es, hes, henums⟩, hfields⟩ :=
      ih parent { parts with nestedEnums := parts.nestedEnums ++ [out] }
    exact ⟨hname, hmessages, ⟨out :: es, hes.trans (List.append_assoc ..), .cons hread henums⟩, hfields⟩
  | @oneof _ _ o _ hnode _ ih =>
    rw [extractMessageBody, hnode.kind, extractOneof_eq hnode]
    obtain ⟨hname, hmessages, henums, hfields⟩ := ih parent (parts.addOneof ⟨o.name, o.listed⟩)
    refine ⟨hname, hmessages, henums, hfields.trans ?_⟩
    rw [MessageParts.addOneof, map_mark_markFields]
    rfl
  | @message _ _ name _ body _ hnode _ _ ihbody ih =>
    obtain ⟨m, hm, hread⟩ := extractMessage_read hnode ihbody (qualify parent parts.name)
    rw [extractMessageBody, hnode.kind, hm]
    obtain ⟨hname, ⟨ms, hms, hmessages⟩, henums, hfields⟩ :=
      ih parent { parts with nestedMessages := parts.nestedMessages ++ [m] }
    exact ⟨hname, ⟨m :: ms, hms.trans (List.append_assoc ..), ⟨m, ms, rfl, hread, hmessages⟩⟩, henums, hfields⟩

end AsRead

end RepoGraph.ProtoParser
