import RepoGraph.Lib.Folds
import RepoGraph.ProtoParser.RpcStreaming
import RepoGraph.ProtoParser.SchemaDecls

/-! What is read off each kind of node: the names as they are declared, the numbers without their signs, and of the
members of a oneof their names alone. -/

namespace RepoGraph.ProtoParser

open Lib Lib.Text

section Names

variable {kinds : List String} {children : List SyntaxNode} {name : String}

lemma firstName_eq (h : (children.filter (·.kind ∈ kinds)).map SyntaxNode.text = [name]) :
    firstName kinds children = name := by
  have hread := @foldl_filter_key SyntaxNode String String
    (fun name child => if child.kind ∈ kinds ∧ name = "" then child.text else name)
    (fun name child => if name = "" then child.text else name) id (·.kind ∈ kinds)
    (fun s a ha => by simp [of_decide_eq_false ha]) (fun s a ha => by simp [of_decide_eq_true ha]) children ""
  obtain ⟨node, hnode, htext⟩ := List.map_eq_singleton_iff.mp h
  rw [id_eq, hnode] at hread
  rw [firstName, hread]
  exact htext

end Names

section Fields

variable {node : SyntaxNode} {name : Ident}

def FieldParts.key (parts : FieldParts) : String × String := (parts.name, parts.fieldType)

lemma FieldParts.key_add (parts : FieldParts) (child : SyntaxNode) : (parts.add child).key =
    (if child.kind ∈ fieldNameKinds ∧ parts.fieldType ≠ "" ∧ parts.name = "" then child.text else parts.name,
      if child.kind ∈ fieldNameKinds then parts.fieldType
      else if child.kind ∈ typeKinds then child.text else parts.fieldType) := by
  unfold FieldParts.add FieldParts.key fieldNameKinds typeKinds
  by_cases hname : child.kind ∈ ["field_name", "identifier"]
  · by_cases htype : parts.fieldType = ""
    · simp [hname, htype]
    · by_cases hempty : parts.name = "" <;> simp [hname, htype, hempty]
  · by_cases htype : child.kind ∈ ["type", "message_or_enum_type"]
    · simp only [hname, htype, if_true, if_false, false_and]
    · simp only [hname, htype, if_false, false_and]
      split
      · rfl
      · split <;> rfl

lemma extractField_eq (h : FieldNode node name) :
    ∃ f, extractField node = some f ∧ f.name = name ∧ f.oneofName = none := by
  obtain ⟨typeNode, nameNode, hchildren, htype, htext, hkind, hname⟩ := h.children
  have hread := @foldl_filter_key SyntaxNode FieldParts (String × String) FieldParts.add
    (fun key child => (if child.kind ∈ fieldNameKinds ∧ key.2 ≠ "" ∧ key.1 = "" then child.text else key.1,
      if child.kind ∈ fieldNameKinds then key.2 else if child.kind ∈ typeKinds then child.text else key.2))
    FieldParts.key (·.kind ∈ fieldNameKinds ++ typeKinds)
    (fun parts child hskip => by
      have hnot := of_decide_eq_false hskip
      rw [List.mem_append, not_or] at hnot
      simp only [FieldParts.key_add, hnot.1, hnot.2, false_and, if_false]
      rfl)
    (fun parts child _ => parts.key_add child) node.children {}
  have htypeOnly : typeNode.kind ∉ fieldNameKinds := by
    intro hin
    simp only [typeKinds, fieldNameKinds, List.mem_cons, List.not_mem_nil, or_false] at htype hin
    rcases htype with h | h <;> rw [h] at hin <;> simp at hin
  have hkey : (node.children.foldl FieldParts.add {}).key = (name.val, typeNode.text) := by
    rw [hread, hchildren]
    simp [FieldParts.key, htypeOnly, htype, htext, hkind, hname]
  have hfound : (node.children.foldl FieldParts.add {}).name = name := congrArg Prod.fst hkey
  have hfoundType : (node.children.foldl FieldParts.add {}).fieldType = typeNode.text := congrArg Prod.snd hkey
  unfold extractField
  simp only [hfound, hfoundType, name.property, htext, or_self, if_false]
  exact ⟨_, rfl, rfl, rfl⟩

lemma MapParts.name_add (parts : MapParts) (child : SyntaxNode) : (parts.add child).name =
    if child.kind ∈ ["map_name", "identifier"] then child.text else parts.name := by
  unfold MapParts.add
  by_cases hname : child.kind ∈ ["map_name", "identifier"]
  · have hkey : child.kind ≠ "key_type" := by
      rintro hkey
      rw [hkey] at hname
      simp at hname
    have htype : child.kind ∉ ["type", "message_or_enum_type"] := by
      intro htype
      simp only [List.mem_cons, List.not_mem_nil, or_false] at htype hname
      rcases htype with h | h <;> rw [h] at hname <;> simp at hname
    rw [if_neg hkey, if_neg htype, if_pos hname, if_pos hname]
  · rw [if_neg hname, if_neg hname]
    split
    · rfl
    · split
      · split <;> rfl
      · split <;> rfl

lemma extractMapField_eq (h : MapFieldNode node name) :
    ∃ f, extractMapField node = some f ∧ f.name = name ∧ f.oneofName = none := by
  have hread := @foldl_filter_key SyntaxNode MapParts String MapParts.add (fun _ child => child.text) MapParts.name
    (·.kind ∈ ["map_name", "identifier"])
    (fun parts child hskip => by rw [MapParts.name_add, if_neg (of_decide_eq_false hskip)])
    (fun parts child htouch => by rw [MapParts.name_add, if_pos (of_decide_eq_true htouch)]) node.children {}
  obtain ⟨nameNode, hchildren, hname⟩ := List.map_eq_singleton_iff.mp h.name
  rw [hchildren, List.foldl_cons, List.foldl_nil, hname] at hread
  unfold extractMapField
  simp only [hread, name.property, if_false]
  exact ⟨_, rfl, rfl, rfl⟩

end Fields

section Oneofs

variable {node : SyntaxNode}

def OneofDecl.listed (o : OneofDecl) : List String := (o.members.map (·.val)).filter (· ∉ scalarKeywords)

lemma extractOneofFieldName_eq {member : Ident} (h : OneofFieldNode node member) :
    extractOneofFieldName node = if member.val ∈ scalarKeywords then none else some member.val := by
  obtain ⟨nameNode, hchildren, hname⟩ := List.map_eq_singleton_iff.mp h.name
  have hfind : node.children.find? (fun child =>
      decide (child.kind ∈ ["field_name", "identifier"] ∧ child.text ∉ scalarKeywords)) =
        (node.children.filter (·.kind ∈ fieldNameKinds)).find? (·.text ∉ scalarKeywords) := by
    rw [List.find?_filter]
    congr 1
    funext child
    simp [fieldNameKinds]
  rw [extractOneofFieldName, hfind, hchildren]
  by_cases hmember : member.val ∈ scalarKeywords
  · simp [hname, hmember]
  · simp [hname, hmember]

lemma filterMap_members {nodes : List SyntaxNode} {members : List Ident}
    (h : List.Forall₂ OneofFieldNode nodes members) :
    nodes.filterMap extractOneofFieldName = (members.map (·.val)).filter (· ∉ scalarKeywords) := by
  induction h with
  | nil => rfl
  | @cons _ member _ _ hmember _ ih =>
    rw [List.filterMap_cons, extractOneofFieldName_eq hmember, ih, List.map_cons, List.filter_cons]
    by_cases hkeyword : member.val ∈ scalarKeywords
    · simp [hkeyword]
    · simp [hkeyword]

lemma extractOneof_eq {o : OneofDecl} (h : OneofNode node o) : extractOneof node = some ⟨o.name, o.listed⟩ := by
  unfold extractOneof
  simp only [firstName_eq h.name, o.name.property, if_false, filterMap_members h.members]
  rfl

def mark (f : ProtoField) : String × Option String := (f.name, f.oneofName)

def markOf (oneofName : String) (listed : List String) (m : String × Option String) : String × Option String :=
  if m.1 ∈ listed then (m.1, some oneofName) else m

lemma markOf_markOf (oneofName fieldName : String) (names : List String) (m : String × Option String) :
    markOf oneofName names (markOf oneofName [fieldName] m) = markOf oneofName (fieldName :: names) m := by
  unfold markOf
  by_cases hf : m.1 = fieldName
  · simp [hf]
  · simp [hf]

lemma map_mark_markFields (o : ProtoOneof) (fields : List ProtoField) :
    (markFields o fields).map mark = (fields.map mark).map (markOf o.name o.fieldNames) := by
  unfold markFields
  generalize o.fieldNames = names
  induction names generalizing fields with
  | nil => simp [markOf]
  | cons fieldName names ih =>
    rw [List.foldl_cons, ih, List.map_map, List.map_map, List.map_map]
    apply List.map_congr_left
    intro f _
    have hone : mark (if f.name = fieldName then { f with oneofName := some o.name } else f) =
        markOf o.name [fieldName] (mark f) := by
      by_cases hf : f.name = fieldName
      · simp [mark, markOf, hf]
      · simp [mark, markOf, hf]
    exact (congrArg (markOf o.name names) hone).trans (markOf_markOf o.name fieldName names (mark f))

end Oneofs

section Numbers

variable {v : EnumValueDecl}

lemma digitChar_spec : ∀ d < 10, (digitChar d).isDigit = true ∧ (digitChar d).toNat - '0'.toNat = d := by decide

lemma decimalValue_digits {digits : List ℕ} (h : ∀ d ∈ digits, d < 10) :
    decimalValue (digits.map digitChar) = numeral 10 digits := by
  unfold decimalValue numeral
  generalize 0 = start
  induction digits generalizing start with
  | nil => rfl
  | cons d digits ih =>
    obtain ⟨hd, hdigits⟩ := List.forall_mem_cons.mp h
    rw [List.map_cons, List.foldl_cons, List.foldl_cons, (digitChar_spec d hd).2, ih hdigits]

lemma parseI32_of_head {c : Char} {cs : List Char} (hc : c.isDigit) : parseI32 (.ofList (c :: cs)) =
    if ¬ cs.all Char.isDigit then none
    else if (decimalValue (c :: cs) : ℤ) < 2 ^ 31 then some (decimalValue (c :: cs) : ℤ) else none := by
  have hminus : c ≠ '-' := by
    rintro rfl
    exact absurd hc (by decide)
  have hplus : c ≠ '+' := by
    rintro rfl
    exact absurd hc (by decide)
  have hsign : splitSign (c :: cs) = (false, c :: cs) := by
    unfold splitSign
    split
    · rename_i heq
      exact absurd (List.cons.inj heq).1 hminus
    · rename_i heq
      exact absurd (List.cons.inj heq).1 hplus
    · rfl
  have hlow : -2 ^ 31 ≤ (decimalValue (c :: cs) : ℤ) := by omega
  unfold parseI32
  rw [String.toList_ofList, hsign]
  simp only [reduceCtorEq, false_or, List.all_cons, hc, Bool.true_and, Bool.false_eq_true,
    if_false, hlow, true_and]

lemma parseI32_digits {d : ℕ} {digits : List ℕ} (h : ∀ e ∈ d :: digits, e < 10) :
    parseI32 (.ofList ((d :: digits).map digitChar)) =
      if numeral 10 (d :: digits) < 2 ^ 31 then some (numeral 10 (d :: digits) : ℤ) else none := by
  have hall : (digits.map digitChar).all Char.isDigit = true := by
    rw [List.all_map, List.all_eq_true]
    intro e he
    exact (digitChar_spec e (h e (List.mem_cons_of_mem _ he))).1
  have hvalue := decimalValue_digits h
  rw [List.map_cons] at hvalue ⊢
  rw [parseI32_of_head (digitChar_spec d (h d List.mem_cons_self)).1, hall, hvalue]
  simp only [not_true_eq_false, if_false]
  exact if_congr (by norm_cast) rfl rfl

lemma numeral_append (base : ℕ) (digits : List ℕ) (d : ℕ) :
    numeral base (digits ++ [d]) = numeral base digits * base + d := by
  rw [numeral, List.foldl_append]
  rfl

lemma numeral_octal {digits : List ℕ} (h : ∀ d ∈ digits, d < 8) :
    (numeral 8 digits < 8 → numeral 10 digits = numeral 8 digits) ∧
      (8 ≤ numeral 8 digits → numeral 8 digits < numeral 10 digits) := by
  induction digits using List.reverseRecOn with
  | nil => exact ⟨fun _ => rfl, fun h => absurd h (by decide)⟩
  | append_singleton digits d ih =>
    obtain ⟨hsmall, hlarge⟩ := ih fun e he => h e (List.mem_append_left _ he)
    have hd := h d (by simp)
    rw [numeral_append, numeral_append]
    constructor
    · intro hlt
      have hzero : numeral 8 digits = 0 := by omega
      rw [hsmall (by omega), hzero]
    · intro hge
      rcases Nat.lt_or_ge (numeral 8 digits) 8 with hlt | hge'
      · have hsame := hsmall hlt
        omega
      · have hmore := hlarge hge'
        omega

def EnumValueDecl.read (v : EnumValueDecl) : ℤ := (parseI32 v.literal.text).getD 0

/-- Zero, or a decimal number of 31 bits or an octal one of one digit, without a sign. -/
def EnumValueDecl.Plain (v : EnumValueDecl) : Prop :=
  v.literal.value = 0 ∨ v.negative = false ∧ match v.literal with
    | .decimal .. => v.literal.value < 2 ^ 31
    | .octal _ => v.literal.value < 8
    | .hex .. => False

lemma read_decimal (lead : Fin 10) (digits : List (Fin 10)) (h : lead ≠ 0) :
    (parseI32 (IntLit.decimal lead digits h).text).getD 0 =
      if (IntLit.decimal lead digits h).value < 2 ^ 31 then ((IntLit.decimal lead digits h).value : ℤ) else 0 := by
  have hdigits : ∀ e ∈ lead.val :: digits.map (·.val), e < 10 := by
    intro e he
    rcases List.mem_cons.mp he with rfl | he
    · exact lead.isLt
    · obtain ⟨d, -, rfl⟩ := List.mem_map.mp he
      exact d.isLt
  have hparse := parseI32_digits hdigits
  rw [List.map_cons, List.map_map] at hparse
  rw [IntLit.text, IntLit.value, List.map_cons, List.map_cons]
  change (parseI32 (.ofList (digitChar lead.val :: digits.map (digitChar ∘ (·.val))))).getD 0 = _
  rw [hparse]
  split <;> rfl

lemma read_octal (digits : List (Fin 8)) : (parseI32 (IntLit.octal digits).text).getD 0 =
    if numeral 10 (digits.map (·.val)) < 2 ^ 31 then (numeral 10 (digits.map (·.val)) : ℤ) else 0 := by
  have hdigits : ∀ e ∈ 0 :: digits.map (·.val), e < 10 := by
    intro e he
    rcases List.mem_cons.mp he with rfl | he
    · decide
    · obtain ⟨d, -, rfl⟩ := List.mem_map.mp he
      exact d.isLt.trans (by decide)
  have hparse := parseI32_digits hdigits
  have hzero : numeral 10 (0 :: digits.map (·.val)) = numeral 10 (digits.map (·.val)) := rfl
  rw [List.map_cons, List.map_map, hzero] at hparse
  rw [IntLit.text]
  change (parseI32 (.ofList (digitChar 0 :: digits.map (digitChar ∘ (·.val))))).getD 0 = _
  rw [hparse]
  split <;> rfl

lemma read_hex (mark : Bool) (digits : List HexDigit) : (parseI32 (IntLit.hex mark digits).text).getD 0 = 0 := by
  have hmark : (if mark then 'X' else 'x').isDigit = false := by cases mark <;> decide
  rw [IntLit.text, parseI32_of_head (by decide), List.all_cons, hmark]
  rfl

lemma read_eq_number_iff : v.read = v.number ↔ v.Plain := by
  obtain ⟨name, negative, literal⟩ := v
  unfold EnumValueDecl.read EnumValueDecl.number EnumValueDecl.Plain
  cases literal with
  | decimal lead digits h =>
    rw [read_decimal]
    cases negative with
    | false =>
      simp only [Bool.false_eq_true, if_false, true_and]
      split <;> omega
    | true =>
      simp only [if_true, Bool.true_eq_false, false_and, or_false]
      split <;> omega
  | octal digits =>
    obtain ⟨hsmall, hlarge⟩ := @numeral_octal (digits.map (·.val)) (by
      intro d hd
      obtain ⟨e, -, rfl⟩ := List.mem_map.mp hd
      exact e.isLt)
    rw [read_octal]
    dsimp only [IntLit.value]
    cases negative with
    | false =>
      simp only [Bool.false_eq_true, if_false, true_and]
      split <;> omega
    | true =>
      simp only [if_true, Bool.true_eq_false, false_and, or_false]
      split <;> omega
  | hex mark digits =>
    rw [read_hex]
    cases negative with
    | false =>
      simp only [Bool.false_eq_true, if_false, and_false, or_false]
      omega
    | true =>
      simp only [if_true, and_false, or_false]
      omega

end Numbers

section Enums

variable {node : SyntaxNode}

lemma extractEnumValue_eq {v : EnumValueDecl} (h : EnumValueNode node v) :
    ∃ w, extractEnumValue node = some w ∧ w.name = v.name ∧ w.number = v.read := by
  have hskip : ∀ (parts : EnumValueParts) (child : SyntaxNode),
      decide (child.kind ∈ ["identifier", "int_lit", "-"]) = false → parts.add child = parts := by
    intro parts child hskip
    have hnot := of_decide_eq_false hskip
    simp only [List.mem_cons, List.not_mem_nil, or_false, not_or] at hnot
    simp [EnumValueParts.add, hnot]
  have hread := @foldl_filter_key SyntaxNode EnumValueParts EnumValueParts EnumValueParts.add EnumValueParts.add id
    (·.kind ∈ ["identifier", "int_lit", "-"]) hskip (fun _ _ _ => rfl) node.children {}
  have hpairs : ∀ (l : List SyntaxNode) (parts : EnumValueParts), l.foldl EnumValueParts.add parts =
      (l.map fun n => (n.kind, n.text)).foldl (fun parts n => parts.add (.mk n.1 n.2 0 [])) parts := by
    intro l parts
    rw [List.foldl_map]
    rfl
  have hfound : node.children.foldl EnumValueParts.add {} = { name := v.name.val, number := v.read } := by
    have hnumber : (EnumValueParts.mk v.name.val 0).add (.mk "int_lit" v.literal.text 0 []) =
        { name := v.name.val, number := v.read } := by
      unfold EnumValueParts.add EnumValueDecl.read
      by_cases hminus : v.literal.text = "-"
      · have hnone : parseI32 "-" = none := by decide +kernel
        simp [SyntaxNode.kind, SyntaxNode.text, hminus, hnone]
      · simp [SyntaxNode.kind, SyntaxNode.text, hminus]
    rw [id_eq, id_eq] at hread
    rw [hread, hpairs, h.children]
    cases v.negative with
    | false => exact hnumber
    | true => exact hnumber
  unfold extractEnumValue
  simp only [hfound, v.name.property, if_false]
  exact ⟨_, rfl, rfl, rfl⟩

lemma extractEnum_eq {e : EnumDecl} (h : EnumNode node e) (parent : String) :
    ∃ out, extractEnum node parent = some out ∧ out.name = e.name ∧ out.fullName = qualify parent e.name ∧
      List.Forall₂ (fun v w => w.name = v.name.val ∧ w.number = v.read) e.values out.values := by
  unfold extractEnum
  simp only [firstName_eq h.name, e.name.property, if_false]
  exact ⟨_, rfl, rfl, rfl, forall₂_filterMap h.values fun _ _ hv => extractEnumValue_eq hv⟩

end Enums

end RepoGraph.ProtoParser
