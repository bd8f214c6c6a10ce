import RepoGraph.Lib.Exec
import RepoGraph.ProtoParser.SchemaReading

/-! When the schema that is read is the one that is declared. -/

namespace RepoGraph.ProtoParser

open Lib Lib.Text

section File

def packageOf : String → List TopDecl → String
  | package, [] => package
  | _, .package name :: decls => packageOf name decls
  | package, .message .. :: decls | package, .enum _ :: decls
  | package, .service :: decls => packageOf package decls

def messagesIn : String → List TopDecl → List (String × Ident × Body)
  | _, [] => []
  | _, .package name :: decls => messagesIn name decls
  | package, .message name body :: decls => (package, name, body) :: messagesIn package decls
  | package, .enum _ :: decls | package, .service :: decls => messagesIn package decls

def enumsIn : String → List TopDecl → List (String × EnumDecl)
  | _, [] => []
  | _, .package name :: decls => enumsIn name decls
  | package, .enum e :: decls => (package, e) :: enumsIn package decls
  | package, .message .. :: decls | package, .service :: decls => enumsIn package decls

structure FileRead (decls : List TopDecl) (file out : ProtoFile) : Prop where
  package : out.package = packageOf file.package decls
  messages : ∃ ms, out.messages = file.messages ++ ms ∧
    List.Forall₂ (fun d m => asRead.Message d.1 d.2.1 d.2.2 m) (messagesIn file.package decls) ms
  enums : ∃ es, out.enums = file.enums ++ es ∧
    List.Forall₂ (fun d e => asRead.Enum d.1 d.2 e) (enumsIn file.package decls) es

variable {node root : SyntaxNode} {nodes : List SyntaxNode} {decls : List TopDecl} {file : ProtoFile}

lemma extractMethod_ok (h : RpcNode node) (service : String) : ∃ m, extractMethod node service = .ok m := by
  obtain ⟨name, hne, _, hname⟩ := h.name
  obtain ⟨input, hinput, output, houtput, _, htypes⟩ := h.types
  have hfound := @foldl_name {} node.children _ _ rfl hne hname
  obtain ⟨hfoundInput, hfoundOutput⟩ := @foldl_types {} node.children _ _ _ ⟨rfl, rfl⟩ hinput houtput htypes
  unfold extractMethod
  simp only [hfound, hfoundInput, hfoundOutput, hne, hinput, houtput, or_self, if_false, pure_bind]
  exact ⟨_, rfl⟩

lemma addMember_ok {package : String} (h : node.kind = "rpc" → RpcNode node) (parts : ServiceParts) :
    ∃ parts', parts.addMember package node = .ok parts' := by
  unfold ServiceParts.addMember
  split
  · rename_i hrpc
    obtain ⟨m, hm⟩ := extractMethod_ok (h hrpc) (qualify package parts.name)
    rw [hm]
    exact ⟨_, rfl⟩
  · split
    · exact ⟨_, rfl⟩
    · exact ⟨_, rfl⟩

lemma extractService_ok (h : ServiceNode node) (package : String) : ∃ s, extractService node package = .ok s := by
  have hstep : ∀ child ∈ node.children, ∀ parts : ServiceParts, ∃ parts',
      parts.add package child = .ok parts' := by
    intro child hchild parts
    unfold ServiceParts.add
    split
    · exact ⟨_, rfl⟩
    · split
      · rename_i hbody
        apply foldlM_ok
        intro rpc hrpc s
        apply addMember_ok
        apply h.rpcs
        apply List.mem_append_right
        exact List.mem_flatMap.mpr ⟨child, List.mem_filter.mpr ⟨hchild, decide_eq_true hbody⟩, hrpc⟩
      · exact addMember_ok (h.rpcs child (List.mem_append_left _ hchild)) parts
  obtain ⟨parts, hparts⟩ := foldlM_ok hstep {}
  unfold extractService
  rw [hparts, ok_bind]
  split
  · exact ⟨_, rfl⟩
  · exact ⟨_, rfl⟩

lemma extractPackage_eq {name : String}
    (h : (node.children.filter (·.kind = "full_ident")).map SyntaxNode.text = [name]) :
      extractPackage node = name := by
  obtain ⟨child, hchildren, rfl⟩ := List.map_eq_singleton_iff.mp h
  have hfind : node.children.find? (·.kind = "full_ident") = some child := by
    rw [← List.head?_filter, hchildren]
    rfl
  rw [extractPackage, hfind]

lemma add_skip (h : node.kind ∉ topKinds) : ∃ out, file.add node = .ok out ∧ out.package = file.package ∧
    out.messages = file.messages ∧ out.enums = file.enums := by
  simp only [topKinds, List.mem_cons, List.not_mem_nil, or_false, not_or] at h
  obtain ⟨hpackage, hmessage, henum, hservice⟩ := h
  unfold ProtoFile.add
  split
  · exact ⟨_, rfl, rfl, rfl, rfl⟩
  · contradiction
  · exact ⟨_, rfl, rfl, rfl, rfl⟩
  · exact ⟨_, rfl, rfl, rfl, rfl⟩
  · contradiction
  · contradiction
  · contradiction
  · exact ⟨_, rfl, rfl, rfl, rfl⟩

lemma foldlM_add_read (h : FileNodes nodes decls) (file : ProtoFile) :
    ∃ out, nodes.foldlM ProtoFile.add file = .ok out ∧ FileRead decls file out := by
  induction h generalizing file with
  | nil => exact ⟨file, rfl, rfl, ⟨[], (List.append_nil _).symm, .nil⟩, ⟨[], (List.append_nil _).symm, .nil⟩⟩
  | @skip node nodes decls hkind _ ih =>
    obtain ⟨file₁, hadd, hpackage, hmessages, henums⟩ := @add_skip node file hkind
    obtain ⟨out, hout, hread⟩ := ih file₁
    refine ⟨out, by rw [List.foldlM_cons, hadd, ok_bind, hout], ?_, ?_, ?_⟩
    · rw [← hpackage]
      exact hread.package
    · rw [← hpackage, ← hmessages]
      exact hread.messages
    · rw [← hpackage, ← henums]
      exact hread.enums
  | @package node nodes name decls hkind hname _ ih =>
    obtain ⟨out, hout, hread⟩ := ih { file with package := name }
    refine ⟨out, ?_, hread.package, hread.messages, hread.enums⟩
    rw [List.foldlM_cons, ProtoFile.add, hkind, extractPackage_eq hname]
    exact hout
  | @message node nodes name inner body decls hnode hbody _ ih =>
    obtain ⟨m, hm, hmessage⟩ := extractMessage_read hnode (extractMessageBody_read hbody) file.package
    obtain ⟨out, hout, hpackage, ⟨ms, hms, hmessages⟩, henums⟩ := ih { file with messages := file.messages ++ [m] }
    refine ⟨out, ?_, hpackage, ⟨m :: ms, hms.trans (List.append_assoc ..), .cons hmessage hmessages⟩, henums⟩
    rw [List.foldlM_cons, ProtoFile.add, hnode.kind, hm]
    exact hout
  | @enum node nodes e decls hnode _ ih =>
    obtain ⟨e', he, henum⟩ := extractEnum_eq hnode file.package
    obtain ⟨out, hout, hpackage, hmessages, ⟨es, hes, henums⟩⟩ := ih { file with enums := file.enums ++ [e'] }
    refine ⟨out, ?_, hpackage, hmessages, ⟨e' :: es, hes.trans (List.append_assoc ..), .cons henum henums⟩⟩
    rw [List.foldlM_cons, ProtoFile.add, hnode.kind, he]
    exact hout
  | @service node nodes decls hnode _ ih =>
    obtain ⟨s, hs⟩ := extractService_ok hnode file.package
    obtain ⟨out, hout, hread⟩ := ih { file with services := file.services ++ s.toList }
    refine ⟨out, ?_, hread.package, hread.messages, hread.enums⟩
    rw [List.foldlM_cons, ProtoFile.add, hnode.kind, hs]
    exact hout

end File

section Members

variable {items : List Item} {body : Body} {fields : List ProtoField}

/-- A field of this name stands before the last oneof that lists it, and that oneof has this name. -/
def MarkedBy (n oneofName : String) (items : List Item) : Prop :=
  ∃ before last after, items = before ++ .oneof last :: after ∧ last.name.val = oneofName ∧ n ∈ last.listed ∧
    Item.field n ∈ before ∧ ∀ later, Item.oneof later ∈ after → n ∉ later.listed

def MembersNamed (items : List Item) : Prop :=
  ∀ o, Item.oneof o ∈ items → ∀ member ∈ o.members, MarkedBy member o.name items

lemma foldl_addMarks_append (items : List Item) (item : Item) (out : List (String × Option String)) :
    (items ++ [item]).foldl addMarks out = addMarks (items.foldl addMarks out) item := by
  rw [List.foldl_append]
  rfl

lemma name_markOf (oneofName : String) (listed : List String) (m : String × Option String) :
    (markOf oneofName listed m).1 = m.1 := by
  unfold markOf
  split <;> rfl

lemma name_mem_marks {n : String} : n ∈ (items.foldl addMarks []).map Prod.fst ↔ Item.field n ∈ items := by
  induction items using List.reverseRecOn with
  | nil => simp
  | append_singleton items item ih =>
    rw [foldl_addMarks_append, List.mem_append, List.mem_singleton, ← ih]
    cases item with
    | field name => simp [addMarks]
    | oneof o =>
      have hnames : (addMarks (items.foldl addMarks []) (.oneof o)).map Prod.fst =
          (items.foldl addMarks []).map Prod.fst := by
        rw [addMarks, List.map_map]
        exact List.map_congr_left fun m _ => name_markOf _ _ m
      rw [hnames]
      simp

lemma append_singleton_eq {α : Type} {l before after : List α} {a b : α} : l ++ [a] = before ++ b :: after ↔
    (after = [] ∧ before = l ∧ b = a) ∨ ∃ more, after = more ++ [a] ∧ l = before ++ b :: more := by
  constructor
  · intro h
    induction after using List.reverseRecOn with
    | nil =>
      obtain ⟨hl, ha⟩ := List.append_inj' h rfl
      exact .inl ⟨rfl, hl.symm, (List.cons.inj ha).1.symm⟩
    | append_singleton more c =>
      rw [← List.cons_append, ← List.append_assoc] at h
      obtain ⟨hl, ha⟩ := List.append_inj' h rfl
      exact .inr ⟨more, by rw [(List.cons.inj ha).1], hl⟩
  · rintro (⟨rfl, rfl, rfl⟩ | ⟨more, rfl, rfl⟩)
    · rfl
    · simp

lemma markedBy_append_field {n oneofName name : String} :
    MarkedBy n oneofName (items ++ [.field name]) ↔ MarkedBy n oneofName items := by
  constructor
  · rintro ⟨before, last, after, heq, hname, hlisted, hfield, hlater⟩
    rcases append_singleton_eq.mp heq with ⟨-, -, hlast⟩ | ⟨more, rfl, rfl⟩
    · cases hlast
    · exact ⟨before, last, more, rfl, hname, hlisted, hfield, fun later hin =>
        hlater later (List.mem_append_left _ hin)⟩
  · rintro ⟨before, last, after, rfl, hname, hlisted, hfield, hlater⟩
    refine ⟨before, last, after ++ [.field name], by simp, hname, hlisted, hfield, ?_⟩
    intro later hin
    exact hlater later (by simpa using hin)

lemma markedBy_append_oneof {n oneofName : String} {o : OneofDecl} : MarkedBy n oneofName (items ++ [.oneof o]) ↔
    if n ∈ o.listed then Item.field n ∈ items ∧ o.name.val = oneofName else MarkedBy n oneofName items := by
  constructor
  · rintro ⟨before, last, after, heq, hname, hlisted, hfield, hlater⟩
    rcases append_singleton_eq.mp heq with ⟨-, rfl, hlast⟩ | ⟨more, rfl, rfl⟩
    · obtain rfl := Item.oneof.inj hlast
      rw [if_pos hlisted]
      exact ⟨hfield, hname⟩
    · rw [if_neg (hlater o (by simp))]
      exact ⟨before, last, more, rfl, hname, hlisted, hfield, fun later hin =>
        hlater later (List.mem_append_left _ hin)⟩
  · intro h
    split at h
    · rename_i hlisted
      exact ⟨items, o, [], rfl, h.2, hlisted, h.1, by simp⟩
    · rename_i hnot
      obtain ⟨before, last, after, rfl, hname, hlisted, hfield, hlater⟩ := h
      refine ⟨before, last, after ++ [.oneof o], by simp, hname, hlisted, hfield, ?_⟩
      intro later hin
      rcases List.mem_append.mp hin with hin | hin
      · exact hlater later hin
      · obtain rfl := Item.oneof.inj (List.mem_singleton.mp hin)
        exact hnot

lemma mem_map_markOf {marks : List (String × Option String)}
    {n oneofName markName : String} {listed : List String} :
    (n, some oneofName) ∈ marks.map (markOf markName listed) ↔
      if n ∈ listed then n ∈ marks.map Prod.fst ∧ markName = oneofName else (n, some oneofName) ∈ marks := by
  rw [List.mem_map]
  constructor
  · rintro ⟨m, hm, hmark⟩
    have hfst : m.1 = n := by rw [← name_markOf markName listed m, hmark]
    unfold markOf at hmark
    rw [hfst] at hmark
    split at hmark
    · rename_i hlisted
      rw [if_pos hlisted]
      exact ⟨List.mem_map.mpr ⟨m, hm, hfst⟩, Option.some.inj (congrArg Prod.snd hmark)⟩
    · rename_i hnot
      rw [if_neg hnot, ← hmark]
      exact hm
  · intro h
    split at h
    · rename_i hlisted
      obtain ⟨hname, rfl⟩ := h
      obtain ⟨m, hm, rfl⟩ := List.mem_map.mp hname
      exact ⟨m, hm, if_pos hlisted⟩
    · rename_i hnot
      exact ⟨_, h, if_neg hnot⟩

lemma mem_marks {n oneofName : String} :
    (n, some oneofName) ∈ items.foldl addMarks [] ↔ MarkedBy n oneofName items := by
  induction items using List.reverseRecOn with
  | nil =>
    constructor
    · intro h
      simp at h
    · rintro ⟨before, last, after, heq, -⟩
      simp at heq
  | append_singleton items item ih =>
    rw [foldl_addMarks_append]
    cases item with
    | field name => rw [markedBy_append_field, ← ih, addMarks]; simp
    | oneof o => rw [markedBy_append_oneof, addMarks, mem_map_markOf, name_mem_marks, ih]

lemma membersAreFields_iff (h : asRead.fields body fields) : MembersAreFields body fields ↔
    MembersNamed body.items := by
  have hmarks : fields.map mark = body.items.foldl addMarks [] := h
  have hmem : ∀ n oneofName : String, (∃ f ∈ fields, f.name = n ∧ f.oneofName = some oneofName) ↔
      MarkedBy n oneofName body.items := by
    intro n oneofName
    rw [← mem_marks, ← hmarks, List.mem_map]
    simp only [mark, Prod.mk.injEq]
  simp only [MembersAreFields, MembersNamed, hmem]

end Members

section Names

variable {scope : List String} {parent other name : String}

lemma join_singleton (s : String) : join "." [s] = s := by simp [join]

lemma join_ne_empty (hne : scope ≠ []) (h : ∀ s ∈ scope, s ≠ "") : join "." scope ≠ "" := by
  obtain ⟨s, more, rfl⟩ := List.exists_cons_of_ne_nil hne
  have hdot : "." = String.singleton '.' := rfl
  cases more with
  | nil =>
    rw [join_singleton]
    exact h s List.mem_cons_self
  | cons t more =>
    rw [hdot, join_cons s (List.cons_ne_nil t more)]
    simp

lemma qualify_join (h : ∀ s ∈ scope, s ≠ "") (name : String) : qualify (join "." scope) name =
    join "." (scope ++ [name]) := by
  have hdot : "." = String.singleton '.' := rfl
  by_cases hne : scope = []
  · subst hne
    rw [List.nil_append, join_singleton]
    rfl
  · rw [qualify, if_neg (join_ne_empty hne h), hdot, join_append_singleton hne]

lemma qualify_left_unique (h : qualify parent name = qualify other name) : parent = other := by
  have hlonger : ∀ s : String, name ≠ s ++ "." ++ name := by
    intro s hname
    have hlen := congrArg String.length hname
    rw [String.length_append, String.length_append] at hlen
    have hone : ".".length = 1 := rfl
    omega
  unfold qualify at h
  split at h
  · rename_i hparent
    split at h
    · rename_i hother
      rw [hparent, hother]
    · exact absurd h (hlonger other)
  · split at h
    · exact absurd h.symm (hlonger parent)
    · exact append_right_unique (append_right_unique h)

end Names

section Messages

def Body.OwnPlain (body : Body) : Prop :=
  (∀ e ∈ body.enums, ∀ v ∈ e.values, v.Plain) ∧ MembersNamed body.items

def Body.NestedPlain : Body → Prop
  | .nil => True
  | .field _ rest | .enum _ rest | .oneof _ rest => rest.NestedPlain
  | .message _ body rest => (body.OwnPlain ∧ body.NestedPlain) ∧ rest.NestedPlain

def Body.Plain (body : Body) : Prop := body.OwnPlain ∧ body.NestedPlain

variable {scope : List String} {parent : String} {name : Ident} {body : Body}

lemma enum_iff {e : EnumDecl} {out : ProtoEnum} (hscope : ∀ s ∈ scope, s ≠ "") (h : asRead.Enum parent e out) :
    declared.Enum scope e out ↔ parent = join "." scope ∧ ∀ v ∈ e.values, v.Plain := by
  obtain ⟨hname, hfull, hvalues⟩ := h
  have hnumbers : List.Forall₂ (fun v w => w.name = v.name.val ∧
      w.number = EnumValueDecl.number v) e.values out.values ↔
      ∀ v ∈ e.values, v.Plain := by
    apply forall₂_iff_of_forall₂ hvalues
    rintro v w ⟨hw, hread⟩
    rw [← read_eq_number_iff]
    constructor
    · rintro ⟨-, hnumber⟩
      exact hread.symm.trans hnumber
    · intro heq
      exact ⟨hw, hread.trans heq⟩
  have hfullName : out.fullName = join "." (scope ++ [e.name.val]) ↔ parent = join "." scope := by
    rw [hfull, ← qualify_join hscope]
    exact ⟨qualify_left_unique, fun heq => by rw [heq]; rfl⟩
  exact ⟨fun ⟨_, hf, hv⟩ => ⟨hfullName.mp hf, hnumbers.mp hv⟩, fun ⟨hp, hv⟩ =>
    ⟨hname, hfullName.mpr hp, hnumbers.mpr hv⟩⟩

lemma enums_iff {es : List EnumDecl} {out : List ProtoEnum} (hscope : ∀ s ∈ scope, s ≠ "")
    (h : List.Forall₂ (asRead.Enum (join "." scope)) es out) :
    List.Forall₂ (declared.Enum scope) es out ↔ ∀ e ∈ es, ∀ v ∈ e.values, v.Plain := by
  apply forall₂_iff_of_forall₂ h
  intro e out he
  rw [enum_iff hscope he]
  exact and_iff_right rfl

lemma forall_scope_append (hscope : ∀ s ∈ scope, s ≠ "") (name : Ident) : ∀ s ∈ scope ++ [name.val], s ≠ "" := by
  intro s hs
  rcases List.mem_append.mp hs with hs | hs
  · exact hscope s hs
  · rw [List.mem_singleton.mp hs]
    exact name.property

lemma messages_iff {ms : List ProtoMessage} (hscope : ∀ s ∈ scope, s ≠ "")
    (h : asRead.Messages (join "." scope) body ms) :
    declared.Messages scope body ms ↔ body.NestedPlain := by
  induction body generalizing scope ms with
  | nil => exact ⟨fun _ => trivial, fun _ => h⟩
  | field _ rest ih => exact ih hscope h
  | enum _ rest ih => exact ih hscope h
  | oneof _ rest ih => exact ih hscope h
  | message name body rest ihbody ih =>
    obtain ⟨m, more, rfl, ⟨hname, hfull, hnested, henums, hfields⟩, hmore⟩ := h
    have hinner := forall_scope_append hscope name
    have henter : asRead.enter (join "." scope) name = join "." (scope ++ [name.val]) := qualify_join hscope name
    rw [henter] at hnested henums
    have hbody := ihbody hinner hnested
    have hown := enums_iff hinner henums
    have hmembers := membersAreFields_iff hfields
    have hrest := ih hscope hmore
    constructor
    · rintro ⟨m', more', heq, ⟨-, -, hnested', henums', hfields'⟩, hmore'⟩
      obtain ⟨rfl, rfl⟩ := List.cons.inj heq
      exact ⟨⟨⟨hown.mp henums', hmembers.mp hfields'⟩, hbody.mp hnested'⟩, hrest.mp hmore'⟩
    · rintro ⟨⟨⟨hnumbers, hnamed⟩, hnestedPlain⟩, hrestPlain⟩
      refine ⟨m, more, rfl, ⟨hname, hfull.trans (qualify_join hscope name),
        hbody.mpr hnestedPlain, hown.mpr hnumbers, hmembers.mpr hnamed⟩, hrest.mpr hrestPlain⟩

lemma message_iff {m : ProtoMessage} (hscope : ∀ s ∈ scope, s ≠ "") (h : asRead.Message parent name body m) :
    declared.Message scope name body m ↔ parent = join "." scope ∧ body.Plain := by
  obtain ⟨hname, hfull, hnested, henums, hfields⟩ := h
  have hfullName : m.fullName = join "." (scope ++ [name.val]) ↔ parent = join "." scope := by
    rw [hfull, ← qualify_join hscope]
    exact ⟨qualify_left_unique, fun heq => by rw [heq]; rfl⟩
  have hinner := forall_scope_append hscope name
  have hmembers := membersAreFields_iff hfields
  have hbelow : parent = join "." scope → (declared.Messages (scope ++ [name.val]) body m.nestedMessages ↔
      body.NestedPlain) ∧ (List.Forall₂ (declared.Enum (scope ++ [name.val])) body.enums m.nestedEnums ↔
        ∀ e ∈ body.enums, ∀ v ∈ e.values, v.Plain) := by
    rintro rfl
    have henter : asRead.enter (join "." scope) name = join "." (scope ++ [name.val]) := qualify_join hscope name
    rw [henter] at hnested henums
    exact ⟨messages_iff hinner hnested, enums_iff hinner henums⟩
  constructor
  · rintro ⟨-, hfull', hnested', henums', hfields'⟩
    have hparent := hfullName.mp hfull'
    obtain ⟨hbody, hown⟩ := hbelow hparent
    exact ⟨hparent, ⟨hown.mp henums', hmembers.mp hfields'⟩, hbody.mp hnested'⟩
  · rintro ⟨hparent, ⟨hnumbers, hnamed⟩, hnestedPlain⟩
    obtain ⟨hbody, hown⟩ := hbelow hparent
    exact ⟨hname, hfullName.mpr hparent, hbody.mpr hnestedPlain, hown.mpr hnumbers, hmembers.mpr hnamed⟩

end Messages

section Statement

variable {root : SyntaxNode} {decls : List TopDecl}

def packageScope (package : String) : List String := if package = "" then [] else [package]

/-- Every message and every enum of the file is there in its place, under its package and the messages around it,
with the numbers that are declared and the members of its oneofs as fields. -/
structure Faithful (decls : List TopDecl) (file : ProtoFile) : Prop where
  package : file.package = packageOf "" decls
  messages : List.Forall₂ (fun d m => declared.Message (packageScope (packageOf "" decls)) d.2.1 d.2.2 m)
    (messagesIn "" decls) file.messages
  enums : List.Forall₂ (fun d e => declared.Enum (packageScope (packageOf "" decls)) d.2 e)
    (enumsIn "" decls) file.enums

/-- The package stands before all messages and enums, whose numbers are plain and whose members are named. -/
structure PlainFile (decls : List TopDecl) : Prop where
  messages : ∀ d ∈ messagesIn "" decls, d.1 = packageOf "" decls ∧ d.2.2.Plain
  enums : ∀ d ∈ enumsIn "" decls, d.1 = packageOf "" decls ∧ ∀ v ∈ d.2.values, v.Plain

/-- A file is read as it is declared exactly when it is plain. -/
theorem extract_proto_file_faithful_iff (path : String) (h : FileNodes root.children decls) :
    (∃ file, extractProtoFile path root = .ok file ∧ Faithful decls file) ↔ PlainFile decls := by
  obtain ⟨file, hfile, hpackage, ⟨ms, hms, hmessages⟩, ⟨es, hes, henums⟩⟩ := foldlM_add_read h {
    path, package := "", syntaxVersion := "proto3", imports := [], messages := [], enums := [], services := []
    options := [] }
  have hscope : ∀ s ∈ packageScope (packageOf "" decls), s ≠ "" := by
    unfold packageScope
    split
    · simp
    · simpa using ‹_›
  have hjoin : join "." (packageScope (packageOf "" decls)) = packageOf "" decls := by
    unfold packageScope
    split
    · rename_i hempty
      rw [hempty]
      rfl
    · exact join_singleton _
  have hmessagesIff : List.Forall₂ (fun d m => declared.Message (packageScope (packageOf "" decls)) d.2.1 d.2.2 m)
      (messagesIn "" decls) ms ↔ ∀ d ∈ messagesIn "" decls, d.1 = packageOf "" decls ∧ d.2.2.Plain := by
    apply forall₂_iff_of_forall₂ hmessages
    intro d m hd
    rw [message_iff hscope hd, hjoin]
  have henumsIff : List.Forall₂ (fun d e => declared.Enum (packageScope (packageOf "" decls)) d.2 e)
      (enumsIn "" decls) es ↔ ∀ d ∈ enumsIn "" decls, d.1 = packageOf "" decls ∧ ∀ v ∈ d.2.values, v.Plain := by
    apply forall₂_iff_of_forall₂ henums
    intro d e hd
    rw [enum_iff hscope hd, hjoin]
  rw [List.nil_append] at hms hes
  subst hms hes
  constructor
  · rintro ⟨file', hfile', hfaithful⟩
    obtain rfl : file = file' := Except.ok.inj (hfile.symm.trans hfile')
    exact ⟨hmessagesIff.mp hfaithful.messages, henumsIff.mp hfaithful.enums⟩
  · intro hplain
    exact ⟨file, hfile, hpackage, hmessagesIff.mpr hplain.messages, henumsIff.mpr hplain.enums⟩

def token (kind text : String) : SyntaxNode := .mk kind text 0 []

def valueTree (number : List SyntaxNode) : SyntaxNode :=
  .mk "enum_field" "" 0 (token "identifier" "A" :: token "=" "=" :: (number ++ [token ";" ";"]))

def enumTree (number : List SyntaxNode) : SyntaxNode :=
  .mk "enum" "" 0 [token "enum" "enum", token "enum_name" "E", .mk "enum_body" "" 0
    [token "\x7b" "\x7b", valueTree number, token "\x7d" "\x7d"]]

def messageTree : SyntaxNode :=
  .mk "message" "" 0 [token "message" "message", token "message_name" "M", .mk "message_body" "" 0
    [token "\x7b" "\x7b", .mk "field" "string a = 1;" 0
      [token "type" "string", token "identifier" "a", token "=" "=", token "field_number" "1", token ";" ";"],
      enumTree [token "int_lit" "1"], token "\x7d" "\x7d"]]

def packageTree : SyntaxNode := .mk "package" "package p;" 0 [token "package" "package", token "full_ident" "p"]

def enumOf (negative : Bool) : EnumDecl :=
  ⟨⟨"E", by decide⟩, [⟨⟨"A", by decide⟩, negative, .decimal 1 [] (by decide)⟩]⟩

lemma enumNode_plain : EnumNode (enumTree [token "int_lit" "1"]) (enumOf false) := by
  refine ⟨rfl, by decide +kernel, ?_⟩
  have hvalues : (bodyNodes "enum_body" (enumTree [token "int_lit" "1"]).children).filter
      (·.kind ∈ ["enum_field", "enum_value"]) = [valueTree [token "int_lit" "1"]] := rfl
  rw [hvalues]
  exact .cons ⟨by decide, by decide +kernel⟩ .nil

lemma enumNode_negative : EnumNode (enumTree [token "-" "-", token "int_lit" "1"]) (enumOf true) := by
  refine ⟨rfl, by decide +kernel, ?_⟩
  have hvalues : (bodyNodes "enum_body" (enumTree [token "-" "-", token "int_lit" "1"]).children).filter
      (·.kind ∈ ["enum_field", "enum_value"]) = [valueTree [token "-" "-", token "int_lit" "1"]] := rfl
  rw [hvalues]
  exact .cons ⟨by decide, by decide +kernel⟩ .nil

def messageDecls : List TopDecl :=
  [.package "p", .message ⟨"M", by decide⟩ (.field ⟨"a", by decide⟩ (.enum (enumOf false) .nil))]

lemma fileNodes_message : FileNodes [packageTree, messageTree] messageDecls := by
  apply FileNodes.package rfl rfl
  refine FileNodes.message ⟨rfl, _, _, rfl, by decide, rfl, rfl, rfl⟩ ?_ .nil
  apply BodyNodes.skip (by decide)
  refine BodyNodes.field ⟨rfl, _, _, rfl, by decide, by decide, by decide, rfl⟩ ?_
  exact .enum enumNode_plain (.skip (by decide) .nil)

theorem extract_proto_file_faithful_iff_message : FileNodes [packageTree, messageTree] messageDecls ∧
    ((∃ file, extractProtoFile "m.proto" (.mk "source_file" "" 0 [packageTree, messageTree]) = .ok file ∧
      Faithful messageDecls file) ↔ PlainFile messageDecls) :=
  ⟨fileNodes_message, extract_proto_file_faithful_iff "m.proto" fileNodes_message⟩

/-- The sign of a number stands in a node of its own, which is passed over. -/
theorem negative_number_loses_sign :
    let root : SyntaxNode := .mk "source_file" "" 0 [enumTree [token "-" "-", token "int_lit" "1"]]
    FileNodes root.children [.enum (enumOf true)] ∧
      ¬ ∃ file, extractProtoFile "e.proto" root = .ok file ∧ Faithful [.enum (enumOf true)] file := by
  refine ⟨.enum enumNode_negative .nil, ?_⟩
  rintro ⟨file, hfile, hfaithful⟩
  have hnumbers : (extractProtoFile "e.proto" (.mk "source_file" "" 0
      [enumTree [token "-" "-", token "int_lit" "1"]])).map (fun file => file.enums.map fun e =>
        e.values.map (·.number)) = .ok [[1]] := by decide +kernel
  rw [hfile] at hnumbers
  have hread : file.enums.map (fun e => e.values.map (·.number)) = [[1]] := Except.ok.inj hnumbers
  obtain ⟨e, es, ⟨-, -, hvalues⟩, -, henums⟩ := List.forall₂_cons_left_iff.mp hfaithful.enums
  rw [henums] at hread
  obtain ⟨v, vs, ⟨-, hnumber⟩, -, hvs⟩ := List.forall₂_cons_left_iff.mp hvalues
  rw [List.map_cons, hvs, List.map_cons, hnumber] at hread
  simp [declared, EnumValueDecl.number, IntLit.value, numeral] at hread

end Statement

end RepoGraph.ProtoParser
