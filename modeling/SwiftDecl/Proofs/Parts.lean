import SwiftDecl.Decl.Node
import SwiftDecl.Proofs.Tally

/-!
# Parts of a declaration

What an author puts into a declaration: blocks of code, the literals in them,
type references and descriptions, each collected over the whole tree, nested
types and nested blocks included. Names are left out: they are cleaned before
they are written. So are descriptions of parameters, which are never written.
-/

set_option autoImplicit false

namespace SwiftDecl
open SwiftDecl.Layout

namespace Token

def opensScope : Token → Bool
  | .openScope => true
  | _ => false

def closesScope : Token → Bool
  | .closeScope => true
  | _ => false

def opensIndent : Token → Bool
  | .indent => true
  | _ => false

def closesIndent : Token → Bool
  | .dedent => true
  | _ => false

mutual

def literals : Token → List String
  | .literal text => [text]
  | .code block => literalsOfAll block
  | _ => []

def literalsOfAll : List Token → List String
  | [] => []
  | token :: rest => token.literals ++ literalsOfAll rest

end

mutual

def refs : Token → List TypeRef
  | .type ref => [ref]
  | .code block => refsOfAll block
  | _ => []

def refsOfAll : List Token → List TypeRef
  | [] => []
  | token :: rest => token.refs ++ refsOfAll rest

end

end Token

namespace Block

def literals (block : Block) : List String :=
  Token.literalsOfAll block

def refs (block : Block) : List TypeRef :=
  Token.refsOfAll block

/-- Scopes and indentations each close after they open and are all closed at
the end, in the block itself and in every block inside it. A nested block counts
for nothing in the block around it. -/
inductive Balanced : Block → Prop
  | intro {block : Block} (scopes : Tally Token.opensScope Token.closesScope 0 block 0)
      (indents : Tally Token.opensIndent Token.closesIndent 0 block 0)
      (inner : ∀ b, Token.code b ∈ block → Balanced b) : Balanced block

@[elab_as_elim]
theorem induct {motive : Block → Prop}
    (step : ∀ b, (∀ inner, Token.code inner ∈ b → motive inner) → motive b) (b : Block) :
    motive b := by
  have h : ∀ inner, Token.code inner ∈ b → motive inner :=
    @Token.rec_1 (fun t => ∀ inner, t = .code inner → motive inner)
      (fun l => ∀ inner, Token.code inner ∈ l → motive inner)
      (by simp) (by simp)
      (by rintro l hl _ h; cases h; exact step l hl) (by simp) (by simp) (by simp) (by simp)
      (by simp) (by simp)
      (by
        intro t l ht hl inner hm
        rcases List.mem_cons.1 hm with h | h
        · exact ht inner h.symm
        · exact hl inner h)
      b
  exact step b h

@[elab_as_elim]
theorem consInduct {motive : Block → Prop} (nil : motive [])
    (flat : ∀ token rest, (∀ inner, token ≠ .code inner) → motive rest → motive (token :: rest))
    (code : ∀ inner rest, motive inner → motive rest → motive (.code inner :: rest))
    (block : Block) : motive block := by
  induction block using Block.induct with
  | step block ih =>
    induction block with
    | nil => exact nil
    | cons token rest ihr =>
      have hrest := ihr fun inner hm => ih inner (List.mem_cons_of_mem _ hm)
      by_cases hc : ∃ inner, token = .code inner
      · obtain ⟨inner, rfl⟩ := hc
        exact code inner rest (ih inner (by simp)) hrest
      · exact flat token rest (fun inner h => hc ⟨inner, h⟩) hrest

theorem literals_cons (token : Token) (block : Block) :
    literals (token :: block) = token.literals ++ literals block := by
  simp [literals, Token.literalsOfAll]

theorem refs_cons (token : Token) (block : Block) :
    refs (token :: block) = token.refs ++ refs block := by
  simp [refs, Token.refsOfAll]

theorem literals_of_code {inner block : Block} {text : String} (hm : Token.code inner ∈ block)
    (h : text ∈ inner.literals) : text ∈ block.literals := by
  induction block with
  | nil => simp at hm
  | cons token rest ih =>
    rw [literals_cons, List.mem_append]
    rcases List.mem_cons.1 hm with rfl | hm
    · exact Or.inl (by simpa [Token.literals, literals] using h)
    · exact Or.inr (ih hm)

theorem refs_of_code {inner block : Block} {ref : TypeRef} (hm : Token.code inner ∈ block)
    (h : ref ∈ inner.refs) : ref ∈ block.refs := by
  induction block with
  | nil => simp at hm
  | cons token rest ih =>
    rw [refs_cons, List.mem_append]
    rcases List.mem_cons.1 hm with rfl | hm
    · exact Or.inl (by simpa [Token.refs, refs] using h)
    · exact Or.inr (ih hm)

end Block

namespace Parameter

def blocks (parameter : Parameter) : List Block :=
  parameter.defaultValue.toList

def refs (parameter : Parameter) : List TypeRef :=
  parameter.type :: parameter.blocks.flatMap Block.refs

theorem refs_of_block {p : Parameter} {b : Block} {r : TypeRef} (hb : b ∈ p.blocks)
    (hr : r ∈ b.refs) : r ∈ p.refs :=
  List.mem_cons_of_mem _ (List.mem_flatMap.2 ⟨b, hb, hr⟩)

end Parameter

namespace Field

def blocks (field : Field) : List Block :=
  field.initializer.toList

def refs (field : Field) : List TypeRef :=
  field.type.toList ++ field.blocks.flatMap Block.refs

def descriptions (field : Field) : List String :=
  field.heading.description.toList

theorem refs_of_block {f : Field} {b : Block} {r : TypeRef} (hb : b ∈ f.blocks)
    (hr : r ∈ b.refs) : r ∈ f.refs :=
  List.mem_append_right _ (List.mem_flatMap.2 ⟨b, hb, hr⟩)

end Field

namespace Method

def blocks (method : Method) : List Block :=
  method.parameters.flatMap Parameter.blocks ++ method.body.toList

def refs (method : Method) : List TypeRef :=
  method.typeVariables ++ method.parameters.flatMap Parameter.refs ++ method.returns.toList ++
    (method.body.toList).flatMap Block.refs

def descriptions (method : Method) : List String :=
  method.heading.description.toList

theorem refs_of_block {m : Method} {b : Block} {r : TypeRef} (hb : b ∈ m.blocks)
    (hr : r ∈ b.refs) : r ∈ m.refs := by
  simp only [refs, List.mem_append]
  rcases List.mem_append.1 hb with hb | hb
  · obtain ⟨p, hp, hb⟩ := List.mem_flatMap.1 hb
    exact Or.inl (Or.inl (Or.inr (List.mem_flatMap.2 ⟨p, hp, Parameter.refs_of_block hb hr⟩)))
  · exact Or.inr (List.mem_flatMap.2 ⟨b, hb, hr⟩)

end Method

namespace TypeDecl

mutual

def blocks : TypeDecl → List Block
  | ⟨_, _, _, _, fields, methods, nested⟩ =>
    fields.flatMap Field.blocks ++ methods.flatMap Method.blocks ++ blocksOfAll nested

def blocksOfAll : List TypeDecl → List Block
  | [] => []
  | decl :: rest => decl.blocks ++ blocksOfAll rest

end

mutual

def refs : TypeDecl → List TypeRef
  | ⟨_, _, superType, protocols, fields, methods, nested⟩ =>
    superType.toList ++ protocols ++ fields.flatMap Field.refs ++ methods.flatMap Method.refs ++
      refsOfAll nested

def refsOfAll : List TypeDecl → List TypeRef
  | [] => []
  | decl :: rest => decl.refs ++ refsOfAll rest

end

mutual

def descriptions : TypeDecl → List String
  | ⟨_, heading, _, _, fields, methods, nested⟩ =>
    heading.description.toList ++ fields.flatMap Field.descriptions ++
      methods.flatMap Method.descriptions ++ descriptionsOfAll nested

def descriptionsOfAll : List TypeDecl → List String
  | [] => []
  | decl :: rest => decl.descriptions ++ descriptionsOfAll rest

end

@[elab_as_elim]
theorem induct {motive : TypeDecl → Prop}
    (step : ∀ d, (∀ n ∈ d.nested, motive n) → motive d) (d : TypeDecl) : motive d :=
  @TypeDecl.rec motive (fun l => ∀ n ∈ l, motive n)
    (fun _ _ _ _ _ _ nested ih => step ⟨_, _, _, _, _, _, nested⟩ ih) (by simp)
    (fun _ _ h hl => List.forall_mem_cons.2 ⟨h, hl⟩) d

theorem blocksOfAll_eq (decls : List TypeDecl) : blocksOfAll decls = decls.flatMap blocks := by
  induction decls with
  | nil => simp [blocksOfAll]
  | cons d rest ih => simp [blocksOfAll, ih]

theorem refsOfAll_eq (decls : List TypeDecl) : refsOfAll decls = decls.flatMap refs := by
  induction decls with
  | nil => simp [refsOfAll]
  | cons d rest ih => simp [refsOfAll, ih]

theorem descriptionsOfAll_eq (decls : List TypeDecl) :
    descriptionsOfAll decls = decls.flatMap descriptions := by
  induction decls with
  | nil => simp [descriptionsOfAll]
  | cons d rest ih => simp [descriptionsOfAll, ih]

theorem nestedOps_eq (decls : List TypeDecl) :
    nestedOps decls = decls.map fun d => [.nested d.ops] := by
  induction decls with
  | nil => simp [nestedOps]
  | cons d rest ih => simp [nestedOps, ih]

theorem blocks_eq (d : TypeDecl) :
    d.blocks = d.fields.flatMap Field.blocks ++ d.methods.flatMap Method.blocks ++
      d.nested.flatMap blocks := by
  cases d
  simp [blocks, blocksOfAll_eq]

theorem refs_eq (d : TypeDecl) :
    d.refs = d.inherited ++ d.fields.flatMap Field.refs ++ d.methods.flatMap Method.refs ++
      d.nested.flatMap refs := by
  cases d
  simp [refs, refsOfAll_eq, inherited]

theorem descriptions_eq (d : TypeDecl) :
    d.descriptions = d.heading.description.toList ++ d.fields.flatMap Field.descriptions ++
      d.methods.flatMap Method.descriptions ++ d.nested.flatMap descriptions := by
  cases d
  simp [descriptions, descriptionsOfAll_eq]

theorem forall_blocks {P : Block → Prop} {d : TypeDecl} :
    (∀ b ∈ d.blocks, P b) ↔ (∀ f ∈ d.fields, ∀ b ∈ f.blocks, P b) ∧
      (∀ m ∈ d.methods, ∀ b ∈ m.blocks, P b) ∧ ∀ n ∈ d.nested, ∀ b ∈ n.blocks, P b := by
  rw [d.blocks_eq, List.forall_mem_append, List.forall_mem_append, List.forall_mem_flatMap,
    List.forall_mem_flatMap, List.forall_mem_flatMap, and_assoc]

theorem refs_of_block {d : TypeDecl} {b : Block} {r : TypeRef} (hb : b ∈ d.blocks)
    (hr : r ∈ b.refs) : r ∈ d.refs := by
  induction d using TypeDecl.induct with
  | step d ih =>
    rw [d.blocks_eq] at hb
    rw [d.refs_eq]
    simp only [List.mem_append, List.mem_flatMap] at hb ⊢
    rcases hb with (⟨f, hf, hb⟩ | ⟨m, hm, hb⟩) | ⟨n, hn, hb⟩
    · exact Or.inl (Or.inl (Or.inr ⟨f, hf, Field.refs_of_block hb hr⟩))
    · exact Or.inl (Or.inr ⟨m, hm, Method.refs_of_block hb hr⟩)
    · exact Or.inr ⟨n, hn, ih n hn hb⟩

def memberOps (d : TypeDecl) : List Op :=
  d.fields.flatMap Field.ops ++
    separatedOps (!d.fields.isEmpty)
      (d.methods.map Method.ops ++ d.nested.map fun n => [.nested n.ops])

def announcement (d : TypeDecl) : Event :=
  .emittingType d.heading.name d.kind d.fields.length d.methods.length

theorem ops_eq (d : TypeDecl) :
    d.ops = .report d.announcement :: d.headerOps ++ [.openScope] ++ d.memberOps ++
      [.closeScope] := by
  cases d
  simp [ops, memberOps, announcement, nestedOps_eq]

end TypeDecl

namespace Node

def blocks : Node → List Block
  | .parameter p => p.blocks
  | .field f => f.blocks
  | .method m => m.blocks
  | .type d => d.blocks
  | .block b => [b]
  | .ref _ => []

def literals (node : Node) : List String :=
  node.blocks.flatMap Block.literals

def refs : Node → List TypeRef
  | .parameter p => p.refs
  | .field f => f.refs
  | .method m => m.refs
  | .type d => d.refs
  | .block b => b.refs
  | .ref t => [t]

def descriptions : Node → List String
  | .field f => f.descriptions
  | .method m => m.descriptions
  | .type d => d.descriptions
  | _ => []

theorem refs_of_block {node : Node} {b : Block} {r : TypeRef} (hb : b ∈ node.blocks)
    (hr : r ∈ b.refs) : r ∈ node.refs := by
  cases node with
  | parameter p => exact Parameter.refs_of_block hb hr
  | field f => exact Field.refs_of_block hb hr
  | method m => exact Method.refs_of_block hb hr
  | type d => exact TypeDecl.refs_of_block hb hr
  | block c =>
    rw [List.mem_singleton.1 hb] at hr
    exact hr
  | ref t => simp [blocks] at hb

/-- A declaration stands on lines of its own: a type, a method, or a field that
a type has adopted. -/
def IsDeclaration : Node → Prop
  | .type _ => True
  | .method _ => True
  | .field f => ∃ kind, f.parent = some (.type kind)
  | _ => False

end Node

end SwiftDecl
