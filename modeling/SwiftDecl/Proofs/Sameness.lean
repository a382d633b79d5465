import SwiftDecl.Proofs.Parts

/-!
# Sameness

Type references are compared as they are written, wherever they stand. So two
pieces are the same exactly if they become equal once each reference in them is
replaced by a plain name with the text it is written as. Sameness is thus the
kernel of one map, and an equivalence. The map leaves the operations alone, so
what is the same is written alike.
-/

set_option autoImplicit false

namespace SwiftDecl
open SwiftDecl.Layout

theorem list_beq_iff {α β : Type} [BEq α] {f : α → β}
    (h : ∀ a b : α, (a == b) = true ↔ f a = f b) (as bs : List α) :
    (as == bs) = true ↔ as.map f = bs.map f := by
  induction as generalizing bs with
  | nil => cases bs <;> simp
  | cons a as ih =>
    cases bs with
    | nil => simp
    | cons b bs => simp [h, ih]

theorem option_beq_iff {α β : Type} [BEq α] {f : α → β}
    (h : ∀ a b : α, (a == b) = true ↔ f a = f b) (a b : Option α) :
    (a == b) = true ↔ a.map f = b.map f := by
  cases a <;> cases b <;> simp [h]

namespace TypeRef

def asWritten (r : TypeRef) : TypeRef :=
  .named ∅ r.render

@[simp] theorem render_asWritten (r : TypeRef) : r.asWritten.render = r.render := by
  simp [asWritten, render]

theorem beq_iff (a b : TypeRef) : (a == b) = true ↔ a.asWritten = b.asWritten := by
  change (a.render == b.render) = true ↔ _
  simp [asWritten]

end TypeRef

namespace Token

mutual

/-- The token with every reference in it as written. -/
def asWritten : Token → Token
  | .type ref => .type ref.asWritten
  | .code block => .code (asWrittenAll block)
  | token => token

def asWrittenAll : List Token → List Token
  | [] => []
  | token :: rest => token.asWritten :: asWrittenAll rest

end

/-- Sameness of two tokens, provided that it is settled for the block inside the
first one, if there is any. -/
theorem same_iff_of_inner {a b : Token}
    (h : ∀ inner, a = .code inner → ∀ other,
      sameAll inner other = true ↔ asWrittenAll inner = asWrittenAll other) :
    a.same b = true ↔ a.asWritten = b.asWritten := by
  cases a with
  | type r => cases b <;> simp [same, asWritten, TypeRef.beq_iff]
  | code inner => cases b <;> simp [same, asWritten, h inner rfl]
  | _ => cases b <;> simp [same, asWritten]

end Token

namespace Block

def asWritten (block : Block) : Block :=
  Token.asWrittenAll block

theorem same_iff (a b : Block) : a.same b = true ↔ a.asWritten = b.asWritten := by
  show Token.sameAll a b = true ↔ Token.asWrittenAll a = Token.asWrittenAll b
  induction a using Block.induct generalizing b with
  | step a ih =>
    induction a generalizing b with
    | nil => cases b <;> simp [Token.sameAll, Token.asWrittenAll]
    | cons token rest ihr =>
      have hrest := ihr fun inner hm => ih inner (List.mem_cons_of_mem _ hm)
      have htoken : ∀ other : Token,
          token.same other = true ↔ token.asWritten = other.asWritten := by
        intro other
        apply Token.same_iff_of_inner
        intro inner hi
        exact ih inner (by simp [hi])
      cases b with
      | nil => simp [Token.sameAll, Token.asWrittenAll]
      | cons other more => simp [Token.sameAll, Token.asWrittenAll, htoken, hrest]

theorem sameOption_iff (a b : Option Block) :
    sameOption a b = true ↔ a.map asWritten = b.map asWritten := by
  cases a <;> cases b <;> simp [sameOption, same_iff]

theorem ops_asWritten (block : Block) : block.asWritten.ops = block.ops := by
  show Token.opsOfAll (Token.asWrittenAll block) = Token.opsOfAll block
  induction block using Block.induct with
  | step block ih =>
    induction block with
    | nil => simp [Token.asWrittenAll]
    | cons token rest ihr =>
      have hrest := ihr fun inner hm => ih inner (List.mem_cons_of_mem _ hm)
      have htoken : token.asWritten.op = token.op := by
        cases token with
        | type r => simp [Token.asWritten, Token.op]
        | code inner => simp [Token.asWritten, Token.op, ih inner (by simp)]
        | _ => simp [Token.asWritten]
      simp [Token.asWrittenAll, Token.opsOfAll, htoken, hrest]

end Block

namespace Parameter

def asWritten (p : Parameter) : Parameter :=
  { p with type := p.type.asWritten, defaultValue := p.defaultValue.map Block.asWritten }

theorem beq_iff (a b : Parameter) : (a == b) = true ↔ a.asWritten = b.asWritten := by
  change a.same b = true ↔ _
  simp only [same, Bool.and_eq_true, beq_iff_eq, TypeRef.beq_iff, Block.sameOption_iff]
  simp only [asWritten, mk.injEq, and_assoc]

theorem ops_asWritten (p : Parameter) : p.asWritten.ops = p.ops := by
  have hdefault : p.asWritten.defaultOps = p.defaultOps := by
    unfold defaultOps asWritten
    cases p.defaultValue <;> simp [Block.ops_asWritten]
  simp only [ops, hdefault]
  simp [asWritten, labelOps]

end Parameter

namespace Field

def asWritten (f : Field) : Field :=
  { f with
    type := f.type.map TypeRef.asWritten
    initializer := f.initializer.map Block.asWritten }

theorem beq_iff (a b : Field) : (a == b) = true ↔ a.asWritten = b.asWritten := by
  change a.same b = true ↔ _
  simp only [same, Bool.and_eq_true, beq_iff_eq, option_beq_iff TypeRef.beq_iff,
    Block.sameOption_iff]
  simp only [asWritten, mk.injEq]
  tauto

theorem ops_asWritten (f : Field) : f.asWritten.ops = f.ops := by
  have htype : f.asWritten.typeOps = f.typeOps := by
    unfold typeOps asWritten
    cases f.type <;> simp
  have hinit : f.asWritten.initializerOps = f.initializerOps := by
    unfold initializerOps asWritten
    cases f.initializer <;> simp [Block.ops_asWritten]
  have hdecl : f.asWritten.declarationOps = f.declarationOps := by
    simp only [declarationOps, caseOps, requirementOps, propertyOps, htype, hinit]
    rfl
  simp only [ops, hdecl]
  rfl

end Field

namespace Method

def asWritten (m : Method) : Method :=
  { m with
    typeVariables := m.typeVariables.map TypeRef.asWritten
    returns := m.returns.map TypeRef.asWritten
    parameters := m.parameters.map Parameter.asWritten
    body := m.body.map Block.asWritten }

theorem beq_iff (a b : Method) : (a == b) = true ↔ a.asWritten = b.asWritten := by
  change a.same b = true ↔ _
  simp only [same, Bool.and_eq_true, beq_iff_eq, list_beq_iff TypeRef.beq_iff,
    option_beq_iff TypeRef.beq_iff, list_beq_iff Parameter.beq_iff, Block.sameOption_iff]
  simp only [asWritten, mk.injEq, and_assoc]

theorem ops_asWritten (m : Method) : m.asWritten.ops = m.ops := by
  have hvars : m.asWritten.typeVariableOps = m.typeVariableOps := by
    simp [typeVariableOps, asWritten, Function.comp_def]
  have hparams : m.asWritten.parameterOps = m.parameterOps := by
    simp [parameterOps, asWritten, Function.comp_def, Parameter.ops_asWritten]
  have hreturn : m.asWritten.returnOps = m.returnOps := by
    unfold returnOps asWritten
    cases m.returns <;> simp
  have hcode : (m.asWritten.body.getD []).ops = (m.body.getD []).ops := by
    unfold asWritten
    cases m.body <;> simp [Block.ops_asWritten]
  have hbody : m.asWritten.bodyOps = m.bodyOps := by
    simp only [bodyOps, hcode]
    rfl
  simp only [ops, signatureOps, hvars, hparams, hreturn, hbody]
  rfl

end Method

namespace TypeDecl

mutual

def asWritten : TypeDecl → TypeDecl
  | ⟨kind, heading, superType, protocols, fields, methods, nested⟩ =>
    ⟨kind, heading, superType.map TypeRef.asWritten, protocols.map TypeRef.asWritten,
      fields.map Field.asWritten, methods.map Method.asWritten, asWrittenAll nested⟩

def asWrittenAll : List TypeDecl → List TypeDecl
  | [] => []
  | d :: rest => d.asWritten :: asWrittenAll rest

end

theorem asWrittenAll_eq (decls : List TypeDecl) : asWrittenAll decls = decls.map asWritten := by
  induction decls with
  | nil => simp [asWrittenAll]
  | cons d rest ih => simp [asWrittenAll, ih]

theorem sameAll_iff {as : List TypeDecl}
    (h : ∀ a ∈ as, ∀ b : TypeDecl, a.same b = true ↔ a.asWritten = b.asWritten)
    (bs : List TypeDecl) : sameAll as bs = true ↔ asWrittenAll as = asWrittenAll bs := by
  induction as generalizing bs with
  | nil => cases bs <;> simp [sameAll, asWrittenAll]
  | cons a as ih =>
    have hrest := ih fun n hn => h n (by simp [hn])
    cases bs with
    | nil => simp [sameAll, asWrittenAll]
    | cons b bs => simp [sameAll, asWrittenAll, h a (by simp), hrest]

theorem beq_iff (a b : TypeDecl) : (a == b) = true ↔ a.asWritten = b.asWritten := by
  change a.same b = true ↔ _
  induction a using TypeDecl.induct generalizing b with
  | step a ih =>
    cases a with
    | mk kind heading superType protocols fields methods nested =>
      have hnested := sameAll_iff ih b.nested
      cases b
      simp only [same, Bool.and_eq_true, beq_iff_eq, option_beq_iff TypeRef.beq_iff,
        list_beq_iff TypeRef.beq_iff, list_beq_iff Field.beq_iff, list_beq_iff Method.beq_iff,
        hnested]
      simp only [asWritten, mk.injEq, and_assoc]

theorem inheritanceOps_asWritten (types : List TypeRef) :
    inheritanceOps (types.map TypeRef.asWritten) = inheritanceOps types := by
  cases types with
  | nil => rfl
  | cons first rest => simp [inheritanceOps, List.flatMap_map]

theorem headerOps_asWritten (d : TypeDecl) : d.asWritten.headerOps = d.headerOps := by
  cases d with
  | mk kind heading superType protocols fields methods nested =>
    have hinherited : (superType.map TypeRef.asWritten).toList =
        superType.toList.map TypeRef.asWritten := by
      cases superType <;> rfl
    simp only [headerOps, inherited, asWritten, hinherited, ← List.map_append,
      inheritanceOps_asWritten]
    rfl

theorem ops_asWritten (d : TypeDecl) : d.asWritten.ops = d.ops := by
  induction d using TypeDecl.induct with
  | step d ih =>
    have hheader := d.headerOps_asWritten
    cases d with
    | mk kind heading superType protocols fields methods nested =>
      have hnested : (nested.map asWritten).map (fun n => [Op.nested n.ops]) =
          nested.map fun n => [Op.nested n.ops] := by
        rw [List.map_map]
        apply List.map_congr_left
        intro n hn
        simp [ih n hn]
      have hfields : (fields.map Field.asWritten).flatMap Field.ops = fields.flatMap Field.ops := by
        simp [List.flatMap_map, Field.ops_asWritten]
      have hmethods : (methods.map Method.asWritten).map Method.ops = methods.map Method.ops := by
        simp [Function.comp_def, Method.ops_asWritten]
      rw [ops_eq, ops_eq, hheader]
      simp only [memberOps, announcement, asWritten, asWrittenAll_eq, hnested, hfields, hmethods]
      simp

end TypeDecl

namespace Node

def asWritten : Node → Node
  | .parameter p => .parameter p.asWritten
  | .field f => .field f.asWritten
  | .method m => .method m.asWritten
  | .type d => .type d.asWritten
  | .block b => .block b.asWritten
  | .ref t => .ref t.asWritten

theorem beq_iff (a b : Node) : (a == b) = true ↔ a.asWritten = b.asWritten := by
  change a.same b = true ↔ _
  cases a with
  | parameter p =>
    cases b <;> simp [same, asWritten]
    exact Parameter.beq_iff p _
  | field f =>
    cases b <;> simp [same, asWritten]
    exact Field.beq_iff f _
  | method m =>
    cases b <;> simp [same, asWritten]
    exact Method.beq_iff m _
  | type d =>
    cases b <;> simp [same, asWritten]
    exact TypeDecl.beq_iff d _
  | block c =>
    cases b <;> simp [same, asWritten]
    exact Block.same_iff c _
  | ref t =>
    cases b <;> simp [same, asWritten]
    exact TypeRef.beq_iff t _

theorem ops_asWritten (node : Node) : node.asWritten.ops = node.ops := by
  cases node with
  | parameter p => exact p.ops_asWritten
  | field f => exact f.ops_asWritten
  | method m => exact m.ops_asWritten
  | type d => exact d.ops_asWritten
  | block b => exact b.ops_asWritten
  | ref t => simp [asWritten, ops]

end Node

theorem declaresSame_ops {p q : Parameter} (h : p.declaresSame q = true) : p.ops = q.ops := by
  simp only [Parameter.declaresSame, Bool.and_eq_true, beq_iff_eq] at h
  have hsame : ({ p with heading := q.heading } == q) = true := by
    change Parameter.same _ _ = true
    simp [Parameter.same, h]
  have hops : p.ops = Parameter.ops { p with heading := q.heading } := by
    simp only [Parameter.ops, h.1.1.1]
    rfl
  rw [hops, ← Parameter.ops_asWritten, (Parameter.beq_iff _ _).1 hsame, Parameter.ops_asWritten]

/-- Equality of nodes compares them with each type reference replaced by its
text. It is an equivalence, and equal nodes leave every writer in the same state,
as do two parameters that declare the same. -/
theorem same_written_alike :
    (∀ a b : Node, (a == b) = true ↔ a.asWritten = b.asWritten) ∧
    Equivalence (fun a b : Node => (a == b) = true) ∧
    (∀ a b : Node, (a == b) = true → ∀ w : Writer, w.emit a = w.emit b) ∧
    ∀ p q : Parameter, p.declaresSame q = true →
      ∀ w : Writer, w.emit (.parameter p) = w.emit (.parameter q) := by
  refine ⟨Node.beq_iff, ⟨?_, ?_, ?_⟩, ?_, ?_⟩
  · intro a
    rw [Node.beq_iff]
  · intro a b h
    rw [Node.beq_iff] at h ⊢
    exact h.symm
  · intro a b c hab hbc
    rw [Node.beq_iff] at hab hbc ⊢
    exact hab.trans hbc
  · intro a b h w
    rw [Writer.emit, Writer.emit, ← a.ops_asWritten, (Node.beq_iff a b).1 h, b.ops_asWritten]
  · intro p q h w
    show w.run p.ops = w.run q.ops
    rw [declaresSame_ops h]

/-- A list as a reference of its own and as a plain name, inside of a nested
block, and two parameters that share no more than what is written of them. -/
theorem same_written_alike_list :
    (∀ w : Writer, w.emit (.block [.code [.type (.array (.ofList ["Core"]) (.named ∅ "Int"))]]) =
      w.emit (.block [.code [.type (.named ∅ "[Int]")]])) ∧
    ∀ w : Writer,
      w.emit (.parameter (.declare "count" (.array ∅ (.named (.ofList ["Core"]) "Int"))
        [.heading (.description "How many."), .heading (.depends "Base")])) =
      w.emit (.parameter (.declare "count" (.named ∅ "[Int]") [])) := by
  obtain ⟨_, _, hnode, hparameter⟩ := same_written_alike
  exact ⟨hnode _ _ (by decide +kernel), hparameter _ _ (by decide +kernel)⟩

end SwiftDecl
