import SwiftDecl.Proofs.Parts

/-!
# Outline

Most operations only write. What is left of a list without them is its outline:
the lists nested in it and the events it reports. The outline of a declaration
is put together from those of the blocks it writes, with one nested list for
each type inside it. A requirement of a protocol writes neither an initializer
nor a body, so these are not in its outline.

Members of a declared type know the type they are in, because it has adopted
them.
-/

set_option autoImplicit false

namespace SwiftDecl
open SwiftDecl.Layout

namespace Layout.Op

@[simp] def outline : List Op → List Op
  | [] => []
  | .nested inner :: rest => .nested inner :: outline rest
  | .report event :: rest => .report event :: outline rest
  | _ :: rest => outline rest

@[simp] theorem outline_append (a b : List Op) : outline (a ++ b) = outline a ++ outline b := by
  induction a with
  | nil => rfl
  | cons op rest ih => cases op <;> simp [ih]

theorem outline_flatMap {α : Type} (f : α → List Op) (l : List α) :
    outline (l.flatMap f) = l.flatMap fun x => outline (f x) := by
  induction l with
  | nil => rfl
  | cons x rest ih => rw [List.flatMap_cons, outline_append, ih, List.flatMap_cons]

theorem nested_mem_outline {inner ops : List Op} :
    Op.nested inner ∈ outline ops ↔ Op.nested inner ∈ ops := by
  induction ops with
  | nil => rfl
  | cons op rest ih => cases op <;> simp [ih]

theorem report_mem_outline {event : Event} {ops : List Op} :
    Op.report event ∈ outline ops ↔ Op.report event ∈ ops := by
  induction ops with
  | nil => rfl
  | cons op rest ih => cases op <;> simp [ih]

end Layout.Op

open Layout.Op

@[simp] theorem outline_documentation (heading : Heading) :
    outline heading.documentationOps = [] := by
  unfold Heading.documentationOps Heading.descriptionOps Heading.commentOps
  split
  · rfl
  · split <;> simp [outline_flatMap]

@[simp] theorem outline_modifiers (heading : Heading) : outline heading.modifierOps = [] := by
  simp [Heading.modifierOps, List.map_eq_flatMap, outline_flatMap]

theorem outline_commaSeparated (parts : List (List Op)) :
    outline (Method.commaSeparated parts) = parts.flatMap outline := by
  induction parts with
  | nil => rfl
  | cons first rest ih =>
    cases rest with
    | nil => simp [Method.commaSeparated]
    | cons second more => simp [Method.commaSeparated, ih]

theorem outline_separated (follows : Bool) (members : List (List Op)) :
    outline (TypeDecl.separatedOps follows members) = members.flatMap outline := by
  induction members generalizing follows with
  | nil => rfl
  | cons member rest ih =>
    have hgap : outline (if follows then [Op.blankLine] else []) = [] := by
      cases follows <;> rfl
    rw [TypeDecl.separatedOps, outline_append, outline_append, hgap, ih, List.flatMap_cons,
      List.nil_append]

theorem Block.mem_outline {b : Block} {op : Op} :
    op ∈ outline b.ops ↔ ∃ c : Block, Token.code c ∈ b ∧ op = .nested c.ops := by
  induction b with
  | nil => simp
  | cons token rest ih =>
    cases token with
    | code c =>
      have hop : (Token.code c).op = .nested (Block.ops c) := by rw [Token.op, Block.ops]
      simp [hop, ih, or_and_right, exists_or]
    | _ => simp [Token.op, ih]

theorem Block.nested_mem_ops {b : Block} {inner : List Op} :
    Op.nested inner ∈ b.ops ↔ ∃ c : Block, Token.code c ∈ b ∧ c.ops = inner := by
  rw [← nested_mem_outline, Block.mem_outline]
  simp [eq_comm]

/-- What blocks contribute to the outline of the declaration that writes them. -/
def outlineOfBlocks (blocks : List Block) : List Op :=
  blocks.flatMap fun b => outline b.ops

theorem nested_mem_blocks {blocks : List Block} {inner : List Op} :
    Op.nested inner ∈ outlineOfBlocks blocks ↔ ∃ b ∈ blocks, Op.nested inner ∈ b.ops := by
  simp [outlineOfBlocks, nested_mem_outline]

theorem report_notMem_blocks {blocks : List Block} {event : Event} :
    Op.report event ∉ outlineOfBlocks blocks := by
  simp [outlineOfBlocks, Block.mem_outline]

theorem Field.outline_initializer (f : Field) :
    outline f.initializerOps = outlineOfBlocks f.blocks := by
  unfold Field.initializerOps Field.blocks outlineOfBlocks
  cases f.initializer with
  | none => rfl
  | some block => simp

theorem Field.outline_type (f : Field) : outline f.typeOps = [] := by
  unfold Field.typeOps
  cases f.type <;> rfl

theorem Field.outline_adopted {f : Field} {kind : TypeKind} (h : f.parent = some (.type kind)) :
    outline f.ops = if kind = .protocolType then [] else outlineOfBlocks f.blocks := by
  rw [Field.ops, outline_append, outline_documentation, List.nil_append, Field.declarationOps, h]
  cases kind with
  | enumType => simp [Field.caseOps, f.outline_initializer]
  | protocolType => simp [Field.requirementOps, f.outline_type]
  | classType | structType | extensionType =>
    simp [Field.propertyOps, f.outline_type, f.outline_initializer]

theorem Field.outline_loose {f : Field} (h : ∀ kind, f.parent ≠ some (.type kind)) :
    ∃ event : Event, event.severity = .debug ∧ outline f.ops = [.report event] := by
  rw [Field.ops, outline_append, outline_documentation, List.nil_append]
  unfold Field.declarationOps
  split
  · rename_i hp
    exact absurd hp (h _)
  · rename_i hp
    exact absurd hp (h _)
  · rename_i hp
    exact absurd hp (h _)
  · rename_i parent _ _ _ _
    exact ⟨.fieldNotInType f.heading.name parent, rfl, rfl⟩
  · exact ⟨.fieldNotAdopted f.heading.name, rfl, rfl⟩

theorem Field.report_severity {f : Field} {event : Event} (h : Op.report event ∈ f.ops) :
    event.severity = .debug := by
  have ho := report_mem_outline.2 h
  by_cases hp : ∃ kind, f.parent = some (.type kind)
  · obtain ⟨kind, hp⟩ := hp
    rw [Field.outline_adopted hp] at ho
    split at ho
    · simp at ho
    · exact absurd ho report_notMem_blocks
  · obtain ⟨only, hs, hl⟩ := Field.outline_loose fun kind hk => hp ⟨kind, hk⟩
    rw [hl, List.mem_singleton] at ho
    rwa [Op.report.inj ho]

theorem Parameter.outline_ops (p : Parameter) : outline p.ops = outlineOfBlocks p.blocks := by
  have hlabel : outline p.labelOps = [] := by
    unfold Parameter.labelOps
    cases p.label <;> rfl
  have hdefault : outline p.defaultOps = outlineOfBlocks p.blocks := by
    unfold Parameter.defaultOps Parameter.blocks outlineOfBlocks
    cases p.defaultValue with
    | none => rfl
    | some block => simp
  simp [Parameter.ops, hlabel, hdefault]

theorem Method.outline_ops (m : Method) :
    outline m.ops = outlineOfBlocks (m.parameters.flatMap Parameter.blocks) ++
      if m.parent = some (.type .protocolType) then [] else outlineOfBlocks m.body.toList := by
  have hname : outline m.nameOps = [] := by
    unfold Method.nameOps
    split <;> rfl
  have hvars : outline m.typeVariableOps = [] := by
    unfold Method.typeVariableOps
    split
    · rfl
    · simp [outline_commaSeparated, List.flatMap_map]
  have heffect : outline m.effectOps = [] := by
    unfold Method.effectOps
    split <;> rfl
  have hreturn : outline m.returnOps = [] := by
    unfold Method.returnOps
    split <;> rfl
  have hparameters : outline m.parameterOps =
      outlineOfBlocks (m.parameters.flatMap Parameter.blocks) := by
    simp [Method.parameterOps, outline_commaSeparated, List.flatMap_map, Parameter.outline_ops,
      outlineOfBlocks, List.flatMap_assoc]
  have hbody : outline m.bodyOps =
      if m.parent = some (.type .protocolType) then [] else outlineOfBlocks m.body.toList := by
    unfold Method.bodyOps
    split
    · rename_i hp
      simp [hp]
    · rename_i hp
      rw [if_neg hp]
      cases m.body <;> simp [outlineOfBlocks]
  simp [Method.ops, Method.signatureOps, hname, hvars, heffect, hreturn, hparameters, hbody]

theorem Method.report_notMem_ops {m : Method} {event : Event} : Op.report event ∉ m.ops := by
  rw [← report_mem_outline, m.outline_ops, List.mem_append]
  rintro (h | h)
  · exact report_notMem_blocks h
  · split at h
    · simp at h
    · exact report_notMem_blocks h

theorem TypeDecl.outline_ops (d : TypeDecl) :
    outline d.ops = .report d.announcement ::
      (d.fields.flatMap (fun f => outline f.ops) ++ d.methods.flatMap (fun m => outline m.ops) ++
        d.nested.map fun t => .nested t.ops) := by
  have hheader : outline d.headerOps = [] := by
    unfold TypeDecl.headerOps
    cases d.inherited with
    | nil => simp [TypeDecl.inheritanceOps]
    | cons first rest => simp [TypeDecl.inheritanceOps, outline_flatMap]
  have hmembers : outline d.memberOps =
      d.fields.flatMap (fun f => outline f.ops) ++ d.methods.flatMap (fun m => outline m.ops) ++
        d.nested.map fun t => .nested t.ops := by
    simp [TypeDecl.memberOps, outline_separated, outline_flatMap, List.flatMap_map,
      ← List.map_eq_flatMap]
  simp [d.ops_eq, hheader, hmembers]

theorem TypeDecl.nested_mem_ops {d : TypeDecl} {inner : List Op} :
    Op.nested inner ∈ d.ops ↔ (∃ f ∈ d.fields, Op.nested inner ∈ f.ops) ∨
      (∃ m ∈ d.methods, Op.nested inner ∈ m.ops) ∨ ∃ t ∈ d.nested, t.ops = inner := by
  rw [← nested_mem_outline, d.outline_ops]
  simp [nested_mem_outline]

theorem TypeDecl.report_mem_ops {d : TypeDecl} {event : Event} :
    Op.report event ∈ d.ops ↔ event = d.announcement ∨
      (∃ f ∈ d.fields, Op.report event ∈ f.ops) ∨ ∃ m ∈ d.methods, Op.report event ∈ m.ops := by
  rw [← report_mem_outline, d.outline_ops]
  simp [report_mem_outline]

namespace TypeDecl

/-- Fields and methods have been adopted, and `P` holds of the types inside. -/
structure Adopts (P : TypeDecl → Prop) (d : TypeDecl) : Prop where
  field : ∀ f ∈ d.fields, f.parent = some (.type d.kind)
  method : ∀ m ∈ d.methods, m.parent = some (.type d.kind)
  nested : ∀ t ∈ d.nested, P t

theorem Adopts.add {P : TypeDecl → Prop} {d : TypeDecl} (h : d.Adopts P) {clause : Clause}
    (hc : ∀ t, clause = .nested t → P t) : (d.add clause).Adopts P := by
  cases clause with
  | field field =>
    refine ⟨?_, h.method, h.nested⟩
    intro f hf
    rcases List.mem_append.1 hf with hf | hf
    · exact h.field f hf
    · rw [List.mem_singleton.1 hf]
      rfl
  | method method =>
    refine ⟨h.field, ?_, h.nested⟩
    intro m hm
    rcases List.mem_append.1 hm with hm | hm
    · exact h.method m hm
    · rw [List.mem_singleton.1 hm]
      rfl
  | nested inner =>
    refine ⟨h.field, h.method, ?_⟩
    intro t ht
    rcases List.mem_append.1 ht with ht | ht
    · exact h.nested t ht
    · rw [List.mem_singleton.1 ht]
      exact hc inner rfl
  | heading | superType | conforms => exact ⟨h.field, h.method, h.nested⟩

theorem adopts_declare {P : TypeDecl → Prop} (kind : TypeKind) (name : String)
    (clauses : List Clause) (h : ∀ t, Clause.nested t ∈ clauses → P t) :
    (declare kind name clauses).Adopts P := by
  have hall : ∀ d : TypeDecl, d.Adopts P → (clauses.foldl TypeDecl.add d).Adopts P := by
    induction clauses with
    | nil => exact fun d hd => hd
    | cons clause rest ih =>
      intro d hd
      apply ih
      · exact fun t ht => h t (List.mem_cons_of_mem _ ht)
      · exact hd.add fun t ht => h t (by simp [ht])
  exact hall (new kind name) ⟨by simp [new], by simp [new], by simp [new]⟩

/-- A type as it is declared, around types that are declared likewise. -/
inductive Declared : TypeDecl → Prop
  | intro {kind : TypeKind} {name : String} {clauses : List Clause}
      (inner : ∀ t, Clause.nested t ∈ clauses → Declared t) :
      Declared (declare kind name clauses)

theorem Declared.adopts {d : TypeDecl} (h : d.Declared) : d.Adopts Declared := by
  cases h with
  | intro inner => exact adopts_declare _ _ _ inner

end TypeDecl

end SwiftDecl
