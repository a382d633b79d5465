import SwiftDecl.Proofs.Parts

/-!
# Assembly

A declaration is put together from a few sorts of operations: fixed texts,
cleaned names, modifiers, comment lines, what its author supplies, and scopes
around them. A property of operation lists that holds of each sort and of lists
one after the other holds of every field, of every method and of the header of
every type. Types are left out: the members of a type are separated by empty
lines and nested, and what follows from that differs from property to property.
-/

set_option autoImplicit false

namespace SwiftDecl
open SwiftDecl.Layout

def fixedTexts : List String :=
  [":", "=", ",", "<", ">", "(", ")", "->", "throws", "init", "case", "let", "var", "func", "_",
   "class", "struct", "enum", "protocol", "extension", "\x7bget set\x7d", "\x7b get \x7d"]

theorem fixed_text {text : String} (h : text ∈ fixedTexts) :
    text.toList ≠ [] ∧ '\n' ∉ text.toList := by
  revert text
  decide +kernel

/-- `C` holds of what a declaration writes besides what is supplied with it, and
is closed under appending and bracing. -/
structure Assembles (C : List Op → Prop) : Prop where
  nil : C []
  append : ∀ {a b : List Op}, C a → C b → C (a ++ b)
  braced : ∀ {inner : List Op}, C inner → C (.openScope :: inner ++ [.closeScope])
  endLine : C [.endLine]
  report : ∀ event, C [.report event]
  fixed : ∀ text ∈ fixedTexts, C [.literal text]
  modifier : ∀ m : Modifier, C [.word m.keyword]
  typeName : ∀ raw, C [.literal (Name.typeName raw)]
  memberName : ∀ raw, C [.literal (Name.memberName raw)]
  declaredName : ∀ d : TypeDecl, C [.literal d.typeName]

structure Provides (C : List Op → Prop) (blocks : List Block) (refs : List TypeRef)
    (descriptions : List String) : Prop where
  block : ∀ b ∈ blocks, C b.ops
  ref : ∀ r ∈ refs, C [.word r.render]
  description : ∀ text ∈ descriptions, ∀ line ∈ Text.lines (Text.trimEnd text.toList),
    C [.word (Heading.commentLine line), .newLine]

variable {C : List Op → Prop}

theorem Provides.mono {blocks blocks' : List Block} {refs refs' : List TypeRef}
    {descriptions descriptions' : List String} (h : Provides C blocks refs descriptions)
    (hb : blocks' ⊆ blocks) (hr : refs' ⊆ refs) (hd : descriptions' ⊆ descriptions) :
    Provides C blocks' refs' descriptions' where
  block := fun b h' => h.block b (hb h')
  ref := fun r h' => h.ref r (hr h')
  description := fun t h' => h.description t (hd h')

namespace Assembles

theorem cons (ha : Assembles C) {op : Op} {rest : List Op} (ho : C [op]) (hr : C rest) :
    C (op :: rest) :=
  ha.append ho hr

theorem flatMap (ha : Assembles C) {α : Type} {f : α → List Op} {l : List α}
    (h : ∀ x ∈ l, C (f x)) : C (l.flatMap f) := by
  induction l with
  | nil => exact ha.nil
  | cons x l ih =>
    rw [List.flatMap_cons]
    exact ha.append (h x (by simp)) (ih fun y hy => h y (by simp [hy]))

theorem documentation (ha : Assembles C) (heading : Heading)
    (h : Provides C [] [] heading.description.toList) : C heading.documentationOps := by
  unfold Heading.documentationOps
  cases hd : heading.description with
  | none => exact ha.nil
  | some text =>
    have ht : text ∈ heading.description.toList := by simp [hd]
    simp only [Heading.descriptionOps]
    split
    · exact ha.nil
    · apply ha.cons ha.endLine
      apply ha.flatMap
      exact h.description text ht

theorem modifiers (ha : Assembles C) (heading : Heading) : C heading.modifierOps := by
  unfold Heading.modifierOps
  rw [List.map_eq_flatMap]
  exact ha.flatMap fun m _ => ha.modifier m

theorem assignment (ha : Assembles C) {block : Block} (h : C block.ops) :
    C (.literal "=" :: block.ops) :=
  ha.cons (ha.fixed "=" (by decide)) h

theorem commaSeparated (ha : Assembles C) (parts : List (List Op)) (h : ∀ part ∈ parts, C part) :
    C (Method.commaSeparated parts) := by
  induction parts with
  | nil => exact ha.nil
  | cons first rest ih =>
    have hf := h first (by simp)
    have hr := ih fun part hp => h part (by simp [hp])
    cases rest with
    | nil => exact hf
    | cons second more => exact ha.append hf (ha.cons (ha.fixed "," (by decide)) hr)

theorem parameter (ha : Assembles C) (p : Parameter) (h : Provides C p.blocks p.refs []) :
    C p.ops := by
  have hlabel : C p.labelOps := by
    unfold Parameter.labelOps
    cases p.label with
    | none => exact ha.nil
    | some label =>
      show C [.literal (Parameter.labelText label)]
      unfold Parameter.labelText
      split
      · exact ha.fixed "_" (by decide)
      · exact ha.memberName label
  have hdefault : C p.defaultOps := by
    unfold Parameter.defaultOps
    cases hd : p.defaultValue with
    | none => exact ha.nil
    | some block => exact ha.assignment (h.block block (by simp [Parameter.blocks, hd]))
  have hname : C [.literal (Name.memberName p.heading.name), .literal ":",
      .word p.type.render] :=
    ha.cons (ha.memberName _) (ha.cons (ha.fixed ":" (by decide))
      (h.ref p.type (by simp [Parameter.refs])))
  exact ha.append (ha.append hlabel hname) hdefault

theorem field (ha : Assembles C) (f : Field) (h : Provides C f.blocks f.refs f.descriptions) :
    C f.ops := by
  have hdoc := ha.documentation f.heading
    (h.mono (by simp) (by simp) (by simp [Field.descriptions]))
  have hmod := ha.modifiers f.heading
  have htype : C f.typeOps := by
    unfold Field.typeOps
    cases ht : f.type with
    | none => exact ha.nil
    | some type =>
      exact ha.cons (ha.fixed ":" (by decide)) (h.ref type (by simp [Field.refs, ht]))
  have hinit : C f.initializerOps := by
    unfold Field.initializerOps
    cases hd : f.initializer with
    | none => exact ha.nil
    | some block => exact ha.assignment (h.block block (by simp [Field.blocks, hd]))
  have hmember : ∀ keyword ∈ fixedTexts,
      C [.literal keyword, .literal (Name.memberName f.heading.name)] :=
    fun keyword hk => ha.cons (ha.fixed keyword hk) (ha.memberName _)
  unfold Field.ops Field.declarationOps
  refine ha.append hdoc ?_
  split
  · exact ha.append (ha.append (ha.cons (ha.fixed "case" (by decide)) (ha.typeName _)) hinit)
      ha.endLine
  · refine ha.append (ha.append (ha.append hmod (hmember _ (by decide))) htype)
      (ha.cons ?_ ha.endLine)
    exact ha.fixed _ (by unfold Field.accessors; split <;> decide)
  · refine ha.append (ha.append (ha.append (ha.append hmod (hmember _ ?_)) htype) hinit)
      ha.endLine
    unfold Field.construct
    split <;> decide
  · exact ha.report _
  · exact ha.report _

theorem signature_split (ha : Assembles C) (m : Method)
    (h : Provides C m.blocks m.refs m.descriptions) :
    ∃ before after, m.signatureOps = before ++ .literal ")" :: after ∧ C before ∧ C after := by
  have hdoc := ha.documentation m.heading
    (h.mono (by simp) (by simp) (by simp [Method.descriptions]))
  have hname : C m.nameOps := by
    unfold Method.nameOps
    split
    · exact ha.fixed "init" (by decide)
    · exact ha.cons (ha.fixed "func" (by decide)) (ha.memberName _)
  have hvars : C m.typeVariableOps := by
    unfold Method.typeVariableOps
    split
    · exact ha.nil
    · refine ha.append (ha.cons (ha.fixed "<" (by decide)) ?_) (ha.fixed ">" (by decide))
      apply ha.commaSeparated
      intro part hp
      obtain ⟨type, ht, rfl⟩ := List.mem_map.1 hp
      exact h.ref type (by simp [Method.refs, ht])
  have hparams : C (Method.commaSeparated (m.parameters.map Parameter.ops)) := by
    apply ha.commaSeparated
    intro part hp
    obtain ⟨p, hm, rfl⟩ := List.mem_map.1 hp
    refine ha.parameter p (h.mono ?_ ?_ (by simp))
    · exact fun b hb => by simp only [Method.blocks, List.mem_append, List.mem_flatMap]; grind
    · exact fun r hr => by simp only [Method.refs, List.mem_append, List.mem_flatMap]; grind
  have heffect : C m.effectOps := by
    unfold Method.effectOps
    split
    · exact ha.fixed "throws" (by decide)
    · exact ha.nil
  have hreturn : C m.returnOps := by
    unfold Method.returnOps
    cases ht : m.returns with
    | none => exact ha.nil
    | some type =>
      exact ha.cons (ha.fixed "->" (by decide)) (h.ref type (by simp [Method.refs, ht]))
  refine ⟨m.heading.documentationOps ++ m.heading.modifierOps ++ m.nameOps ++ m.typeVariableOps ++
    .literal "(" :: Method.commaSeparated (m.parameters.map Parameter.ops),
    m.effectOps ++ m.returnOps, ?_, ?_, ha.append heffect hreturn⟩
  · simp [Method.signatureOps, Method.parameterOps]
  · exact ha.append (ha.append (ha.append (ha.append hdoc (ha.modifiers m.heading)) hname) hvars)
      (ha.cons (ha.fixed "(" (by decide)) hparams)

theorem body (ha : Assembles C) (m : Method) (h : Provides C m.blocks m.refs m.descriptions) :
    C m.bodyOps := by
  unfold Method.bodyOps
  split
  · exact ha.endLine
  · apply ha.braced
    cases hb : m.body with
    | none => exact ha.nil
    | some block => exact h.block block (by simp [Method.blocks, hb])

theorem method (ha : Assembles C) (m : Method) (h : Provides C m.blocks m.refs m.descriptions) :
    C m.ops := by
  obtain ⟨before, after, hs, hbefore, hafter⟩ := ha.signature_split m h
  rw [Method.ops, hs]
  exact ha.append (ha.append hbefore (ha.cons (ha.fixed ")" (by decide)) hafter)) (ha.body m h)

theorem header (ha : Assembles C) (d : TypeDecl)
    (h : Provides C [] d.inherited d.heading.description.toList) : C d.headerOps := by
  have hdoc := ha.documentation d.heading (h.mono (by simp) (by simp) (by simp))
  have hkeyword : d.kind.keyword ∈ fixedTexts := by cases d.kind <;> decide
  have hname : C [.literal d.kind.keyword, .literal d.typeName] :=
    ha.cons (ha.fixed _ hkeyword) (ha.declaredName d)
  have hinherit : ∀ types ⊆ d.inherited, C (TypeDecl.inheritanceOps types) := by
    intro types ht
    cases types with
    | nil => exact ha.nil
    | cons first rest =>
      refine ha.cons (ha.fixed ":" (by decide)) (ha.cons (h.ref first (ht (by simp))) ?_)
      apply ha.flatMap
      intro type hm
      exact ha.cons (ha.fixed "," (by decide)) (h.ref type (ht (by simp [hm])))
  exact ha.append (ha.append (ha.append hdoc (ha.modifiers d.heading)) hname)
    (hinherit _ (List.Subset.refl _))

end Assembles

structure TypeProvides (C : List Op → Prop) (d : TypeDecl) : Prop where
  header : Provides C [] d.inherited d.heading.description.toList
  field : ∀ f ∈ d.fields, Provides C f.blocks f.refs f.descriptions
  method : ∀ m ∈ d.methods, Provides C m.blocks m.refs m.descriptions
  nested : ∀ n ∈ d.nested, Provides C n.blocks n.refs n.descriptions

theorem type_provides {d : TypeDecl} (h : Provides C d.blocks d.refs d.descriptions) :
    TypeProvides C d := by
  rw [d.blocks_eq, d.refs_eq, d.descriptions_eq] at h
  constructor
  · exact h.mono (by simp) (fun r hr => by simp [hr])
      (fun t ht => by simp only [List.mem_append]; grind)
  all_goals
    intro x hx
    refine h.mono ?_ ?_ ?_ <;> intro y hy <;>
      simp only [List.mem_append, List.mem_flatMap] <;> grind

end SwiftDecl
