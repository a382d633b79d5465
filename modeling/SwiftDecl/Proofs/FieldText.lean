import SwiftDecl.Proofs.Midline

/-!
# The text of a field

What a field looks like is decided by the kind of its owner: a case of an enum, a
requirement of a protocol, or a property. The field itself decides which of its
parts are there. Its initializer follows an equals sign on the same line, so it
shows its own text and not the indentation that it would have on a line of its
own.
-/

set_option autoImplicit false

namespace SwiftDecl
open SwiftDecl.Layout

namespace Field

def typeText (f : Field) : List Char :=
  match f.type with
  | none => []
  | some type => [':', ' '] ++ type.render.toList

def initializerText (f : Field) : List Char :=
  match f.initializer with
  | none => []
  | some code => code.assignment

def accessorText (f : Field) : List Char :=
  (if f.isMutable then " \x7bget set\x7d" else " \x7b get \x7d").toList

def caseText (f : Field) : List Char :=
  "case ".toList ++ (Name.typeName f.heading.name).toList ++ f.initializerText

def requirementText (f : Field) : List Char :=
  f.heading.modifierText ++ "var ".toList ++ (Name.memberName f.heading.name).toList ++
    f.typeText ++ f.accessorText

def propertyText (f : Field) : List Char :=
  f.heading.modifierText ++ (if f.isMutable then "var " else "let ").toList ++
    (Name.memberName f.heading.name).toList ++ f.typeText ++ f.initializerText

/-- The field as the source of a type of this kind shows it. -/
def sourceText (f : Field) : TypeKind → List Char
  | .enumType => f.caseText
  | .protocolType => f.requirementText
  | .classType | .structType | .extensionType => f.propertyText

variable {f : Field} {c : Char}

theorem documentationOps_none (hd : f.heading.description = none) :
    f.heading.documentationOps = [] := by
  rw [Heading.documentationOps, hd]

theorem type_continues (ht : ∀ type ∈ f.type, EndsClear ['(', '[', '<', '.'] type.render)
    (hc : Name.isNameChar c = true) (level : Nat) :
    Continues f.typeOps c f.typeText level level ∧ spacedAfter (endOf c f.typeText) = true := by
  unfold typeOps typeText
  cases hf : f.type with
  | none => exact ⟨Continues.nil, spacedAfter_nameChar hc⟩
  | some type =>
    have hclear := ht type hf
    refine ⟨typed_continues hc hclear.nonempty, ?_⟩
    obtain ⟨last, hlast, hmarks⟩ := hclear
    rw [endOf_of_getLast? hlast]
    exact Piece.spacedAfter_iff.2 hmarks

theorem initializer_continues {indent : Indent}
    (hi : ∀ code ∈ f.initializer, code.IsInline indent) (level : Nat) :
    ∃ level', ∀ c, spacedAfter c = true →
      Continues f.initializerOps c f.initializerText level level' := by
  unfold initializerOps initializerText
  cases hf : f.initializer with
  | none => exact ⟨level, fun _ _ => Continues.nil⟩
  | some code => exact ⟨_, fun _ hc => assignment_continues (hi code hf) hc rfl⟩

theorem member_says (f : Field) (keyword : String) (hk : IsWord keyword) :
    List.Forall₂ Op.Says
      (f.heading.modifierOps ++ [.literal keyword, .literal (Name.memberName f.heading.name)])
      (f.heading.modifiers.toList.map Modifier.keyword ++
        [keyword, Name.memberName f.heading.name]) :=
  List.rel_append f.heading.modifiers_say
    (.cons (.literal hk) (.cons (.literal (Name.memberName_isWord _)) .nil))

theorem case_text {indent : Indent} (hi : ∀ code ∈ f.initializer, code.IsInline indent)
    (level : Nat) :
    ((Writer.startingAt indent level).run f.caseOps).text.toList =
      Line.indentation indent.unit level ++ f.caseText ++ ['\n'] := by
  have hs : List.Forall₂ Op.Says [.literal "case", .literal (Name.typeName f.heading.name)]
      ["case", Name.typeName f.heading.name] :=
    .cons (.literal (.of_all (by decide) (by decide)))
      (.cons (.literal (Name.typeName_isWord _)) .nil)
  obtain ⟨_, hinit⟩ := initializer_continues hi level
  have hline := line_text hs (by simp) (fun c hc => hinit c (spacedAfter_nameChar hc)) indent
  unfold caseText
  rw [caseOps, hline, String.toList_intercalate]
  simp

theorem requirement_text (ht : ∀ type ∈ f.type, EndsClear ['(', '[', '<', '.'] type.render)
    (indent : Indent) (level : Nat) :
    ((Writer.startingAt indent level).run f.requirementOps).text.toList =
      Line.indentation indent.unit level ++ f.requirementText ++ ['\n'] := by
  have hs := f.member_says "var" (.of_all (by decide) (by decide))
  have haccessors : ∀ c, spacedAfter c = true →
      Continues [.literal f.accessors] c f.accessorText level level := by
    intro c hc
    unfold accessors accessorText
    split
    · exact apart_continues "\x7bget set\x7d" (by decide) (by decide) hc
    · exact apart_continues "\x7b get \x7d" (by decide) (by decide) hc
  have hrest : ∀ c, Name.isNameChar c = true →
      Continues (f.typeOps ++ [.literal f.accessors]) c (f.typeText ++ f.accessorText)
        level level := by
    intro c hc
    obtain ⟨htype, hend⟩ := type_continues ht hc level
    exact htype.append (haccessors _ hend)
  have hline := line_text hs (by simp) hrest indent
  have hops : f.requirementOps = f.heading.modifierOps ++
      [.literal "var", .literal (Name.memberName f.heading.name)] ++
      (f.typeOps ++ [.literal f.accessors]) ++ [.endLine] := by
    simp [requirementOps, Construct.keyword]
  unfold requirementText
  rw [hops, hline, f.heading.modifierText_append (by simp), String.toList_intercalate]
  simp

theorem property_text {indent : Indent}
    (ht : ∀ type ∈ f.type, EndsClear ['(', '[', '<', '.'] type.render)
    (hi : ∀ code ∈ f.initializer, code.IsInline indent) (level : Nat) :
    ((Writer.startingAt indent level).run f.propertyOps).text.toList =
      Line.indentation indent.unit level ++ f.propertyText ++ ['\n'] := by
  have hkeyword : f.construct.keyword = if f.isMutable then "var" else "let" := by
    unfold construct
    split <;> rfl
  have hs := f.member_says f.construct.keyword (by
    rw [hkeyword]
    split <;> exact .of_all (by decide) (by decide))
  obtain ⟨level', hinit⟩ := initializer_continues hi level
  have hrest : ∀ c, Name.isNameChar c = true →
      Continues (f.typeOps ++ f.initializerOps) c (f.typeText ++ f.initializerText)
        level level' := by
    intro c hc
    obtain ⟨htype, hend⟩ := type_continues ht hc level
    exact htype.append (hinit _ hend)
  have hline := line_text hs (by simp) hrest indent
  have hops : f.propertyOps = f.heading.modifierOps ++
      [.literal f.construct.keyword, .literal (Name.memberName f.heading.name)] ++
      (f.typeOps ++ f.initializerOps) ++ [.endLine] := by
    simp [propertyOps]
  unfold propertyText
  rw [hops, hline, f.heading.modifierText_append (by simp), String.toList_intercalate, hkeyword]
  split <;> simp

end Field

/-- A field without a description, with a type that other code can follow and an
initializer of one line, is one line of text from any level. Its owner decides
which: a case shows no modifiers and no type, a requirement no initializer. The
initializer is shown without the indentation that it has alone. A field that no
type has adopted adds nothing to a text. -/
theorem emit_field_text (f : Field) (hd : f.heading.description = none) (indent : Indent)
    (ht : ∀ type ∈ f.type, EndsClear ['(', '[', '<', '.'] type.render)
    (hi : ∀ code ∈ f.initializer, code.IsInline indent) :
    (∀ (kind : TypeKind) (level : Nat), f.parent = some (.type kind) →
      (Node.field f).textAt indent level =
        Line.indentation indent.unit level ++ f.sourceText kind ++ ['\n']) ∧
    (∀ code ∈ f.initializer, ∃ depth,
      code.textAlone indent = Line.indentation indent.unit depth ++ code.inlineText) ∧
    ((∀ kind, f.parent ≠ some (.type kind)) →
      ∃ event, ∀ w : Writer, w.emit (.field f) = w.report event) := by
  have hops : f.ops = f.declarationOps := by
    rw [Field.ops, Field.documentationOps_none hd, List.nil_append]
  refine ⟨?_, ?_, ?_⟩
  · intro kind level hp
    rw [Node.textAt, Writer.emit, Node.ops, hops, Field.declarationOps, hp]
    cases kind with
    | enumType => exact Field.case_text hi level
    | protocolType => exact Field.requirement_text ht indent level
    | classType | structType | extensionType => exact Field.property_text ht hi level
  · exact fun code hc => Block.textAlone_inline (hi code hc).feedFree (hi code hc).nonempty
  · intro hp
    have hreport : ∃ event, f.declarationOps = [.report event] := by
      unfold Field.declarationOps
      split
      · rename_i h
        exact absurd h (hp _)
      · rename_i h
        exact absurd h (hp _)
      · rename_i h
        exact absurd h (hp _)
      · exact ⟨_, rfl⟩
      · exact ⟨_, rfl⟩
    obtain ⟨event, he⟩ := hreport
    refine ⟨event, fun w => ?_⟩
    rw [Writer.emit, Node.ops, hops, he, Writer.run, Writer.run, Writer.step]

def shared : Field :=
  .declare "shared instance" (some (.optional ∅ (.named ∅ "Store")))
    [.heading (.modifier .static), .heading (.modifier .publicAccess), .mutable,
     .initializer [.indent, .literal ".none", .dedent], .parent (.type .classType)]

theorem emit_field_text_shared :
    (∀ type ∈ shared.type, EndsClear ['(', '[', '<', '.'] type.render) ∧
    (∀ code ∈ shared.initializer, code.IsInline .standard) ∧
    (Node.field shared).textAt .standard 2 =
      Line.indentation Indent.standard.unit 2 ++ shared.sourceText .classType ++ ['\n'] ∧
    shared.sourceText .classType =
      "public static var sharedInstance: Store? = .none".toList := by
  have ht : ∀ type ∈ shared.type, EndsClear ['(', '[', '<', '.'] type.render := by
    decide +kernel
  have hi : ∀ code ∈ shared.initializer, code.IsInline .standard := by decide +kernel
  exact ⟨ht, hi, (emit_field_text shared rfl .standard ht hi).1 .classType 2 rfl,
    by decide +kernel⟩

def indented : Field :=
  .declare "x" (some (.named ∅ "Int"))
    [.initializer [.indent, .literal "5", .dedent], .parent (.type .structType)]

/-- Behind an equals sign there is no indentation, so the text that an
initializer has alone need not be the one that the field shows. -/
theorem initializer_loses_indentation :
    indented.heading.description = none ∧ indented.parent = some (.type .structType) ∧
    indented.type.map TypeRef.render = some "Int" ∧
    (∀ code ∈ indented.initializer,
      ((Writer.new .standard).emit (.block code)).text = "    5" ∧
      ((Writer.new .standard).emit (.block code)).level = 0 ∧
      ((Writer.new .standard).emit (.block code)).scopes = []) ∧
    (Node.field indented).textAt .standard 0 ≠ "let x: Int =     5\n".toList ∧
    (Node.field indented).textAt .standard 0 = "let x: Int = 5\n".toList := by
  exact ⟨rfl, rfl, by decide +kernel, by decide +kernel, by decide +kernel, by decide +kernel⟩

end SwiftDecl
