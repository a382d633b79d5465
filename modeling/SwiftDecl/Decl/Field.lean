import SwiftDecl.Code
import SwiftDecl.Decl.Heading
import SwiftDecl.Name.Identifier

/-!
# Fields

A field is written as its owner asks: a case of an enum, a stored property of a
class, struct or extension, or a requirement of a protocol. A field that no type
owns shows its documentation only.
-/

set_option autoImplicit false

namespace SwiftDecl
open SwiftDecl.Layout

structure Field where
  heading : Heading
  type : Option TypeRef
  isMutable : Bool
  initializer : Option Block
  parent : Option Construct

namespace Field

inductive Clause where
  | heading (clause : Heading.Clause)
  | mutable
  | initializer (block : Block)
  | parent (construct : Construct)

def new (name : String) (type : Option TypeRef) : Field where
  heading := .new name
  type := type
  isMutable := false
  initializer := none
  parent := none

def add (field : Field) : Clause → Field
  | .heading clause => { field with heading := field.heading.add clause }
  | .mutable => { field with isMutable := true }
  | .initializer block => { field with initializer := some block }
  | .parent construct => { field with parent := some construct }

def declare (name : String) (type : Option TypeRef) (clauses : List Clause) : Field :=
  clauses.foldl add (new name type)

def construct (field : Field) : Construct :=
  if field.isMutable then .mutableField else .field

def adopt (kind : TypeKind) (field : Field) : Field :=
  { field with parent := some (.type kind) }

def imports (field : Field) : Modules :=
  field.heading.imports ∪ (field.type.map TypeRef.imports).getD ∅ ∪
    (field.initializer.map Block.imports).getD ∅

def typeOps (field : Field) : List Op :=
  match field.type with
  | none => []
  | some type => [.literal ":", .word type.render]

def initializerOps (field : Field) : List Op :=
  match field.initializer with
  | none => []
  | some block => .literal "=" :: block.ops

def caseOps (field : Field) : List Op :=
  [.literal "case", .literal (Name.typeName field.heading.name)] ++ field.initializerOps ++
    [.endLine]

def propertyOps (field : Field) : List Op :=
  field.heading.modifierOps ++
    [.literal field.construct.keyword, .literal (Name.memberName field.heading.name)] ++
    field.typeOps ++ field.initializerOps ++ [.endLine]

def accessors (field : Field) : String :=
  if field.isMutable then "\x7bget set\x7d" else "\x7b get \x7d"

/-- A requirement is a `var` whatever the field is; its accessors tell whether
it can be set. -/
def requirementOps (field : Field) : List Op :=
  field.heading.modifierOps ++
    [.literal Construct.mutableField.keyword, .literal (Name.memberName field.heading.name)] ++
    field.typeOps ++ [.literal field.accessors, .endLine]

def declarationOps (field : Field) : List Op :=
  match field.parent with
  | some (.type .enumType) => field.caseOps
  | some (.type .protocolType) => field.requirementOps
  | some (.type _) => field.propertyOps
  | some parent => [.report (.fieldNotInType field.heading.name parent)]
  | none => [.report (.fieldNotAdopted field.heading.name)]

def ops (field : Field) : List Op :=
  field.heading.documentationOps ++ field.declarationOps

def same (a b : Field) : Bool :=
  a.heading == b.heading && a.isMutable == b.isMutable && a.type == b.type &&
    Block.sameOption a.initializer b.initializer && a.parent == b.parent

instance : BEq Field := ⟨same⟩

end Field

end SwiftDecl
