import SwiftDecl.Decl.Field
import SwiftDecl.Decl.Method

/-!
# Type declarations

A type owns fields, methods and further types. Members are adopted when they
are added, so the kind of the type decides how they are written. The body lists
fields, then methods, then nested types, each in order of insertion.
-/

set_option autoImplicit false

namespace SwiftDecl
open SwiftDecl.Layout

structure TypeDecl where
  kind : TypeKind
  heading : Heading
  superType : Option TypeRef
  protocols : List TypeRef
  fields : List Field
  methods : List Method
  nested : List TypeDecl

namespace TypeDecl

inductive Clause where
  | heading (clause : Heading.Clause)
  | superType (type : TypeRef)
  | conforms (type : TypeRef)
  | field (field : Field)
  | method (method : Method)
  | nested (decl : TypeDecl)

def new (kind : TypeKind) (name : String) : TypeDecl where
  kind := kind
  heading := .new name
  superType := none
  protocols := []
  fields := []
  methods := []
  nested := []

def add (decl : TypeDecl) : Clause → TypeDecl
  | .heading clause => { decl with heading := decl.heading.add clause }
  | .superType type => { decl with superType := some type }
  | .conforms type =>
    { decl with protocols := Distinct.add TypeRef.same TypeRef.absorb type decl.protocols }
  | .field field => { decl with fields := decl.fields ++ [field.adopt decl.kind] }
  | .method method => { decl with methods := decl.methods ++ [method.adopt decl.kind] }
  | .nested inner => { decl with nested := decl.nested ++ [inner] }

def declare (kind : TypeKind) (name : String) (clauses : List Clause) : TypeDecl :=
  clauses.foldl add (new kind name)

/-- The name as declared. An extension keeps the dots of the name it extends;
each segment is cleaned on its own. -/
def typeName (decl : TypeDecl) : String :=
  match decl.kind with
  | .extensionType =>
    ".".intercalate
      ((Text.splitAt '.' decl.heading.name.toList).map fun segment =>
        Name.typeName (String.ofList segment))
  | _ => Name.typeName decl.heading.name

mutual

def imports : TypeDecl → Modules
  | ⟨_, heading, superType, protocols, fields, methods, nested⟩ =>
    heading.imports ∪ (superType.map TypeRef.imports).getD ∅ ∪ TypeRef.importsOfAll protocols ∪
      Modules.unions (fields.map Field.imports) ∪ Modules.unions (methods.map Method.imports) ∪
      importsOfAll nested

def importsOfAll : List TypeDecl → Modules
  | [] => ∅
  | decl :: rest => decl.imports ∪ importsOfAll rest

end

def inherited (decl : TypeDecl) : List TypeRef :=
  decl.superType.toList ++ decl.protocols

def inheritanceOps : List TypeRef → List Op
  | [] => []
  | first :: rest =>
    .literal ":" :: .word first.render ::
      rest.flatMap fun type => [.literal ",", .word type.render]

def headerOps (decl : TypeDecl) : List Op :=
  decl.heading.documentationOps ++ decl.heading.modifierOps ++
    [.literal decl.kind.keyword, .literal decl.typeName] ++ inheritanceOps decl.inherited

def separatedOps (follows : Bool) : List (List Op) → List Op
  | [] => []
  | member :: rest =>
    (if follows then [.blankLine] else []) ++ member ++ separatedOps true rest

mutual

def ops : TypeDecl → List Op
  | decl@⟨kind, heading, _, _, fields, methods, nested⟩ =>
    [.report (.emittingType heading.name kind fields.length methods.length)] ++
      decl.headerOps ++ [.openScope] ++ fields.flatMap Field.ops ++
      separatedOps (!fields.isEmpty) (methods.map Method.ops ++ nestedOps nested) ++ [.closeScope]

def nestedOps : List TypeDecl → List (List Op)
  | [] => []
  | decl :: rest => [.nested decl.ops] :: nestedOps rest

end

mutual

def same : TypeDecl → TypeDecl → Bool
  | ⟨kind₁, heading₁, super₁, protocols₁, fields₁, methods₁, nested₁⟩,
    ⟨kind₂, heading₂, super₂, protocols₂, fields₂, methods₂, nested₂⟩ =>
    kind₁ == kind₂ && heading₁ == heading₂ && super₁ == super₂ && protocols₁ == protocols₂ &&
      fields₁ == fields₂ && methods₁ == methods₂ && sameAll nested₁ nested₂

def sameAll : List TypeDecl → List TypeDecl → Bool
  | [], [] => true
  | a :: as, b :: bs => a.same b && sameAll as bs
  | _, _ => false

end

instance : BEq TypeDecl := ⟨same⟩

end TypeDecl

end SwiftDecl
