import SwiftDecl.Decl.Parameter
import SwiftDecl.Distinct

/-!
# Methods

A method is a signature and a body. A protocol asks for the signature alone;
anywhere else the body follows in braces, also when it is empty. The name `init`
declares an initializer.
-/

set_option autoImplicit false

namespace SwiftDecl
open SwiftDecl.Layout

structure Method where
  heading : Heading
  typeVariables : List TypeRef
  canThrow : Bool
  returns : Option TypeRef
  parameters : List Parameter
  body : Option Block
  parent : Option Construct

namespace Method

inductive Clause where
  | heading (clause : Heading.Clause)
  | typeVariable (type : TypeRef)
  | returns (type : TypeRef)
  | parameter (parameter : Parameter)
  | code (block : Block)
  | throwing
  | parent (construct : Construct)

def new (name : String) : Method where
  heading := .new name
  typeVariables := []
  canThrow := false
  returns := none
  parameters := []
  body := none
  parent := none

def add (method : Method) : Clause → Method
  | .heading clause => { method with heading := method.heading.add clause }
  | .typeVariable type =>
    { method with
      typeVariables := Distinct.add TypeRef.same TypeRef.absorb type method.typeVariables }
  | .returns type => { method with returns := some type }
  | .parameter parameter =>
    { method with
      parameters :=
        Distinct.add Parameter.declaresSame Parameter.absorb parameter method.parameters }
  | .code block => { method with body := some (method.body.getD [] ++ block) }
  | .throwing => { method with canThrow := true }
  | .parent construct => { method with parent := some construct }

def declare (name : String) (clauses : List Clause) : Method :=
  clauses.foldl add (new name)

def isInitializer (method : Method) : Bool :=
  method.heading.name == "init"

def adopt (kind : TypeKind) (method : Method) : Method :=
  { method with parent := some (.type kind) }

/-- The body contributes no modules. -/
def imports (method : Method) : Modules :=
  method.heading.imports ∪ TypeRef.importsOfAll method.typeVariables ∪
    Modules.unions (method.parameters.map Parameter.imports) ∪
    (method.returns.map TypeRef.imports).getD ∅

def commaSeparated : List (List Op) → List Op
  | [] => []
  | [only] => only
  | first :: rest => first ++ .literal "," :: commaSeparated rest

def nameOps (method : Method) : List Op :=
  if method.isInitializer then [.literal "init"]
  else [.literal Construct.method.keyword, .literal (Name.memberName method.heading.name)]

def typeVariableOps (method : Method) : List Op :=
  if method.typeVariables.isEmpty then []
  else .literal "<" :: commaSeparated (method.typeVariables.map fun type => [.word type.render]) ++
    [.literal ">"]

def parameterOps (method : Method) : List Op :=
  .literal "(" :: commaSeparated (method.parameters.map Parameter.ops) ++ [.literal ")"]

def effectOps (method : Method) : List Op :=
  if method.canThrow then [.literal "throws"] else []

def returnOps (method : Method) : List Op :=
  match method.returns with
  | none => []
  | some type => [.literal "->", .word type.render]

def signatureOps (method : Method) : List Op :=
  method.heading.documentationOps ++ method.heading.modifierOps ++ method.nameOps ++
    method.typeVariableOps ++ method.parameterOps ++ method.effectOps ++ method.returnOps

def bodyOps (method : Method) : List Op :=
  match method.parent with
  | some (.type .protocolType) => [.endLine]
  | _ => .openScope :: (method.body.getD []).ops ++ [.closeScope]

def ops (method : Method) : List Op :=
  method.signatureOps ++ method.bodyOps

def same (a b : Method) : Bool :=
  a.heading == b.heading && a.typeVariables == b.typeVariables && a.canThrow == b.canThrow &&
    a.returns == b.returns && a.parameters == b.parameters &&
    Block.sameOption a.body b.body && a.parent == b.parent

instance : BEq Method := ⟨same⟩

end Method

end SwiftDecl
