import SwiftDecl.Code
import SwiftDecl.Decl.Heading
import SwiftDecl.Name.Identifier

/-!
# Parameters

A parameter is written as `label name: Type = default`, where label and default
may be absent. Modifiers and description of a parameter are not written.
-/

set_option autoImplicit false

namespace SwiftDecl
open SwiftDecl.Layout

structure Parameter where
  heading : Heading
  type : TypeRef
  label : Option String
  defaultValue : Option Block

namespace Parameter

inductive Clause where
  | heading (clause : Heading.Clause)
  | label (text : String)
  | defaultValue (block : Block)

def new (name : String) (type : TypeRef) : Parameter where
  heading := .new name
  type := type
  label := none
  defaultValue := none

def add (parameter : Parameter) : Clause → Parameter
  | .heading clause => { parameter with heading := parameter.heading.add clause }
  | .label text => { parameter with label := some text }
  | .defaultValue block => { parameter with defaultValue := some block }

def declare (name : String) (type : TypeRef) (clauses : List Clause) : Parameter :=
  clauses.foldl add (new name type)

def imports (parameter : Parameter) : Modules :=
  parameter.heading.imports ∪ parameter.type.imports ∪
    (parameter.defaultValue.map Block.imports).getD ∅

/-- A lone underscore is a label of its own and is not cleaned. -/
def labelText (label : String) : String :=
  if label = "_" then "_" else Name.memberName label

def labelOps (parameter : Parameter) : List Op :=
  match parameter.label with
  | none => []
  | some label => [.literal (labelText label)]

def defaultOps (parameter : Parameter) : List Op :=
  match parameter.defaultValue with
  | none => []
  | some block => .literal "=" :: block.ops

def ops (parameter : Parameter) : List Op :=
  parameter.labelOps ++
    [.literal (Name.memberName parameter.heading.name), .literal ":",
     .word parameter.type.render] ++
    parameter.defaultOps

def declaresSame (a b : Parameter) : Bool :=
  a.heading.name == b.heading.name && a.label == b.label && a.type == b.type &&
    Block.sameOption a.defaultValue b.defaultValue

def absorb (kept dropped : Parameter) : Parameter :=
  { kept with heading := { kept.heading with imports := kept.heading.imports ∪ dropped.imports } }

def same (a b : Parameter) : Bool :=
  a.heading == b.heading && a.type == b.type && a.label == b.label &&
    Block.sameOption a.defaultValue b.defaultValue

instance : BEq Parameter := ⟨same⟩

end Parameter

end SwiftDecl
