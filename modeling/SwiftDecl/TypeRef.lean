import SwiftDecl.Modules

/-!
# Type references

A reference to a type as it stands in source, with the modules declared at each
level of it. Two references are interchangeable when they are written alike, so
equality looks at the text alone and ignores modules.
-/

set_option autoImplicit false

namespace SwiftDecl

inductive TypeRef where
  | named (imports : Modules) (name : String)
  | optional (imports : Modules) (wrapped : TypeRef)
  | array (imports : Modules) (element : TypeRef)
  | dictionary (imports : Modules) (key value : TypeRef)
  | generic (imports : Modules) (base : String) (arguments : List TypeRef)

namespace TypeRef

instance : Inhabited TypeRef := ⟨.named ∅ ""⟩

mutual

def render : TypeRef → String
  | .named _ name => name
  | .optional _ wrapped => wrapped.render ++ "?"
  | .array _ element => "[" ++ element.render ++ "]"
  | .dictionary _ key value => "[" ++ key.render ++ ": " ++ value.render ++ "]"
  | .generic _ base arguments => base ++ "<" ++ renderArguments arguments ++ ">"

def renderArguments : List TypeRef → String
  | [] => ""
  | [only] => only.render
  | first :: rest => first.render ++ ", " ++ renderArguments rest

end

/-- Modules declared on the reference itself, not inside it. -/
def ownImports : TypeRef → Modules
  | .named imports _ => imports
  | .optional imports _ => imports
  | .array imports _ => imports
  | .dictionary imports _ _ => imports
  | .generic imports _ _ => imports

def withImports (imports : Modules) : TypeRef → TypeRef
  | .named _ name => .named imports name
  | .optional _ wrapped => .optional imports wrapped
  | .array _ element => .array imports element
  | .dictionary _ key value => .dictionary imports key value
  | .generic _ base arguments => .generic imports base arguments

mutual

def imports : TypeRef → Modules
  | .named own _ => own
  | .optional own wrapped => own ∪ wrapped.imports
  | .array own element => own ∪ element.imports
  | .dictionary own key value => own ∪ key.imports ∪ value.imports
  | .generic own _ arguments => own ∪ importsOfAll arguments

def importsOfAll : List TypeRef → Modules
  | [] => ∅
  | first :: rest => first.imports ∪ importsOfAll rest

end

def addImports (modules : List String) (type : TypeRef) : TypeRef :=
  type.withImports (type.ownImports.insertAll modules)

def absorb (kept dropped : TypeRef) : TypeRef :=
  kept.withImports (kept.ownImports ∪ dropped.imports)

def isOptional : TypeRef → Bool
  | .optional _ _ => true
  | _ => false

def same (a b : TypeRef) : Bool :=
  a.render == b.render

instance : BEq TypeRef := ⟨same⟩

theorem render_withImports (modules : Modules) (type : TypeRef) :
    (type.withImports modules).render = type.render := by
  cases type <;> simp [withImports, render]

end TypeRef

end SwiftDecl
