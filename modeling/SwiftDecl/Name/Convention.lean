import SwiftDecl.Name.Words

/-!
# Naming conventions

A convention turns a raw name into an identifier. A name of which nothing is
left gets a fixed replacement, a name that would start with a numeric character
gets an underscore in front, and a reserved word is escaped. The first of these
rules that applies is the only one.
-/

set_option autoImplicit false

namespace SwiftDecl.Name
open SwiftDecl.Text

structure Convention where
  typeCase : String → String
  memberCase : String → String
  reserved : List String
  escape : String → String
  fallback : String

namespace Convention

def isReserved (conv : Convention) (name : String) : Bool :=
  conv.reserved.contains name

def safe (conv : Convention) (name : String) : String :=
  if conv.isReserved name then conv.escape name else name

def startsNumeric (name : String) : Bool :=
  name.toList.head?.any isNumeric

def finish (conv : Convention) (name : String) : String :=
  if name = "" then conv.fallback
  else if startsNumeric name then "_" ++ name
  else conv.safe name

def typeName (conv : Convention) (raw : String) : String :=
  conv.finish (conv.typeCase raw)

def memberName (conv : Convention) (raw : String) : String :=
  conv.finish (conv.memberCase raw)

end Convention

end SwiftDecl.Name
