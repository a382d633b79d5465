/-!
# Constructs

What a declaration can be. Five kinds of types own members; fields, methods and
parameters are members. The construct of the owner decides how a member is
written.
-/

set_option autoImplicit false

namespace SwiftDecl

inductive TypeKind where
  | classType
  | structType
  | enumType
  | protocolType
  | extensionType
  deriving DecidableEq, Repr

inductive Construct where
  | type (kind : TypeKind)
  | field
  | mutableField
  | method
  | parameter
  deriving DecidableEq, Repr

def TypeKind.keyword : TypeKind → String
  | .classType => "class"
  | .structType => "struct"
  | .enumType => "enum"
  | .protocolType => "protocol"
  | .extensionType => "extension"

namespace Construct

def keyword : Construct → String
  | .type kind => kind.keyword
  | .field => "let"
  | .mutableField => "var"
  | .method => "func"
  | .parameter => ""

def isType : Construct → Bool
  | .type _ => true
  | _ => false

def isMember (c : Construct) : Bool :=
  !c.isType

def title : Construct → String
  | .type .classType => "Class"
  | .type .structType => "Struct"
  | .type .enumType => "Enum"
  | .type .protocolType => "Protocol"
  | .type .extensionType => "Extension"
  | .field => "Field"
  | .mutableField => "MutableField"
  | .method => "Method"
  | .parameter => "Parameter"

def all : List Construct :=
  [.type .classType, .type .structType, .type .enumType, .type .protocolType,
   .type .extensionType, .field, .mutableField, .method, .parameter]

def ofTitle? (title : String) : Option Construct :=
  all.find? fun c => c.title == title

end Construct

end SwiftDecl
