import SwiftDecl.Name.Convention

/-!
# Swift identifiers

The convention of Swift source: types and enum cases in Pascal case, members
in camel case, reserved words between backticks.
-/

set_option autoImplicit false

namespace SwiftDecl.Name

def declarationWords : List String :=
  ["associatedtype", "class", "deinit", "enum", "extension", "fileprivate", "func", "import",
   "init", "inout", "internal", "let", "open", "operator", "private", "precedencegroup",
   "protocol", "public", "rethrows", "static", "struct", "subscript", "typealias", "var"]

def statementWords : List String :=
  ["break", "case", "catch", "continue", "default", "defer", "do", "else", "fallthrough", "for",
   "guard", "if", "in", "repeat", "return", "switch", "throw", "where", "while"]

def expressionWords : List String :=
  ["Any", "as", "await", "false", "is", "nil", "self", "Self", "super", "throws", "true", "try"]

def toPascalCase (raw : String) : String :=
  String.ofList (pascalCase raw.toList)

def toCamelCase (raw : String) : String :=
  String.ofList (camelCase raw.toList)

def backticked (name : String) : String :=
  "`" ++ name ++ "`"

def swift : Convention where
  typeCase := toPascalCase
  memberCase := toCamelCase
  reserved := declarationWords ++ statementWords ++ expressionWords
  escape := backticked
  fallback := "unnamed"

def typeName (raw : String) : String :=
  swift.typeName raw

def memberName (raw : String) : String :=
  swift.memberName raw

end SwiftDecl.Name
