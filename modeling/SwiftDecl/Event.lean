import SwiftDecl.Construct

/-!
# Events

What the library reports while it works. Every event has a severity, a fixed
message and named details.
-/

set_option autoImplicit false

namespace SwiftDecl

inductive Severity where
  | trace
  | debug
  | info
  | warn
  deriving DecidableEq, Repr

def Severity.label : Severity → String
  | .trace => "TRACE"
  | .debug => "DEBUG"
  | .info => "INFO"
  | .warn => "WARN"

inductive Event where
  | nestingLimit (depth : Nat)
  | fieldNotInType (name : String) (parent : Construct)
  | fieldNotAdopted (name : String)
  | emittingType (name : String) (kind : TypeKind) (fields methods : Nat)
  | renderingFile (name : String) (imports : Nat)
  | fileExists (path : String)
  | fileUpToDate (path : String)
  | fileWritten (path : String) (bytes : Nat)
  | optionsLoaded (path : String)
  deriving DecidableEq, Repr

namespace Event

def severity : Event → Severity
  | .nestingLimit _ => .warn
  | .emittingType .. => .trace
  | .fileWritten .. => .info
  | _ => .debug

def message : Event → String
  | .nestingLimit _ => "nesting limit reached, skipping nested emission"
  | .fieldNotInType .. => "field parent is not a type, rendering documentation only"
  | .fieldNotAdopted _ => "field was never adopted, rendering documentation only"
  | .emittingType .. => "emitting type"
  | .renderingFile .. => "rendering swift file"
  | .fileExists _ => "file exists, skipping"
  | .fileUpToDate _ => "file is up to date"
  | .fileWritten .. => "wrote generated file"
  | .optionsLoaded _ => "loaded file options"

def number (n : Nat) : String :=
  String.ofList (Nat.toDigits 10 n)

def details : Event → List (String × String)
  | .nestingLimit depth => [("depth", number depth)]
  | .fieldNotInType name parent => [("field", name), ("parent", parent.title)]
  | .fieldNotAdopted name => [("field", name)]
  | .emittingType name kind fields methods =>
    [("name", name), ("construct", kind.keyword), ("fields", number fields),
     ("methods", number methods)]
  | .renderingFile name imports => [("file", name), ("imports", number imports)]
  | .fileExists path => [("path", path)]
  | .fileUpToDate path => [("path", path)]
  | .fileWritten path bytes => [("path", path), ("bytes", number bytes)]
  | .optionsLoaded path => [("path", path)]

end Event

end SwiftDecl
