import SwiftDecl.Text.Span

/-!
# Errors of file options

An error of options that were read from a text names the text and, where there
is one, the place in it.
-/

set_option autoImplicit false

namespace SwiftDecl.Options
open SwiftDecl.Text

/-- A text with the name under which it is reported. -/
structure Source where
  name : String
  text : String
  deriving DecidableEq, Repr

/-- A well-formed document that does not fit, and where. -/
structure Misfit where
  message : String
  span : Span
  deriving DecidableEq, Repr

inductive Error where
  | unreadable (path : String)
  | malformed (source : Source) (misfit : Option Misfit)
  | invalid (source : Source) (span : Option Span) (message : String)
  deriving DecidableEq, Repr

namespace Error

def message : Error → String
  | .unreadable path => "failed to read '" ++ path ++ "'"
  | .malformed _ _ => "failed to parse file options"
  | .invalid _ _ message => message

def code : Error → String
  | .unreadable _ => "swiftpoet::io_error"
  | .malformed _ _ => "swiftpoet::parse_error"
  | .invalid _ _ _ => "swiftpoet::validation_error"

def help : Error → Option String
  | .invalid _ _ _ => some "indent_width must be between 1 and 16, or set use_tabs"
  | _ => none

def labels : Error → List (String × Span)
  | .malformed _ (some misfit) => [("parse error here", misfit.span)]
  | .invalid _ (some span) message => [(message, span)]
  | _ => []

end Error

/-- An error at the first occurrence of `key` in the source. -/
def Source.invalidAt (source : Source) (key message : String) : Error :=
  .invalid source (findSpan key.toList source.text.toList) message

end SwiftDecl.Options
