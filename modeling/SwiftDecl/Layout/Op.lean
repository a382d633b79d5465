import SwiftDecl.Event

/-!
# Layout operations

A piece of source is laid out by a list of operations. The list does not depend
on where it is laid out: indentation, spacing and the nesting limit are the
business of the writer that runs it.
-/

set_option autoImplicit false

namespace SwiftDecl.Layout

inductive Op where
  /-- Source text; line feeds in it end lines, and each part may attach to what
  stands before it. -/
  | literal (text : String)
  | word (text : String)
  | openScope
  | closeScope
  | newLine
  | endLine
  /-- Makes sure that an empty line separates what comes next. -/
  | blankLine
  | indent
  | dedent
  /-- Operations one nesting level further down. -/
  | nested (ops : List Op)
  | report (event : Event)

end SwiftDecl.Layout
