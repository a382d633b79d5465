import SwiftDecl.Text.Blank

/-!
# Spacing

Two pieces on a line are separated by one space unless punctuation joins them.
The rule looks at the last character before the new piece and at the first two
characters of the piece.
-/

set_option autoImplicit false

namespace SwiftDecl.Layout

def isOperator (c : Char) : Bool :=
  "=?!<>&|+-*/%^~".toList.contains c

/-- A literal attaches to what stands before it when it starts with closing or
joining punctuation, or with a postfix mark or angle bracket that does not start
an operator. -/
def attachesLeft : List Char → Bool
  | [] => false
  | c :: rest =>
    if ")],:.(".toList.contains c then true
    else if "?!<>".toList.contains c then
      match rest with
      | [] => true
      | next :: _ => !Text.isBlank next && !isOperator next
    else false

/-- Whether a piece after `c` may be separated from it at all. -/
def spacedAfter (c : Char) : Bool :=
  !(Text.isBlank c || "([<.".toList.contains c)

/-- Whether a space goes between the last character `last` of a line and a new
piece. An equals sign keeps even an attaching piece apart. -/
def needsSpace (last : Option Char) (attaches : Bool) : Bool :=
  match last with
  | none => false
  | some c => (!attaches || c == '=') && spacedAfter c

end SwiftDecl.Layout
