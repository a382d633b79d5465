import SwiftDecl.Indent
import SwiftDecl.Layout.Op
import SwiftDecl.Layout.Spacing
import SwiftDecl.Text.Lines

/-!
# The writer

A writer runs layout operations into text. It only ever adds to the text, and
what it adds depends on the text before it through the last two characters at
most. `written` holds the text backwards, so the last character comes first;
`scopes` holds the open scopes, innermost first, each with whether anything
stands in it.
-/

set_option autoImplicit false

namespace SwiftDecl.Layout
open SwiftDecl.Text

structure Writer where
  unit : List Char
  level : Nat
  written : List Char
  atLineStart : Bool
  scopes : List Bool
  nesting : Nat
  /-- Events, latest first. -/
  log : List Event
  deriving DecidableEq

def maxNesting : Nat :=
  256

namespace Writer

def new (indent : Indent) : Writer where
  unit := indent.unit
  level := 0
  written := []
  atLineStart := true
  scopes := []
  nesting := 0
  log := []

def text (w : Writer) : String :=
  String.ofList w.written.reverse

def events (w : Writer) : List Event :=
  w.log.reverse

def put (w : Writer) (cs : List Char) : Writer :=
  { w with written := cs.reverse ++ w.written }

def margin (w : Writer) : List Char :=
  (List.replicate w.level w.unit).flatten

def lead (w : Writer) (attaches : Bool) : List Char :=
  if w.atLineStart then w.margin
  else if needsSpace w.written.head? attaches then [' ']
  else []

def fill : List Bool → List Bool
  | [] => []
  | _ :: outer => true :: outer

/-- Writes one piece of a line. An empty piece leaves no trace. -/
def piece (w : Writer) (cs : List Char) (attaches : Bool) : Writer :=
  match cs with
  | [] => w
  | _ :: _ =>
    { w.put (w.lead attaches ++ cs) with
      atLineStart := false
      scopes := fill w.scopes }

def newLine (w : Writer) : Writer :=
  { w.put ['\n'] with atLineStart := true }

def endLine (w : Writer) : Writer :=
  if w.atLineStart then w else w.newLine

/-- Whether the text is empty or ends in an empty line. -/
def isSeparated (w : Writer) : Bool :=
  match w.written with
  | [] => true
  | '\n' :: '\n' :: _ => true
  | _ => false

def separate (w : Writer) : Writer :=
  if w.isSeparated then w else w.put ['\n']

def blankLine (w : Writer) : Writer :=
  w.endLine.separate

def indent (w : Writer) : Writer :=
  { w with level := w.level + 1 }

def dedent (w : Writer) : Writer :=
  { w with level := w.level - 1 }

def literalPart (w : Writer) (part : List Char) : Writer :=
  w.piece part (attachesLeft part)

def literalParts (w : Writer) : List (List Char) → Writer
  | [] => w
  | part :: rest => literalParts (w.newLine.literalPart part) rest

def literal (w : Writer) (cs : List Char) : Writer :=
  match pieces cs with
  | [] => w
  | first :: rest => (w.literalPart first).literalParts rest

def openScope (w : Writer) : Writer :=
  let w := (w.piece ['\x7b'] false).newLine
  { w with scopes := false :: w.scopes }.indent

/-- Leaves the innermost scope. One without content gets an empty line. -/
def leaveScope (w : Writer) : Writer :=
  match w.scopes with
  | [] => w
  | true :: outer => { w with scopes := outer }
  | false :: outer => { w.put ['\n'] with scopes := outer }

def closeScope (w : Writer) : Writer :=
  (w.endLine.leaveScope.dedent.piece ['\x7d'] false).newLine

def report (w : Writer) (event : Event) : Writer :=
  { w with log := event :: w.log }

def enter (w : Writer) : Writer :=
  { w with nesting := w.nesting + 1 }

def leave (w : Writer) : Writer :=
  { w with nesting := w.nesting - 1 }

mutual

/-- Runs one operation. Nested operations are left out, and reported, once the
nesting limit is reached. -/
def step (w : Writer) : Op → Writer
  | .literal text => w.literal text.toList
  | .word text => w.piece text.toList false
  | .openScope => w.openScope
  | .closeScope => w.closeScope
  | .newLine => w.newLine
  | .endLine => w.endLine
  | .blankLine => w.blankLine
  | .indent => w.indent
  | .dedent => w.dedent
  | .nested ops =>
    if w.nesting < maxNesting then (run w.enter ops).leave
    else w.report (.nestingLimit w.nesting)
  | .report event => w.report event

def run (w : Writer) : List Op → Writer
  | [] => w
  | op :: ops => run (step w op) ops

end

theorem run_append (w : Writer) (a b : List Op) : w.run (a ++ b) = (w.run a).run b := by
  induction a generalizing w with
  | nil => simp [run]
  | cons op ops ih => simp [run, ih]

end Writer

end SwiftDecl.Layout
