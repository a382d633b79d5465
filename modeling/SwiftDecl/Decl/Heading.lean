import SwiftDecl.Modifier
import SwiftDecl.Modules
import SwiftDecl.Layout.Op
import SwiftDecl.Text.Blank
import SwiftDecl.Text.Lines

/-!
# Headings

What every declaration carries: a raw name, modifiers, a description and the
modules declared on it. A declaration is assembled from clauses, each of which
adds to one component; names are cleaned only when the declaration is written.
-/

set_option autoImplicit false

namespace SwiftDecl
open SwiftDecl.Layout

structure Heading where
  name : String
  modifiers : Modifiers
  description : Option String
  imports : Modules
  deriving DecidableEq

namespace Heading

inductive Clause where
  | modifier (modifier : Modifier)
  | description (text : String)
  | depends (module : String)

def new (name : String) : Heading where
  name := name
  modifiers := ∅
  description := none
  imports := ∅

def add (heading : Heading) : Clause → Heading
  | .modifier modifier => { heading with modifiers := heading.modifiers.insert modifier }
  | .description text => { heading with description := some text }
  | .depends module => { heading with imports := heading.imports.insert module }

def modifierOps (heading : Heading) : List Op :=
  heading.modifiers.toList.map fun modifier => .word modifier.keyword

def commentLine (line : List Char) : String :=
  match Text.trimEnd line with
  | [] => "///"
  | shown => String.ofList ("/// ".toList ++ shown)

def commentOps (lines : List (List Char)) : List Op :=
  lines.flatMap fun line => [.word (commentLine line), .newLine]

def descriptionOps (text : List Char) : List Op :=
  if (Text.trim text).isEmpty then []
  else .endLine :: commentOps (Text.lines (Text.trimEnd text))

/-- The description as comment lines, or nothing when it is absent or blank. -/
def documentationOps (heading : Heading) : List Op :=
  match heading.description with
  | none => []
  | some text => descriptionOps text.toList

end Heading

end SwiftDecl
