import SwiftDecl.SortedSet
import SwiftDecl.Text.Blank

/-!
# Modules

The modules that a piece of source depends on, and the import section that
names them. Modules declared on a type or a declaration are kept as given; a
module added to an import section by name is trimmed first, and a blank one is
ignored.
-/

set_option autoImplicit false

namespace SwiftDecl

abbrev Modules := SortedSet String

instance instTransNames : Trans (fun x y : String => x < y) (fun x y : String => x < y)
    (fun x y : String => x < y) :=
  ⟨String.lt_trans⟩

namespace Modules

def trimmed (name : String) : String :=
  String.ofList (Text.trim name.toList)

/-- Adds a module by name, trimmed, unless nothing is left of it. -/
def add (modules : Modules) (name : String) : Modules :=
  if trimmed name = "" then modules else modules.insert (trimmed name)

def addAll (modules more : Modules) : Modules :=
  more.toList.foldl add modules

def importLine (name : String) : String :=
  "import " ++ name ++ "\n"

def render (modules : Modules) : String :=
  String.join (modules.toList.map importLine)

def unions (parts : List Modules) : Modules :=
  parts.foldl (· ∪ ·) ∅

theorem mem_foldl_union {x : String} {parts : List Modules} {start : Modules} :
    x ∈ parts.foldl (· ∪ ·) start ↔ x ∈ start ∨ ∃ m ∈ parts, x ∈ m := by
  induction parts generalizing start with
  | nil => simp
  | cons m rest ih => simp [ih, or_assoc]

theorem mem_unions {x : String} {parts : List Modules} :
    x ∈ unions parts ↔ ∃ m ∈ parts, x ∈ m := by
  simp [unions, mem_foldl_union]

end Modules

end SwiftDecl
