import SwiftDecl.Text.Lines

/-!
# Paths

A path is a text with segments between slashes. Empty segments and dots count
for nothing, except that a leading slash or a leading dot is kept as the head.
-/

set_option autoImplicit false

namespace SwiftDecl.Path
open SwiftDecl.Text

def segments (path : String) : List String :=
  (splitAt '/' path.toList).map String.ofList

def isFiller (segment : String) : Bool :=
  segment == "" || segment == "."

def dropTrailing (segments : List String) : List String :=
  (segments.reverse.dropWhile isFiller).reverse

def parentOf (head : String) (body : List String) (whenEmpty : Option String)
    (rebuild : List String → String) : Option String :=
  match dropTrailing body with
  | [] => whenEmpty
  | kept =>
    match dropTrailing kept.dropLast with
    | [] => some head
    | more => some (rebuild more)

/-- The directory that a path names its last segment in. -/
def parent? (path : String) : Option String :=
  match segments path with
  | "" :: body@(_ :: _) => parentOf "/" body none fun more => "/" ++ "/".intercalate more
  | "." :: body => parentOf "." body (some "") fun more => "./" ++ "/".intercalate more
  | body => parentOf "" body none fun more => "/".intercalate more

/-- A name under a base directory. One that starts at the root stands for
itself. -/
def join (base name : String) : String :=
  if name.toList.head? = some '/' then name
  else if base = "" then name
  else if base.toList.getLast? = some '/' then base ++ name
  else base ++ "/" ++ name

end SwiftDecl.Path
