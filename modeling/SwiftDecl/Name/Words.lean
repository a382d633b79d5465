import SwiftDecl.Text.Numeric
import SwiftDecl.Text.CaseMapping

/-!
# Words of a name

A raw name is any text. Characters that are not alphanumeric separate words,
and inside a run of alphanumeric characters a word also ends where the letter
case says so: `myValue` is `my`, `Value` and `HTTPServer` is `HTTP`, `Server`.
Whether a word ends between two characters depends on these two and the one
after them.
-/

set_option autoImplicit false

namespace SwiftDecl.Name
open SwiftDecl.Text

/-- Whether a capital `c` starts a new word after `before`: it follows a small
letter or a digit, or it is the last of several capitals. -/
def startsWord (before c : Char) (after : Option Char) : Bool :=
  isUppercase c &&
    (isLowercase before || isNumeric before || (isUppercase before && after.any isLowercase))

/-- Whether `c` belongs to the word that the text after it begins with. -/
def joinsNext (c : Char) : List Char → Bool
  | [] => false
  | d :: rest => isAlphanumeric d && !startsWord c d rest.head?

def prepend (c : Char) : List (List Char) → List (List Char)
  | [] => [[c]]
  | word :: words => (c :: word) :: words

def words : List Char → List (List Char)
  | [] => []
  | c :: rest =>
    if isAlphanumeric c then
      if joinsNext c rest then prepend c (words rest) else [c] :: words rest
    else words rest

/-- Every word capitalised: `hello_world` becomes `HelloWorld`. -/
def pascalCase (text : List Char) : List Char :=
  (words text).flatMap capitalize

/-- The first word in lower case, every further one capitalised: `hello_world`
becomes `helloWorld`. -/
def camelCase (text : List Char) : List Char :=
  match words text with
  | [] => []
  | first :: more => lowercase first ++ more.flatMap capitalize

end SwiftDecl.Name
