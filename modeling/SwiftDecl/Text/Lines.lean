/-!
# Lines

Two ways to cut a text at line feeds. `pieces` keeps every part, so `n` line
feeds give `n + 1` parts. `lines` reads the text as terminated lines: an empty
remainder is no line, and a carriage return directly before a line feed belongs
to the terminator.
-/

set_option autoImplicit false

namespace SwiftDecl.Text

/-- The parts between occurrences of `sep`; never empty. -/
def splitAt (sep : Char) : List Char → List (List Char)
  | [] => [[]]
  | c :: rest =>
    if c = sep then [] :: splitAt sep rest
    else match splitAt sep rest with
      | [] => [[c]]
      | part :: parts => (c :: part) :: parts

def pieces (text : List Char) : List (List Char) :=
  splitAt '\n' text

theorem splitAt_ne_nil (sep : Char) (text : List Char) : splitAt sep text ≠ [] := by
  cases text with
  | nil => simp [splitAt]
  | cons c rest =>
    simp only [splitAt]
    split
    · simp
    · split <;> simp

def dropReturn : List Char → List Char
  | [] => []
  | ['\r'] => []
  | c :: rest => c :: dropReturn rest

def closeLines : List (List Char) → List (List Char)
  | [] => []
  | [[]] => []
  | [last] => [last]
  | line :: more => dropReturn line :: closeLines more

def lines (text : List Char) : List (List Char) :=
  closeLines (pieces text)

end SwiftDecl.Text
