import SwiftDecl.Toml.Document

/-!
# Documents that can be held as values

A document is well-formed with numbers of any size. To be held as values its
integers need 64 bits with sign and its floats have to be doubles. A table inside
the document may also be the record of a date or time: a reserved key, first by
name, holds the text, and nothing else of the table matters.
-/

set_option autoImplicit false

namespace SwiftDecl.Toml
open SwiftDecl.Text

def fitsWord (n : Int) : Bool :=
  -Int.pow 2 63 ≤ n && n < Int.pow 2 63

/-- The reserved key under which the record of a date or time holds its text. -/
def momentKey : String :=
  "$__toml_private_datetime"

def isMomentText : Value → Bool
  | .text content => isMoment content.toList
  | _ => false

/-- The value under the reserved key, if no key of the table comes before it by
name. -/
def momentRecord? (table : Table) : Option Value :=
  if table.all fun entry => decide (momentKey ≤ entry.1.name) then table.get? momentKey else none

/-- Whether a table holds a date or time as such a record has to; a table that is
no record is as good as its entries. -/
def fitsRecord (table : Table) (entries : Bool) : Bool :=
  match momentRecord? table with
  | some value => isMomentText value
  | none => entries

mutual

def Value.isRepresentable : Value → Bool
  | .text _ | .boolean _ | .moment => true
  | .integer n => n.any fitsWord
  | .float x => x.isSome
  | .array items => allRepresentable items
  | .tables items => allTablesRepresentable items
  | .table _ entries => fitsRecord entries (Table.isRepresentable entries)

def allRepresentable : List Value → Bool
  | [] => true
  | item :: rest => item.isRepresentable && allRepresentable rest

def allTablesRepresentable : List (List (Key × Span × Value)) → Bool
  | [] => true
  | entries :: rest =>
    fitsRecord entries (Table.isRepresentable entries) && allTablesRepresentable rest

def Table.isRepresentable : List (Key × Span × Value) → Bool
  | [] => true
  | (_, _, value) :: rest => value.isRepresentable && Table.isRepresentable rest

end

/-- Whether a text is a document that can be held as values. The root is never
the record of a date or time. -/
def isDocument (text : List Char) : Bool :=
  (document? text).any Table.isRepresentable

end SwiftDecl.Toml
