import SwiftDecl.Toml.Value

/-!
# Readers of TOML

A reader takes a text to the root table of the document, if the text is one.
Options are read with any reader. What is known of it are two laws: no key is in
the root table twice, and the key of a pair carries the span at which the
document spells it.
-/

set_option autoImplicit false

namespace SwiftDecl.Toml
open SwiftDecl.Text

abbrev Reader := List Char → Option Table

def Table.Distinct (table : Table) : Prop :=
  (table.map fun entry => entry.1.name).Nodup

def DistinctKeys (reader : Reader) : Prop :=
  ∀ text table, reader text = some table → table.Distinct

/-- A key is spelled as it is, or between quotes. Between double quotes there may
be escapes; without them the name itself is there. -/
inductive IsSpelling (name : List Char) : List Char → Prop
  | bare : IsSpelling name name
  | literal : IsSpelling name ('\'' :: (name ++ ['\'']))
  | basic (body : List Char) (plain : '\\' ∉ body → body = name) :
      IsSpelling name ('"' :: (body ++ ['"']))

/-- The key is written as `written`, behind `before` and in front of `after`. -/
structure Key.Stands (key : Key) (text before written after : List Char) : Prop where
  whole : text = before ++ written ++ after
  span : key.span = ⟨utf8Length before, utf8Length written⟩
  spelling : IsSpelling key.name.toList written

def Value.isTabular : Value → Bool
  | .table _ _ | .tables _ => true
  | _ => false

/-- What is asked of entries that hold no others; tables may be put together from
several places of the document. -/
def PlacesKeys (reader : Reader) : Prop :=
  ∀ text table, reader text = some table → ∀ entry ∈ table, entry.2.2.isTabular = false →
    ∃ before written after, entry.1.Stands text before written after

end SwiftDecl.Toml
