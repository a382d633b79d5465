import SwiftDecl.Number.Double
import SwiftDecl.Text.Span

/-!
# TOML values

A document is a table. Every entry remembers where its key and its value stand;
a table that a header opened stands where the header is. A table also remembers
how it came about, because that decides what may still be added to it. Dates and
times are recognised and not told apart. Numbers may have any size, and an
integer may have its form only.
-/

set_option autoImplicit false

namespace SwiftDecl.Toml
open SwiftDecl.Text

inductive TableForm where
  /-- By a header of its own. -/
  | explicit
  /-- By the header of a table inside it. -/
  | implied
  /-- By a dotted key. -/
  | dotted
  /-- Between braces. -/
  | inline
  deriving DecidableEq, Repr

structure Key where
  name : String
  span : Span
  deriving DecidableEq, Repr

inductive Value where
  | text (content : String)
  /-- Nothing stands for a text in the form of an integer that gives none. -/
  | integer (value : Option Int)
  /-- Nothing stands for a decimal beyond the range of doubles. -/
  | float (value : Option Number.Double)
  | boolean (value : Bool)
  | moment
  | array (items : List Value)
  | tables (items : List (List (Key × Span × Value)))
  | table (form : TableForm) (entries : List (Key × Span × Value))

abbrev Entry := Key × Span × Value

abbrev Table := List Entry

namespace Table

def get? (table : Table) (name : String) : Option Value :=
  (table.find? fun entry => entry.1.name == name).map fun entry => entry.2.2

def replace (name : String) (value : Value) : Table → Table
  | [] => []
  | (key, span, old) :: rest =>
    if key.name == name then (key, span, value) :: rest
    else (key, span, old) :: replace name value rest

def erase (table : Table) (name : String) : Table :=
  table.filter fun entry => entry.1.name != name

def insert? (table : Table) (key : Key) (span : Span) (value : Value) : Option Table :=
  match table.get? key.name with
  | some _ => none
  | none => some (table ++ [(key, span, value)])

def replaceLast (f : Table → Option Table) : List Table → Option (List Table)
  | [] => none
  | [last] => (f last).map fun changed => [changed]
  | first :: rest => (replaceLast f rest).map (first :: ·)

/-- Sets a value under a dotted key. The tables on the way are created, or must
be open to dotted keys; of an array of tables the last one is taken. The table
that takes the value must have been made by dotted keys. -/
def assign (span : Span) (value : Value) : List Key → Table → Option Table
  | [], _ => none
  | [key], table => table.insert? key span value
  | key :: rest, table =>
    match table.get? key.name with
    | none => do
      let inner ← assign span value rest []
      table.insert? key key.span (.table .dotted inner)
    | some (.table .dotted entries) => do
      let inner ← assign span value rest entries
      return table.replace key.name (.table .dotted inner)
    | some (.table .implied entries) =>
      if rest.length ≤ 1 then none
      else do
        let inner ← assign span value rest entries
        return table.replace key.name (.table .implied inner)
    | some (.tables items) =>
      if rest.length ≤ 1 then none
      else do
        let items ← replaceLast (assign span value rest) items
        return table.replace key.name (.tables items)
    | some _ => none

def within (change : Table → Option Table) : List Key → Table → Option Table
  | [], table => change table
  | key :: rest, table =>
    match table.get? key.name with
    | some (.table form entries) =>
      if form = .inline then none
      else do
        let inner ← within change rest entries
        return table.replace key.name (.table form inner)
    | some (.tables items) => do
      let items ← replaceLast (within change rest) items
      return table.replace key.name (.tables items)
    | _ => none

def descend (finish : Key → Table → Option Table) : List Key → Table → Option Table
  | [], _ => none
  | [key], table => finish key table
  | key :: rest, table =>
    match table.get? key.name with
    | none => do
      let inner ← descend finish rest []
      table.insert? key key.span (.table .implied inner)
    | some (.table form entries) =>
      if form = .inline then none
      else do
        let inner ← descend finish rest entries
        return table.replace key.name (.table form inner)
    | some (.tables items) => do
      let items ← replaceLast (descend finish rest) items
      return table.replace key.name (.tables items)
    | some _ => none

/-- Opens a table by the header at `span`. Only a table that is implied so far
may be there already; it moves to the place of the header. -/
def openTable (span : Span) (key : Key) (table : Table) : Option Table :=
  match table.get? key.name with
  | none => table.insert? key span (.table .explicit [])
  | some (.table .implied entries) =>
    some (table.erase key.name ++ [(key, span, .table .explicit entries)])
  | some _ => none

/-- Adds a table to an array of tables by the header at `span`. The array stands
where its first header is. -/
def openItem (span : Span) (key : Key) (table : Table) : Option Table :=
  match table.get? key.name with
  | none => table.insert? key span (.tables [[]])
  | some (.tables items) => some (table.replace key.name (.tables (items ++ [[]])))
  | some _ => none

end Table

end SwiftDecl.Toml
