import SwiftDecl.Toml.Scalar

/-!
# TOML documents

A document is read as a list of statements, which then fill the root table in
order. Containers may be nested and keys dotted to a fixed depth. A text that is
not a document gives nothing.
-/

set_option autoImplicit false

namespace SwiftDecl.Toml
open SwiftDecl.Text

inductive Statement where
  | pair (path : List Key) (span : Span) (value : Value)
  | table (path : List Key) (span : Span)
  | item (path : List Key) (span : Span)

/-- The most containers inside each other, and the most parts of a dotted key. -/
def maxDepth : Nat :=
  80

def skipSpaces (text : List Char) : List Char :=
  text.dropWhile isSpace

def skipTrivia (inComment : Bool) : List Char → List Char
  | [] => []
  | '\r' :: '\n' :: rest => skipTrivia false rest
  | c :: rest =>
    if c = '\n' then skipTrivia false rest
    else if inComment then (if isTextChar c then skipTrivia true rest else c :: rest)
    else if isSpace c then skipTrivia false rest
    else if c = '#' then skipTrivia true rest
    else c :: rest

def skipComment : List Char → List Char
  | '#' :: rest => rest.dropWhile isTextChar
  | text => text

def afterLine (text : List Char) : Option (List Char) :=
  match skipComment (skipSpaces text) with
  | [] => some []
  | '\n' :: rest => some rest
  | '\r' :: '\n' :: rest => some rest
  | _ => none

def isBareKeyChar (c : Char) : Bool :=
  c.isAlphanum || c == '_' || c == '-'

def readKeyText : List Char → Option (List Char × List Char)
  | '"' :: rest => readBasic rest
  | '\'' :: rest => readRaw rest
  | text =>
    match text.takeWhile isBareKeyChar with
    | [] => none
    | name => some (name, text.dropWhile isBareKeyChar)

def readKey (total : Nat) (text : List Char) : Option (Key × List Char) :=
  (readKeyText text).map fun (name, rest) =>
    (⟨String.ofList name, spanBetween total text rest⟩, rest)

def readPath (total : Nat) : Nat → List Char → Option (List Key × List Char)
  | 0, _ => none
  | most + 1, text => do
    let (key, rest) ← readKey total (skipSpaces text)
    match skipSpaces rest with
    | '.' :: more => do
      let (keys, rest) ← readPath total most more
      return (key :: keys, rest)
    | rest => return ([key], rest)

def readDotted (total : Nat) (text : List Char) : Option (List Key × List Char) :=
  readPath total maxDepth text

/-- Reads a key and its value; `skip` passes what may stand around the sign
between them. -/
def readPair (total : Nat) (skip : List Char → List Char)
    (value : List Char → Option (Value × List Char)) (text : List Char) :
    Option ((List Key × Span × Value) × List Char) := do
  let (keys, rest) ← readDotted total text
  match skip rest with
  | '=' :: rest => do
    let start := skip rest
    let (content, rest) ← value start
    return ((keys, spanBetween total start rest, content), rest)
  | _ => none

def readItems (value : List Char → Option (Value × List Char)) :
    Nat → List Char → Option (List Value × List Char)
  | 0, _ => none
  | fuel + 1, text =>
    match skipTrivia false text with
    | ']' :: rest => some ([], rest)
    | start => do
      let (item, rest) ← value start
      match skipTrivia false rest with
      | ',' :: rest => do
        let (items, rest) ← readItems value fuel rest
        return (item :: items, rest)
      | ']' :: rest => return ([item], rest)
      | _ => none

def readEntries (pair : List Char → Option ((List Key × Span × Value) × List Char)) :
    Nat → Table → List Char → Option (Table × List Char)
  | 0, _, _ => none
  | fuel + 1, table, text =>
    match skipTrivia false text with
    | '\x7d' :: rest => some (table, rest)
    | start => do
      let ((keys, span, value), rest) ← pair start
      let table ← table.assign span value keys
      match skipTrivia false rest with
      | ',' :: rest => readEntries pair fuel table rest
      | '\x7d' :: rest => return (table, rest)
      | _ => none

def readLeaf : List Char → Option (Value × List Char)
  | '"' :: '"' :: '"' :: rest =>
    (readLongBasic rest).map fun (content, rest) => (.text (String.ofList content), rest)
  | '\'' :: '\'' :: '\'' :: rest =>
    (readLongRaw rest).map fun (content, rest) => (.text (String.ofList content), rest)
  | '"' :: rest => (readBasic rest).map fun (content, rest) => (.text (String.ofList content), rest)
  | '\'' :: rest => (readRaw rest).map fun (content, rest) => (.text (String.ofList content), rest)
  | text => readScalar text

def readValue (total : Nat) : Nat → List Char → Option (Value × List Char)
  | 0, text => readLeaf text
  | depth + 1, text =>
    match text with
    | '[' :: rest =>
      (readItems (readValue total depth) (rest.length + 1) rest).map fun (items, rest) =>
        (.array items, rest)
    | '\x7b' :: rest =>
      (readEntries (readPair total (skipTrivia false) (readValue total depth))
        (rest.length + 1) [] rest).map fun (table, rest) => (.table .inline table, rest)
    | _ => readLeaf text

def readStatement (total : Nat) (text : List Char) : Option (Statement × List Char) :=
  match text with
  | '[' :: '[' :: rest => do
    match ← readDotted total rest with
    | (keys, ']' :: ']' :: rest) => return (.item keys (spanBetween total text rest), rest)
    | _ => none
  | '[' :: rest => do
    match ← readDotted total rest with
    | (keys, ']' :: rest) => return (.table keys (spanBetween total text rest), rest)
    | _ => none
  | _ => do
    let ((keys, span, value), rest) ←
      readPair total skipSpaces (readValue total maxDepth) text
    return (.pair keys span value, rest)

def readStatements (total : Nat) : Nat → List Char → Option (List Statement)
  | 0, _ => none
  | fuel + 1, text =>
    match skipTrivia false text with
    | [] => some []
    | start => do
      let (statement, rest) ← readStatement total start
      let statements ← readStatements total fuel (← afterLine rest)
      return statement :: statements

/-- Fills a table; `header` is the path of the table that pairs go to. -/
def fill (header : List Key) (root : Table) : List Statement → Option Table
  | [] => some root
  | .pair keys span value :: rest => do
    fill header (← root.within (Table.assign span value keys) header) rest
  | .table keys span :: rest => do
    fill keys (← root.descend (Table.openTable span) keys) rest
  | .item keys span :: rest => do
    fill keys (← root.descend (Table.openItem span) keys) rest

def dropMark : List Char → List Char
  | '\ufeff' :: rest => rest
  | text => text

/-- The table of a document, if the text is one. A byte order mark at the start
is ignored. -/
def document? (text : List Char) : Option Table := do
  fill [] [] (← readStatements (utf8Length text) (text.length + 1) (dropMark text))

end SwiftDecl.Toml
