import SwiftDecl.Event
import SwiftDecl.Options.Basic
import SwiftDecl.Options.Error
import SwiftDecl.Text.Quoted
import SwiftDecl.Toml.Reader

/-!
# Reading file options

Options are a flat table in which every key may be absent. Keys are taken in
alphabetical order, and the first one that does not fit is reported. Only a
table that fits is checked for a supported indentation.
-/

set_option autoImplicit false

namespace SwiftDecl.Options
open SwiftDecl.Text SwiftDecl.Toml

def fieldNames : List String :=
  ["indent_width", "use_tabs", "generator_info", "add_generation_date", "overwrite"]

def policies : List (String × Overwrite) :=
  [("always", .always), ("if-changed", .ifChanged), ("if-missing", .ifMissing)]

def ticked (name : String) : String :=
  "`" ++ name ++ "`"

def oneOf (names : List String) : String :=
  "expected one of " ++ ", ".intercalate (names.map ticked)

def integerText (n : Int) : String :=
  if n < 0 then "-" ++ Event.number n.natAbs else Event.number n.natAbs

def integerName (n : Int) : String :=
  "integer " ++ ticked (integerText n)

def isShort (n : Int) : Bool :=
  -Int.pow 2 63 ≤ n && n < Int.pow 2 64

def integerOverflow : String :=
  "integer number overflowed"

/-- What an integer is, in a message. One that 64 bits do not hold is named with
the kind of 128 bits that does; one beyond those has no description. -/
def describeInteger (n : Int) : Except String String :=
  if isShort n then .ok (integerName n)
  else if -Int.pow 2 127 ≤ n ∧ n < Int.pow 2 127 then .ok (integerName n ++ " as i128")
  else if 0 ≤ n ∧ n < Int.pow 2 128 then .ok (integerName n ++ " as u128")
  else .error integerOverflow

def describe : Value → Except String String
  | .text content => .ok ("string " ++ String.ofList (quoted content.toList))
  | .integer (some n) => describeInteger n
  | .integer none => .error integerOverflow
  | .float (some x) => .ok ("floating point " ++ ticked (String.ofList x.text))
  | .float none => .error "floating-point number overflowed"
  | .boolean b => .ok ("boolean " ++ ticked (if b then "true" else "false"))
  | .array _ | .tables _ => .ok "sequence"
  | .moment | .table _ _ => .ok "map"

def wrongType (value : Value) (expected : String) : String :=
  match describe value with
  | .ok what => "invalid type: " ++ what ++ ", expected " ++ expected
  | .error message => message

def readWidth : Value → Except String UInt8
  | .integer (some n) =>
    if 0 ≤ n ∧ n < 256 then .ok (UInt8.ofNat n.toNat)
    else if isShort n then .error ("invalid value: " ++ integerName n ++ ", expected u8")
    else .error (wrongType (.integer (some n)) "u8")
  | value => .error (wrongType value "u8")

def readFlag : Value → Except String Bool
  | .boolean b => .ok b
  | value => .error (wrongType value "a boolean")

def readText : Value → Except String String
  | .text content => .ok content
  | value => .error (wrongType value "a string")

def readPolicyName (name : String) : Except String Overwrite :=
  match policies.lookup name with
  | some policy => .ok policy
  | none => .error ("unknown variant " ++ ticked name ++ ", " ++ oneOf (policies.map Prod.fst))

def kindName : Value → String
  | .text _ => "string"
  | .integer _ => "integer"
  | .float _ => "float"
  | .boolean _ => "boolean"
  | .moment => "datetime"
  | .array _ | .tables _ => "array"
  | .table _ _ => "table"

/-- A policy that is given as the only key of a table has nothing as its value. -/
def readNothing : Value → Except String Unit
  | .array [] => .ok ()
  | .table _ [] => .ok ()
  | .array _ | .tables _ => .error "expected empty array"
  | .table _ _ => .error "expected empty table"
  | value => .error ("expected table, found " ++ kindName value)

def located {α : Type} (span : Span) : Except String α → Except Misfit α
  | .ok a => .ok a
  | .error message => .error ⟨message, span⟩

/-- A policy is a name, or a table with that name as its only key. -/
def readPolicy (span : Span) : Value → Except Misfit Overwrite
  | .text name => located span (readPolicyName name)
  | .table _ [] => .error ⟨"wanted exactly 1 element, found 0 elements", span⟩
  | .table _ [(key, inner, value)] => do
    let policy ← located key.span (readPolicyName key.name)
    located inner (readNothing value)
    return policy
  | .table _ _ => .error ⟨"wanted exactly 1 element, more than 1 element", span⟩
  | _ => .error ⟨"wanted string or table", span⟩

def set (options : Options) : Entry → Except Misfit Options
  | (key, span, value) =>
    if key.name = "indent_width" then
      return { options with indentWidth := ← located span (readWidth value) }
    else if key.name = "use_tabs" then
      return { options with useTabs := ← located span (readFlag value) }
    else if key.name = "generator_info" then
      return { options with generatorInfo := some (← located span (readText value)) }
    else if key.name = "add_generation_date" then
      return { options with addGenerationDate := ← located span (readFlag value) }
    else if key.name = "overwrite" then
      return { options with overwrite := ← readPolicy span value }
    else .error ⟨"unknown field " ++ ticked key.name ++ ", " ++ oneOf fieldNames, key.span⟩

def setAll (options : Options) : List Entry → Except Misfit Options
  | [] => .ok options
  | entry :: rest => do setAll (← options.set entry) rest

def byKey (table : Table) : List Entry :=
  table.mergeSort fun a b => decide (a.1.name ≤ b.1.name)

def ofTable (table : Table) : Except Misfit Options :=
  setAll standard (byKey table)

def unsupportedWidth (width : UInt8) : String :=
  "unsupported indent width " ++ Event.number width.toNat

def validate (source : Source) (options : Options) : Except Error Options :=
  if options.isValid then .ok options
  else .error (source.invalidAt "indent_width" (unsupportedWidth options.indentWidth))

def ofSourceWith (reader : Reader) (source : Source) : Except Error Options :=
  match reader source.text.toList with
  | none => .error (.malformed source none)
  | some table =>
    match ofTable table with
    | .error misfit => .error (.malformed source (some misfit))
    | .ok options => validate source options

end SwiftDecl.Options
