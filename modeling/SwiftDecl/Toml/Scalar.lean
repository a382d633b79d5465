import SwiftDecl.Text.Lines
import SwiftDecl.Toml.Moment
import SwiftDecl.Toml.Quotation
import SwiftDecl.Toml.Value

/-!
# TOML values without quotes

Booleans, integers, floats, dates and times. Underscores may stand between two
digits, and right behind a sign. Integers have any size; floats are doubles, or
beyond their range. A text can have the form of an integer and stand for none: a
base without digits, or digits with an underscore and other characters.
-/

set_option autoImplicit false

namespace SwiftDecl.Toml
open SwiftDecl.Number SwiftDecl.Text

def digits (isDigit : Char → Bool) : List Char → Option (List Char)
  | [] => none
  | [c] => if isDigit c then some [c] else none
  | c :: '_' :: rest => if isDigit c then (digits isDigit rest).map (c :: ·) else none
  | c :: rest => if isDigit c then (digits isDigit rest).map (c :: ·) else none

def isDigitOf (base : Nat) (c : Char) : Bool :=
  (hexDigit? c).any fun value => value < base

def valueOf (base : Nat) (ds : List Char) : Nat :=
  ds.foldl (fun n c => n * base + (hexDigit? c).getD 0) 0

def decimalDigits (text : List Char) : Option (List Char) := do
  let ds ← digits (isDigitOf 10) text
  if ds.length ≠ 1 ∧ ds.head? = some '0' then none else some ds

def splitSign : List Char → Option Bool × List Char
  | '-' :: rest => (some true, rest)
  | '+' :: rest => (some false, rest)
  | text => (none, text)

def withSign (sign : Option Bool) (n : Nat) : Int :=
  if sign = some true then -(n : Int) else n

/-- The digits of a number before its point. Behind a sign and an underscore they
may start with any digit. -/
def wholeDigits (sign : Option Bool) : List Char → Option (List Char)
  | '_' :: rest => if sign.isSome then digits (isDigitOf 10) rest else none
  | text => decimalDigits text

def basedInteger? (base : Nat) : List Char → Option (Option Int)
  | [] => some none
  | text => (digits (isDigitOf base) text).map fun ds => some (valueOf base ds : Int)

/-- Whether every underscore has a hexadecimal digit behind it, and another one
or a part of a single character before it. -/
def areJoined : List (List Char) → Bool
  | left :: right :: rest =>
    (left.length == 1 || left.getLast?.any (isDigitOf 16)) && right.head?.any (isDigitOf 16) &&
      areJoined (right :: rest)
  | _ => true

/-- Whether an underscore behind the first digits makes a text an integer in
form. A blank, a point or the mark of an exponent makes it something else. -/
def hasIntegerForm (text : List Char) : Bool :=
  let (_, body) := splitSign text
  (body.dropWhile Char.isDigit).head? == some '_' && body.head? != some '0' &&
    body.all (fun c => c != ' ' && c != '.' && c != 'e' && c != 'E') &&
    areJoined (splitAt '_' text)

/-- The integer that a text stands for; the inner option is empty for a text that
only has the form of one. -/
def integer? : List Char → Option (Option Int)
  | '0' :: 'x' :: rest => basedInteger? 16 rest
  | '0' :: 'o' :: rest => basedInteger? 8 rest
  | '0' :: 'b' :: rest => basedInteger? 2 rest
  | text =>
    let (sign, rest) := splitSign text
    match wholeDigits sign rest with
    | some ds => some (some (withSign sign (valueOf 10 ds)))
    | none => if hasIntegerForm text then some none else none

def cut (p : Char → Bool) : List Char → List Char × Option (List Char)
  | [] => ([], none)
  | c :: rest =>
    if p c then ([], some rest)
    else
      let (before, after) := cut p rest
      (c :: before, after)

def exponentOf? : Option (List Char) → Option Int
  | none => some 0
  | some text =>
    let (sign, rest) := splitSign text
    (digits (isDigitOf 10) rest).map fun ds => withSign sign (valueOf 10 ds)

def fractionOf? : Option (List Char) → Option (List Char)
  | none => some []
  | some text => digits (isDigitOf 10) text

/-- The double that a text stands for; the inner option is empty for a decimal
beyond the range. -/
def float? (text : List Char) : Option (Option Double) := do
  let (sign, unsigned) := splitSign text
  let negative := sign == some true
  if unsigned = "inf".toList then return some (.infinite negative)
  if unsigned = "nan".toList then return some .notANumber
  let (mantissa, exponent) := cut (fun c => c == 'e' || c == 'E') unsigned
  let (whole, fraction) := cut (· == '.') mantissa
  if exponent.isNone ∧ fraction.isNone then none
  else do
    let whole ← wholeDigits sign whole
    let fraction ← fractionOf? fraction
    let exponent ← exponentOf? exponent
    return Double.ofDecimal negative (valueOf 10 (whole ++ fraction)) (exponent - fraction.length)

def scalarValue? (text : List Char) : Option Value :=
  if text = "true".toList then some (.boolean true)
  else if text = "false".toList then some (.boolean false)
  else
    match integer? text with
    | some n => some (.integer n)
    | none =>
      match float? text with
      | some x => some (.float x)
      | none => if isMoment text then some .moment else none

def isSpace (c : Char) : Bool :=
  c == ' ' || c == '\t'

def endsScalar (c : Char) : Bool :=
  ['=', ',', '[', ']', '\x7b', '\x7d', '#', '\r', '\n'].contains c

def startsWord : List Char → Bool
  | [] => false
  | c :: _ => !(endsScalar c || isSpace c || c == '.' || c == '"' || c == '\'')

/-- Splits an unquoted value off. Blanks belong to it when a word follows them. -/
def splitScalar : List Char → List Char × List Char
  | [] => ([], [])
  | c :: rest =>
    if endsScalar c || (isSpace c && !startsWord (rest.dropWhile isSpace)) then ([], c :: rest)
    else
      let (text, left) := splitScalar rest
      (c :: text, left)

def readScalar (text : List Char) : Option (Value × List Char) :=
  let (first, rest) := splitScalar text
  (scalarValue? first).map fun value => (value, rest)

end SwiftDecl.Toml
