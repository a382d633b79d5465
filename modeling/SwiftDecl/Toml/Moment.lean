/-!
# Dates and times in TOML

A date, a time, or both with an optional offset. Days are checked against the
calendar. Seconds may be left out.
-/

set_option autoImplicit false

namespace SwiftDecl.Toml

def twoDigits (low high : Nat) : List Char → Option (Nat × List Char)
  | a :: b :: rest =>
    if a.isDigit ∧ b.isDigit then
      let n := (a.toNat - '0'.toNat) * 10 + (b.toNat - '0'.toNat)
      if low ≤ n ∧ n ≤ high then some (n, rest) else none
    else none
  | _ => none

def expect (c : Char) : List Char → Option (List Char)
  | [] => none
  | d :: rest => if d = c then some rest else none

def isLeap (year : Nat) : Bool :=
  year % 4 == 0 && (year % 100 != 0 || year % 400 == 0)

def daysIn (year month : Nat) : Nat :=
  if month = 2 then (if isLeap year then 29 else 28)
  else if month = 4 ∨ month = 6 ∨ month = 9 ∨ month = 11 then 30
  else 31

def afterDate (text : List Char) : Option (List Char) := do
  let (century, rest) ← twoDigits 0 99 text
  let (year, rest) ← twoDigits 0 99 rest
  let (month, rest) ← twoDigits 1 12 (← expect '-' rest)
  let (_, rest) ← twoDigits 1 (daysIn (century * 100 + year) month) (← expect '-' rest)
  return rest

def afterFraction : List Char → Option (List Char)
  | '.' :: rest =>
    match rest.takeWhile Char.isDigit with
    | [] => none
    | _ => some (rest.dropWhile Char.isDigit)
  | text => some text

def afterSeconds : List Char → Option (List Char)
  | ':' :: rest => do
    let (_, rest) ← twoDigits 0 60 rest
    afterFraction rest
  | text => some text

def afterTime (text : List Char) : Option (List Char) := do
  let (_, rest) ← twoDigits 0 23 text
  let (_, rest) ← twoDigits 0 59 (← expect ':' rest)
  afterSeconds rest

def afterOffset : List Char → Option (List Char)
  | [] => some []
  | c :: rest =>
    if c = 'Z' ∨ c = 'z' then some rest
    else if c = '+' ∨ c = '-' then do
      let (_, rest) ← twoDigits 0 23 rest
      let (_, rest) ← twoDigits 0 59 (← expect ':' rest)
      return rest
    else none

def isDate (text : List Char) : Bool :=
  afterDate text == some []

def isDateTime (text : List Char) : Bool :=
  match afterDate text with
  | some (c :: rest) =>
    (c == 'T' || c == 't' || c == ' ') && ((afterTime rest).bind afterOffset) == some []
  | _ => false

def isMoment (text : List Char) : Bool :=
  isDate text || isDateTime text || afterTime text == some []

end SwiftDecl.Toml
