import SwiftDecl.Event

/-!
# Dates

A day of the proleptic Gregorian calendar, written with the English name of its
month.
-/

set_option autoImplicit false

namespace SwiftDecl

structure Date where
  year : Int
  month : Nat
  day : Nat
  deriving DecidableEq, Repr

namespace Date

def monthNames : List String :=
  ["January", "February", "March", "April", "May", "June", "July", "August", "September",
   "October", "November", "December"]

def padded (width n : Nat) : String :=
  let digits := Nat.toDigits 10 n
  String.ofList (List.replicate (width - digits.length) '0' ++ digits)

/-- At least four digits; years before 0 and after 9999 have a sign. -/
def yearText (year : Int) : String :=
  if year < 0 then "-" ++ padded 4 year.natAbs
  else if 9999 < year then "+" ++ padded 4 year.natAbs
  else padded 4 year.natAbs

def text (date : Date) : String :=
  monthNames.getD (date.month - 1) "" ++ " " ++ Event.number date.day ++ ", " ++
    yearText date.year

end Date

end SwiftDecl
