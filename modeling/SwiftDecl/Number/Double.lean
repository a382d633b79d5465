/-!
# Binary floating point numbers

A finite double is `significand * 2 ^ exponent` with at most 53 bits and an
exponent of at least -1074. A decimal is rounded to the nearest double, a tie to
the even significand. A double is shown with the fewest digits that round back
to it, the nearest of those and of two equally near the larger, written out
without an exponent.
-/

set_option autoImplicit false

namespace SwiftDecl.Number

inductive Double where
  | notANumber
  | infinite (negative : Bool)
  | finite (negative : Bool) (significand : Nat) (exponent : Int)
  deriving DecidableEq, Repr

structure Ratio where
  num : Nat
  den : Nat

namespace Ratio

def scale (r : Ratio) (base : Nat) (e : Int) : Ratio :=
  if 0 ≤ e then ⟨r.num * base.pow e.toNat, r.den⟩ else ⟨r.num, r.den * base.pow (-e).toNat⟩

def floor (r : Ratio) : Nat :=
  r.num / r.den

def round (r : Ratio) : Nat :=
  let q := r.num / r.den
  let twice := 2 * (r.num % r.den)
  if twice < r.den then q
  else if r.den < twice then q + 1
  else if q % 2 = 0 then q else q + 1

end Ratio

namespace Double

def leastExponent : Int :=
  -1074

def greatestExponent : Int :=
  971

/-- The exponent at which a positive ratio has 53 bits before the point, or the
least exponent if it is too small for that. -/
def exponentOf (r : Ratio) : Int :=
  let guess : Int := (r.num.log2 : Int) - (r.den.log2 : Int) - 53
  let e := max guess leastExponent
  if Nat.pow 2 53 ≤ (r.scale 2 (-e)).floor then e + 1 else e

def ofRatio (negative : Bool) (r : Ratio) : Option Double :=
  let e := exponentOf r
  let s := (r.scale 2 (-e)).round
  let (s, e) := if s = Nat.pow 2 53 then (Nat.pow 2 52, e + 1) else (s, e)
  if greatestExponent < e then none else some (.finite negative s e)

/-- The double nearest to `digits * 10 ^ exponent`. Exponents far outside the
range are settled without computing the power. -/
def ofDecimal (negative : Bool) (digits : Nat) (exponent : Int) : Option Double :=
  let places : Int := (Nat.toDigits 10 digits).length
  if digits = 0 ∨ places + exponent < -400 then some (.finite negative 0 leastExponent)
  else if 400 < places + exponent then none
  else ofRatio negative (Ratio.scale ⟨digits, 1⟩ 10 exponent)

/-- Whether `n * 10 ^ place` rounds to the double: it lies between the midpoints
to its neighbours, which count when the significand is even. Bounds are in
quarters of the last binary place. -/
def roundsTo (s : Nat) (e place : Int) (n : Nat) : Bool :=
  let r := (Ratio.scale ⟨1, 1⟩ 2 (e - 2)).scale 10 (-place)
  let low := if s = Nat.pow 2 52 ∧ leastExponent < e then 4 * s - 1 else 4 * s - 2
  let high := 4 * s + 2
  if s % 2 = 0 then low * r.num ≤ n * r.den && n * r.den ≤ high * r.num
  else low * r.num < n * r.den && n * r.den < high * r.num

/-- The multiple of `10 ^ place` next to the double that rounds to it, if one
of its two neighbours does. Halfway between them the upper one is taken. -/
def neighbour? (s : Nat) (e place : Int) : Option Nat :=
  let r := (Ratio.scale ⟨s, 1⟩ 2 e).scale 10 (-place)
  let below := r.floor
  let nearer := if 2 * (r.num % r.den) < r.den then below else below + 1
  let farther := if nearer = below then below + 1 else below
  if 0 < nearer ∧ roundsTo s e place nearer then some nearer
  else if 0 < farther ∧ roundsTo s e place farther then some farther
  else none

/-- The coarsest decimal place, from `place` downwards, that holds a number
rounding to the double. -/
def shortest (s : Nat) (e : Int) : Nat → Int → Nat × Int
  | 0, place => (0, place)
  | fuel + 1, place =>
    match neighbour? s e place with
    | some n => (n, place)
    | none => shortest s e fuel (place - 1)

def positional (n : Nat) (place : Int) : List Char :=
  let digits := Nat.toDigits 10 n
  if 0 ≤ place then digits ++ List.replicate place.toNat '0' ++ ['.', '0']
  else
    let behind := (-place).toNat
    let padded := List.replicate (behind + 1 - digits.length) '0' ++ digits
    padded.take (padded.length - behind) ++ '.' :: padded.drop (padded.length - behind)

def sign (negative : Bool) : List Char :=
  if negative then ['-'] else []

def text : Double → List Char
  | .notANumber => "NaN".toList
  | .infinite negative => sign negative ++ "inf".toList
  | .finite negative s e =>
    sign negative ++
      if s = 0 then "0.0".toList
      else
        let (n, place) := shortest s e 660 310
        positional n place

end Double

end SwiftDecl.Number
