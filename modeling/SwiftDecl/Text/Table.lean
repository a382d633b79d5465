/-!
# Code point tables

A property of characters is held as a list of code points in one of two forms:
inclusive ranges `(first, last)`, or runs `(first, last, step)` that take every
`step`-th code point. Membership is a plain search, so a table means the union
of its rows in any order.
-/

set_option autoImplicit false

namespace SwiftDecl.Text

def inRange (range : Nat × Nat) (c : Char) : Bool :=
  range.1 ≤ c.toNat && c.toNat ≤ range.2

def inRanges (table : List (Nat × Nat)) (c : Char) : Bool :=
  table.any fun range => inRange range c

def inRun (run : Nat × Nat × Nat) (c : Char) : Bool :=
  run.1 ≤ c.toNat && c.toNat ≤ run.2.1 && (c.toNat - run.1) % run.2.2 == 0

def inRuns (table : List (Nat × Nat × Nat)) (c : Char) : Bool :=
  table.any fun run => inRun run c

theorem inRanges_iff {table : List (Nat × Nat)} {c : Char} :
    inRanges table c = true ↔ ∃ range ∈ table, range.1 ≤ c.toNat ∧ c.toNat ≤ range.2 := by
  simp [inRanges, inRange]

theorem inRuns_iff {table : List (Nat × Nat × Nat)} {c : Char} :
    inRuns table c = true ↔ ∃ run ∈ table, inRun run c = true := by
  simp [inRuns]

theorem inRanges_append (a b : List (Nat × Nat)) (c : Char) :
    inRanges (a ++ b) c = (inRanges a c || inRanges b c) := by
  simp [inRanges]

end SwiftDecl.Text
