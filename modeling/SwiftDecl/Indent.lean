/-!
# Indentation

One level of indentation: a number of spaces, or a tab.
-/

set_option autoImplicit false

namespace SwiftDecl

inductive Indent where
  | spaces (width : UInt8)
  | tab
  deriving DecidableEq, Repr

namespace Indent

def standard : Indent :=
  .spaces 4

def compact : Indent :=
  .spaces 2

def maxSpaces : UInt8 :=
  16

def unit : Indent → List Char
  | .spaces width => List.replicate width.toNat ' '
  | .tab => ['\t']

end Indent

end SwiftDecl
