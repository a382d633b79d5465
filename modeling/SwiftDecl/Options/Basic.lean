import SwiftDecl.Indent

/-!
# File options

How a source file is rendered and written.
-/

set_option autoImplicit false

namespace SwiftDecl

/-- What happens to a file that is there already. -/
inductive Overwrite where
  | always
  | ifChanged
  | ifMissing
  deriving DecidableEq, Repr

structure Options where
  indentWidth : UInt8
  useTabs : Bool
  generatorInfo : Option String
  addGenerationDate : Bool
  overwrite : Overwrite
  deriving DecidableEq, Repr

namespace Options

def standard : Options where
  indentWidth := 4
  useTabs := false
  generatorInfo := none
  addGenerationDate := true
  overwrite := .always

def indent (options : Options) : Indent :=
  if options.useTabs then .tab else .spaces options.indentWidth

def isValid (options : Options) : Bool :=
  options.useTabs || (1 ≤ options.indentWidth && options.indentWidth ≤ Indent.maxSpaces)

end Options

end SwiftDecl
