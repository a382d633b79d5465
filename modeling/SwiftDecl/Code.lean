import SwiftDecl.TypeRef
import SwiftDecl.Layout.Op

/-!
# Code

A block of code is a list of tokens, some of which are blocks themselves. Blocks
are joined by appending; a nested block stays a token of its own.
-/

set_option autoImplicit false

namespace SwiftDecl
open SwiftDecl.Layout

inductive Token where
  | literal (text : String)
  | type (ref : TypeRef)
  | code (block : List Token)
  | newLine
  | openScope
  | closeScope
  | indent
  | dedent

abbrev Block := List Token

namespace Token

mutual

def op : Token → Op
  | .literal text => .literal text
  | .type ref => .word ref.render
  | .code block => .nested (opsOfAll block)
  | .newLine => .newLine
  | .openScope => .openScope
  | .closeScope => .closeScope
  | .indent => .indent
  | .dedent => .dedent

def opsOfAll : List Token → List Op
  | [] => []
  | token :: rest => token.op :: opsOfAll rest

end

mutual

def imports : Token → Modules
  | .type ref => ref.imports
  | .code block => importsOfAll block
  | _ => ∅

def importsOfAll : List Token → Modules
  | [] => ∅
  | token :: rest => token.imports ∪ importsOfAll rest

end

mutual

/-- Tokens are the same when they have the same shape and texts, with type
references compared as written. -/
def same : Token → Token → Bool
  | .literal a, .literal b => a == b
  | .type a, .type b => a == b
  | .code a, .code b => sameAll a b
  | .newLine, .newLine => true
  | .openScope, .openScope => true
  | .closeScope, .closeScope => true
  | .indent, .indent => true
  | .dedent, .dedent => true
  | _, _ => false

def sameAll : List Token → List Token → Bool
  | [], [] => true
  | a :: as, b :: bs => a.same b && sameAll as bs
  | _, _ => false

end

instance : BEq Token := ⟨same⟩

end Token

namespace Block

def ops (block : Block) : List Op :=
  Token.opsOfAll block

def imports (block : Block) : Modules :=
  Token.importsOfAll block

def literal (text : String) : Block :=
  [.literal text]

def line (text : String) : Block :=
  [.literal text, .newLine]

def beginFlow (header : String) : Block :=
  [.literal header, .openScope]

def endFlow : Block :=
  [.closeScope]

def nested (block : Block) : Block :=
  [.code block]

def same (a b : Block) : Bool :=
  Token.sameAll a b

def sameOption : Option Block → Option Block → Bool
  | none, none => true
  | some a, some b => a.same b
  | _, _ => false

@[simp] theorem ops_nil : ops [] = [] := by
  simp [ops, Token.opsOfAll]

@[simp] theorem ops_cons (token : Token) (block : Block) :
    ops (token :: block) = token.op :: ops block := by
  simp [ops, Token.opsOfAll]

theorem ops_append (a b : Block) : ops (a ++ b) = ops a ++ ops b := by
  induction a with
  | nil => simp
  | cons token rest ih => simp [ih]

end Block

end SwiftDecl
