import SwiftDecl.Decl.TypeDecl
import SwiftDecl.Layout.Writer

/-!
# Nodes

Everything that can be written and that depends on modules.
-/

set_option autoImplicit false

namespace SwiftDecl
open SwiftDecl.Layout

inductive Node where
  | parameter (parameter : Parameter)
  | field (field : Field)
  | method (method : Method)
  | type (decl : TypeDecl)
  | block (block : Block)
  | ref (type : TypeRef)

namespace Node

def ops : Node → List Op
  | .parameter p => p.ops
  | .field f => f.ops
  | .method m => m.ops
  | .type d => d.ops
  | .block b => b.ops
  | .ref t => [.word t.render]

def imports : Node → Modules
  | .parameter p => p.imports
  | .field f => f.imports
  | .method m => m.imports
  | .type d => d.imports
  | .block b => b.imports
  | .ref t => t.imports

def same : Node → Node → Bool
  | .parameter a, .parameter b => a.same b
  | .field a, .field b => a.same b
  | .method a, .method b => a.same b
  | .type a, .type b => a.same b
  | .block a, .block b => a.same b
  | .ref a, .ref b => a.same b
  | _, _ => false

instance : BEq Node := ⟨same⟩

end Node

namespace Layout.Writer

def emit (w : Writer) (node : Node) : Writer :=
  w.run node.ops

end Layout.Writer

end SwiftDecl
