import SwiftDecl.Options.Reader
import SwiftDecl.Toml.Document

/-!
# Options from a text

Options are given in TOML.
-/

set_option autoImplicit false

namespace SwiftDecl.Options

def ofSource (source : Source) : Except Error Options :=
  ofSourceWith Toml.document? source

def defaultName : String :=
  "swiftpoet.toml"

def ofText (text : String) : Except Error Options :=
  ofSource ⟨defaultName, text⟩

end SwiftDecl.Options
