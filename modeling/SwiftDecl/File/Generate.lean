import SwiftDecl.Disk.Save
import SwiftDecl.File.SourceFile
import SwiftDecl.Options.Text

/-!
# Files on a disk

Source files are rendered in full before the policy is asked, and options can be
read from a file.
-/

set_option autoImplicit false

namespace SwiftDecl

namespace SourceFile

def pathUnder (file : SourceFile) (base : String) : String :=
  Path.join base file.name

def textFile (file : SourceFile) (base : String) (today : Date) : TextFile where
  path := file.pathUnder base
  content := file.contents today
  policy := file.options.overwrite

def saveUnder (file : SourceFile) (base : String) (today : Date) (disk : Disk) : Saving :=
  let saving := (file.textFile base today).save disk
  { saving with events := file.events ++ saving.events }

end SourceFile

namespace Options

def load (disk : Disk) (path : String) : Except Error Options × List Event :=
  match disk.readText path with
  | none => (.error (.unreadable path), [])
  | some text =>
    match ofSource ⟨path, text⟩ with
    | .ok options => (.ok options, [.optionsLoaded path])
    | .error error => (.error error, [])

end Options

end SwiftDecl
