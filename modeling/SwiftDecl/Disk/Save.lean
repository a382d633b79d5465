import SwiftDecl.Disk.Basic
import SwiftDecl.Event
import SwiftDecl.Options.Basic

/-!
# Saving files

A text is saved under a policy for a file that is there already. Saving creates
the directories above the file. An attempt that fails may leave new directories
behind.
-/

set_option autoImplicit false

namespace SwiftDecl

structure TextFile where
  path : String
  content : String
  policy : Overwrite

inductive SaveResult where
  | written
  | unchanged
  | skipped
  deriving DecidableEq, Repr

inductive SaveError where
  | unreadable (path : String)
  | noDirectory (path : String)
  | unwritable (path : String)
  deriving DecidableEq, Repr

def SaveError.message : SaveError → String
  | .unreadable path => "failed to read '" ++ path ++ "'"
  | .noDirectory path => "failed to create '" ++ path ++ "'"
  | .unwritable path => "failed to write '" ++ path ++ "'"

/-- The disk afterwards, what came of it, and what was reported. -/
structure Saving where
  disk : Disk
  result : Except SaveError SaveResult
  events : List Event

namespace TextFile

def bytes (file : TextFile) : ByteArray :=
  file.content.toUTF8

def isOn (file : TextFile) (disk : Disk) : Bool :=
  disk.has file.path

def prepare (file : TextFile) (disk : Disk) : Disk × Option String :=
  match Path.parent? file.path with
  | none => (disk, none)
  | some parent =>
    let (disk, made) := disk.makeDirectories parent
    (disk, if made then none else some parent)

def persist (file : TextFile) (disk : Disk) : Saving :=
  match file.prepare disk with
  | (disk, some parent) => ⟨disk, .error (.noDirectory parent), []⟩
  | (disk, none) =>
    match disk.store file.path file.bytes with
    | none => ⟨disk, .error (.unwritable file.path), []⟩
    | some disk => ⟨disk, .ok .written, [.fileWritten file.path file.bytes.size]⟩

def persistIfChanged (file : TextFile) (disk : Disk) : Saving :=
  if file.isOn disk then
    match disk.readText file.path with
    | none => ⟨disk, .error (.unreadable file.path), []⟩
    | some text =>
      if text = file.content then ⟨disk, .ok .unchanged, [.fileUpToDate file.path]⟩
      else file.persist disk
  else file.persist disk

def save (file : TextFile) (disk : Disk) : Saving :=
  match file.policy with
  | .always => file.persist disk
  | .ifMissing =>
    if file.isOn disk then ⟨disk, .ok .skipped, [.fileExists file.path]⟩ else file.persist disk
  | .ifChanged => file.persistIfChanged disk

end TextFile

end SwiftDecl
