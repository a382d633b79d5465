import SwiftDecl.Disk.Path
import SwiftDecl.Text.Span

/-!
# Disks

A disk is a tree of directories and files under one root, held as a map from
locations to items. A location is the list of names from the root; the root is
always a directory. Paths are resolved against the root one segment at a time,
and every segment but the last has to lead to a directory.
-/

set_option autoImplicit false

namespace SwiftDecl

inductive Item where
  | directory
  | file (bytes : ByteArray)

abbrev Location := List String

structure Disk where
  items : List (Location × Item)

namespace Disk

def empty : Disk :=
  ⟨[]⟩

def get? (disk : Disk) (location : Location) : Option Item :=
  if location = [] then some .directory else disk.items.lookup location

def setItem (location : Location) (item : Item) : List (Location × Item) → List (Location × Item)
  | [] => [(location, item)]
  | (other, old) :: rest =>
    if other = location then (location, item) :: rest
    else (other, old) :: setItem location item rest

def set (disk : Disk) (location : Location) (item : Item) : Disk :=
  ⟨setItem location item disk.items⟩

def erase (disk : Disk) (location : Location) : Disk :=
  ⟨disk.items.filter fun entry => entry.1 != location⟩

theorem lookup_setItem_self (location : Location) (item : Item)
    (items : List (Location × Item)) :
    (setItem location item items).lookup location = some item := by
  induction items with
  | nil => simp [setItem]
  | cons entry rest ih =>
    obtain ⟨other, old⟩ := entry
    simp only [setItem]
    split
    · simp
    · rename_i h
      have h' : (location == other) = false := by simpa using Ne.symm h
      simp [List.lookup_cons, h', ih]

theorem lookup_setItem_of_ne {location other : Location} (h : other ≠ location) (item : Item)
    (items : List (Location × Item)) :
    (setItem location item items).lookup other = items.lookup other := by
  have hne : (other == location) = false := by simpa using h
  induction items with
  | nil => simp [setItem, List.lookup_cons, hne]
  | cons entry rest ih =>
    obtain ⟨place, old⟩ := entry
    simp only [setItem]
    split
    · rename_i hp
      subst hp
      simp [List.lookup_cons, hne]
    · simp [List.lookup_cons, ih]

theorem get?_set_self {disk : Disk} {location : Location} (h : location ≠ []) (item : Item) :
    (disk.set location item).get? location = some item := by
  simp [get?, set, h, lookup_setItem_self]

theorem get?_set_of_ne {disk : Disk} {location other : Location} (h : other ≠ location)
    (item : Item) : (disk.set location item).get? other = disk.get? other := by
  simp [get?, set, lookup_setItem_of_ne h]

def isDirectory (disk : Disk) (location : Location) : Bool :=
  match disk.get? location with
  | some .directory => true
  | _ => false

def isPath (path : String) : Bool :=
  !path.toList.contains '\x00' && Text.utf8Length path.toList < 4096

def isName (segment : String) : Bool :=
  Text.utf8Length segment.toList ≤ 255

/-- Follows segments from a location. The last one need not exist. -/
def walk (disk : Disk) : Location → List String → Option Location
  | here, [] => some here
  | here, segment :: rest =>
    if disk.isDirectory here then
      if Path.isFiller segment then walk disk here rest
      else if segment = ".." then walk disk here.dropLast rest
      else if isName segment then walk disk (here ++ [segment]) rest
      else none
    else none

def locate (disk : Disk) (path : String) : Option Location :=
  if path ≠ "" ∧ isPath path then disk.walk [] (Path.segments path) else none

def find? (disk : Disk) (path : String) : Option Item :=
  (disk.locate path).bind disk.get?

def has (disk : Disk) (path : String) : Bool :=
  (disk.find? path).isSome

def readText (disk : Disk) (path : String) : Option String :=
  match disk.find? path with
  | some (.file bytes) => String.fromUTF8? bytes
  | _ => none

/-- Follows segments from a location and creates the directories that are
missing. What was created stays even if a later segment fails. -/
def makeFrom (disk : Disk) : Location → List String → Disk × Bool
  | here, [] => (disk, disk.isDirectory here)
  | here, segment :: rest =>
    if Path.isFiller segment then makeFrom disk here rest
    else if segment = ".." then makeFrom disk here.dropLast rest
    else if isName segment then
      match disk.get? (here ++ [segment]) with
      | none => makeFrom (disk.set (here ++ [segment]) .directory) (here ++ [segment]) rest
      | some .directory => makeFrom disk (here ++ [segment]) rest
      | some (.file _) => (disk, false)
    else (disk, false)

def makeDirectories (disk : Disk) (path : String) : Disk × Bool :=
  if path = "" then (disk, true)
  else if isPath path then disk.makeFrom [] (Path.segments path)
  else (disk, false)

def store (disk : Disk) (path : String) (bytes : ByteArray) : Option Disk :=
  match disk.locate path with
  | none => none
  | some location =>
    if disk.isDirectory location then none else some (disk.set location (.file bytes))

def remove (disk : Disk) (path : String) : Disk :=
  match disk.locate path with
  | none => disk
  | some location => disk.erase location

def listing (disk : Disk) : List (Location × Item) :=
  disk.items.mergeSort fun a b => !decide (b.1 < a.1)

end Disk

end SwiftDecl
