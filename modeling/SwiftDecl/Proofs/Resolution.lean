import SwiftDecl.Disk.Save
import Mathlib.Data.List.Induction
import Mathlib.Tactic.Common

/-!
# Paths on a disk that changes

A path is resolved through directories, so what it leads to depends on the
directories that exist. Saving a file makes directories and stores one file; it
takes no directory away. Hence a path that leads somewhere keeps leading there.
A path that leads nowhere may come to lead somewhere once directories are made
for it, and if it turns back on its way, that may be a place where a file is
already.
-/

set_option autoImplicit false

namespace SwiftDecl.Disk

def bytesAt (disk : Disk) (location : Location) : Option ByteArray :=
  match disk.get? location with
  | some (.file bytes) => some bytes
  | _ => none

def bytesOf (disk : Disk) (path : String) : Option ByteArray :=
  (disk.locate path).bind disk.bytesAt

theorem bytesAt_eq_some_iff {disk : Disk} {location : Location} {bytes : ByteArray} :
    disk.bytesAt location = some bytes ↔ disk.get? location = some (.file bytes) := by
  unfold bytesAt
  split
  · rename_i stored h
    simp [h]
  · rename_i hother
    simp only [reduceCtorEq, false_iff]
    exact hother bytes

theorem bytesOf_eq_some_iff {disk : Disk} {path : String} {bytes : ByteArray} :
    disk.bytesOf path = some bytes ↔ disk.find? path = some (.file bytes) := by
  simp only [bytesOf, find?, Option.bind_eq_some_iff, bytesAt_eq_some_iff]

theorem isDirectory_iff {disk : Disk} {location : Location} :
    disk.isDirectory location = true ↔ disk.get? location = some .directory := by
  unfold isDirectory
  split
  · rename_i h
    simp [h]
  · rename_i hother
    simpa using hother

theorem isDirectory_root (disk : Disk) : disk.isDirectory [] = true :=
  isDirectory_iff.2 rfl

/-- Nothing is lost from one disk to the next, and all that is new are
directories. -/
def Gains (before after : Disk) : Prop :=
  ∀ location, after.get? location = before.get? location ∨
    before.get? location = none ∧ after.get? location = some .directory

namespace Gains

variable {before middle after : Disk}

theorem refl (disk : Disk) : Gains disk disk :=
  fun _ => Or.inl rfl

theorem trans (h₁ : Gains before middle) (h₂ : Gains middle after) : Gains before after := by
  intro location
  rcases h₂ location with h | ⟨hnone, hdir⟩
  · rw [h]
    exact h₁ location
  · rcases h₁ location with h | ⟨_, hdir'⟩
    · exact Or.inr ⟨h ▸ hnone, hdir⟩
    · rw [hdir'] at hnone
      exact absurd hnone (by simp)

theorem bytesAt (h : Gains before after) (location : Location) :
    after.bytesAt location = before.bytesAt location := by
  unfold Disk.bytesAt
  rcases h location with h | ⟨hnone, hdir⟩
  · rw [h]
  · rw [hnone, hdir]

theorem isDirectory (h : Gains before after) {location : Location}
    (hd : before.isDirectory location = true) : after.isDirectory location = true := by
  rw [isDirectory_iff] at hd ⊢
  rcases h location with h | ⟨hnone, _⟩
  · rw [h, hd]
  · rw [hd] at hnone
    exact absurd hnone (by simp)

end Gains

theorem set_gains {disk : Disk} {location : Location} (h : disk.get? location = none) :
    Gains disk (disk.set location .directory) := by
  intro other
  by_cases ho : other = location
  · subst ho
    have hne : other ≠ [] := by
      intro hroot
      rw [hroot] at h
      exact absurd h (by simp [get?])
    exact Or.inr ⟨h, get?_set_self hne _⟩
  · exact Or.inl (get?_set_of_ne ho _)

theorem makeFrom_gains (segments : List String) (disk : Disk) (here : Location) :
    Gains disk (disk.makeFrom here segments).1 := by
  induction segments generalizing disk here with
  | nil => exact Gains.refl disk
  | cons segment rest ih =>
    unfold makeFrom
    split
    · exact ih disk here
    · split
      · exact ih disk here.dropLast
      · split
        · split
          · rename_i hnone
            exact (set_gains hnone).trans (ih _ _)
          · exact ih disk _
          · exact Gains.refl disk
        · exact Gains.refl disk

theorem makeDirectories_gains (disk : Disk) (path : String) :
    Gains disk (disk.makeDirectories path).1 := by
  unfold makeDirectories
  split
  · exact Gains.refl disk
  · split
    · exact makeFrom_gains _ _ _
    · exact Gains.refl disk

/-- `Leads here segment next`: from the directory `here` a segment leads to
`next`, whatever is there. -/
inductive Leads (here : Location) : String → Location → Prop
  | stay {segment : String} (filler : Path.isFiller segment = true) : Leads here segment here
  | up : Leads here ".." here.dropLast
  | down {segment : String} (name : Path.isFiller segment = false) (forward : segment ≠ "..") :
      Leads here segment (here ++ [segment])

theorem walk_cons {disk : Disk} {here location : Location} {segment : String}
    {rest : List String} (h : disk.walk here (segment :: rest) = some location) :
    disk.isDirectory here = true ∧
      ∃ next, Leads here segment next ∧ disk.walk next rest = some location := by
  unfold walk at h
  split at h
  · rename_i hd
    refine ⟨hd, ?_⟩
    split at h
    · rename_i hf
      exact ⟨here, .stay hf, h⟩
    · rename_i hf
      split at h
      · rename_i hup
        exact ⟨here.dropLast, hup ▸ .up, h⟩
      · rename_i hup
        split at h
        · exact ⟨here ++ [segment], .down (by simpa using hf) hup, h⟩
        · exact absurd h (by simp)
  · exact absurd h (by simp)

section Directories

variable {before after : Disk}

theorem walk_cons_of {here location : Location} {segment : String} {rest : List String}
    (h : before.walk here (segment :: rest) = some location)
    (hd : after.isDirectory here = true)
    (hrest : ∀ next, before.walk next rest = some location →
      Leads here segment next → after.walk next rest = some location) :
    after.walk here (segment :: rest) = some location := by
  unfold walk at h ⊢
  rw [if_pos hd]
  split at h
  · by_cases hf : Path.isFiller segment = true
    · rw [if_pos hf] at h ⊢
      exact hrest here h (.stay hf)
    · rw [if_neg hf] at h ⊢
      by_cases hup : segment = ".."
      · rw [if_pos hup] at h ⊢
        exact hrest here.dropLast h (hup ▸ .up)
      · rw [if_neg hup] at h ⊢
        split at h
        · rename_i hn
          rw [if_pos hn]
          exact hrest _ h (.down (by simpa using hf) hup)
        · exact absurd h (by simp)
  · exact absurd h (by simp)

theorem walk_mono
    (h : ∀ location, before.isDirectory location = true → after.isDirectory location = true)
    {segments : List String} {here location : Location}
    (hw : before.walk here segments = some location) :
    after.walk here segments = some location := by
  induction segments generalizing here with
  | nil => exact hw
  | cons segment rest ih =>
    apply walk_cons_of hw (h here (walk_cons hw).1)
    intro next hnext _
    exact ih hnext

theorem locate_mono
    (h : ∀ location, before.isDirectory location = true → after.isDirectory location = true)
    {path : String} {location : Location} (hl : before.locate path = some location) :
    after.locate path = some location := by
  unfold locate at hl ⊢
  split at hl
  · rename_i hp
    rw [if_pos hp]
    exact walk_mono h hl
  · exact absurd hl (by simp)

end Directories

section Storing

variable {disk : Disk} {location : Location}

theorem ne_root (h : disk.isDirectory location = false) : location ≠ [] := by
  intro hroot
  rw [hroot, isDirectory_root] at h
  exact absurd h (by simp)

theorem bytesAt_set_self (h : location ≠ []) (bytes : ByteArray) :
    (disk.set location (.file bytes)).bytesAt location = some bytes :=
  bytesAt_eq_some_iff.2 (get?_set_self h _)

theorem bytesAt_set_of_ne {other : Location} (h : other ≠ location) (item : Item) :
    (disk.set location item).bytesAt other = disk.bytesAt other := by
  unfold bytesAt
  rw [get?_set_of_ne h]

theorem isDirectory_set_file (h : disk.isDirectory location = false) (bytes : ByteArray)
    (other : Location) :
    (disk.set location (.file bytes)).isDirectory other = disk.isDirectory other := by
  by_cases ho : other = location
  · rw [ho, h]
    unfold isDirectory
    rw [get?_set_self (ne_root h)]
  · unfold isDirectory
    rw [get?_set_of_ne ho]

/-- A file where no directory is stands in no path's way and opens none. -/
theorem locate_set_file (h : disk.isDirectory location = false) (bytes : ByteArray)
    (path : String) : (disk.set location (.file bytes)).locate path = disk.locate path := by
  ext found
  constructor
  · apply locate_mono
    intro other hd
    rwa [isDirectory_set_file h] at hd
  · apply locate_mono
    intro other hd
    rwa [isDirectory_set_file h]

end Storing

/-- Everything on the disk lies in a directory. -/
def Rooted (disk : Disk) : Prop :=
  ∀ location, disk.get? location ≠ none → disk.isDirectory location.dropLast = true

namespace Rooted

variable {disk : Disk} {here location : Location} {segments : List String}

theorem dropLast (h : Rooted disk) (hd : disk.isDirectory location = true) :
    disk.isDirectory location.dropLast = true := by
  apply h
  rw [isDirectory_iff.1 hd]
  simp

theorem set (h : Rooted disk) (hd : disk.isDirectory location.dropLast = true)
    (hfree : disk.isDirectory location = false) (item : Item) :
    Rooted (disk.set location item) := by
  -- no directory is replaced, so whatever was one still is
  have hkept : ∀ other, disk.isDirectory other = true →
      (disk.set location item).isDirectory other = true := by
    intro other ho
    have hne : other ≠ location := by
      intro he
      rw [he, hfree] at ho
      exact absurd ho (by simp)
    rw [isDirectory_iff, get?_set_of_ne hne]
    exact isDirectory_iff.1 ho
  intro other ho
  apply hkept
  by_cases he : other = location
  · rw [he]
    exact hd
  · rw [get?_set_of_ne he] at ho
    exact h other ho

theorem makeFrom (h : Rooted disk) (hd : disk.isDirectory here = true) :
    Rooted (disk.makeFrom here segments).1 := by
  induction segments generalizing disk here with
  | nil => exact h
  | cons segment rest ih =>
    unfold Disk.makeFrom
    split
    · exact ih h hd
    · split
      · exact ih h (h.dropLast hd)
      · split
        · split
          · rename_i hnone
            have hfree : disk.isDirectory (here ++ [segment]) = false := by
              simp [Disk.isDirectory, hnone]
            apply ih (h.set (by simpa using hd) hfree _)
            exact isDirectory_iff.2 (get?_set_self (by simp) _)
          · rename_i hdir
            exact ih h (isDirectory_iff.2 hdir)
          · exact h
        · exact h

theorem makeDirectories (h : Rooted disk) (path : String) :
    Rooted (disk.makeDirectories path).1 := by
  unfold Disk.makeDirectories
  split
  · exact h
  · split
    · exact h.makeFrom (isDirectory_root disk)
    · exact h

theorem walk (h : Rooted disk) (hd : disk.isDirectory here.dropLast = true)
    (hw : disk.walk here segments = some location) :
    disk.isDirectory location.dropLast = true := by
  induction segments generalizing here with
  | nil =>
    rw [Disk.walk, Option.some.injEq] at hw
    rwa [← hw]
  | cons segment rest ih =>
    obtain ⟨hhere, next, hn, hrest⟩ := walk_cons hw
    refine ih ?_ hrest
    cases hn with
    | stay => exact hd
    | up => exact h.dropLast hd
    | down => simpa using hhere

theorem locate (h : Rooted disk) {path : String} (hl : disk.locate path = some location) :
    disk.isDirectory location.dropLast = true := by
  unfold Disk.locate at hl
  split at hl
  · have hroot : disk.isDirectory ([] : Location).dropLast = true := isDirectory_root disk
    exact h.walk hroot hl
  · exact absurd hl (by simp)

end Rooted

end SwiftDecl.Disk
