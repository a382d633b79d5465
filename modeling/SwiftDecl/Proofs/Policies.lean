import SwiftDecl.Proofs.Places

/-!
# Policies along a run of saves

A save is told what to do with a file that is there already. What each save may
do is said once, as `Saved`; all else is read off it. Every save that comes to a
result comes to the one its policy demands, the path then holds the text unless
the file was skipped, and only a save that writes touches the disk. No file is
altered but the one that the path leads to, and a save that is repeated at once
finds nothing to do.

Paths that never turn back name one place each. Along them a disk is a map from
places to contents: a save touches what is at its own place and nothing else, and
a file that must be missing never replaces one. A path may also turn back through
a directory that is missing. Then there is no file to be found under it at first,
but one once the directory is made, and that file is replaced.
-/

set_option autoImplicit false

namespace SwiftDecl
open SwiftDecl.Disk

def Disk.saveAll (disk : Disk) (files : List TextFile) : Disk :=
  files.foldl (fun disk file => (file.save disk).disk) disk

def Disk.Throughout (P : Disk → TextFile → Prop) : Disk → List TextFile → Prop
  | _, [] => True
  | disk, file :: rest => P disk file ∧ Throughout P (file.save disk).disk rest

theorem Disk.throughout_of_kept {P : Disk → TextFile → Prop} {K : Disk → Prop}
    {files : List TextFile}
    (hstep : ∀ (disk : Disk) (file : TextFile), K disk → K (file.save disk).disk)
    (h : ∀ disk, K disk → ∀ file ∈ files, P disk file) {disk : Disk} (hk : K disk) :
    disk.Throughout P files := by
  induction files generalizing disk with
  | nil => trivial
  | cons file rest ih =>
    constructor
    · exact h disk hk file List.mem_cons_self
    · refine ih (fun disk hk file hf => ?_) (hstep disk file hk)
      exact h disk hk file (List.mem_cons_of_mem _ hf)

theorem Disk.throughout_of_mem {P : Disk → TextFile → Prop} {files : List TextFile}
    (h : ∀ disk, ∀ file ∈ files, P disk file) (disk : Disk) : disk.Throughout P files :=
  throughout_of_kept (K := fun _ => True) (fun _ _ _ => trivial) (fun disk _ => h disk) trivial

/-- What each save keeps, given its condition, the whole run keeps. -/
theorem Disk.saveAll_keeps {P : Disk → TextFile → Prop} {K : Disk → Prop}
    (hstep : ∀ disk file, P disk file → K disk → K (file.save disk).disk)
    {disk : Disk} {files : List TextFile} (h : disk.Throughout P files) (hk : K disk) :
    K (disk.saveAll files) := by
  induction files generalizing disk with
  | nil => exact hk
  | cons file rest ih => exact ih h.2 (hstep disk file h.1 hk)

theorem fromUTF8?_eq_some_iff {bytes : ByteArray} {text : String} :
    String.fromUTF8? bytes = some text ↔ bytes = text.toUTF8 := by
  unfold String.fromUTF8?
  constructor
  · intro h
    split at h
    · cases h
      rfl
    · exact absurd h (by simp)
  · rintro rfl
    rw [String.toUTF8_eq_toByteArray, dif_pos text.isValidUTF8]
    rfl

namespace TextFile

variable {file : TextFile} {disk : Disk}

inductive Due (file : TextFile) (disk : Disk) : SaveResult → Prop
  | always (rule : file.policy = .always) : Due file disk .written
  | missing (rule : file.policy = .ifMissing) (absent : disk.has file.path = false) :
      Due file disk .written
  | present (rule : file.policy = .ifMissing) (found : disk.has file.path = true) :
      Due file disk .skipped
  | changed (rule : file.policy = .ifChanged)
      (other : disk.bytesOf file.path ≠ some file.bytes) : Due file disk .written
  | same (rule : file.policy = .ifChanged)
      (equal : disk.bytesOf file.path = some file.bytes) : Due file disk .unchanged

/-- All that a save may come to. -/
inductive Saved (file : TextFile) (disk : Disk) : Saving → Prop
  | skipped (due : file.Due disk .skipped) :
      Saved file disk ⟨disk, .ok .skipped, [.fileExists file.path]⟩
  | unchanged (due : file.Due disk .unchanged) :
      Saved file disk ⟨disk, .ok .unchanged, [.fileUpToDate file.path]⟩
  | unreadable : Saved file disk ⟨disk, .error (.unreadable file.path), []⟩
  | failed (error : SaveError) : Saved file disk ⟨(file.prepare disk).1, .error error, []⟩
  | written {location : Location} (due : file.Due disk .written)
      (leads : (file.prepare disk).1.locate file.path = some location)
      (free : (file.prepare disk).1.isDirectory location = false) :
      Saved file disk ⟨(file.prepare disk).1.set location (.file file.bytes), .ok .written,
        [.fileWritten file.path file.bytes.size]⟩

theorem persist_saved (h : file.Due disk .written) : Saved file disk (file.persist disk) := by
  unfold persist
  rcases hp : file.prepare disk with ⟨made, _ | parent⟩
  · have hmade : (file.prepare disk).1 = made := by rw [hp]
    simp only [store]
    cases hl : made.locate file.path with
    | none => exact hmade ▸ Saved.failed _
    | some location =>
      by_cases hd : made.isDirectory location = true
      · simp only [hd, if_true]
        exact hmade ▸ Saved.failed _
      · simp only [hd, Bool.false_eq_true, if_false]
        subst hmade
        exact .written h hl (by simpa using hd)
  · have hmade : (file.prepare disk).1 = made := by rw [hp]
    exact hmade ▸ Saved.failed _

theorem readText_eq_some_iff {path text : String} :
    disk.readText path = some text ↔ disk.bytesOf path = some text.toUTF8 := by
  rw [bytesOf_eq_some_iff]
  unfold readText
  split
  · rename_i bytes h
    rw [fromUTF8?_eq_some_iff, h]
    simp
  · rename_i hother
    simp only [reduceCtorEq, false_iff]
    exact hother _

theorem has_of_bytesOf {path : String} {bytes : ByteArray} (h : disk.bytesOf path = some bytes) :
    disk.has path = true := by
  rw [bytesOf_eq_some_iff] at h
  simp [has, h]

theorem persistIfChanged_saved (h : file.policy = .ifChanged) :
    Saved file disk (file.persistIfChanged disk) := by
  unfold persistIfChanged
  by_cases hon : file.isOn disk = true
  · rw [if_pos hon]
    cases hread : disk.readText file.path with
    | none => exact .unreadable
    | some text =>
      by_cases heq : text = file.content
      · subst heq
        simp only [if_true]
        exact .unchanged (.same h (readText_eq_some_iff.1 hread))
      · simp only [heq, if_false]
        apply persist_saved
        apply Due.changed h
        intro hb
        rw [readText_eq_some_iff.2 hb, Option.some.injEq] at hread
        exact heq hread.symm
  · rw [if_neg hon]
    exact persist_saved (.changed h fun hb => hon (has_of_bytesOf hb))

theorem save_saved (file : TextFile) (disk : Disk) : Saved file disk (file.save disk) := by
  unfold save
  split
  · rename_i h
    exact persist_saved (.always h)
  · rename_i h
    by_cases hon : file.isOn disk = true
    · rw [if_pos hon]
      exact .skipped (.present h hon)
    · rw [if_neg hon]
      exact persist_saved (.missing h (by simpa [isOn] using hon))
  · rename_i h
    exact persistIfChanged_saved h

/-- A save that comes to a result keeps to its policy. -/
structure Honored (file : TextFile) (before after : Disk) (result : SaveResult) : Prop where
  due : file.Due before result
  holds : result ≠ .skipped → after.bytesOf file.path = some file.bytes
  untouched : result ≠ .written → after = before

def Targets (file : TextFile) (before : Disk) (location : Location) : Prop :=
  (file.save before).disk.locate file.path = some location

/-- The path leads nowhere at first, and to this location once the save has
made directories for it and written there. -/
def Detours (file : TextFile) (before : Disk) (location : Location) : Prop :=
  before.locate file.path = none ∧ (file.save before).result = .ok .written ∧
    file.Targets before location

theorem prepare_gains (file : TextFile) (disk : Disk) : Gains disk (file.prepare disk).1 := by
  unfold prepare
  split
  · exact Gains.refl disk
  · exact makeDirectories_gains disk _

theorem prepare_rooted (file : TextFile) (h : Rooted disk) : Rooted (file.prepare disk).1 := by
  unfold prepare
  split
  · exact h
  · exact h.makeDirectories _

namespace Saved

variable {saving : Saving} {location : Location} {result : SaveResult}

theorem locate_target (h : Saved file disk saving) (hr : saving.result = .ok .written) :
    saving.disk.locate file.path = (file.prepare disk).1.locate file.path := by
  cases h with
  | written _ _ free => exact locate_set_file free _ _
  | _ => exact absurd hr (by simp)

theorem honored (h : Saved file disk saving) (hr : saving.result = .ok result) :
    Honored file disk saving.disk result := by
  cases h with
  | skipped due =>
    cases hr
    exact ⟨due, by simp, by simp⟩
  | unchanged due =>
    cases hr
    refine ⟨due, fun _ => ?_, by simp⟩
    cases due with
    | same _ equal => exact equal
  | unreadable => exact absurd hr (by simp)
  | failed => exact absurd hr (by simp)
  | written due leads free =>
    cases hr
    refine ⟨due, fun _ => ?_, by simp⟩
    unfold bytesOf
    rw [locate_set_file free, leads, Option.bind_some, bytesAt_set_self (ne_root free)]

theorem directories (h : Saved file disk saving) (hd : disk.isDirectory location = true) :
    saving.disk.isDirectory location = true := by
  have hmade := (file.prepare_gains disk).isDirectory hd
  cases h with
  | skipped => exact hd
  | unchanged => exact hd
  | unreadable => exact hd
  | failed => exact hmade
  | written _ _ free => rwa [isDirectory_set_file free]

theorem locate (h : Saved file disk saving) {path : String}
    (hl : disk.locate path = some location) : saving.disk.locate path = some location :=
  locate_mono (fun _ => h.directories) hl

/-- No file is altered but the one that the path leads to. -/
theorem bytesAt (h : Saved file disk saving)
    (hne : saving.disk.locate file.path ≠ some location) :
    saving.disk.bytesAt location = disk.bytesAt location := by
  have hmade := (file.prepare_gains disk).bytesAt location
  cases h with
  | skipped => rfl
  | unchanged => rfl
  | unreadable => rfl
  | failed => exact hmade
  | written _ leads free =>
    rw [locate_set_file free, leads] at hne
    rw [bytesAt_set_of_ne (fun he => hne (by rw [he])), hmade]

theorem rooted (h : Saved file disk saving) (hr : Rooted disk) : Rooted saving.disk := by
  have hmade := file.prepare_rooted hr
  cases h with
  | skipped => exact hr
  | unchanged => exact hr
  | unreadable => exact hr
  | failed => exact hmade
  | written _ leads free => exact hmade.set (hmade.locate leads) free _

theorem detour_of_altered (h : Saved file disk saving) (hp : file.policy = .ifMissing)
    {bytes : ByteArray} (hb : disk.bytesAt location = some bytes)
    (ha : saving.disk.bytesAt location ≠ some bytes) :
    disk.locate file.path = none ∧ saving.result = .ok .written ∧
      saving.disk.locate file.path = some location := by
  have htarget : saving.disk.locate file.path = some location := by
    by_contra hne
    exact ha (h.bytesAt hne ▸ hb)
  have hsame : ∀ found, disk.locate file.path = some found → found = location := by
    intro found hf
    have hafter := h.locate hf
    rw [htarget, Option.some.injEq] at hafter
    exact hafter.symm
  cases h with
  | skipped => exact absurd hb ha
  | unchanged => exact absurd hb ha
  | unreadable => exact absurd hb ha
  | failed => exact absurd ((file.prepare_gains disk).bytesAt location ▸ hb) ha
  | written due leads free =>
    refine ⟨?_, rfl, htarget⟩
    -- Had the path led to that file before, the save would have been skipped.
    rw [Option.eq_none_iff_forall_not_mem]
    intro found hf
    have hthere : disk.bytesOf file.path = some bytes := by
      unfold bytesOf
      rw [hf, Option.bind_some, hsame found hf, hb]
    cases due with
    | always rule => simp [hp] at rule
    | changed rule => simp [hp] at rule
    | missing _ absent => simp [has_of_bytesOf hthere] at absent

end Saved

theorem altered_iff_detours (hp : file.policy = .ifMissing) {location : Location}
    {bytes : ByteArray} (hb : disk.bytesAt location = some bytes) :
    (file.save disk).disk.bytesAt location ≠ some bytes ↔
      file.Detours disk location ∧ file.bytes ≠ bytes := by
  have hsaved := file.save_saved disk
  have hbytes : file.Detours disk location →
      (file.save disk).disk.bytesAt location = some file.bytes := by
    intro hd
    have hholds := (hsaved.honored hd.2.1).holds (by simp)
    rwa [bytesOf, hd.2.2, Option.bind_some] at hholds
  constructor
  · intro ha
    have hd : file.Detours disk location := hsaved.detour_of_altered hp hb ha
    refine ⟨hd, fun heq => ha ?_⟩
    rw [hbytes hd, heq]
  · rintro ⟨hd, hne⟩
    rw [hbytes hd]
    simpa using hne

theorem not_detours (hr : Rooted disk) (hf : Path.IsForward file.path) {location : Location}
    {bytes : ByteArray} (hb : disk.bytesAt location = some bytes) :
    ¬ file.Detours disk location := by
  rintro ⟨hnone, hwritten, htarget⟩
  rw [Targets, (file.save_saved disk).locate_target hwritten] at htarget
  have hthere : disk.get? location ≠ none := by
    rw [bytesAt_eq_some_iff.1 hb]
    simp
  have hfile : (file.prepare disk).1.isDirectory location = false :=
    isDirectory_of_bytesAt (((file.prepare_gains disk).bytesAt location).trans hb)
  rw [hr.locate_same hthere hfile hf htarget] at hnone
  exact absurd hnone (by simp)

theorem save_of_same (hp : file.policy = .ifChanged)
    (h : disk.bytesOf file.path = some file.bytes) :
    file.save disk = ⟨disk, .ok .unchanged, [.fileUpToDate file.path]⟩ := by
  have hon : file.isOn disk = true := has_of_bytesOf h
  have hread : disk.readText file.path = some file.content := readText_eq_some_iff.2 h
  simp [save, hp, persistIfChanged, hon, hread]

theorem save_of_has (hp : file.policy = .ifMissing) (h : disk.has file.path = true) :
    file.save disk = ⟨disk, .ok .skipped, [.fileExists file.path]⟩ := by
  simp [save, hp, isOn, h]

theorem save_again {result : SaveResult} (h : (file.save disk).result = .ok result) :
    (file.policy = .ifChanged → file.save (file.save disk).disk =
      ⟨(file.save disk).disk, .ok .unchanged, [.fileUpToDate file.path]⟩) ∧
    (file.policy = .ifMissing → file.save (file.save disk).disk =
      ⟨(file.save disk).disk, .ok .skipped, [.fileExists file.path]⟩) := by
  have hh := (file.save_saved disk).honored h
  constructor
  · intro hp
    apply save_of_same hp
    apply hh.holds
    rintro rfl
    cases hh.due with
    | present rule => simp [hp] at rule
  · intro hp
    apply save_of_has hp
    by_cases hs : result = .skipped
    · subst hs
      rw [hh.untouched (by simp)]
      cases hh.due with
      | present _ found => exact found
    · exact has_of_bytesOf (hh.holds hs)

end TextFile

section Runs

variable {disk : Disk} {files : List TextFile} {location : Location}

theorem Disk.saveAll_locate {path : String} (h : disk.locate path = some location) :
    (disk.saveAll files).locate path = some location := by
  have hrun : disk.Throughout (fun _ _ => True) files :=
    throughout_of_mem (fun _ _ _ => trivial) disk
  exact saveAll_keeps (fun before file _ => (file.save_saved before).locate) hrun h

theorem Disk.saveAll_bytesAt
    (h : disk.Throughout (fun before file => ¬ file.Targets before location) files) :
    (disk.saveAll files).bytesAt location = disk.bytesAt location := by
  refine saveAll_keeps (K := fun now => now.bytesAt location = disk.bytesAt location) ?_ h rfl
  intro before file hne hk
  rw [(file.save_saved before).bytesAt hne, hk]

theorem TextFile.save_bytesOf_of_ne {file : TextFile} {path : String} (hr : disk.Rooted)
    (hfile : Path.IsForward file.path) (hpath : Path.IsForward path)
    (hne : Path.place path ≠ Path.place file.path) :
    (file.save disk).disk.bytesOf path = disk.bytesOf path := by
  have hsaved := file.save_saved disk
  refine (hsaved.rooted hr).bytesOf_congr hr hpath (hsaved.bytesAt fun htarget => ?_)
  exact hne (locate_forward hfile htarget)

theorem Disk.saveAll_bytesAt_of_forward (hr : disk.Rooted)
    (hforward : ∀ file ∈ files, Path.IsForward file.path)
    (hmissing : ∀ file ∈ files, file.policy = .ifMissing)
    {bytes : ByteArray} (hb : disk.bytesAt location = some bytes) :
    (disk.saveAll files).bytesAt location = some bytes := by
  have hrun : disk.Throughout
      (fun _ file => file.policy = .ifMissing ∧ Path.IsForward file.path) files :=
    throughout_of_mem (fun _ file hf => ⟨hmissing file hf, hforward file hf⟩) disk
  refine (saveAll_keeps (K := fun now => now.Rooted ∧ now.bytesAt location = some bytes)
    ?_ hrun ⟨hr, hb⟩).2
  rintro before file hfile ⟨hroot, hk⟩
  constructor
  · exact (file.save_saved before).rooted hroot
  · by_contra ha
    have hd := ((TextFile.altered_iff_detours hfile.1 hk).1 ha).1
    exact TextFile.not_detours hroot hfile.2 hk hd

theorem Disk.saveAll_bytesOf_of_forward (hr : disk.Rooted)
    (hforward : ∀ file ∈ files, Path.IsForward file.path)
    (hmissing : ∀ file ∈ files, file.policy = .ifMissing) {path : String}
    {bytes : ByteArray} (hb : disk.bytesOf path = some bytes) :
    (disk.saveAll files).bytesOf path = some bytes := by
  obtain ⟨location, hl, hbytes⟩ := Option.bind_eq_some_iff.1 hb
  rw [bytesOf, saveAll_locate hl, Option.bind_some,
    saveAll_bytesAt_of_forward hr hforward hmissing hbytes]

end Runs

/-- Every save of a run that comes to a result keeps to its policy, and would
find nothing to do if it were repeated at once. A file that no save of the run
leads to keeps its bytes. With paths that each name one place, every save leaves
the contents under all paths to other places as they are, and a run of saves that
ask for missing files alters no file that is there. -/
theorem saves_keep_policies (disk : Disk) (files : List TextFile) :
    disk.Throughout (fun before file =>
      let after := (file.save before).disk
      ∀ result, (file.save before).result = .ok result →
        file.Honored before after result ∧
        (file.policy = .ifChanged →
          (file.save after).result = .ok .unchanged ∧ (file.save after).disk = after) ∧
        (file.policy = .ifMissing →
          (file.save after).result = .ok .skipped ∧ (file.save after).disk = after)) files ∧
    (∀ location, disk.Throughout (fun before file => ¬ file.Targets before location) files →
      (disk.saveAll files).bytesAt location = disk.bytesAt location) ∧
    (disk.Rooted → (∀ file ∈ files, Path.IsForward file.path) →
      disk.Throughout (fun before file =>
        ∀ path, Path.IsForward path → Path.place path ≠ Path.place file.path →
          (file.save before).disk.bytesOf path = before.bytesOf path) files ∧
      ((∀ file ∈ files, file.policy = .ifMissing) →
        ∀ path bytes, disk.bytesOf path = some bytes →
          (disk.saveAll files).bytesOf path = some bytes)) := by
  refine ⟨?_, fun _ => saveAll_bytesAt, fun hr hforward => ⟨?_, fun hmissing _ _ hb =>
    saveAll_bytesOf_of_forward hr hforward hmissing hb⟩⟩
  · apply throughout_of_mem
    intro before file _ after result hr
    have hagain := TextFile.save_again hr
    refine ⟨(file.save_saved before).honored hr, ?_, ?_⟩
    · intro hp
      rw [hagain.1 hp]
      exact ⟨rfl, rfl⟩
    · intro hp
      rw [hagain.2 hp]
      exact ⟨rfl, rfl⟩
  · have hrooted : ∀ (before : Disk) (file : TextFile), before.Rooted →
        (file.save before).disk.Rooted := fun before file => (file.save_saved before).rooted
    refine throughout_of_kept hrooted ?_ hr
    intro before hroot file hf path hpath hne
    exact TextFile.save_bytesOf_of_ne hroot (hforward file hf) hpath hne

def handmade : Disk :=
  ⟨[(["User.swift"], .file "by hand".toUTF8)]⟩

def draft (path : String) : TextFile :=
  ⟨path, "struct User", .ifMissing⟩

def drafts : List TextFile :=
  [draft "User.swift", draft "Models/Name.swift"]

theorem handmade_rooted : handmade.Rooted := by
  intro location h
  have hcases : location = [] ∨ location = ["User.swift"] := by
    by_contra hno
    rw [not_or] at hno
    have hlookup : (location == ["User.swift"]) = false := by simpa using hno.2
    exact h (by simp [get?, handmade, List.lookup_cons, hno.1, hlookup])
  rcases hcases with rfl | rfl
  · exact isDirectory_root handmade
  · exact isDirectory_root handmade

theorem saves_keep_policies_drafts :
    handmade.Rooted ∧
    (∀ file ∈ drafts, Path.IsForward file.path) ∧
    (∀ file ∈ drafts, file.policy = .ifMissing) ∧
    handmade.bytesOf "User.swift" = some "by hand".toUTF8 ∧
    (handmade.saveAll drafts).bytesOf "User.swift" = some "by hand".toUTF8 ∧
    ((draft "User.swift").save handmade).result = .ok .skipped ∧
    ((draft "User.swift").save handmade).disk = handmade ∧
    ((draft "Models/Name.swift").save handmade).result = .ok .written ∧
    ((draft "Models/Name.swift").save handmade).disk.bytesOf "Models/Name.swift" =
      some "struct User".toUTF8 := by
  have hforward : ∀ file ∈ drafts, Path.IsForward file.path := by decide +kernel
  have hmissing : ∀ file ∈ drafts, file.policy = .ifMissing := by decide
  have hthere : handmade.bytesOf "User.swift" = some "by hand".toUTF8 := rfl
  have hskipped : ((draft "User.swift").save handmade).result = .ok .skipped := rfl
  have hwritten : ((draft "Models/Name.swift").save handmade).result = .ok .written := rfl
  obtain ⟨⟨hfirst, hsecond, -⟩, -, hplaces⟩ := saves_keep_policies handmade drafts
  have hkept := (hplaces handmade_rooted hforward).2 hmissing _ _ hthere
  have huntouched := (hfirst _ hskipped).1.untouched (by simp)
  refine ⟨handmade_rooted, hforward, hmissing, hthere, hkept, hskipped, huntouched, hwritten, ?_⟩
  have hsame : ((draft "User.swift").save handmade).disk = handmade := huntouched
  rw [hsame] at hsecond
  exact (hsecond _ hwritten).1.holds (by simp)

end SwiftDecl
