import SwiftDecl.Proofs.Components
import SwiftDecl.Proofs.Policies

/-!
# Files that are replaced

Saving over a file that is there needs nothing but the file: the directory that
its path names it in exists, since the path led through it, so no directory is
made and the text is stored in place. Under the policy "if changed" the file is
first read as a text and compared. Bytes that are no text stop the save there,
though they surely differ; this is the only way for it to fail, and under
"always" the same file is replaced.
-/

set_option autoImplicit false

namespace SwiftDecl.Path
open SwiftDecl.Text

theorem front_dropTrailing (segments : List String) : dropTrailing segments <+: segments := by
  obtain ⟨trailing, h⟩ := List.dropWhile_suffix (l := segments.reverse) isFiller
  refine ⟨trailing.reverse, ?_⟩
  rw [dropTrailing, ← List.reverse_append, h, List.reverse_reverse]

theorem intercalate_front {a b : List String} (h : a <+: b) :
    ("/".intercalate a).toList <+: ("/".intercalate b).toList := by
  obtain ⟨rest, rfl⟩ := h
  by_cases ha : a = []
  · simp [ha]
  · by_cases hr : rest = []
    · simp [hr]
    · rw [String.intercalate_append_of_ne_nil ha hr, String.append_assoc, String.toList_append]
      exact List.prefix_append _ _

theorem parentOf_cases {head parent : String} {body : List String} {whenEmpty : Option String}
    {rebuild : List String → String} (h : parentOf head body whenEmpty rebuild = some parent) :
    whenEmpty = some parent ∨ parent = head ∧ body ≠ [] ∨
      ∃ more, more ≠ [] ∧ more <+: body ∧ parent = rebuild more := by
  unfold parentOf at h
  split at h
  · exact Or.inl h
  · rename_i kept hkept
    have hbody : body ≠ [] := by
      rintro rfl
      exact hkept (by simp [dropTrailing])
    split at h
    · exact Or.inr (Or.inl ⟨(Option.some.inj h).symm, hbody⟩)
    · rename_i more hmore
      refine Or.inr (Or.inr ⟨_, hmore, ?_, (Option.some.inj h).symm⟩)
      have hdrop := List.dropLast_prefix (dropTrailing body)
      exact (front_dropTrailing _).trans (hdrop.trans (front_dropTrailing body))

theorem parent?_front {path parent : String} (h : parent? path = some parent) :
    parent.toList <+: path.toList := by
  have hpath := intercalate_segments path
  unfold parent? at h
  split at h
  · rename_i body next more hs
    rw [← hpath, hs]
    rcases parentOf_cases h with h | ⟨rfl, -⟩ | ⟨more, hne, hmore, rfl⟩
    · simp at h
    · simp
    · have hpre := intercalate_front (List.prefix_cons_inj "" |>.2 hmore)
      rwa [intercalate_cons "" hne, String.empty_append] at hpre
  · rename_i body hs
    rw [← hpath, hs]
    rcases parentOf_cases h with h | ⟨rfl, hne⟩ | ⟨more, hne, hmore, rfl⟩
    · rw [← Option.some.inj h]
      exact List.nil_prefix
    · rw [intercalate_cons "." hne]
      simp
    · have hpre := intercalate_front (List.prefix_cons_inj "." |>.2 hmore)
      rwa [intercalate_cons "." hne] at hpre
  · rcases parentOf_cases h with h | ⟨rfl, -⟩ | ⟨more, hne, hmore, rfl⟩
    · simp at h
    · exact List.nil_prefix
    · rw [← hpath]
      exact intercalate_front hmore

theorem names_eq_of_start {a b s t : List String}
    (h : start s ++ names a = start t ++ names b) (ha : ∀ segment ∈ a, '/' ∉ segment.toList)
    (hb : ∀ segment ∈ b, '/' ∉ segment.toList) : names a = names b := by
  have hstart : ∀ u, (start u).filter (fun x => x != "/" && x != ".") = [] := by
    intro u
    unfold start
    split
    · rfl
    · split_ifs <;> simp
  have hnames : ∀ u : List String, (∀ segment ∈ u, '/' ∉ segment.toList) →
      (names u).filter (fun x => x != "/" && x != ".") = names u := by
    intro u hu
    rw [List.filter_eq_self]
    intro segment hs
    obtain ⟨hm, hf⟩ := List.mem_filter.1 hs
    have hslash : segment ≠ "/" := by
      rintro rfl
      exact hu _ hm (by simp)
    have hdot : segment ≠ "." := by
      rintro rfl
      simp [isFiller] at hf
    simp [hslash, hdot]
  have hfilter := congrArg (List.filter fun x => x != "/" && x != ".") h
  rwa [List.filter_append, List.filter_append, hstart, hstart, hnames a ha, hnames b hb] at hfilter

end SwiftDecl.Path

namespace SwiftDecl.Disk
open SwiftDecl.Text

theorem isPath_of_front {path front : String} (h : front.toList <+: path.toList)
    (hp : isPath path = true) : isPath front = true := by
  obtain ⟨rest, hr⟩ := h
  simp only [isPath, ← hr, utf8Length_append, Bool.and_eq_true, decide_eq_true_eq,
    List.contains_eq_mem, List.mem_append, Bool.not_eq_true', decide_eq_false_iff_not,
    not_or] at hp ⊢
  exact ⟨hp.1.1, by omega⟩

section Walking

variable {disk : Disk} {here location : Location} {segments : List String}

theorem isDirectory_of_walk (h : disk.walk here segments = some location)
    (hd : disk.isDirectory location = true) : disk.isDirectory here = true := by
  cases segments with
  | nil =>
    rw [walk, Option.some.injEq] at h
    rwa [h]
  | cons segment rest => exact (walk_cons h).1

theorem walk_names (hd : disk.isDirectory location = true) :
    disk.walk here (Path.names segments) = some location ↔
      disk.walk here segments = some location := by
  induction segments generalizing here with
  | nil => rfl
  | cons segment rest ih =>
    by_cases hf : Path.isFiller segment = true
    · rw [Path.names_cons_of_filler hf, ih, walk, if_pos hf]
      constructor
      · intro h
        rwa [if_pos (isDirectory_of_walk h hd)]
      · intro h
        split at h
        · exact h
        · exact absurd h (by simp)
    · have hnames : Path.names (segment :: rest) = segment :: Path.names rest := by
        simp [Path.names, hf]
      rw [hnames, walk, walk]
      split_ifs <;> simp [ih]

theorem makeFrom_of_walk (h : disk.walk here segments = some location)
    (hd : disk.isDirectory location = true) : disk.makeFrom here segments = (disk, true) := by
  induction segments generalizing here with
  | nil =>
    rw [walk, Option.some.injEq] at h
    rw [makeFrom, h, hd]
  | cons segment rest ih =>
    rw [walk, if_pos (walk_cons h).1] at h
    rw [makeFrom]
    by_cases hf : Path.isFiller segment = true
    · rw [if_pos hf] at h ⊢
      exact ih h
    · rw [if_neg hf] at h ⊢
      by_cases hup : segment = ".."
      · rw [if_pos hup] at h ⊢
        exact ih h
      · rw [if_neg hup] at h ⊢
        split at h
        · rename_i hn
          rw [if_pos hn, isDirectory_iff.1 (isDirectory_of_walk h hd)]
          exact ih h
        · exact absurd h (by simp)

end Walking

theorem walk_parent {disk : Disk} {path : String} {location : Location}
    (hw : disk.walk [] (Path.segments path) = some location)
    (hf : disk.isDirectory location = false) :
    ∃ parent folder, Path.parent? path = some parent ∧
      disk.walk [] (Path.segments parent) = some folder ∧ disk.isDirectory folder = true := by
  obtain ⟨front, last, hs⟩ : ∃ front last, Path.segments path = front ++ [last] :=
    ⟨_, _, (List.dropLast_concat_getLast (Path.segments_ne_nil path)).symm⟩
  rw [hs, walk_append] at hw
  obtain ⟨folder, hfolder, hlast⟩ := hw
  obtain ⟨hdirectory, next, hnext, hend⟩ := walk_cons hlast
  have hname : Path.isFiller last = false := by
    by_contra hfiller
    rw [Bool.not_eq_false] at hfiller
    rw [walk, if_pos hdirectory, if_pos hfiller, walk, Option.some.injEq] at hlast
    rw [← hlast, hdirectory] at hf
    exact absurd hf (by simp)
  obtain ⟨parent, hparent, hcomponents⟩ := Path.parent?_of_segments hs hname
  have hnames : Path.names (Path.segments parent) = Path.names front := by
    apply Path.names_eq_of_start hcomponents
    · exact fun _ => Path.segments_slashFree
    · intro segment hm
      have hmem : segment ∈ Path.segments path := by simp [hs, hm]
      exact Path.segments_slashFree hmem
  refine ⟨parent, folder, hparent, ?_, hdirectory⟩
  rwa [← walk_names hdirectory, hnames, walk_names hdirectory]

end SwiftDecl.Disk

namespace SwiftDecl
open SwiftDecl.Disk

namespace TextFile

variable {file : TextFile} {disk : Disk} {location : Location} {stored : ByteArray}

theorem prepare_of_bytesAt (hl : disk.locate file.path = some location)
    (hb : disk.bytesAt location = some stored) : file.prepare disk = (disk, none) := by
  have hf : disk.isDirectory location = false := isDirectory_of_bytesAt hb
  unfold locate at hl
  split at hl
  · rename_i hp
    obtain ⟨parent, folder, hparent, hwalk, hdirectory⟩ := walk_parent hl hf
    have hmade : disk.makeDirectories parent = (disk, true) := by
      unfold makeDirectories
      split
      · rfl
      · rw [if_pos (isPath_of_front (Path.parent?_front hparent) hp.2)]
        exact makeFrom_of_walk hwalk hdirectory
    simp [prepare, hparent, hmade]
  · exact absurd hl (by simp)

theorem persist_of_bytesAt (hl : disk.locate file.path = some location)
    (hb : disk.bytesAt location = some stored) :
    file.persist disk = ⟨disk.set location (.file file.bytes), .ok .written,
      [.fileWritten file.path file.bytes.size]⟩ := by
  have hf : disk.isDirectory location = false := isDirectory_of_bytesAt hb
  simp [persist, prepare_of_bytesAt hl hb, store, hl, hf]

def IsText (bytes : ByteArray) : Prop :=
  ∃ text : String, bytes = text.toUTF8

theorem save_of_text (rule : file.policy = .ifChanged)
    (hl : disk.locate file.path = some location) (hb : disk.bytesAt location = some stored)
    (ht : IsText stored) (hne : stored ≠ file.bytes) : file.save disk = file.persist disk := by
  obtain ⟨text, rfl⟩ := ht
  have hof : disk.bytesOf file.path = some text.toUTF8 := by
    rw [bytesOf, hl, Option.bind_some, hb]
  have hon : file.isOn disk = true := has_of_bytesOf hof
  have hcontent : text ≠ file.content := fun h => hne (by rw [h, TextFile.bytes])
  simp [save, rule, persistIfChanged, hon, readText_eq_some_iff.2 hof, hcontent]

theorem save_of_not_text (rule : file.policy = .ifChanged)
    (hl : disk.locate file.path = some location) (hb : disk.bytesAt location = some stored)
    (ht : ¬IsText stored) : file.save disk = ⟨disk, .error (.unreadable file.path), []⟩ := by
  have hof : disk.bytesOf file.path = some stored := by
    rw [bytesOf, hl, Option.bind_some, hb]
  have hon : file.isOn disk = true := has_of_bytesOf hof
  have hread : disk.readText file.path = none := by
    rw [Option.eq_none_iff_forall_ne_some]
    intro text h
    rw [readText_eq_some_iff, hof, Option.some.injEq] at h
    exact ht ⟨text, h⟩
  simp [save, rule, persistIfChanged, hon, hread]

end TextFile

/-- Under the policy "if changed", a file that is there is left alone if it
holds the bytes of the text, and if it holds any other text it is replaced, in
place and without a directory being made for it. The save comes to a result
exactly if the file holds a text at all. Otherwise it fails and leaves the disk
as it is, although saving the same text always replaces the file. -/
theorem changed_replaced_iff {file : TextFile} {disk : Disk} {location : Location}
    {stored : ByteArray} (rule : file.policy = .ifChanged)
    (leads : disk.locate file.path = some location)
    (there : disk.bytesAt location = some stored) :
    ((∃ result, (file.save disk).result = .ok result) ↔ TextFile.IsText stored) ∧
    (stored = file.bytes →
      file.save disk = ⟨disk, .ok .unchanged, [.fileUpToDate file.path]⟩) ∧
    (stored ≠ file.bytes → TextFile.IsText stored →
      file.save disk = ⟨disk.set location (.file file.bytes), .ok .written,
        [.fileWritten file.path file.bytes.size]⟩ ∧
      (file.save disk).disk.bytesOf file.path = some file.bytes) ∧
    (¬TextFile.IsText stored →
      file.save disk = ⟨disk, .error (.unreadable file.path), []⟩ ∧
      { file with policy := .always }.save disk = ⟨disk.set location (.file file.bytes),
        .ok .written, [.fileWritten file.path file.bytes.size]⟩) := by
  have hof : disk.bytesOf file.path = some stored := by
    rw [bytesOf, leads, Option.bind_some, there]
  have hsame : stored = file.bytes →
      file.save disk = ⟨disk, .ok .unchanged, [.fileUpToDate file.path]⟩ := by
    rintro rfl
    exact TextFile.save_of_same rule hof
  have hchanged : stored ≠ file.bytes → TextFile.IsText stored →
      file.save disk = ⟨disk.set location (.file file.bytes), .ok .written,
        [.fileWritten file.path file.bytes.size]⟩ := by
    intro hne ht
    rw [TextFile.save_of_text rule leads there ht hne, TextFile.persist_of_bytesAt leads there]
  have hunreadable := TextFile.save_of_not_text rule leads there
  refine ⟨⟨?_, ?_⟩, hsame, fun hne ht => ⟨hchanged hne ht, ?_⟩, fun ht => ⟨hunreadable ht, ?_⟩⟩
  · rintro ⟨result, hr⟩
    by_contra ht
    rw [hunreadable ht] at hr
    exact absurd hr (by simp)
  · intro ht
    by_cases heq : stored = file.bytes
    · exact ⟨.unchanged, by rw [hsame heq]⟩
    · exact ⟨.written, by rw [hchanged heq ht]⟩
  · have hresult : (file.save disk).result = .ok .written := by rw [hchanged hne ht]
    exact ((file.save_saved disk).honored hresult).holds (by simp)
  · have hforced : disk.locate { file with policy := .always }.path = some location := leads
    exact TextFile.persist_of_bytesAt hforced there

def refreshed : TextFile :=
  ⟨"User.swift", "struct User", .ifChanged⟩

theorem changed_replaced_iff_refreshed :
    refreshed.policy = .ifChanged ∧
    handmade.locate refreshed.path = some ["User.swift"] ∧
    handmade.bytesAt ["User.swift"] = some "by hand".toUTF8 ∧
    "by hand".toUTF8 ≠ refreshed.bytes ∧
    (refreshed.save handmade).result = .ok .written ∧
    (refreshed.save handmade).disk.bytesOf "User.swift" = some "struct User".toUTF8 := by
  have hleads : handmade.locate refreshed.path = some ["User.swift"] := by decide +kernel
  have hthere : handmade.bytesAt ["User.swift"] = some "by hand".toUTF8 := rfl
  have hdiffers : "by hand".toUTF8 ≠ refreshed.bytes := by decide +kernel
  have hrule : refreshed.policy = .ifChanged := rfl
  obtain ⟨-, -, hreplaced, -⟩ := changed_replaced_iff hrule hleads hthere
  obtain ⟨hsave, hholds⟩ := hreplaced hdiffers ⟨"by hand", rfl⟩
  exact ⟨hrule, hleads, hthere, hdiffers, by rw [hsave], hholds⟩

def garbled : Disk :=
  ⟨[(["User.swift"], .file ⟨#[0xff]⟩)]⟩

/-- A file that is no text differs from every text and is not replaced by it. -/
theorem garbled_not_replaced :
    refreshed.policy = .ifChanged ∧
    garbled.bytesOf refreshed.path = some ⟨#[0xff]⟩ ∧
    (⟨#[0xff]⟩ : ByteArray) ≠ refreshed.bytes ∧
    (refreshed.save garbled).result = .error (.unreadable "User.swift") ∧
    (refreshed.save garbled).disk = garbled ∧
    ({ refreshed with policy := .always }.save garbled).result = .ok .written := by
  refine ⟨rfl, ?_, ?_, ?_, ?_, ?_⟩
  · rfl
  · decide +kernel
  · rfl
  · rfl
  · rfl

end SwiftDecl
