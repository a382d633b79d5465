import SwiftDecl.Proofs.Components

/-!
# Places

A path that never turns back names one place, and the directories that exist
decide only whether it leads there yet. On a disk on which everything lies in a
directory it does as soon as anything is at the place, so what is found under
such paths is a matter of their places alone.
-/

set_option autoImplicit false

namespace SwiftDecl

namespace Path

def IsForward (path : String) : Prop :=
  ".." ∉ segments path

instance (path : String) : Decidable (IsForward path) :=
  inferInstanceAs (Decidable (_ ∉ _))

def place (path : String) : Location :=
  names (segments path)

end Path

namespace Disk

theorem walk_forward {disk : Disk} {here location : Location} {segments : List String}
    (hf : ".." ∉ segments) (hw : disk.walk here segments = some location) :
    location = here ++ Path.names segments := by
  induction segments generalizing here with
  | nil =>
    rw [walk, Option.some.injEq] at hw
    rw [← hw]
    exact (List.append_nil here).symm
  | cons segment rest ih =>
    obtain ⟨-, next, hn, hrest⟩ := walk_cons hw
    have hnext := ih (fun hm => hf (List.mem_cons_of_mem _ hm)) hrest
    cases hn with
    | stay filler => rw [hnext, Path.names_cons_of_filler filler]
    | up => exact absurd List.mem_cons_self hf
    | down name => simp [hnext, Path.names, name]

theorem locate_forward {disk : Disk} {path : String} {location : Location}
    (hf : Path.IsForward path) (h : disk.locate path = some location) :
    location = Path.place path := by
  unfold locate at h
  split at h
  · exact walk_forward hf h
  · exact absurd h (by simp)

namespace Rooted

variable {disk other : Disk} {here location : Location}

theorem isDirectory_of_prefix (h : Rooted disk) (hl : disk.get? location ≠ none)
    (hp : here <+: location) (hne : here ≠ location) : disk.isDirectory here = true := by
  obtain ⟨rest, rfl⟩ := hp
  induction rest using List.reverseRecOn with
  | nil => exact absurd (List.append_nil here).symm hne
  | append_singleton rest name ih =>
    have hd := h _ hl
    rw [← List.append_assoc, List.dropLast_concat] at hd
    by_cases hrest : rest = []
    · rwa [hrest, List.append_nil] at hd
    · refine ih ?_ (by simpa using hrest)
      rw [isDirectory_iff.1 hd]
      simp

theorem walk_same (h : Rooted disk) (hl : disk.get? location ≠ none)
    (hfile : other.isDirectory location = false) {segments : List String}
    (hf : ".." ∉ segments) (hw : other.walk here segments = some location) :
    disk.walk here segments = some location := by
  induction segments generalizing here with
  | nil => exact hw
  | cons segment rest ih =>
    -- The way is not over, so what is at `here` is a directory above the file.
    have hbehind : here <+: location := ⟨_, (walk_forward hf hw).symm⟩
    have hne : here ≠ location := by
      rintro rfl
      rw [(walk_cons hw).1] at hfile
      exact absurd hfile (by simp)
    refine walk_cons_of hw (h.isDirectory_of_prefix hl hbehind hne) fun next hnext _ => ?_
    exact ih (fun hm => hf (List.mem_cons_of_mem _ hm)) hnext

theorem locate_same (h : Rooted disk) (hl : disk.get? location ≠ none)
    (hfile : other.isDirectory location = false) {path : String} (hf : Path.IsForward path)
    (ho : other.locate path = some location) : disk.locate path = some location := by
  unfold Disk.locate at ho ⊢
  split at ho
  · rename_i hp
    rw [if_pos hp]
    exact h.walk_same hl hfile hf ho
  · exact absurd ho (by simp)

end Rooted

theorem isDirectory_of_bytesAt {disk : Disk} {location : Location} {bytes : ByteArray}
    (h : disk.bytesAt location = some bytes) : disk.isDirectory location = false := by
  simp [isDirectory, bytesAt_eq_some_iff.1 h]

/-- What is found under a path is what is at its place. -/
theorem Rooted.bytesOf_congr {a b : Disk} (ha : Rooted a) (hb : Rooted b) {path : String}
    (hf : Path.IsForward path) (h : a.bytesAt (Path.place path) = b.bytesAt (Path.place path)) :
    a.bytesOf path = b.bytesOf path := by
  have hfound : ∀ {c d : Disk}, d.Rooted →
      c.bytesAt (Path.place path) = d.bytesAt (Path.place path) →
      ∀ bytes, c.bytesOf path = some bytes → d.bytesOf path = some bytes := by
    intro c d hd hsame bytes hc
    obtain ⟨location, hl, hbytes⟩ := Option.bind_eq_some_iff.1 hc
    have hplace := locate_forward hf hl
    have hother : d.bytesAt location = some bytes := by rw [hplace, ← hsame, ← hplace, hbytes]
    have hthere : d.get? location ≠ none := by
      rw [bytesAt_eq_some_iff.1 hother]
      simp
    have hleads := hd.locate_same hthere (isDirectory_of_bytesAt hbytes) hf hl
    rw [bytesOf, hleads, Option.bind_some, hother]
  exact Option.ext fun bytes => ⟨hfound hb h bytes, hfound ha h.symm bytes⟩

end Disk

end SwiftDecl
