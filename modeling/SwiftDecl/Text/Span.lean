/-!
# Spans

Places in a text are counted in bytes of its UTF-8 encoding. A reader that works
on what is left of a text gets its position from the number of bytes left.
-/

set_option autoImplicit false

namespace SwiftDecl.Text

structure Span where
  offset : Nat
  length : Nat
  deriving DecidableEq, Repr

def utf8Length (text : List Char) : Nat :=
  text.foldr (fun c total => c.utf8Size + total) 0

theorem utf8Length_append (a b : List Char) :
    utf8Length (a ++ b) = utf8Length a + utf8Length b := by
  induction a with
  | nil => simp [utf8Length]
  | cons c rest ih =>
    simp only [utf8Length, List.cons_append, List.foldr_cons] at ih ⊢
    omega

/-- The span between two positions of a text of `total` bytes, each given by
what is left of the text there. -/
def spanBetween (total : Nat) (start stop : List Char) : Span where
  offset := total - utf8Length start
  length := utf8Length start - utf8Length stop

def beforeFirst (key : List Char) : List Char → Option (List Char)
  | [] => if key.isEmpty then some [] else none
  | c :: rest =>
    if key.isPrefixOf (c :: rest) then some [] else (beforeFirst key rest).map (c :: ·)

def findSpan (key text : List Char) : Option Span :=
  (beforeFirst key text).map fun before => ⟨utf8Length before, utf8Length key⟩

theorem beforeFirst_append {key text before : List Char} (h : beforeFirst key text = some before) :
    ∃ after, text = before ++ key ++ after := by
  induction text generalizing before with
  | nil =>
    cases key with
    | nil => exact ⟨[], by simp_all [beforeFirst]⟩
    | cons _ _ => simp [beforeFirst] at h
  | cons c rest ih =>
    simp only [beforeFirst] at h
    split at h
    · rename_i hp
      obtain ⟨after, ha⟩ := List.isPrefixOf_iff_prefix.1 hp
      exact ⟨after, by simp_all⟩
    · obtain ⟨b, hb, rfl⟩ := Option.map_eq_some_iff.1 h
      obtain ⟨after, ha⟩ := ih hb
      exact ⟨after, by simp [ha]⟩

end SwiftDecl.Text
