import SwiftDecl.Toml.Document
import Mathlib.Data.List.Infix
import Mathlib.Tactic.Common

/-!
# Remainders

A reader takes a text from the front and hands on what it has not read. Places in
a document are computed from what is left of it, so they are right only if that
is the end of the document, untouched. It is for every reader, down to the
machines that read strings.
-/

set_option autoImplicit false

namespace SwiftDecl.Toml
open SwiftDecl.Text

variable {α : Type}

/-- What is left is an end of what was there. -/
def Leaves (read : List Char → Option (α × List Char)) : Prop :=
  ∀ ⦃text : List Char⦄ ⦃a : α⦄ ⦃rest : List Char⦄, read text = some (a, rest) → rest <:+ text

theorem Leaves.of_map {β : Type} {read : List Char → Option (α × List Char)} (h : Leaves read)
    {f : α × List Char → β × List Char} {text rest : List Char} {b : β}
    (hb : (read text).map f = some (b, rest)) (hf : ∀ p, (f p).2 = p.2) : rest <:+ text := by
  obtain ⟨⟨a, left⟩, ha, he⟩ := Option.map_eq_some_iff.1 hb
  have hleft : rest = left := (congrArg Prod.snd he).symm.trans (hf (a, left))
  rw [hleft]
  exact h ha

theorem Leaves.behind {read : List Char → Option (α × List Char)} (h : Leaves read)
    {skip : List Char → List Char} (hs : ∀ text, skip text <:+ text) :
    Leaves fun text => read (skip text) :=
  fun _ _ _ ha => (h ha).trans (hs _)

theorem scan_leaves {σ : Type} (move : σ → Char → Move σ) (finish : σ → Option (List Char))
    (state : σ) : Leaves (scan move finish state) := by
  intro text
  induction text generalizing state with
  | nil =>
    intro out rest h
    obtain ⟨content, -, he⟩ := Option.map_eq_some_iff.1 h
    cases he
    exact List.suffix_refl _
  | cons c tail ih =>
    intro out rest h
    unfold scan at h
    split at h
    · exact absurd h (by simp)
    · cases h
      exact List.suffix_cons c tail
    · cases h
      exact List.suffix_refl _
    · obtain ⟨⟨content, left⟩, hc, he⟩ := Option.map_eq_some_iff.1 h
      cases he
      exact (ih _ hc).trans (List.suffix_cons c tail)

theorem readBasic_leaves : Leaves readBasic :=
  scan_leaves _ _ _

theorem readRaw_leaves : Leaves readRaw :=
  scan_leaves _ _ _

theorem dropFirstLineFeed_suffix (text : List Char) : dropFirstLineFeed text <:+ text := by
  unfold dropFirstLineFeed
  split
  · exact List.suffix_cons _ _
  · exact (List.suffix_cons _ _).trans (List.suffix_cons _ _)
  · exact List.suffix_refl _

theorem readLongBasic_leaves : Leaves readLongBasic :=
  (scan_leaves longBasicMove longFinish .plain).behind dropFirstLineFeed_suffix

theorem readLongRaw_leaves : Leaves readLongRaw :=
  (scan_leaves longRawMove longRawFinish .plain).behind dropFirstLineFeed_suffix

theorem splitScalar_suffix (text : List Char) : (splitScalar text).2 <:+ text := by
  induction text with
  | nil => exact List.suffix_refl _
  | cons c rest ih =>
    unfold splitScalar
    split
    · exact List.suffix_refl _
    · exact ih.trans (List.suffix_cons c rest)

theorem readScalar_leaves : Leaves readScalar := by
  intro text value rest h
  obtain ⟨_, -, he⟩ := Option.map_eq_some_iff.1 h
  cases he
  exact splitScalar_suffix text

theorem readLeaf_leaves : Leaves readLeaf := by
  intro text value rest h
  unfold readLeaf at h
  split at h
  · exact (readLongBasic_leaves.of_map h fun _ => rfl).trans ⟨['"', '"', '"'], rfl⟩
  · exact (readLongRaw_leaves.of_map h fun _ => rfl).trans ⟨['\'', '\'', '\''], rfl⟩
  · exact (readBasic_leaves.of_map h fun _ => rfl).trans (List.suffix_cons _ _)
  · exact (readRaw_leaves.of_map h fun _ => rfl).trans (List.suffix_cons _ _)
  · exact readScalar_leaves h

theorem skipSpaces_suffix (text : List Char) : skipSpaces text <:+ text :=
  List.dropWhile_suffix _

theorem skipTrivia_suffix (inComment : Bool) (text : List Char) :
    skipTrivia inComment text <:+ text := by
  fun_induction skipTrivia inComment text with
  | case1 | case5 | case8 => exact List.suffix_refl _
  | case2 _ rest ih => exact ih.trans ⟨['\r', '\n'], rfl⟩
  | case3 | case4 | case6 | case7 =>
    rename_i ih
    exact ih.trans (List.suffix_cons _ _)

theorem readKeyText_leaves : Leaves readKeyText := by
  intro text name rest h
  unfold readKeyText at h
  split at h
  · exact (readBasic_leaves h).trans (List.suffix_cons _ _)
  · exact (readRaw_leaves h).trans (List.suffix_cons _ _)
  · split at h
    · exact absurd h (by simp)
    · cases h
      exact List.dropWhile_suffix _

theorem readKey_leaves (total : Nat) : Leaves (readKey total) := by
  intro text key rest h
  obtain ⟨⟨name, left⟩, hname, he⟩ := Option.map_eq_some_iff.1 h
  cases he
  exact readKeyText_leaves hname

theorem readPath_leaves (total most : Nat) : Leaves (readPath total most) := by
  induction most with
  | zero =>
    intro text keys rest h
    exact absurd h (by simp [readPath])
  | succ most ih =>
    intro text keys rest h
    unfold readPath at h
    obtain ⟨⟨key, left⟩, hkey, h⟩ := Option.bind_eq_some_iff.1 h
    dsimp only at h
    have hleft := (readKey_leaves total).behind skipSpaces_suffix hkey
    have hdone := (skipSpaces_suffix left).trans hleft
    split at h
    · rename_i more hmore
      rw [hmore] at hdone
      obtain ⟨⟨keys', rest'⟩, hkeys, he⟩ := Option.bind_eq_some_iff.1 h
      cases he
      exact (ih hkeys).trans ((List.suffix_cons _ _).trans hdone)
    · cases h
      exact hdone

theorem skipComment_suffix (text : List Char) : skipComment text <:+ text := by
  unfold skipComment
  split
  · exact (List.dropWhile_suffix _).trans (List.suffix_cons _ _)
  · exact List.suffix_refl _

theorem afterLine_suffix {text rest : List Char} (h : afterLine text = some rest) :
    rest <:+ text := by
  have hline := (skipComment_suffix (skipSpaces text)).trans (skipSpaces_suffix text)
  unfold afterLine at h
  split at h
  · cases h
    exact List.nil_suffix
  · rename_i hrest
    cases h
    rw [hrest] at hline
    exact (List.suffix_cons _ _).trans hline
  · rename_i hrest
    cases h
    rw [hrest] at hline
    exact List.IsSuffix.trans ⟨['\r', '\n'], rfl⟩ hline
  · exact absurd h (by simp)

section Containers

variable {total : Nat} {skip : List Char → List Char}
  {value : List Char → Option (Value × List Char)}

theorem readPair_leaves (hs : ∀ text, skip text <:+ text) (hv : Leaves value) :
    Leaves (readPair total skip value) := by
  intro text pair rest h
  obtain ⟨⟨keys, left⟩, hkeys, h⟩ := Option.bind_eq_some_iff.1 h
  have hleft := readPath_leaves total maxDepth hkeys
  dsimp only at h
  split at h
  · rename_i more hmore
    have hsign := (hs left).trans hleft
    rw [hmore] at hsign
    obtain ⟨⟨content, after⟩, hcontent, he⟩ := Option.bind_eq_some_iff.1 h
    cases he
    exact (hv hcontent).trans ((hs more).trans ((List.suffix_cons _ _).trans hsign))
  · exact absurd h (by simp)

theorem readItems_leaves (hv : Leaves value) (fuel : Nat) : Leaves (readItems value fuel) := by
  induction fuel with
  | zero =>
    intro text items rest h
    exact absurd h (by simp [readItems])
  | succ fuel ih =>
    intro text items rest h
    have hstart := skipTrivia_suffix false text
    unfold readItems at h
    split at h
    · rename_i hrest
      rw [hrest] at hstart
      cases h
      exact (List.suffix_cons _ _).trans hstart
    · obtain ⟨⟨item, left⟩, hitem, h⟩ := Option.bind_eq_some_iff.1 h
      have hleft := (skipTrivia_suffix false left).trans ((hv hitem).trans hstart)
      dsimp only at h
      split at h
      · rename_i hmore
        rw [hmore] at hleft
        obtain ⟨⟨items', after⟩, hitems, he⟩ := Option.bind_eq_some_iff.1 h
        cases he
        exact (ih hitems).trans ((List.suffix_cons _ _).trans hleft)
      · rename_i hmore
        rw [hmore] at hleft
        cases h
        exact (List.suffix_cons _ _).trans hleft
      · exact absurd h (by simp)

theorem readEntries_leaves {pair : List Char → Option ((List Key × Span × Value) × List Char)}
    (hp : Leaves pair) (fuel : Nat) (table : Table) : Leaves (readEntries pair fuel table) := by
  induction fuel generalizing table with
  | zero =>
    intro text entries rest h
    exact absurd h (by simp [readEntries])
  | succ fuel ih =>
    intro text entries rest h
    have hstart := skipTrivia_suffix false text
    unfold readEntries at h
    split at h
    · rename_i hrest
      rw [hrest] at hstart
      cases h
      exact (List.suffix_cons _ _).trans hstart
    · obtain ⟨⟨⟨keys, span, content⟩, left⟩, hpair, h⟩ := Option.bind_eq_some_iff.1 h
      have hleft := (skipTrivia_suffix false left).trans ((hp hpair).trans hstart)
      obtain ⟨next, -, h⟩ := Option.bind_eq_some_iff.1 h
      split at h
      · rename_i hmore
        rw [hmore] at hleft
        exact (ih next h).trans ((List.suffix_cons _ _).trans hleft)
      · rename_i hmore
        rw [hmore] at hleft
        cases h
        exact (List.suffix_cons _ _).trans hleft
      · exact absurd h (by simp)

end Containers

theorem readValue_leaves (total depth : Nat) : Leaves (readValue total depth) := by
  induction depth with
  | zero => exact readLeaf_leaves
  | succ depth ih =>
    intro text value rest h
    unfold readValue at h
    split at h
    · exact ((readItems_leaves ih _).of_map h fun _ => rfl).trans (List.suffix_cons _ _)
    · exact ((readEntries_leaves (readPair_leaves (skipTrivia_suffix false) ih) _ _).of_map h
        fun _ => rfl).trans (List.suffix_cons _ _)
    · exact readLeaf_leaves h

theorem readStatement_leaves (total : Nat) : Leaves (readStatement total) := by
  intro text statement rest h
  unfold readStatement at h
  split at h
  · obtain ⟨⟨keys, left⟩, hkeys, h⟩ := Option.bind_eq_some_iff.1 h
    have hleft := (readPath_leaves total maxDepth hkeys).trans ⟨['[', '['], rfl⟩
    split at h
    · rename_i hmark
      cases hmark
      cases h
      exact List.IsSuffix.trans ⟨[']', ']'], rfl⟩ hleft
    · exact absurd h (by simp)
  · obtain ⟨⟨keys, left⟩, hkeys, h⟩ := Option.bind_eq_some_iff.1 h
    have hleft := (readPath_leaves total maxDepth hkeys).trans (List.suffix_cons '[' _)
    split at h
    · rename_i hmark
      cases hmark
      cases h
      exact (List.suffix_cons _ _).trans hleft
    · exact absurd h (by simp)
  · obtain ⟨⟨⟨keys, span, value⟩, left⟩, hpair, he⟩ := Option.bind_eq_some_iff.1 h
    cases he
    exact readPair_leaves skipSpaces_suffix (readValue_leaves total maxDepth) hpair

end SwiftDecl.Toml
