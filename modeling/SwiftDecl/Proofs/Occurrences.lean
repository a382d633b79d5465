import SwiftDecl.Text.Span
import Mathlib.Data.List.Infix
import Mathlib.Tactic.Common

/-!
# Occurrences

Where a key occurs first in a text. The search knows nothing but the text, so the
place it finds lies in a given word only if the key is not there before, and
then only if no occurrence runs into the word from outside. No character is
without bytes, so a place in a text is known by its offset.
-/

set_option autoImplicit false

namespace SwiftDecl.Text

variable {key text before written after : List Char}

theorem utf8Length_pos (h : text ≠ []) : 0 < utf8Length text := by
  cases text with
  | nil => exact absurd rfl h
  | cons c rest => exact Nat.add_pos_left c.utf8Size_pos _

theorem eq_of_utf8Length {a b : List Char} (ha : a <+: text) (hb : b <+: text)
    (h : utf8Length a = utf8Length b) : a = b := by
  rcases List.prefix_or_prefix_of_prefix ha hb with ⟨rest, rfl⟩ | ⟨rest, rfl⟩
  all_goals
    have hrest : rest = [] := by
      by_contra hne
      have hpos := utf8Length_pos hne
      rw [utf8Length_append] at h
      omega
    rw [hrest, List.append_nil]

theorem beforeFirst_isSome_iff : (beforeFirst key text).isSome = true ↔ key <:+: text := by
  induction text with
  | nil => cases key <;> simp [beforeFirst]
  | cons c rest ih =>
    rw [List.infix_cons_iff, ← ih, ← List.isPrefixOf_iff_prefix, beforeFirst]
    cases key.isPrefixOf (c :: rest) <;> simp

theorem beforeFirst_prefix {first : List Char} (h : beforeFirst key text = some first)
    (ht : text = before ++ key ++ after) : first <+: before := by
  induction text generalizing first before with
  | nil =>
    cases key with
    | nil =>
      cases h
      exact List.nil_prefix
    | cons _ _ => exact absurd h (by simp [beforeFirst])
  | cons c rest ih =>
    rw [beforeFirst] at h
    split at h
    · cases h
      exact List.nil_prefix
    · rename_i hp
      obtain ⟨next, hnext, rfl⟩ := Option.map_eq_some_iff.1 h
      cases before with
      | nil => exact absurd (List.isPrefixOf_iff_prefix.2 ⟨after, ht.symm⟩) hp
      | cons d before =>
        obtain ⟨rfl, hrest⟩ := List.cons.inj ht
        exact List.cons_prefix_cons.2 ⟨rfl, ih hnext hrest⟩

theorem findSpan_isSome_iff : (findSpan key text).isSome = true ↔ key <:+: text := by
  rw [findSpan, Option.isSome_map, beforeFirst_isSome_iff]

/-- No occurrence of the key runs into the word from outside. -/
def StartsApart (key written : List Char) : Prop :=
  ∀ n < key.length, 0 < n → ¬ key.drop n <+: written

instance (key written : List Char) : Decidable (StartsApart key written) :=
  inferInstanceAs (Decidable (∀ n < key.length, 0 < n → ¬ key.drop n <+: written))

theorem startsApart_of_head {c : Char} (hc : c ∉ key) (rest : List Char) :
    StartsApart key (c :: rest) := by
  intro n hn _ hp
  have hne : key.drop n ≠ [] := List.ne_nil_of_length_pos (by rw [List.length_drop]; omega)
  obtain ⟨d, more, hd⟩ := List.exists_cons_of_ne_nil hne
  rw [hd, List.cons_prefix_cons] at hp
  exact hc (hp.1 ▸ List.mem_of_mem_drop (hd ▸ List.mem_cons_self))

theorem ends_before_word {cut behind : List Char} (ha : StartsApart key written)
    (hle : key.length ≤ written.length) (hcut : cut ≠ [])
    (h : key ++ behind = cut ++ (written ++ after)) : key <+: cut := by
  have hkey : key <+: cut ++ (written ++ after) := ⟨behind, h⟩
  refine List.prefix_of_prefix_length_le hkey (List.prefix_append _ _) ?_
  by_contra hlong
  have hpos := List.length_pos_of_ne_nil hcut
  have hdrop : key.drop cut.length <+: written ++ after := by
    have hsame := congrArg (List.drop cut.length) h
    rw [List.drop_append_of_le_length (by omega), List.drop_left] at hsame
    exact ⟨behind, hsame⟩
  refine ha cut.length (by omega) hpos ?_
  refine List.prefix_of_prefix_length_le hdrop (List.prefix_append _ _) ?_
  rw [List.length_drop]
  omega

theorem beforeFirst_in_word {first : List Char} (ha : StartsApart key written)
    (hin : key <:+: written) (hout : ¬ key <:+: before)
    (h : beforeFirst key (before ++ written ++ after) = some first) :
    ∃ front back, written = front ++ key ++ back ∧ first = before ++ front := by
  obtain ⟨behind, hfirst⟩ := beforeFirst_append h
  obtain ⟨front', back', hwritten⟩ := hin
  have hlength : front'.length + key.length + back'.length = written.length := by
    rw [← hwritten, List.length_append, List.length_append]
  rw [List.append_assoc, List.append_assoc] at hfirst
  rcases List.append_eq_append_iff.1 hfirst with ⟨front, rfl, hbehind⟩ | ⟨cut, rfl, hbehind⟩
  · -- It starts in the word, and not behind the occurrence that is known.
    have htext : before ++ written ++ after = before ++ front' ++ key ++ (back' ++ after) := by
      simp only [← hwritten, List.append_assoc]
    have hfront : before ++ front <+: before ++ front' := beforeFirst_prefix h htext
    have hle := ((List.prefix_append_right_inj before).1 hfront).length_le
    have hword : front ++ key <+: written ++ after := ⟨behind, by rw [hbehind, List.append_assoc]⟩
    obtain ⟨back, hback⟩ : front ++ key <+: written := by
      refine List.prefix_of_prefix_length_le hword (List.prefix_append _ _) ?_
      rw [List.length_append]
      omega
    exact ⟨front, back, hback.symm, rfl⟩
  · by_cases hcut : cut = []
    · subst hcut
      obtain ⟨back, hback⟩ : key <+: written :=
        List.prefix_of_prefix_length_le ⟨behind, hbehind⟩ (List.prefix_append _ _) (by omega)
      exact ⟨[], back, hback.symm, by simp⟩
    · have hends := ends_before_word ha (by omega) hcut hbehind
      exact absurd (hends.isInfix.trans (List.suffix_append _ _).isInfix) hout

/-- The span of an occurrence of the key in the word. -/
def Covers (key before written : List Char) (span : Option Span) : Prop :=
  ∃ front back, written = front ++ key ++ back ∧
    span = some ⟨utf8Length (before ++ front), utf8Length key⟩

theorem findSpan_covers_iff (ha : StartsApart key written) (hne : key ≠ []) :
    Covers key before written (findSpan key (before ++ written ++ after)) ↔
      key <:+: written ∧ ¬ key <:+: before := by
  constructor
  · rintro ⟨front, back, hwritten, hspan⟩
    refine ⟨⟨front, back, hwritten.symm⟩, ?_⟩
    rintro ⟨front', back', hbefore⟩
    obtain ⟨first, hfirst, heq⟩ := Option.map_eq_some_iff.1 hspan
    have htext : before ++ written ++ after =
        front' ++ key ++ (back' ++ written ++ after) := by
      simp only [← hbefore, List.append_assoc]
    have hprefix := beforeFirst_prefix hfirst htext
    have hbegins : first <+: before ++ written ++ after :=
      hprefix.trans ⟨_, (htext.trans (List.append_assoc _ _ _)).symm⟩
    have hplace : before ++ front <+: before ++ written ++ after :=
      ⟨key ++ back ++ after, by simp only [hwritten, List.append_assoc]⟩
    have hsame := eq_of_utf8Length hbegins hplace (Span.mk.inj heq).1
    -- The place in the word would be before the word.
    have hle := hprefix.length_le
    have hpos := List.length_pos_of_ne_nil hne
    have hlength := congrArg List.length hbefore
    rw [hsame] at hle
    simp only [List.length_append] at hle hlength
    omega
  · rintro ⟨hin, hout⟩
    have hoccurs : key <:+: before ++ written ++ after :=
      hin.trans ((List.suffix_append _ _).isInfix.trans (List.prefix_append _ _).isInfix)
    obtain ⟨first, hfirst⟩ := Option.isSome_iff_exists.1 (beforeFirst_isSome_iff.2 hoccurs)
    obtain ⟨front, back, hwritten, rfl⟩ := beforeFirst_in_word ha hin hout hfirst
    exact ⟨front, back, hwritten, by rw [findSpan, hfirst, Option.map_some]⟩

end SwiftDecl.Text
