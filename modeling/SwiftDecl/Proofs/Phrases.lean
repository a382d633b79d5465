import SwiftDecl.Proofs.SafeNames
import SwiftDecl.Proofs.TextLines
import SwiftDecl.Proofs.Writes
import Mathlib.Data.List.Forall2

/-!
# Phrases

Keywords and cleaned names are words: they neither attach to what stands before
them nor keep the next word from being set apart. So a run of operations that
each say one word leaves the words on the line with one space between them, and
the indentation in front if the line was empty.
-/

set_option autoImplicit false

namespace SwiftDecl
open SwiftDecl.Layout

def IsWord (text : String) : Prop :=
  text ≠ "" ∧ ∀ c ∈ text.toList, Name.isNameChar c = true

inductive Layout.Op.Says : Op → String → Prop
  | word {text : String} (fits : IsWord text) : Says (.word text) text
  | literal {text : String} (fits : IsWord text) : Says (.literal text) text

theorem nameChar_notMem {c : Char} (h : Name.isNameChar c = true) {marks : List Char}
    (hm : marks.any Name.isNameChar = false) : c ∉ marks := by
  intro hc
  rw [List.any_eq_false] at hm
  exact hm c hc h

theorem IsWord.of_all {text : String} (hne : text ≠ "")
    (h : text.toList.all Name.isNameChar = true) : IsWord text :=
  ⟨hne, List.all_eq_true.1 h⟩

theorem IsWord.toList_ne_nil {text : String} (h : IsWord text) : text.toList ≠ [] :=
  fun hc => h.1 (String.toList_eq_nil_iff.1 hc)

theorem IsWord.attachesLeft {text : String} (h : IsWord text) :
    attachesLeft text.toList = false := by
  cases hc : text.toList with
  | nil => exact absurd hc h.toList_ne_nil
  | cons c rest =>
    have hname : Name.isNameChar c = true := h.2 c (by simp [hc])
    have hjoin : c ∉ ")],:.(".toList := nameChar_notMem hname (by decide)
    have hmark : c ∉ "?!<>".toList := nameChar_notMem hname (by decide)
    simp only [Layout.attachesLeft, List.contains_eq_mem, hjoin, hmark, decide_false,
      Bool.false_eq_true, if_false]

theorem spacedAfter_nameChar {c : Char} (h : Name.isNameChar c = true) :
    spacedAfter c = true := by
  have hblank := Name.nameChar_not_blank h
  have hmark : c ∉ "([<.".toList := nameChar_notMem h (by decide)
  simp only [spacedAfter, hblank, List.contains_eq_mem, hmark, decide_false, Bool.or_false,
    Bool.not_false]

theorem Layout.Op.Says.isWord {op : Op} {text : String} (h : Op.Says op text) : IsWord text := by
  cases h with
  | word fits => exact fits
  | literal fits => exact fits

theorem Layout.Op.Says.step {op : Op} {text : String} (h : Op.Says op text) (w : Writer) :
    w.step op = w.piece text.toList false := by
  cases h with
  | word => rw [Writer.step]
  | literal fits =>
    have hfeed : '\n' ∉ text.toList := by
      intro hm
      exact absurd (fits.2 _ hm) (by decide)
    rw [Writer.step, Writer.literal, Text.pieces_single hfeed]
    show w.piece text.toList (Layout.attachesLeft text.toList) = _
    rw [fits.attachesLeft]

namespace Layout.Writer

structure AfterWord (w : Writer) : Prop where
  inLine : w.atLineStart = false
  last : ∃ c, w.written.head? = some c ∧ Name.isNameChar c = true

theorem piece_text {w : Writer} {cs : List Char} (h : cs ≠ []) (attaches : Bool) :
    (w.piece cs attaches).text.toList = w.text.toList ++ w.lead attaches ++ cs := by
  cases cs with
  | nil => exact absurd rfl h
  | cons c rest => simp [text_toList, piece, put]

theorem piece_afterWord {w : Writer} {text : String} (h : IsWord text) (attaches : Bool) :
    (w.piece text.toList attaches).AfterWord := by
  have hne := h.toList_ne_nil
  have hwritten : (w.piece text.toList attaches).written.reverse =
      w.written.reverse ++ w.lead attaches ++ text.toList := by
    simpa only [text_toList] using piece_text hne attaches
  constructor
  · cases hc : text.toList with
    | nil => exact absurd hc hne
    | cons c rest => rfl
  · refine ⟨text.toList.getLast hne, ?_, h.2 _ (List.getLast_mem hne)⟩
    rw [← List.getLast?_reverse, hwritten, List.getLast?_append,
      List.getLast?_eq_some_getLast hne, Option.some_or]

theorem AfterWord.lead {w : Writer} (h : w.AfterWord) : w.lead false = [' '] := by
  obtain ⟨c, hc, hname⟩ := h.last
  have hspace : needsSpace w.written.head? false = true := by
    rw [hc]
    simp [needsSpace, spacedAfter_nameChar hname]
  rw [Writer.lead, if_neg (by simp [h.inLine]), if_pos hspace]

theorem AfterWord.run {ops : List Op} {words : List String} (hs : List.Forall₂ Op.Says ops words)
    {w : Writer} (h : w.AfterWord) : (w.run ops).AfterWord ∧
      (w.run ops).text.toList =
        w.text.toList ++ words.flatMap (fun text => ' ' :: text.toList) := by
  induction hs generalizing w with
  | nil =>
    rw [Writer.run]
    exact ⟨h, by simp⟩
  | @cons op text ops words hop _ ih =>
    have hword := hop.isWord
    obtain ⟨hafter, htext⟩ := ih (piece_afterWord hword false)
    rw [Writer.run, hop.step]
    refine ⟨hafter, ?_⟩
    rw [htext, piece_text hword.toList_ne_nil, h.lead]
    simp

theorem intercalate_space (text : String) (words : List String) :
    (" ".intercalate (text :: words)).toList =
      text.toList ++ words.flatMap (fun text => ' ' :: text.toList) := by
  rw [String.toList_intercalate]
  induction words generalizing text with
  | nil => simp
  | cons next words ih =>
    rw [List.map_cons, List.map_cons, List.intercalate_cons_cons, ← List.map_cons, ih next]
    simp

/-- From the start of a line on, words stand behind the indentation with a space
between each two. -/
theorem run_phrase {ops : List Op} {words : List String} (hs : List.Forall₂ Op.Says ops words)
    (hne : words ≠ []) {w : Writer} (hw : w.atLineStart = true) : (w.run ops).AfterWord ∧
      (w.run ops).text.toList = w.text.toList ++ w.margin ++ (" ".intercalate words).toList := by
  cases hs with
  | nil => exact absurd rfl hne
  | @cons op text ops words hop hrest =>
    have hword := hop.isWord
    have hlead : w.lead false = w.margin := by rw [Writer.lead, if_pos hw]
    obtain ⟨hafter, htext⟩ := (piece_afterWord hword false).run hrest
    rw [Writer.run, hop.step]
    refine ⟨hafter, ?_⟩
    rw [htext, piece_text hword.toList_ne_nil, hlead, intercalate_space]
    simp

end Layout.Writer

theorem Modifier.keyword_isWord (m : Modifier) : IsWord m.keyword := by
  cases m <;> exact .of_all (by decide) (by decide)

theorem Name.typeName_isWord (raw : String) : IsWord (Name.typeName raw) := by
  refine ⟨?_, Name.typeName_nameChar raw⟩
  refine (Name.finish_isSafe fun c hc => ?_).nonempty
  exact Name.pascalCase_wordChar raw.toList c (by simpa [Name.swift, Name.toPascalCase] using hc)

theorem Name.memberName_isWord (raw : String) : IsWord (Name.memberName raw) := by
  refine ⟨?_, Name.memberName_nameChar raw⟩
  refine (Name.finish_isSafe fun c hc => ?_).nonempty
  exact Name.camelCase_wordChar raw.toList c (by simpa [Name.swift, Name.toCamelCase] using hc)

theorem Heading.modifiers_say (heading : Heading) :
    List.Forall₂ Op.Says heading.modifierOps (heading.modifiers.toList.map Modifier.keyword) := by
  unfold modifierOps
  rw [List.forall₂_map_left_iff, List.forall₂_map_right_iff, List.forall₂_same]
  exact fun m _ => .word m.keyword_isWord

end SwiftDecl
