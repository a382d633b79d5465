import SwiftDecl.Proofs.History

/-!
# Line starts

A writer keeps a note of whether it is at the start of a line, apart from the
text. The note is right as long as no word that is written breaks a line; line
feeds in literals are looked for and do no harm. So ending a line never makes an
empty one, and asking for an empty line twice is asking for it once.
-/

set_option autoImplicit false

namespace SwiftDecl.Layout.Writer
open SwiftDecl.Text

def EndsLine (w : Writer) : Prop :=
  ∀ c ∈ w.written.head?, c = '\n'

def Truthful (w : Writer) : Prop :=
  w.atLineStart = true ↔ w.EndsLine

variable {w : Writer}

theorem endsLine_iff (w : Writer) : w.EndsLine ↔ w.text.toList = [] ∨ ['\n'] <:+ w.text.toList := by
  rw [text_toList, ← List.reverse_prefix, List.reverse_reverse, List.reverse_eq_nil_iff, EndsLine]
  cases w.written with
  | nil => simp
  | cons c rest => simp [eq_comm]

theorem separated_iff (w : Writer) :
    w.isSeparated = true ↔ w.text.toList = [] ∨ ['\n', '\n'] <:+ w.text.toList := by
  rw [text_toList, List.reverse_eq_nil_iff]
  by_cases hw : w.written = []
  · simp [isSeparated, hw]
  · rw [isSeparated_iff hw, or_iff_right hw]

theorem truthful_of_feed (hs : w.atLineStart = true) (hf : w.written.head? = some '\n') :
    w.Truthful :=
  iff_of_true hs fun c hc => by
    rw [hf, Option.mem_some] at hc
    exact hc.symm

theorem newLine_truthful (w : Writer) : w.newLine.Truthful :=
  truthful_of_feed rfl rfl

theorem new_truthful (indent : Indent) : (Writer.new indent).Truthful :=
  iff_of_true rfl fun c hc => absurd hc (by simp [Writer.new])

namespace Truthful

theorem piece (h : w.Truthful) {cs : List Char} (hc : '\n' ∉ cs) (attaches : Bool) :
    (w.piece cs attaches).Truthful := by
  obtain rfl | ⟨front, last, rfl⟩ := List.eq_nil_or_concat' cs
  · exact h
  · have hwritten : (w.piece (front ++ [last]) attaches).atLineStart = false ∧
        (w.piece (front ++ [last]) attaches).written.head? = some last := by
      cases front <;> simp [Writer.piece, put]
    refine iff_of_false (by simp [hwritten.1]) fun hends => hc ?_
    rw [EndsLine, hwritten.2] at hends
    rw [hends last rfl]
    exact List.mem_append_right _ (List.mem_singleton_self _)

theorem literalParts (parts : List (List Char)) (hc : ∀ part ∈ parts, '\n' ∉ part)
    (h : w.Truthful) : (w.literalParts parts).Truthful := by
  induction parts generalizing w with
  | nil => exact h
  | cons part rest ih =>
    obtain ⟨hpart, hrest⟩ := List.forall_mem_cons.1 hc
    exact ih hrest ((newLine_truthful w).piece hpart _)

theorem literal (h : w.Truthful) (cs : List Char) : (w.literal cs).Truthful := by
  have hparts : ∀ part ∈ pieces cs, '\n' ∉ part := fun part hp hc => (pieces_chars hp hc).2 rfl
  unfold Writer.literal
  split
  · exact h
  · rename_i first rest hcut
    rw [hcut] at hparts
    obtain ⟨hfirst, hrest⟩ := List.forall_mem_cons.1 hparts
    exact literalParts rest hrest (h.piece hfirst _)

theorem endLine (h : w.Truthful) : w.endLine.Truthful := by
  unfold Writer.endLine
  split
  · exact h
  · exact newLine_truthful w

theorem endLine_endsLine (h : w.Truthful) : w.endLine.EndsLine :=
  h.endLine.1 (endLine_atLineStart w)

theorem blankLine (h : w.Truthful) : w.blankLine.Truthful := by
  unfold Writer.blankLine separate
  split
  · exact h.endLine
  · exact truthful_of_feed (endLine_atLineStart w) rfl

theorem step {op : Op} (ho : Op.outline [op] = []) (h : w.Truthful)
    (hword : ∀ text, op = .word text → '\n' ∉ text.toList) : (w.step op).Truthful := by
  cases op with
  | literal text =>
    rw [Writer.step]
    exact h.literal _
  | word text =>
    rw [Writer.step]
    exact h.piece (hword text rfl) false
  | openScope | closeScope | newLine =>
    rw [Writer.step]
    exact newLine_truthful _
  | endLine =>
    rw [Writer.step]
    exact h.endLine
  | blankLine =>
    rw [Writer.step]
    exact h.blankLine
  | indent | dedent =>
    rw [Writer.step]
    exact h
  | nested inner => exact absurd ho (by simp)
  | report event => exact absurd ho (by simp)

theorem endLine_cases (h : w.Truthful) :
    w.endLine = w ∨ ∃ before line, w.text.toList = before ++ line ∧
      (before = [] ∨ ['\n'] <:+ before) ∧ line ≠ [] ∧ '\n' ∉ line ∧
      w.endLine.text.toList = before ++ line ++ ['\n'] := by
  by_cases hs : w.atLineStart = true
  · exact .inl (by rw [Writer.endLine, if_pos hs])
  · have hopen : ¬w.EndsLine := h.not.1 hs
    have hended : w.endLine.text.toList = w.text.toList ++ ['\n'] := by
      rw [Writer.endLine, if_neg hs, text_toList, text_toList]
      exact List.reverse_cons
    obtain ⟨before, line, htext, hbefore, hline⟩ := cut_last_line w.text.toList
    refine .inr ⟨before, line, htext, hbefore, ?_, hline, by rw [hended, htext]⟩
    rintro rfl
    rw [List.append_nil] at htext
    rw [endsLine_iff, htext] at hopen
    exact hopen hbefore

theorem blankLine_separated (h : w.Truthful) : w.blankLine.isSeparated = true := by
  have hends := h.endLine_endsLine
  unfold Writer.blankLine separate
  split
  · assumption
  · rename_i hs
    cases hw : w.endLine.written with
    | nil => exact absurd (by rw [isSeparated, hw]) hs
    | cons c rest =>
      have hc : c = '\n' := hends c (by rw [hw]; rfl)
      rw [isSeparated, put, hw, hc]
      rfl

theorem blankLine_idem (h : w.Truthful) : w.blankLine.blankLine = w.blankLine := by
  have hstart : w.blankLine.atLineStart = true := by
    rw [Writer.blankLine, separate]
    split
    · exact endLine_atLineStart w
    · exact endLine_atLineStart w
  have hended : w.blankLine.endLine = w.blankLine := by rw [Writer.endLine, if_pos hstart]
  have hseparated := h.blankLine_separated
  rw [Writer.blankLine, hended, separate, if_pos hseparated]

end Truthful

def Unbroken (history : List Op) : Prop :=
  ∀ text, Op.word text ∈ history → '\n' ∉ text.toList

theorem unbroken_concat_iff {past : List Op} {op : Op} :
    Unbroken (past ++ [op]) ↔ Unbroken past ∧ ∀ text, op = .word text → '\n' ∉ text.toList := by
  simp only [Unbroken, List.mem_append, List.mem_singleton, or_imp, forall_and, eq_comm]

theorem Traces.truthful {indent : Indent} {ops history : List Op}
    (h : (Writer.new indent).Traces ops history w) : Unbroken history → w.Truthful := by
  refine h.keeps (P := fun past u => Unbroken past → u.Truthful) (fun _ => new_truthful indent)
    (fun past u op ho hu hpast => ?_) fun _ _ _ _ hu => hu
  obtain ⟨hbefore, hword⟩ := unbroken_concat_iff.1 hpast
  exact (hu hbefore).step ho hword

/-- Wherever a writer is on its way through calls, as long as no type reference that
it has written breaks a line: it is at the start of a line exactly if its text is
empty or ends with a line feed. To end the line then changes nothing or ends a
line with something on it, and to ask for an empty line leaves a text that is
empty or ends in one, and has been done when it is done once. -/
theorem line_starts {indent : Indent} {calls : List Call} {history : List Op}
    (h : (Writer.new indent).Traces (Call.opsOfAll calls) history w)
    (hrefs : ∀ r ∈ Call.refsOfAll calls, .word r.render ∈ history → '\n' ∉ r.render.toList) :
    (w.atLineStart = true ↔ w.text.toList = [] ∨ ['\n'] <:+ w.text.toList) ∧
    (w.endLine = w ∨ ∃ before line, w.text.toList = before ++ line ∧
      (before = [] ∨ ['\n'] <:+ before) ∧ line ≠ [] ∧ '\n' ∉ line ∧
      w.endLine.text.toList = before ++ line ++ ['\n']) ∧
    (w.blankLine.text.toList = [] ∨ ['\n', '\n'] <:+ w.blankLine.text.toList) ∧
    w.blankLine.blankLine = w.blankLine := by
  have hunbroken : Unbroken history := by
    intro text hm
    rcases Call.opsOfAll_words calls text (h.words hm) with hfree | ⟨r, hr, rfl⟩
    · exact hfree
    · exact hrefs r hr hm
  have htrue := h.truthful hunbroken
  exact ⟨htrue.trans (endsLine_iff w), htrue.endLine_cases,
    (separated_iff _).1 htrue.blankLine_separated, htrue.blankLine_idem⟩

def halting : List Call :=
  [.literal "var x\n\n", .emit (.ref (.named ∅ "Int")), .emit (.ref (.named ∅ "A\nB"))]

/-- In front of the reference that breaks a line all is well. -/
theorem line_starts_halting :
    ∃ w, (Writer.new (.spaces 0)).Traces (Call.opsOfAll halting)
        [.literal "var x\n\n", .word "Int"] w ∧
      w.text = "var x\n\nInt" ∧ w.atLineStart = false ∧
      (w.blankLine.text.toList = [] ∨ ['\n', '\n'] <:+ w.blankLine.text.toList) ∧
      w.blankLine.blankLine = w.blankLine := by
  have htraces : (Writer.new (.spaces 0)).Traces (Call.opsOfAll halting)
      [.literal "var x\n\n", .word "Int"]
      ((Writer.new (.spaces 0)).run [.literal "var x\n\n", .word "Int"]) :=
    .later (.later (.here _ _))
  have hrefs : ∀ r ∈ Call.refsOfAll halting,
      Op.word r.render ∈ [.literal "var x\n\n", .word "Int"] → '\n' ∉ r.render.toList := by
    have hlist : Call.refsOfAll halting = [.named ∅ "Int", .named ∅ "A\nB"] := rfl
    simp [hlist, TypeRef.render]
  obtain ⟨hstart, -, hblank, hidem⟩ := line_starts htraces hrefs
  refine ⟨_, htraces, ?_, ?_, hblank, hidem⟩
  · decide +kernel
  · decide +kernel

end SwiftDecl.Layout.Writer
