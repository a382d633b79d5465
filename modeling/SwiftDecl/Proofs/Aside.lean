import SwiftDecl.Proofs.Outline
import SwiftDecl.Proofs.Writes

/-!
# Nesting and log aside

Operations that only write look neither at the nesting nor at the log, and leave
both as they are. So a writer may be put at another nesting and with another log
before such operations or after them, all the same.
-/

set_option autoImplicit false

namespace SwiftDecl.Layout.Writer

/-- The writer at some other nesting and with some other log. -/
def aside (w : Writer) (nesting : Nat) (log : List Event) : Writer :=
  { w with nesting := nesting, log := log }

section Aside

variable (w : Writer) (n : Nat) (log : List Event)

theorem piece_aside (cs : List Char) (attaches : Bool) :
    (w.aside n log).piece cs attaches = (w.piece cs attaches).aside n log := by
  cases cs <;> rfl

theorem endLine_aside : (w.aside n log).endLine = w.endLine.aside n log := by
  unfold endLine
  cases hs : w.atLineStart <;> simp [aside, hs, newLine, put]

theorem blankLine_aside : (w.aside n log).blankLine = w.blankLine.aside n log := by
  rw [blankLine, blankLine, endLine_aside, separate, separate]
  split_ifs with h₁ h₂ h₂
  · rfl
  · exact absurd h₁ h₂
  · exact absurd h₂ h₁
  · rfl

theorem leaveScope_aside : (w.aside n log).leaveScope = w.leaveScope.aside n log := by
  unfold leaveScope
  cases hs : w.scopes with
  | nil => simp [aside, hs]
  | cons filled outer => cases filled <;> simp [aside, hs, put]

theorem openScope_aside : (w.aside n log).openScope = w.openScope.aside n log := by
  unfold openScope
  rw [piece_aside]
  rfl

theorem closeScope_aside : (w.aside n log).closeScope = w.closeScope.aside n log := by
  have hclosed : ∀ v : Writer, (v.aside n log).dedent = v.dedent.aside n log := fun _ => rfl
  unfold closeScope
  rw [endLine_aside, leaveScope_aside, hclosed, piece_aside]
  rfl

theorem literalParts_aside (parts : List (List Char)) :
    (w.aside n log).literalParts parts = (w.literalParts parts).aside n log := by
  induction parts generalizing w with
  | nil => rfl
  | cons part rest ih =>
    have hpart : (w.aside n log).newLine.literalPart part =
        (w.newLine.literalPart part).aside n log := piece_aside w.newLine n log part _
    rw [literalParts, literalParts, hpart, ih]

theorem literal_aside (cs : List Char) :
    (w.aside n log).literal cs = (w.literal cs).aside n log := by
  unfold literal
  split
  · rfl
  · rw [literalPart, literalPart, piece_aside, literalParts_aside]

theorem step_aside {op : Op} (h : Op.outline [op] = []) :
    (w.aside n log).step op = (w.step op).aside n log := by
  cases op with
  | literal text => rw [step, step, literal_aside]
  | word text => rw [step, step, piece_aside]
  | openScope => rw [step, step, openScope_aside]
  | closeScope => rw [step, step, closeScope_aside]
  | newLine | indent | dedent =>
    rw [step, step]
    rfl
  | endLine => rw [step, step, endLine_aside]
  | blankLine => rw [step, step, blankLine_aside]
  | nested inner => simp at h
  | report event => simp at h

theorem run_aside {ops : List Op} (h : ∀ op ∈ ops, Op.outline [op] = []) :
    (w.aside n log).run ops = (w.run ops).aside n log := by
  induction ops generalizing w with
  | nil => rw [run, run]
  | cons op rest ih =>
    rw [run, run, step_aside w n log (h op (by simp)),
      ih _ fun op ho => h op (List.mem_cons_of_mem _ ho)]

end Aside

-- A writer is itself at its own nesting and with its own log, so both are kept.

theorem step_log {op : Op} (h : Op.outline [op] = []) (w : Writer) : (w.step op).log = w.log := by
  have hself : w.step op = (w.step op).aside w.nesting w.log := step_aside w w.nesting w.log h
  rw [hself]
  rfl

theorem run_log {ops : List Op} (h : ∀ op ∈ ops, Op.outline [op] = []) (w : Writer) :
    (w.run ops).log = w.log := by
  have hself : w.run ops = (w.run ops).aside w.nesting w.log := run_aside w w.nesting w.log h
  rw [hself]
  rfl

end SwiftDecl.Layout.Writer
