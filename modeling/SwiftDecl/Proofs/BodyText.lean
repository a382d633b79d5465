import SwiftDecl.Proofs.Composition
import SwiftDecl.Proofs.Pieces

/-!
# Code in braces

Balanced code inside a scope has the text that it has on its own one level
further in, and the scope counts as empty when the code writes no piece: line
ends alone do not fill it.
-/

set_option autoImplicit false

namespace SwiftDecl
open SwiftDecl.Layout

namespace Layout.Page

/-- A page is touched as soon as a piece stands on it: the first one cannot stand
in a scope of the page, for the brace that opens the scope would come before. -/
structure Marked (p : Page) : Prop where
  touched : p.touched = true ↔ p.pieces ≠ []
  opened : p.scopes ≠ [] → p.touched = true

theorem Marked.of_eq {p p' : Page} (h : p.Marked) (ht : p'.touched = p.touched)
    (hp : p'.pieces = p.pieces) (hs : p'.scopes ≠ [] → p.scopes ≠ []) : p'.Marked := by
  refine ⟨by rw [ht, hp, h.touched], fun hne => ?_⟩
  rw [ht]
  exact h.opened (hs hne)

theorem Marked.piece {p : Page} (h : p.Marked) (cs : List Char) (attaches : Bool) :
    (p.piece cs attaches).Marked := by
  cases cs with
  | nil => exact h
  | cons c rest =>
    have htouched : (p.piece (c :: rest) attaches).touched = true := by
      show (p.touched || p.scopes.isEmpty) = true
      cases hs : p.scopes with
      | nil => simp
      | cons filled outer => simp [h.opened (by simp [hs])]
    refine ⟨⟨fun _ => ?_, fun _ => htouched⟩, fun _ => htouched⟩
    rw [piece_pieces]
    simp [Piece.ofText]

theorem Marked.newLine {p : Page} (h : p.Marked) : p.newLine.Marked :=
  h.of_eq rfl (newLine_pieces p) id

theorem Marked.endLine {p : Page} (h : p.Marked) : p.endLine.Marked := by
  unfold Page.endLine
  split
  · exact h
  · exact h.newLine

theorem Marked.blankLine {p : Page} (h : p.Marked) : p.blankLine.Marked := by
  unfold Page.blankLine Page.separate
  split
  · exact h.endLine
  · exact h.endLine.newLine

theorem Marked.literal {p : Page} (h : p.Marked) (cs : List Char) : (p.literal cs).Marked := by
  have hparts : ∀ (parts : List (List Char)) (q : Page), q.Marked →
      (q.literalParts parts).Marked := by
    intro parts
    induction parts with
    | nil => exact fun q hq => hq
    | cons part rest ih => exact fun q hq => ih _ (hq.newLine.piece part (attachesLeft part))
  unfold Page.literal
  cases Text.pieces cs with
  | nil => exact h
  | cons first rest => exact hparts rest _ (h.piece first _)

theorem Marked.openScope {p : Page} (h : p.Marked) : p.openScope.Marked := by
  have hbrace := (h.piece ['\x7b'] false).newLine
  have htouched : p.openScope.touched = true := by
    refine hbrace.touched.2 ?_
    rw [newLine_pieces, piece_pieces]
    simp [Piece.ofText]
  exact ⟨⟨fun _ => hbrace.touched.1 htouched, fun _ => htouched⟩, fun _ => htouched⟩

theorem Marked.closeScope {p : Page} (h : p.Marked) : p.closeScope.Marked := by
  have hleft : p.endLine.leaveScope.Marked := by
    refine h.endLine.of_eq (leaveScope_touched _) (leaveScope_pieces _) fun hne hs => hne ?_
    rw [leaveScope, hs]
    exact hs
  exact (Marked.piece (p := p.endLine.leaveScope.dedent) (hleft.of_eq rfl rfl id)
    ['\x7d'] false).newLine

theorem Marked.step (n : Nat) (p : Page) (op : Op) (ho : ∀ inner, op ≠ .nested inner)
    (h : p.Marked) : (p.step n op).Marked := by
  rw [Page.step.eq_def]
  cases op with
  | literal text => exact h.literal text.toList
  | word text => exact h.piece text.toList false
  | openScope => exact h.openScope
  | closeScope => exact h.closeScope
  | newLine => exact h.newLine
  | endLine => exact h.endLine
  | blankLine => exact h.blankLine
  | indent | dedent | report => exact h.of_eq rfl rfl id
  | nested inner => exact absurd rfl (ho inner)

theorem run_touched_iff (ops : List Op) (n : Nat) :
    (Page.empty.run n ops).touched = true ↔ Op.piecesOfAll n ops ≠ [] := by
  have hempty : Page.empty.Marked :=
    ⟨by simp [Page.empty, pieces, Line.blank], fun h => absurd rfl h⟩
  rw [(run_keeps Marked.step ops n hempty).touched, run_pieces]
  simp [Page.empty, pieces, Line.blank]

end Layout.Page

theorem Layout.Writer.endLine_closeScope (w : Writer) : w.endLine.closeScope = w.closeScope := by
  have hend : w.endLine.endLine = w.endLine := by
    rw [Writer.endLine, if_pos]
    unfold Writer.endLine
    split
    · assumption
    · rfl
  rw [Writer.closeScope, Writer.closeScope, hend]

/-- The lines of code on their own, from `level`. -/
def linesAt (indent : Indent) (level : Nat) (ops : List Op) : List Char :=
  ((Writer.startingAt indent level).run (ops ++ [.endLine])).text.toList

theorem Stands.run_code {ops : List Op} (hops : Level (fun _ => True) ops) {indent : Indent}
    {level : Nat} {filled : Bool} {text : List Char} {w : Writer}
    (h : Stands indent level filled text w) :
    Stands indent level (filled || decide (Op.piecesOfAll 0 ops ≠ []))
      (text ++ linesAt indent level ops) (w.run (ops ++ [.endLine])) := by
  have hlevel : Level (fun _ => True) (ops ++ [.endLine]) := hops.append (.single rfl trivial)
  have hin := run_within hlevel 0
  have hshow := run_at_line_start hlevel h.lineStart
  rw [h.unit, h.level, h.scopes, h.nesting] at hshow
  have hown := run_at_line_start hlevel (w := Writer.startingAt indent level)
    (by rw [startingAt_eq]; rfl)
  have htext : linesAt indent level ops =
      ((Page.empty.run 0 (ops ++ [.endLine])).inked indent.unit level).reverse := by
    rw [linesAt, Writer.text_toList, hown.written, startingAt_eq]
    exact congrArg List.reverse (List.append_nil _)
  have htouched : (Page.empty.run 0 (ops ++ [.endLine])).touched =
      decide (Op.piecesOfAll 0 ops ≠ []) := by
    rw [Bool.eq_iff_iff, Page.run_touched_iff, decide_eq_true_iff, Op.piecesOfAll_append]
    simp [Op.piecesOfAll, Op.pieces]
  have hcurrent : (Page.empty.run 0 (ops ++ [.endLine])).current.pieces = [] := by
    rw [Page.run_append, Page.run, Page.run, Page.step]
    exact Page.endLine_current _
  refine ⟨hshow.unit, ?_, ?_, ?_, (Writer.run_nesting _ w).trans h.nesting, ?_⟩
  · rw [hshow.level, hin.level]
    rfl
  · rw [hshow.lineStart, hcurrent]
    rfl
  · rw [hshow.scopes, List.length_eq_zero_iff.1 hin.scopes, htouched, List.nil_append]
    cases filled <;> by_cases hp : Op.piecesOfAll 0 ops = [] <;> simp [hp, Writer.fill]
  · rw [hshow.written, htext, h.written]
    simp

theorem Stands.run_braced {ops : List Op} (hops : Level (fun _ => True) ops) {indent : Indent}
    {level : Nat} {text : List Char} {w : Writer}
    (h : Stands indent (level + 1) false text w) :
    (w.run (ops ++ [.closeScope])).text.toList =
      text ++ linesAt indent (level + 1) ops ++
        (if Op.piecesOfAll 0 ops = [] then ['\n'] else []) ++ closing indent level := by
  have hstands := h.run_code hops
  rw [Writer.run_append, Writer.run, Writer.run, Writer.step] at hstands
  rw [Writer.run_append, Writer.run, Writer.run, Writer.step, ← Writer.endLine_closeScope,
    hstands.closeScope]
  by_cases hp : Op.piecesOfAll 0 ops = [] <;> simp [hp]

end SwiftDecl
