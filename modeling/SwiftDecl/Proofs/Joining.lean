import SwiftDecl.Proofs.Calls
import SwiftDecl.Proofs.Lines
import SwiftDecl.Proofs.Pieces

/-!
# Joined lines

A writer decides on a space by the end of the text so far and by whether a line
has started; it does not know the pieces it has written. Still its text is made
line by line from pieces: whatever is asked of a new writer, in whatever order,
each line is the pieces of that line, set in by the level at which the first of
them was written, with a space between two neighbours that stand apart.
-/

set_option autoImplicit false

namespace SwiftDecl
open SwiftDecl.Layout

namespace Layout.Shows

variable {u : List Char} {w : Writer} {p : Page}

theorem step (h : Shows u 0 [] [] w p) (n : Nat) {op : Op} (ho : ∀ inner, op ≠ .nested inner) :
    Shows u 0 [] [] (w.step op) (p.step n op) := by
  rw [Writer.step.eq_def, Page.step.eq_def]
  -- The page starts where the text does and has all levels and scopes of the writer,
  -- so nothing that closes one needs a condition.
  cases op with
  | literal text => exact h.literal text.toList
  | word text => exact h.piece text.toList false
  | openScope => exact h.openScope
  | closeScope => exact h.closeScope (Or.inl rfl) (Or.inl rfl)
  | newLine => exact h.newLine
  | endLine => exact h.endLine
  | blankLine => exact h.blankLine (Or.inl rfl)
  | indent => exact h.indent
  | dedent => exact h.dedent (Or.inl rfl)
  | nested inner => exact absurd rfl (ho inner)
  | report event => exact ⟨h.unit, h.level, h.written, h.lineStart, h.scopes⟩

theorem run (ops : List Op) (h : Shows u 0 [] [] w p) :
    Shows u 0 [] [] (w.run ops) (p.run w.nesting ops) := by
  induction ops using Op.consInduct generalizing w p with
  | nil =>
    rw [Writer.run, Page.run]
    exact h
  | flat op rest ho ih =>
    rw [Writer.run, Page.run, ← Writer.step_nesting op w]
    exact ih (h.step _ ho)
  | nested inner rest ihi ih =>
    rw [Writer.run, Page.run, ← Writer.step_nesting (.nested inner) w]
    apply ih
    rw [Writer.step_nesting, Writer.step, Page.step]
    split
    · have hinner := ihi (w := w.enter) ⟨h.unit, h.level, h.written, h.lineStart, h.scopes⟩
      exact ⟨hinner.unit, hinner.level, hinner.written, hinner.lineStart, hinner.scopes⟩
    · exact ⟨h.unit, h.level, h.written, h.lineStart, h.scopes⟩

end Layout.Shows

namespace Layout.Page

theorem Clean.step {p : Page} (h : p.Clean) (n : Nat) {op : Op}
    (ho : ∀ inner, op ≠ .nested inner) (hw : ∀ text ∈ op.words, '\n' ∉ text.toList) :
    (p.step n op).Clean := by
  cases op with
  | openScope =>
    rw [Page.step]
    exact h.openScope
  | closeScope =>
    rw [Page.step]
    exact h.closeScope
  | blankLine =>
    rw [Page.step]
    exact h.blankLine
  | indent | dedent =>
    rw [Page.step]
    exact h
  | nested inner => exact absurd rfl (ho inner)
  | word text => exact h.plain n rfl (hw text (by simp [Op.words]))
  | literal | newLine | endLine | report => exact h.plain n rfl trivial

theorem Clean.run {ops : List Op} (ho : Op.OnOneLine ops) (n : Nat) {p : Page} (h : p.Clean) :
    (p.run n ops).Clean := by
  induction ops using Op.consInduct generalizing n p with
  | nil =>
    rw [Page.run]
    exact h
  | flat op rest hf ih =>
    obtain ⟨hop, hrest⟩ := Op.onOneLine_cons.1 ho
    rw [Page.run]
    exact ih hrest n (h.step n hf hop)
  | nested inner rest ihi ih =>
    obtain ⟨hop, hrest⟩ := Op.onOneLine_cons.1 ho
    rw [Op.words] at hop
    rw [Page.run, Page.step]
    apply ih hrest
    split
    · exact ihi hop (n + 1) h
    · exact h

def allLines (p : Page) : List Line :=
  (p.current :: p.lines).reverse

theorem allLines_pieces (p : Page) :
    p.allLines.flatMap (fun line => line.pieces.reverse) = p.pieces.reverse := by
  rw [pieces, List.reverse_flatMap]
  rfl

theorem spelled_feedFree (indent : Indent) {p : Page} (h : p.Clean) {line : Line}
    (hl : line ∈ p.current :: p.lines) : '\n' ∉ line.spelled indent.unit := by
  unfold Line.spelled
  split
  · simp
  · rw [List.mem_append, not_or, ← Line.joined_reverse, List.mem_reverse]
    exact ⟨indentation_feedFree indent _, h line hl⟩

theorem pieces_inked (indent : Indent) {p : Page} (h : p.Clean) :
    Text.pieces (p.inked indent.unit 0).reverse =
      p.allLines.map (Line.spelled indent.unit) := by
  have htext : (p.inked indent.unit 0).reverse =
      (p.lines.reverse.map (Line.spelled indent.unit)).flatMap (fun line => line ++ ['\n']) ++
        p.current.spelled indent.unit := by
    rw [List.flatMap_map]
    simp [inked, List.reverse_flatMap, Function.comp_def, Line.inked_reverse_eq_spelled]
  have hlines : ∀ line ∈ p.lines.reverse.map (Line.spelled indent.unit), '\n' ∉ line := by
    intro line hl
    obtain ⟨source, hs, rfl⟩ := List.mem_map.1 hl
    exact spelled_feedFree indent h (List.mem_cons_of_mem _ (List.mem_reverse.1 hs))
  rw [htext, Text.pieces_lines hlines (spelled_feedFree indent h (by simp)), allLines]
  simp

end Layout.Page

namespace Layout.Call

def writer (indent : Indent) (calls : List Call) : Writer :=
  (Writer.new indent).run (opsOfAll calls)

def page (calls : List Call) : Page :=
  Page.empty.run 0 (opsOfAll calls)

theorem writer_shows (indent : Indent) (calls : List Call) :
    Shows indent.unit 0 [] [] (writer indent calls) (page calls) :=
  Shows.run (opsOfAll calls) (Shows.empty (w := Writer.new indent) rfl)

end Layout.Call

/-- Whatever is asked of a new writer, as long as no type is written on more than
one line: the lines of the text are those of the page. A line without pieces is
empty; any other is its pieces with a space between neighbours that stand apart,
set in by its depth, the level at which its first piece was written. The pieces on
the lines are the ones asked for, in order. -/
theorem calls_join_pieces (indent : Indent) (calls : List Call)
    (h : ∀ r ∈ Call.refsOfAll calls, '\n' ∉ r.render.toList) :
    Text.pieces (Call.writer indent calls).text.toList =
      (Call.page calls).allLines.map (Line.spelled indent.unit) ∧
    (Call.page calls).allLines.flatMap (fun line => line.pieces.reverse) =
      Op.piecesOfAll 0 (Call.opsOfAll calls) ∧
    (Call.writer indent calls).level = (Call.page calls).level ∧
    ((Call.writer indent calls).atLineStart = true ↔ (Call.page calls).current.pieces = []) := by
  have hshows := Call.writer_shows indent calls
  have hclean : (Call.page calls).Clean :=
    Page.Clean.run (Call.opsOfAll_onOneLine calls h) 0
      (by simp [Page.Clean, Page.empty, Line.blank, Line.joined])
  refine ⟨?_, ?_, ?_, ?_⟩
  · rw [Writer.text_toList, hshows.written, List.append_nil, Page.pieces_inked indent hclean]
  · rw [Page.allLines_pieces, Call.page, Page.run_pieces]
    simp [Page.pieces, Page.empty, Line.blank]
  · rw [hshows.level, Nat.zero_add]
  · rw [hshows.lineStart, List.isEmpty_iff]

def patchwork : List Call :=
  [.literal "let x", .literal ":", .emit (.ref (.optional ∅ (.named ∅ "Int"))), .literal "=",
   .nested [.literal ".some", .openScope, .literal "a\n?? b", .closeScope], .blankLine,
   .indent, .literal "<", .literal "!="]

theorem calls_join_pieces_patchwork :
    (∀ r ∈ Call.refsOfAll patchwork, '\n' ∉ r.render.toList) ∧
    (Call.page patchwork).allLines.map (Line.spelled ['\t']) =
      ["let x: Int? = .some \x7b", "\ta", "\t?? b", "\x7d", "", "\t<!="].map String.toList ∧
    Text.pieces (Call.writer .tab patchwork).text.toList =
      (Call.page patchwork).allLines.map (Line.spelled ['\t']) ∧
    (Call.writer .tab patchwork).level = (Call.page patchwork).level :=
  have hfree : ∀ r ∈ Call.refsOfAll patchwork, '\n' ∉ r.render.toList := by decide +kernel
  have h := calls_join_pieces .tab patchwork hfree
  ⟨hfree, by decide +kernel, h.1, h.2.2.1⟩

end SwiftDecl
