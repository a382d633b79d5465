import SwiftDecl.Proofs.Balance
import SwiftDecl.Proofs.Page
import Mathlib.Logic.Function.Iterate

/-!
# Layout by lines

A declaration has one list of lines, and its text under any unit of indentation
and from any level is this list with every line set in by its own depth on top
of that level. So the unit and the level leave no trace in what stands on a
line, where it ends, or where an empty line goes.
-/

set_option autoImplicit false

namespace SwiftDecl
open SwiftDecl.Layout

def Layout.Writer.startingAt (indent : Indent) (level : Nat) : Writer :=
  Writer.indent^[level] (Writer.new indent)

def Node.textAt (indent : Indent) (level : Nat) (node : Node) : List Char :=
  ((Writer.startingAt indent level).emit node).text.toList

def Node.page (nesting : Nat) (node : Node) : Page :=
  Page.empty.run nesting node.ops

def Node.lines (node : Node) : List Line :=
  (node.page 0).lines.reverse

def reindented (margin text : List Char) : List Char :=
  ['\n'].intercalate ((Text.pieces text).map fun line => if line = [] then [] else margin ++ line)

theorem startingAt_eq (indent : Indent) (level : Nat) :
    Writer.startingAt indent level = { Writer.new indent with level := level } := by
  induction level with
  | zero => rfl
  | succ n ih =>
    rw [Writer.startingAt, Function.iterate_succ_apply', ← Writer.startingAt, ih]
    rfl

/-- What a declaration adds to a text at the start of a line depends on the text
in nothing and on unit and level only through how its page is inked. -/
theorem run_at_line_start {ok : Op → Prop} {ops : List Op} (h : Level ok ops) {w : Writer}
    (hw : w.atLineStart = true) :
    Shows w.unit w.level w.written w.scopes (w.run ops) (Page.empty.run w.nesting ops) :=
  ((h 0 0).run_shows Page.Within.empty (Shows.empty hw)).2

theorem inked_reverse (u : List Char) (level : Nat) {p : Page} (h : p.current.pieces = []) :
    (p.inked u level).reverse = p.lines.reverse.flatMap (Line.render u level) := by
  rw [Page.inked, Line.inked, h, List.nil_append]
  induction p.lines with
  | nil => rfl
  | cons line rest ih => simp [ih, Line.render_eq_inked]

theorem textAt_page {ok : Op → Prop} {node : Node} (h : Level ok node.ops) (indent : Indent)
    (level : Nat) :
    node.textAt indent level = ((node.page 0).inked indent.unit level).reverse := by
  have hs : (Writer.startingAt indent level).atLineStart = true := by
    rw [startingAt_eq]
    rfl
  have hw := (run_at_line_start h hs).written
  rw [Node.textAt, Writer.text_toList, Writer.emit, hw, startingAt_eq]
  simp [Writer.new, Node.page]

theorem page_current {ok : Op → Prop} {node : Node} (hn : node.IsDeclaration)
    (h : Level ok node.ops) (nesting : Nat) : (node.page nesting).current.pieces = [] := by
  let w : Writer := { Writer.new .standard with nesting := nesting }
  have hs := (run_at_line_start (w := w) h rfl).lineStart
  rw [Writer.run_atLineStart w (declaration_last node hn)] at hs
  exact List.isEmpty_iff.1 hs.symm

theorem textAt_lines {ok : Op → Prop} {node : Node} (hn : node.IsDeclaration)
    (h : Level ok node.ops) (indent : Indent) (level : Nat) :
    node.textAt indent level = node.lines.flatMap (Line.render indent.unit level) := by
  rw [textAt_page h, inked_reverse _ _ (page_current hn h 0)]
  rfl

def FeedFree : Op → Prop
  | .word text => '\n' ∉ text.toList
  | _ => True

namespace Layout.Page

def Clean (p : Page) : Prop :=
  ∀ line ∈ p.current :: p.lines, '\n' ∉ Line.joined line.pieces

theorem Clean.piece {p : Page} (h : p.Clean) {cs : List Char} (hc : '\n' ∉ cs)
    (attaches : Bool) : (p.piece cs attaches).Clean := by
  cases cs with
  | nil => exact h
  | cons c rest =>
    intro line hl
    rcases List.mem_cons.1 hl with rfl | hl
    · have hj := h p.current (by simp)
      simp only [Page.piece, Line.joined, Piece.text, List.mem_append, List.mem_reverse, not_or]
      refine ⟨⟨hc, ?_⟩, hj⟩
      split <;> simp
    · exact h line (List.mem_cons_of_mem _ hl)

theorem Clean.newLine {p : Page} (h : p.Clean) : p.newLine.Clean := by
  intro line hl
  rcases List.mem_cons.1 hl with rfl | hl
  · simp [Page.newLine, Line.blank, Line.joined]
  · exact h line hl

theorem Clean.endLine {p : Page} (h : p.Clean) : p.endLine.Clean := by
  unfold Page.endLine
  split
  · exact h
  · exact h.newLine

theorem Clean.blankLine {p : Page} (h : p.Clean) : p.blankLine.Clean := by
  unfold Page.blankLine Page.separate
  split
  · exact h.endLine
  · exact h.endLine.newLine

theorem Clean.leaveScope {p : Page} (h : p.Clean) : p.leaveScope.Clean := by
  unfold Page.leaveScope
  split
  · exact h
  · exact h
  · exact h.newLine

theorem Clean.closeScope {p : Page} (h : p.Clean) : p.closeScope.Clean :=
  (Clean.piece (p := p.endLine.leaveScope.dedent) h.endLine.leaveScope
    (show '\n' ∉ ['\x7d'] by decide) false).newLine

theorem Clean.openScope {p : Page} (h : p.Clean) : p.openScope.Clean :=
  (h.piece (show '\n' ∉ ['\x7b'] by decide) false).newLine

theorem Clean.literal {p : Page} (h : p.Clean) (cs : List Char) : (p.literal cs).Clean := by
  have hparts : ∀ part ∈ Text.pieces cs, '\n' ∉ part :=
    fun part hp hc => (Text.pieces_chars hp hc).2 rfl
  have hrest : ∀ (parts : List (List Char)) (q : Page), q.Clean → (∀ part ∈ parts, '\n' ∉ part) →
      (q.literalParts parts).Clean := by
    intro parts
    induction parts with
    | nil => exact fun q hq _ => hq
    | cons part rest ih =>
      intro q hq hp
      exact ih _ (hq.newLine.piece (hp part (by simp)) _) fun part' h' => hp part' (by simp [h'])
  unfold Page.literal
  cases hp : Text.pieces cs with
  | nil => exact h
  | cons first rest =>
    rw [hp] at hparts
    exact hrest rest _ (h.piece (hparts first (by simp)) _)
      fun part h' => hparts part (by simp [h'])

theorem Clean.plain {p : Page} (h : p.Clean) (n : Nat) {op : Op} (hp : op.isPlain = true)
    (ho : FeedFree op) : (p.step n op).Clean := by
  cases op with
  | literal text =>
    rw [step]
    exact h.literal _
  | word text =>
    rw [step]
    exact h.piece ho false
  | newLine =>
    rw [step]
    exact h.newLine
  | endLine =>
    rw [step]
    exact h.endLine
  | report event =>
    rw [step]
    exact h
  | openScope | closeScope | blankLine | indent | dedent | nested => simp [Op.isPlain] at hp

theorem run_clean {s i s' i' : Nat} {ops : List Op} (h : Scoped FeedFree s i ops s' i')
    (n : Nat) {p : Page} (hp : p.Clean) : (p.run n ops).Clean := by
  induction h generalizing n p with
  | nil =>
    rw [run]
    exact hp
  | plain hpl ho _ ih =>
    rw [run]
    exact ih n (hp.plain n hpl ho)
  | blankLine _ ih =>
    rw [run, step]
    exact ih n hp.blankLine
  | openScope _ ih =>
    rw [run, step]
    exact ih n hp.openScope
  | closeScope _ ih =>
    rw [run, step]
    exact ih n hp.closeScope
  | indent _ ih | dedent _ ih =>
    rw [run, step]
    exact ih n (p := _) hp
  | nested _ _ ihi ih =>
    rw [run, step]
    apply ih
    split
    · exact ihi (n + 1) hp
    · exact hp

end Layout.Page

theorem vocabulary_feedFree : Vocabulary FeedFree where
  newLine := trivial
  endLine := trivial
  report := fun _ => trivial
  fixed := fun _ _ => trivial
  modifier := Modifier.keyword_feedFree
  typeName := fun _ => trivial
  memberName := fun _ => trivial
  declaredName := fun _ => trivial

theorem supplied_feedFree {node : Node} (hb : ∀ b ∈ node.blocks, b.Balanced)
    (hr : ∀ r ∈ node.refs, '\n' ∉ r.render.toList) :
    Supplied FeedFree node.blocks node.refs node.descriptions where
  balanced := hb
  literal := fun _ _ _ _ => trivial
  ref := hr
  description := fun _ _ _ hl => Heading.commentLine_feedFree hl

theorem reindented_append (margin line rest : List Char) (h : '\n' ∉ line) :
    reindented margin (line ++ '\n' :: rest) =
      (if line = [] then [] else margin ++ line) ++ '\n' :: reindented margin rest := by
  rw [reindented, Text.pieces_append line rest h, List.map_cons, reindented]
  cases hp : Text.pieces rest with
  | nil => exact absurd hp (Text.splitAt_ne_nil _ _)
  | cons first more => simp [List.intercalate_cons_cons]

theorem indentation_add (u : List Char) (m n : Nat) :
    Line.indentation u (m + n) = Line.indentation u m ++ Line.indentation u n := by
  rw [Line.indentation, List.replicate_add, List.flatten_append]
  rfl

theorem indentation_feedFree (indent : Indent) (level : Nat) :
    '\n' ∉ Line.indentation indent.unit level := by
  intro h
  obtain ⟨u, hu, hc⟩ := List.mem_flatten.1 h
  rw [List.eq_of_mem_replicate hu] at hc
  cases indent with
  | spaces width => exact absurd (List.eq_of_mem_replicate hc) (by decide)
  | tab => exact absurd hc (by decide)

theorem reindented_lines (indent : Indent) (level : Nat) (lines : List Line)
    (h : ∀ line ∈ lines, '\n' ∉ line.content) :
    reindented (Line.indentation indent.unit level)
        (lines.flatMap (Line.render indent.unit 0)) =
      lines.flatMap (Line.render indent.unit level) := by
  induction lines with
  | nil => rfl
  | cons line rest ih =>
    have hc := h line (by simp)
    have ih := ih fun l hl => h l (by simp [hl])
    rw [List.flatMap_cons, List.flatMap_cons, ← ih, Line.render, Line.render, List.append_assoc,
      List.singleton_append, List.append_assoc, List.singleton_append]
    by_cases hl : line.content = []
    · rw [if_pos hl, if_pos hl, reindented_append _ _ _ (by simp), if_pos rfl]
    · have hf : '\n' ∉ Line.indentation indent.unit (0 + line.depth) ++ line.content := by
        rw [List.mem_append, not_or]
        exact ⟨indentation_feedFree indent _, hc⟩
      rw [if_neg hl, if_neg hl, reindented_append _ _ _ hf, if_neg (by simp [hl]),
        Nat.zero_add, indentation_add]
      simp only [List.append_assoc]

/-- The lines of a declaration with balanced blocks, each with its depth and
content, give its text under every unit of indentation and from every level. If
no type is written on more than one line, setting in the outermost text line by
line gives the text from any level. -/
theorem emit_lines (node : Node) (hn : node.IsDeclaration)
    (hb : ∀ b ∈ node.blocks, b.Balanced) :
    (∀ (indent : Indent) (level : Nat),
      node.textAt indent level = node.lines.flatMap (Line.render indent.unit level)) ∧
    ((∀ r ∈ node.refs, '\n' ∉ r.render.toList) → ∀ (indent : Indent) (level : Nat),
      node.textAt indent level =
        reindented (Line.indentation indent.unit level) (node.textAt indent 0)) := by
  have hlevel := declaration_level vocabulary_true node hn (supplied_true hb)
  refine ⟨fun indent level => textAt_lines hn hlevel indent level, ?_⟩
  intro hr indent level
  have hfree := declaration_level vocabulary_feedFree node hn (supplied_feedFree hb hr)
  have hclean : (node.page 0).Clean :=
    Page.run_clean (hfree 0 0) 0 (by simp [Page.Clean, Page.empty, Line.blank, Line.joined])
  have hlines : ∀ line ∈ node.lines, '\n' ∉ line.content := by
    intro line hl
    have := hclean line (List.mem_cons_of_mem _ (List.mem_reverse.1 hl))
    simpa [Line.content] using this
  rw [textAt_lines hn hlevel, textAt_lines hn hlevel, reindented_lines indent level _ hlines]

theorem emit_lines_flowMethod :
    (Node.method flowMethod).textAt .tab 2 =
      (Node.method flowMethod).lines.flatMap (Line.render ['\t'] 2) ∧
    (Node.method flowMethod).textAt (.spaces 3) 2 =
      reindented (Line.indentation [' ', ' ', ' '] 2)
        ((Node.method flowMethod).textAt (.spaces 3) 0) :=
  have h := emit_lines (.method flowMethod) trivial flowMethod_blocks
  ⟨h.1 .tab 2, h.2 (by decide +kernel) (.spaces 3) 2⟩

end SwiftDecl
