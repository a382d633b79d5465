import SwiftDecl.Proofs.Joining

/-!
# Code within a line

A block that is written behind other code on a line, such as a default value. It
either ends a line wherever it is written or never does, so a text without line
feeds on an empty page tells that it stays on the line it finds. What it adds
then are its own pieces, and the indentation that it would have at the start of a
line does not show.
-/

set_option autoImplicit false

namespace SwiftDecl
open SwiftDecl.Layout

namespace Layout.Page

theorem step_lines (n : Nat) (p : Page) {op : Op} (ho : ∀ inner, op ≠ .nested inner) :
    p.lines <:+ (p.step n op).lines := by
  cases op with
  | openScope =>
    rw [step]
    exact ((piece_grows p ['\x7b'] false).trans (newLine_grows _)).lines
  | closeScope =>
    have hleft := (endLine_grows p).lines.trans (leaveScope_lines p.endLine)
    rw [step]
    exact hleft.trans ((piece_grows p.endLine.leaveScope.dedent ['\x7d'] false).trans
      (newLine_grows _)).lines
  | blankLine =>
    rw [step]
    exact (blankLine_grows p).lines
  | indent | dedent =>
    rw [step]
    exact List.suffix_refl _
  | nested inner => exact absurd rfl (ho inner)
  | literal | word | newLine | endLine | report => exact (plain_grows n p rfl).lines

theorem run_lines (ops : List Op) (n : Nat) (p : Page) : p.lines <:+ (p.run n ops).lines :=
  run_keeps (P := fun q => p.lines <:+ q.lines)
    (fun n q _ ho h => h.trans (step_lines n q ho)) ops n (List.suffix_refl _)

/-- `p'` has the lines of `p` and is still on the same one. -/
structure Stays (p p' : Page) : Prop where
  lines : p'.lines = p.lines
  scopes : p'.scopes.length = p.scopes.length
  depth : p.current.pieces ≠ [] → p'.current.pieces ≠ [] ∧ p'.current.depth = p.current.depth

theorem Stays.refl (p : Page) : Stays p p :=
  ⟨rfl, rfl, fun h => ⟨h, rfl⟩⟩

theorem Stays.trans {p p' p'' : Page} (h₁ : Stays p p') (h₂ : Stays p' p'') : Stays p p'' where
  lines := h₂.lines.trans h₁.lines
  scopes := h₂.scopes.trans h₁.scopes
  depth := by
    intro h
    obtain ⟨hne, hd⟩ := h₁.depth h
    obtain ⟨hne', hd'⟩ := h₂.depth hne
    exact ⟨hne', hd'.trans hd⟩

theorem Stays.pieces {n : Nat} {ops : List Op} {p : Page} (h : Stays p (p.run n ops)) :
    (p.run n ops).current.pieces = (Op.piecesOfAll n ops).reverse ++ p.current.pieces := by
  have hall := run_pieces ops n p
  rw [Page.pieces, Page.pieces, List.flatMap_cons, List.flatMap_cons, h.lines,
    ← List.append_assoc] at hall
  exact List.append_cancel_right hall

theorem piece_stays (p : Page) (cs : List Char) (attaches : Bool) :
    Stays p (p.piece cs attaches) := by
  cases cs with
  | nil => exact Stays.refl p
  | cons c rest =>
    refine ⟨rfl, Writer.fill_length _, fun h => ?_⟩
    simp [piece, h]

/-- Every page stays on its line, or every page ends one. -/
def Decided (n : Nat) (ops : List Op) : Prop :=
  (∀ p : Page, Stays p (p.run n ops)) ∨ ∀ p : Page, p.lines.length < (p.run n ops).lines.length

theorem Decided.cons {n : Nat} {op : Op} {rest : List Op}
    (ho : (∀ p : Page, Stays p (p.step n op)) ∨
      ∀ p : Page, p.lines.length < (p.step n op).lines.length)
    (hr : Decided n rest) : Decided n (op :: rest) := by
  simp only [Decided, run]
  rcases ho with ho | ho
  · rcases hr with hr | hr
    · exact Or.inl fun p => (ho p).trans (hr _)
    · exact Or.inr fun p => (ho p).lines ▸ hr _
  · exact Or.inr fun p => Nat.lt_of_lt_of_le (ho p) (run_lines rest n _).length_le

theorem newLine_breaks (p : Page) : p.lines.length < p.newLine.lines.length :=
  Nat.lt_succ_self _

theorem literal_decided (cs : List Char) : (∀ p : Page, Stays p (p.literal cs)) ∨
    ∀ p : Page, p.lines.length < (p.literal cs).lines.length := by
  unfold literal
  cases Text.pieces cs with
  | nil => exact Or.inl Stays.refl
  | cons first rest =>
    cases rest with
    | nil => exact Or.inl fun p => piece_stays p first _
    | cons second more =>
      refine Or.inr fun p => ?_
      have hfirst := (piece_stays p first (attachesLeft first)).lines
      have hrest := (literalParts_grows ((p.literalPart first).newLine.literalPart second) more)
      have hsecond := piece_grows (p.literalPart first).newLine second (attachesLeft second)
      rw [← hfirst]
      exact Nat.lt_of_lt_of_le (newLine_breaks _) (hsecond.trans hrest).lines.length_le

end Layout.Page

open Layout.Page in
theorem Block.decided (b : Block) (n : Nat) : Page.Decided n b.ops := by
  -- The outer induction is on the blocks inside, the inner one along the tokens.
  induction b using Block.induct generalizing n with
  | step b ih =>
    induction b with
    | nil =>
      refine Or.inl fun p => ?_
      rw [Block.ops_nil, Page.run]
      exact Stays.refl p
    | cons token rest ihr =>
      have hrest := ihr fun inner hm => ih inner (List.mem_cons_of_mem _ hm)
      rw [Block.ops_cons]
      refine Decided.cons ?_ hrest
      cases token with
      | literal text =>
        rw [Token.op]
        simp only [step]
        exact literal_decided text.toList
      | type ref =>
        rw [Token.op]
        simp only [step]
        exact Or.inl fun p => piece_stays p _ _
      | code inner =>
        rw [Token.op]
        simp only [step]
        split
        · exact ih inner (by simp) (n + 1)
        · exact Or.inl Stays.refl
      | newLine =>
        rw [Token.op]
        simp only [step]
        exact Or.inr newLine_breaks
      | openScope =>
        rw [Token.op]
        simp only [step]
        refine Or.inr fun p => ?_
        have hp := (piece_stays p ['\x7b'] false).lines
        rw [← hp]
        exact newLine_breaks _
      | closeScope =>
        rw [Token.op]
        simp only [step]
        refine Or.inr fun p => ?_
        have hleft := (endLine_grows p).lines.trans (leaveScope_lines p.endLine)
        have hp := piece_grows p.endLine.leaveScope.dedent ['\x7d'] false
        exact Nat.lt_of_le_of_lt (hleft.trans hp.lines).length_le (newLine_breaks _)
      | indent | dedent =>
        rw [Token.op]
        simp only [step]
        exact Or.inl fun p => ⟨rfl, rfl, fun h => ⟨h, rfl⟩⟩

namespace Block

/-- The text of the block on its own. -/
def textAlone (indent : Indent) (b : Block) : List Char :=
  (Node.block b).textAt indent 0

def inlineText (b : Block) : List Char :=
  b.textAlone (.spaces 0)

theorem alone_shows (indent : Indent) (b : Block) :
    Shows indent.unit 0 [] [] ((Writer.new indent).emit (.block b)) ((Node.block b).page 0) :=
  Shows.run b.ops (Shows.empty (w := Writer.new indent) rfl)

theorem textAlone_eq (indent : Indent) (b : Block) :
    b.textAlone indent = (((Node.block b).page 0).inked indent.unit 0).reverse := by
  have hwritten := (b.alone_shows indent).written
  rw [List.append_nil] at hwritten
  rw [textAlone, Node.textAt, Writer.text_toList]
  exact congrArg List.reverse hwritten

theorem stays_of_feedFree {indent : Indent} {b : Block} (h : '\n' ∉ b.textAlone indent) :
    ∀ p : Page, Page.Stays p (p.run 0 b.ops) := by
  refine (b.decided 0).resolve_right fun hbreaks => ?_
  have hlong := hbreaks Page.empty
  cases hl : (Page.empty.run 0 b.ops).lines with
  | nil => simp [hl] at hlong
  | cons line rest =>
    apply h
    rw [textAlone_eq, Node.page, Node.ops, Page.inked, hl]
    simp

theorem alone_spelled {indent : Indent} {b : Block} (h : '\n' ∉ b.textAlone indent)
    (other : Indent) :
    b.textAlone other = ((Node.block b).page 0).current.spelled other.unit := by
  have hlines := (stays_of_feedFree h Page.empty).lines
  have hpage : ((Node.block b).page 0).lines = [] := hlines
  rw [textAlone_eq, Page.inked, hpage, ← Line.inked_reverse_eq_spelled]
  simp

theorem alone_pieces {indent : Indent} {b : Block} (h : '\n' ∉ b.textAlone indent) :
    ((Node.block b).page 0).current.pieces.reverse = Op.piecesOfAll 0 b.ops := by
  have hpieces := (stays_of_feedFree h Page.empty).pieces
  rw [Node.page, Node.ops, hpieces]
  simp [Page.empty, Line.blank]

theorem pieces_ne_nil {indent : Indent} {b : Block} (h : '\n' ∉ b.textAlone indent)
    (hne : b.textAlone indent ≠ []) : Op.piecesOfAll 0 b.ops ≠ [] := by
  intro hnone
  rw [← alone_pieces h, List.reverse_eq_nil_iff] at hnone
  exact hne (by rw [alone_spelled h, Line.spelled, if_pos hnone])

theorem textAlone_join {indent : Indent} {b : Block} (h : '\n' ∉ b.textAlone indent)
    (hne : b.textAlone indent ≠ []) (other : Indent) :
    b.textAlone other = Line.indentation other.unit ((Node.block b).page 0).current.depth ++
      Piece.join (Op.piecesOfAll 0 b.ops) := by
  have hpieces := alone_pieces h
  have hsome : ((Node.block b).page 0).current.pieces ≠ [] := by
    intro hnone
    exact pieces_ne_nil h hne (by rw [← hpieces, hnone, List.reverse_nil])
  rw [alone_spelled h, Line.spelled, if_neg hsome, hpieces]

theorem inlineText_eq {indent : Indent} {b : Block} (h : '\n' ∉ b.textAlone indent)
    (hne : b.textAlone indent ≠ []) : b.inlineText = Piece.join (Op.piecesOfAll 0 b.ops) := by
  have hunit : (Indent.spaces 0).unit = [] := rfl
  rw [inlineText, textAlone_join h hne, hunit]
  simp [Line.indentation]

theorem textAlone_inline {indent : Indent} {b : Block} (h : '\n' ∉ b.textAlone indent)
    (hne : b.textAlone indent ≠ []) :
    ∃ depth, b.textAlone indent = Line.indentation indent.unit depth ++ b.inlineText :=
  ⟨_, by rw [inlineText_eq h hne]; exact textAlone_join h hne indent⟩

end Block

end SwiftDecl
