import SwiftDecl.Proofs.Page

/-!
# Pieces

Which pieces operations write, and how the pieces of one line are joined. Both
are told without a writer: an operation writes the same pieces wherever it is
run, and whether two neighbours stand apart is for the two of them to say. A
page keeps to this: its lines hold the pieces that were asked for, in order.
-/

set_option autoImplicit false

namespace SwiftDecl.Layout

def Attaching : List Char → Prop
  | [] => False
  | c :: rest =>
    c ∈ [')', ']', ',', ':', '.', '('] ∨
      c ∈ ['?', '!', '<', '>'] ∧
        ∀ next ∈ rest.head?, Text.isBlank next = false ∧ isOperator next = false

theorem attachesLeft_iff {part : List Char} : attachesLeft part = true ↔ Attaching part := by
  have hjoin : ")],:.(".toList = [')', ']', ',', ':', '.', '('] := rfl
  have hmark : "?!<>".toList = ['?', '!', '<', '>'] := rfl
  cases part with
  | nil => simp [attachesLeft, Attaching]
  | cons c rest =>
    simp only [attachesLeft, Attaching, hjoin, hmark, List.contains_eq_mem]
    by_cases hj : c ∈ [')', ']', ',', ':', '.', '(']
    · simp [hj]
    · by_cases hm : c ∈ ['?', '!', '<', '>']
      · cases rest <;> simp [hj, hm]
      · simp [hj, hm]

instance : DecidablePred Attaching :=
  fun _ => decidable_of_iff _ attachesLeft_iff

theorem decide_attaching (part : List Char) : decide (Attaching part) = attachesLeft part := by
  rw [Bool.eq_iff_iff, decide_eq_true_iff, attachesLeft_iff]

namespace Piece

def ofText (attaches : Bool) : List Char → List Piece
  | [] => []
  | c :: rest => [⟨c, rest, attaches⟩]

def last (piece : Piece) : Char :=
  piece.text.getLast (by simp [text])

/-- A space goes between the neighbours `a` and `b`. -/
def Apart (a b : Piece) : Prop :=
  (Text.isBlank a.last = false ∧ a.last ∉ ['(', '[', '<', '.']) ∧
    (a.last = '=' ∨ b.attaches = false)

instance (a b : Piece) : Decidable (Apart a b) :=
  inferInstanceAs (Decidable ((_ ∧ _) ∧ (_ ∨ _)))

def gap (a b : Piece) : List Char :=
  if Apart a b then [' '] else []

def join : List Piece → List Char
  | [] => []
  | [piece] => piece.text
  | a :: b :: rest => a.text ++ gap a b ++ join (b :: rest)

theorem spacedAfter_iff {c : Char} :
    spacedAfter c = true ↔ Text.isBlank c = false ∧ c ∉ ['(', '[', '<', '.'] := by
  have hopen : "([<.".toList = ['(', '[', '<', '.'] := rfl
  simp only [spacedAfter, hopen, List.contains_eq_mem, Bool.not_eq_true', Bool.or_eq_false_iff,
    decide_eq_false_iff_not]

theorem apart_iff {a b : Piece} :
    Apart a b ↔ spacedAfter a.last = true ∧ (a.last = '=' ∨ b.attaches = false) := by
  rw [Apart, spacedAfter_iff]

theorem needsSpace_iff {a b : Piece} :
    needsSpace (some a.last) b.attaches = true ↔ Apart a b := by
  rw [apart_iff]
  simp only [needsSpace, Bool.and_eq_true, Bool.or_eq_true, Bool.not_eq_true', beq_iff_eq]
  rw [and_comm, or_comm]

theorem join_append (front : List Piece) (a b : Piece) (rest : List Piece) :
    join (front ++ a :: b :: rest) = join (front ++ [a]) ++ gap a b ++ join (b :: rest) := by
  induction front with
  | nil => rfl
  | cons first more ih =>
    cases more with
    | nil => simp [join]
    | cons second more =>
      simp only [List.cons_append, join] at ih ⊢
      rw [ih]
      simp only [List.append_assoc]

end Piece

namespace Line

theorem joined_head (piece : Piece) (before : List Piece) :
    (joined (piece :: before)).head? = some piece.last := by
  have hne : piece.text ≠ [] := by simp [Piece.text]
  rw [joined, List.append_assoc, List.head?_append_of_ne_nil _ (by simpa using hne),
    List.head?_reverse, List.getLast?_eq_some_getLast hne, Piece.last]

theorem joined_reverse (pieces : List Piece) :
    (joined pieces).reverse = Piece.join pieces.reverse := by
  induction pieces with
  | nil => rfl
  | cons piece before ih =>
    cases before with
    | nil => simp [joined, Piece.join, needsSpace]
    | cons previous more =>
      have hgap : (if needsSpace (joined (previous :: more)).head? piece.attaches then [' ']
          else []) = Piece.gap previous piece := by
        rw [joined_head, Piece.gap]
        exact if_congr Piece.needsSpace_iff rfl rfl
      have hsplit : (piece :: previous :: more).reverse =
          more.reverse ++ previous :: piece :: [] := by simp
      rw [joined, hgap, hsplit, Piece.join_append]
      rw [List.reverse_cons] at ih
      simp only [List.reverse_append, List.reverse_reverse, ih, Piece.join]
      unfold Piece.gap
      split <;> simp

/-- The line as it stands in a text that starts at the outermost level. -/
def spelled (unit : List Char) (line : Line) : List Char :=
  if line.pieces = [] then [] else indentation unit line.depth ++ Piece.join line.pieces.reverse

theorem inked_reverse_eq_spelled (unit : List Char) (line : Line) :
    (line.inked unit 0).reverse = line.spelled unit := by
  unfold inked spelled
  cases hp : line.pieces with
  | nil => rfl
  | cons piece before =>
    rw [if_neg (by simp), ← joined_reverse]
    simp

end Line

namespace Op

mutual

/-- The pieces that an operation writes when it is run `nesting` levels down. -/
def pieces (nesting : Nat) : Op → List Piece
  | .literal text =>
    (Text.pieces text.toList).flatMap fun part => Piece.ofText (decide (Attaching part)) part
  | .word text => Piece.ofText false text.toList
  | .openScope => Piece.ofText false ['\x7b']
  | .closeScope => Piece.ofText false ['\x7d']
  | .nested ops => if nesting < maxNesting then piecesOfAll (nesting + 1) ops else []
  | _ => []

def piecesOfAll (nesting : Nat) : List Op → List Piece
  | [] => []
  | op :: rest => op.pieces nesting ++ piecesOfAll nesting rest

end

theorem piecesOfAll_append (nesting : Nat) (a b : List Op) :
    piecesOfAll nesting (a ++ b) = piecesOfAll nesting a ++ piecesOfAll nesting b := by
  induction a with
  | nil => simp [piecesOfAll]
  | cons op rest ih => simp [piecesOfAll, ih]

end Op

namespace Page

def pieces (p : Page) : List Piece :=
  (p.current :: p.lines).flatMap Line.pieces

theorem piece_pieces (p : Page) (cs : List Char) (attaches : Bool) :
    (p.piece cs attaches).pieces = (Piece.ofText attaches cs).reverse ++ p.pieces := by
  cases cs <;> simp [piece, pieces, Piece.ofText]

@[simp] theorem newLine_pieces (p : Page) : p.newLine.pieces = p.pieces := by
  simp [newLine, pieces, Line.blank]

@[simp] theorem endLine_pieces (p : Page) : p.endLine.pieces = p.pieces := by
  unfold endLine
  split <;> simp

@[simp] theorem blankLine_pieces (p : Page) : p.blankLine.pieces = p.pieces := by
  unfold blankLine separate
  split <;> simp

@[simp] theorem leaveScope_pieces (p : Page) : p.leaveScope.pieces = p.pieces := by
  unfold leaveScope
  split
  · rfl
  · rfl
  · exact newLine_pieces p

theorem literalPart_pieces (p : Page) (part : List Char) :
    (p.literalPart part).pieces =
      (Piece.ofText (decide (Attaching part)) part).reverse ++ p.pieces := by
  rw [literalPart, piece_pieces, decide_attaching]

theorem literalParts_pieces (p : Page) (parts : List (List Char)) :
    (p.literalParts parts).pieces =
      (parts.flatMap fun part => Piece.ofText (decide (Attaching part)) part).reverse ++
        p.pieces := by
  induction parts generalizing p with
  | nil => rfl
  | cons part rest ih => simp [literalParts, ih, literalPart_pieces]

theorem step_pieces (n : Nat) (p : Page) {op : Op} (h : ∀ inner, op ≠ .nested inner) :
    (p.step n op).pieces = (op.pieces n).reverse ++ p.pieces := by
  cases op with
  | literal text =>
    rw [step, literal, Op.pieces]
    cases Text.pieces text.toList with
    | nil => rfl
    | cons first rest => simp [literalParts_pieces, literalPart_pieces]
  | word text =>
    rw [step, Op.pieces]
    exact piece_pieces p text.toList false
  | openScope =>
    rw [step, Op.pieces, ← piece_pieces]
    exact newLine_pieces (p.piece ['\x7b'] false)
  | closeScope =>
    have hleft : p.endLine.leaveScope.dedent.pieces = p.pieces := by
      have h := leaveScope_pieces p.endLine
      rwa [endLine_pieces] at h
    rw [step, Op.pieces, closeScope, newLine_pieces, piece_pieces, hleft]
  | nested inner => exact absurd rfl (h inner)
  | newLine | endLine | blankLine => simp [step, Op.pieces]
  | indent | dedent | report => simp [step, Op.pieces, pieces, indent, dedent]

/-- The lines of a page hold what was asked for, in order. -/
theorem run_pieces (ops : List Op) (n : Nat) (p : Page) :
    (p.run n ops).pieces = (Op.piecesOfAll n ops).reverse ++ p.pieces := by
  induction ops using Op.consInduct generalizing n p with
  | nil => simp [run, Op.piecesOfAll]
  | flat op rest ho ih =>
    rw [run, ih, step_pieces n p ho, Op.piecesOfAll]
    simp
  | nested inner rest ihi ih =>
    rw [run, ih, step, Op.piecesOfAll, Op.pieces]
    split
    · rw [ihi]
      simp
    · simp

end Page

end SwiftDecl.Layout
