import SwiftDecl.Proofs.Scoped

/-!
# Pages

A page runs the same operations as a writer but keeps lines in place of text:
each line with its depth and its pieces, not indented yet. It knows nothing of
the unit of indentation, of the level it will be laid out at, or of what stands
before it. A writer shows a page when its text is what the page looks like under
the writer's unit and level; scoped operations keep this relation.
-/

set_option autoImplicit false

namespace SwiftDecl.Layout

structure Piece where
  first : Char
  rest : List Char
  attaches : Bool

def Piece.text (piece : Piece) : List Char :=
  piece.first :: piece.rest

structure Line where
  depth : Nat
  pieces : List Piece

namespace Line

def blank : Line :=
  ⟨0, []⟩

/-- The pieces with the spaces between them, backwards. -/
def joined : List Piece → List Char
  | [] => []
  | piece :: before =>
    piece.text.reverse ++
      (if needsSpace (joined before).head? piece.attaches then [' '] else []) ++ joined before

def content (line : Line) : List Char :=
  (joined line.pieces).reverse

def indentation (unit : List Char) (level : Nat) : List Char :=
  (List.replicate level unit).flatten

/-- The line without its end, backwards, where depths count from `level`. -/
def inked (unit : List Char) (level : Nat) (line : Line) : List Char :=
  match line.pieces with
  | [] => []
  | _ :: _ => joined line.pieces ++ (indentation unit (level + line.depth)).reverse

def render (unit : List Char) (level : Nat) (line : Line) : List Char :=
  (if line.content = [] then [] else indentation unit (level + line.depth) ++ line.content) ++
    ['\n']

theorem joined_ne_nil {pieces : List Piece} (h : pieces ≠ []) : joined pieces ≠ [] := by
  cases pieces with
  | nil => exact absurd rfl h
  | cons piece before => simp [joined, Piece.text]

theorem content_eq_nil_iff {line : Line} : line.content = [] ↔ line.pieces = [] := by
  constructor
  · intro h
    by_contra hp
    exact joined_ne_nil hp (List.reverse_eq_nil_iff.1 h)
  · intro h
    simp [content, h, joined]

theorem render_eq_inked (unit : List Char) (level : Nat) (line : Line) :
    line.render unit level = (line.inked unit level).reverse ++ ['\n'] := by
  unfold render inked
  cases hp : line.pieces with
  | nil => simp [content_eq_nil_iff.2 hp]
  | cons piece before =>
    have hc : line.content ≠ [] := fun h => by simp [content_eq_nil_iff.1 h] at hp
    rw [if_neg hc, List.reverse_append, List.reverse_reverse, content, hp]

end Line

structure Page where
  lines : List Line
  current : Line
  level : Nat
  scopes : List Bool
  /-- Whether a piece was written outside of the page's own scopes. -/
  touched : Bool

namespace Page

def empty : Page where
  lines := []
  current := .blank
  level := 0
  scopes := []
  touched := false

def piece (p : Page) (cs : List Char) (attaches : Bool) : Page :=
  match cs with
  | [] => p
  | c :: rest =>
    { p with
      current :=
        ⟨if p.current.pieces.isEmpty then p.level else p.current.depth,
          ⟨c, rest, attaches⟩ :: p.current.pieces⟩
      scopes := Writer.fill p.scopes
      touched := p.touched || p.scopes.isEmpty }

def newLine (p : Page) : Page :=
  { p with lines := p.current :: p.lines, current := .blank }

def endLine (p : Page) : Page :=
  if p.current.pieces.isEmpty then p else p.newLine

def isSeparated (p : Page) : Bool :=
  match p.lines with
  | [] => true
  | line :: rest =>
    match Line.joined line.pieces with
    | [] => !rest.isEmpty
    | c :: _ => c == '\n'

def separate (p : Page) : Page :=
  if p.isSeparated then p else p.newLine

def blankLine (p : Page) : Page :=
  p.endLine.separate

def indent (p : Page) : Page :=
  { p with level := p.level + 1 }

def dedent (p : Page) : Page :=
  { p with level := p.level - 1 }

def literalPart (p : Page) (part : List Char) : Page :=
  p.piece part (attachesLeft part)

def literalParts (p : Page) : List (List Char) → Page
  | [] => p
  | part :: rest => literalParts (p.newLine.literalPart part) rest

def literal (p : Page) (cs : List Char) : Page :=
  match Text.pieces cs with
  | [] => p
  | first :: rest => (p.literalPart first).literalParts rest

def openScope (p : Page) : Page :=
  let p := (p.piece ['\x7b'] false).newLine
  { p with scopes := false :: p.scopes }.indent

def leaveScope (p : Page) : Page :=
  match p.scopes with
  | [] => p
  | true :: outer => { p with scopes := outer }
  | false :: outer => { p.newLine with scopes := outer }

def closeScope (p : Page) : Page :=
  (p.endLine.leaveScope.dedent.piece ['\x7d'] false).newLine

mutual

def step (nesting : Nat) (p : Page) : Op → Page
  | .literal text => p.literal text.toList
  | .word text => p.piece text.toList false
  | .openScope => p.openScope
  | .closeScope => p.closeScope
  | .newLine => p.newLine
  | .endLine => p.endLine
  | .blankLine => p.blankLine
  | .indent => p.indent
  | .dedent => p.dedent
  | .nested ops => if nesting < maxNesting then run (nesting + 1) p ops else p
  | .report _ => p

def run (nesting : Nat) (p : Page) : List Op → Page
  | [] => p
  | op :: ops => run nesting (step nesting p op) ops

end

theorem run_keeps {P : Page → Prop}
    (h : ∀ (n : Nat) (p : Page) (op : Op), (∀ inner, op ≠ .nested inner) → P p → P (p.step n op))
    (ops : List Op) (n : Nat) {p : Page} (hp : P p) : P (p.run n ops) := by
  induction ops using Op.consInduct generalizing n p with
  | nil =>
    rw [run]
    exact hp
  | flat op rest ho ih =>
    rw [run]
    exact ih n (h n p op ho hp)
  | nested inner rest ihi ih =>
    rw [run, step]
    split
    · exact ih n (ihi (n + 1) hp)
    · exact ih n hp

def inked (unit : List Char) (level : Nat) (p : Page) : List Char :=
  p.current.inked unit level ++ p.lines.flatMap fun line => '\n' :: line.inked unit level

end Page

namespace Page

theorem endLine_current (p : Page) : p.endLine.current.pieces = [] := by
  unfold endLine
  split
  · rename_i h
    exact List.isEmpty_iff.1 h
  · rfl

structure Grows (p p' : Page) : Prop where
  lines : p.lines <:+ p'.lines
  level : p'.level = p.level
  scopes : p'.scopes.length = p.scopes.length
  touched : p.touched = true → p'.touched = true

theorem Grows.refl (p : Page) : Grows p p :=
  ⟨List.suffix_refl _, rfl, rfl, id⟩

theorem Grows.trans {p p' p'' : Page} (h₁ : Grows p p') (h₂ : Grows p' p'') : Grows p p'' :=
  ⟨h₁.lines.trans h₂.lines, h₂.level.trans h₁.level, h₂.scopes.trans h₁.scopes,
    fun h => h₂.touched (h₁.touched h)⟩

theorem piece_grows (p : Page) (cs : List Char) (attaches : Bool) :
    Grows p (p.piece cs attaches) := by
  cases cs with
  | nil => exact Grows.refl p
  | cons c rest =>
    exact ⟨List.suffix_refl _, rfl, Writer.fill_length _, fun h => by simp [piece, h]⟩

theorem newLine_grows (p : Page) : Grows p p.newLine :=
  ⟨List.suffix_cons _ _, rfl, rfl, id⟩

theorem endLine_grows (p : Page) : Grows p p.endLine := by
  unfold endLine
  split
  · exact Grows.refl p
  · exact newLine_grows p

theorem blankLine_grows (p : Page) : Grows p p.blankLine := by
  unfold blankLine separate
  split
  · exact endLine_grows p
  · exact (endLine_grows p).trans (newLine_grows _)

theorem literalParts_grows (p : Page) (parts : List (List Char)) :
    Grows p (p.literalParts parts) := by
  induction parts generalizing p with
  | nil => exact Grows.refl p
  | cons part rest ih =>
    exact ((newLine_grows p).trans (piece_grows _ part (attachesLeft part))).trans (ih _)

theorem plain_grows (n : Nat) (p : Page) {op : Op} (h : op.isPlain = true) :
    Grows p (p.step n op) := by
  cases op with
  | literal text =>
    rw [step, literal]
    cases Text.pieces text.toList with
    | nil => exact Grows.refl p
    | cons first rest =>
      exact (piece_grows p first (attachesLeft first)).trans (literalParts_grows _ rest)
  | word text =>
    rw [step]
    exact piece_grows p _ _
  | newLine =>
    rw [step]
    exact newLine_grows p
  | endLine =>
    rw [step]
    exact endLine_grows p
  | report event =>
    rw [step]
    exact Grows.refl p
  | openScope | closeScope | blankLine | indent | dedent | nested => simp [Op.isPlain] at h

theorem leaveScope_level (p : Page) : p.leaveScope.level = p.level := by
  unfold leaveScope
  split <;> rfl

theorem leaveScope_scopes (p : Page) : p.leaveScope.scopes.length = p.scopes.length - 1 := by
  unfold leaveScope
  split <;> simp [*]

theorem leaveScope_lines (p : Page) : p.lines <:+ p.leaveScope.lines := by
  unfold leaveScope
  split
  · exact List.suffix_refl _
  · exact List.suffix_refl _
  · exact List.suffix_cons _ _

/-- How far in a page stands, counted from where it started. A page inside a
scope of its own has the line with the opening brace. -/
structure Within (s i : Nat) (p : Page) : Prop where
  scopes : p.scopes.length = s
  level : p.level = s + i
  opened : 0 < s → ∃ line ∈ p.lines, line.pieces ≠ []

theorem Within.empty : Within 0 0 Page.empty :=
  ⟨rfl, rfl, fun h => absurd h (Nat.lt_irrefl 0)⟩

theorem Within.grow {s i : Nat} {p p' : Page} (h : Within s i p) (hg : Grows p p') :
    Within s i p' :=
  ⟨hg.scopes.trans h.scopes, hg.level.trans h.level, fun hs =>
    let ⟨line, hm, hl⟩ := h.opened hs
    ⟨line, hg.lines.subset hm, hl⟩⟩

theorem Within.openScope {s i : Nat} {p : Page} (h : Within s i p) :
    Within (s + 1) i p.openScope := by
  have hg := (piece_grows p ['\x7b'] false).trans (newLine_grows _)
  refine ⟨?_, ?_, fun _ => ⟨(p.piece ['\x7b'] false).current, List.mem_cons_self, by
    simp [piece]⟩⟩
  · have h₁ : p.openScope.scopes = false :: (p.piece ['\x7b'] false).newLine.scopes := rfl
    rw [h₁, List.length_cons, hg.scopes, h.scopes]
  · have h₁ : p.openScope.level = (p.piece ['\x7b'] false).newLine.level + 1 := rfl
    rw [h₁, hg.level, h.level]
    omega

theorem Within.closeScope {s i : Nat} {p : Page} (h : Within (s + 1) i p) :
    Within s i p.closeScope := by
  have hg := (piece_grows p.endLine.leaveScope.dedent ['\x7d'] false).trans (newLine_grows _)
  have he := endLine_grows p
  refine ⟨?_, ?_, ?_⟩
  · have h₁ : p.closeScope.scopes.length = p.endLine.leaveScope.scopes.length := hg.scopes
    rw [h₁, leaveScope_scopes, he.scopes, h.scopes]
    rfl
  · have h₁ : p.closeScope.level = p.endLine.leaveScope.level - 1 := hg.level
    rw [h₁, leaveScope_level, he.level, h.level]
    omega
  · intro _
    obtain ⟨line, hm, hl⟩ := h.opened (Nat.succ_pos s)
    have hm₁ := (leaveScope_lines p.endLine).subset (he.lines.subset hm)
    exact ⟨line, hg.lines.subset hm₁, hl⟩

end Page

/-- `w` shows `p`, laid out from level `base` with the unit `u` after the text
`before`, inside the scopes `outer`. -/
structure Shows (u : List Char) (base : Nat) (before : List Char) (outer : List Bool)
    (w : Writer) (p : Page) : Prop where
  unit : w.unit = u
  level : w.level = base + p.level
  written : w.written = p.inked u base ++ before
  lineStart : w.atLineStart = p.current.pieces.isEmpty
  scopes : w.scopes = p.scopes ++ if p.touched then Writer.fill outer else outer

namespace Shows

variable {u before : List Char} {base : Nat} {outer : List Bool} {w : Writer} {p : Page}

theorem empty (h : w.atLineStart = true) :
    Shows w.unit w.level w.written w.scopes w Page.empty :=
  ⟨rfl, rfl, rfl, h, rfl⟩

theorem margin_eq (h : Shows u base before outer w p) :
    w.margin = Line.indentation u (base + p.level) := by
  rw [Writer.margin, h.unit, h.level]
  rfl

theorem fill_scopes (h : Shows u base before outer w p) :
    Writer.fill w.scopes = Writer.fill p.scopes ++
      if p.touched || p.scopes.isEmpty then Writer.fill outer else outer := by
  rw [h.scopes]
  cases hs : p.scopes with
  | cons s rest => simp [Writer.fill]
  | nil => cases p.touched <;> cases outer <;> simp [Writer.fill]

theorem head_eq (h : Shows u base before outer w p) (hp : p.current.pieces ≠ []) :
    w.written.head? = (Line.joined p.current.pieces).head? := by
  obtain ⟨c, cs, hc⟩ := List.exists_cons_of_ne_nil (Line.joined_ne_nil hp)
  obtain ⟨piece, more, hm⟩ := List.exists_cons_of_ne_nil hp
  rw [hm] at hc
  rw [h.written, Page.inked, Line.inked, hm]
  simp [hc]

theorem piece (h : Shows u base before outer w p) (cs : List Char) (attaches : Bool) :
    Shows u base before outer (w.piece cs attaches) (p.piece cs attaches) := by
  cases cs with
  | nil => exact h
  | cons c rest =>
    have hw : (w.piece (c :: rest) attaches).written =
        (c :: rest).reverse ++ ((w.lead attaches).reverse ++ w.written) := by
      simp [Writer.piece, Writer.put]
    refine ⟨h.unit, h.level, ?_, rfl, h.fill_scopes⟩
    rw [hw]
    unfold Writer.lead
    rw [h.lineStart, h.margin_eq]
    cases hp : p.current.pieces with
    | nil =>
      rw [h.written]
      simp [Page.piece, Page.inked, Line.inked, hp, Line.joined, Piece.text, needsSpace]
    | cons piece more =>
      -- A space depends on the last character of the line. That is no part of the
      -- indentation, for the line has a piece.
      rw [h.head_eq (by simp [hp]), h.written, hp]
      by_cases hn : needsSpace (Line.joined (piece :: more)).head? attaches = true <;>
        simp [Page.piece, Page.inked, Line.inked, hp, Line.joined, Piece.text] at hn ⊢ <;>
        simp [hn]

theorem newLine (h : Shows u base before outer w p) :
    Shows u base before outer w.newLine p.newLine := by
  refine ⟨h.unit, h.level, ?_, rfl, h.scopes⟩
  have hw : w.newLine.written = '\n' :: w.written := rfl
  rw [hw, h.written]
  simp [Page.newLine, Page.inked, Line.inked, Line.blank]

theorem endLine (h : Shows u base before outer w p) :
    Shows u base before outer w.endLine p.endLine := by
  unfold Writer.endLine Page.endLine
  rw [h.lineStart]
  split
  · exact h
  · exact h.newLine

theorem literalParts (h : Shows u base before outer w p) (parts : List (List Char)) :
    Shows u base before outer (w.literalParts parts) (p.literalParts parts) := by
  induction parts generalizing w p with
  | nil => exact h
  | cons part rest ih => exact ih (h.newLine.piece part (attachesLeft part))

theorem literal (h : Shows u base before outer w p) (cs : List Char) :
    Shows u base before outer (w.literal cs) (p.literal cs) := by
  unfold Writer.literal Page.literal
  cases Text.pieces cs with
  | nil => exact h
  | cons first rest => exact (h.piece first (attachesLeft first)).literalParts rest

theorem indent (h : Shows u base before outer w p) :
    Shows u base before outer w.indent p.indent :=
  ⟨h.unit, by simp [Writer.indent, Page.indent, h.level, Nat.add_assoc], h.written, h.lineStart,
    h.scopes⟩

theorem dedent (h : Shows u base before outer w p) (hl : base = 0 ∨ 0 < p.level) :
    Shows u base before outer w.dedent p.dedent := by
  refine ⟨h.unit, ?_, h.written, h.lineStart, h.scopes⟩
  have h₁ : w.dedent.level = w.level - 1 := rfl
  have h₂ : p.dedent.level = p.level - 1 := rfl
  rw [h₁, h₂, h.level]
  omega

theorem openScope (h : Shows u base before outer w p) :
    Shows u base before outer w.openScope p.openScope := by
  have h' := (h.piece ['\x7b'] false).newLine
  refine ⟨h'.unit, ?_, h'.written, h'.lineStart, ?_⟩
  · have h₁ : w.openScope.level = (w.piece ['\x7b'] false).newLine.level + 1 := rfl
    have h₂ : p.openScope.level = (p.piece ['\x7b'] false).newLine.level + 1 := rfl
    rw [h₁, h₂, h'.level]
    omega
  · have h₁ : w.openScope.scopes = false :: (w.piece ['\x7b'] false).newLine.scopes := rfl
    rw [h₁, h'.scopes]
    rfl

theorem leaveScope (h : Shows u base before outer w p) (hp : p.current.pieces = [])
    (hs : outer = [] ∨ p.scopes ≠ []) :
    Shows u base before outer w.leaveScope p.leaveScope := by
  have hws := h.scopes
  have hstart := h.lineStart
  rw [hp] at hstart
  unfold Writer.leaveScope Page.leaveScope
  cases hc : p.scopes with
  | nil =>
    have ho : outer = [] := hs.resolve_right fun hne => hne hc
    rw [hc, ho] at hws
    simp only [Writer.fill, ite_self, List.append_nil] at hws
    rw [hws]
    exact h
  | cons filled rest =>
    rw [hc] at hws
    cases filled with
    | true =>
      rw [hws]
      exact ⟨h.unit, h.level, h.written, h.lineStart, rfl⟩
    | false =>
      rw [hws]
      exact ⟨h.unit, h.level, h.newLine.written, hstart, rfl⟩

theorem closeScope (h : Shows u base before outer w p) (hs : outer = [] ∨ p.scopes ≠ [])
    (hl : base = 0 ∨ 0 < p.level) : Shows u base before outer w.closeScope p.closeScope := by
  have hg := Page.endLine_grows p
  have hs' : outer = [] ∨ p.endLine.scopes ≠ [] := by
    refine hs.imp_right fun hne he => ?_
    have hlen := hg.scopes
    rw [he] at hlen
    exact hne (List.length_eq_zero_iff.1 hlen.symm)
  have h₁ := h.endLine.leaveScope (Page.endLine_current p) hs'
  have h₂ := h₁.dedent (by rwa [Page.leaveScope_level, hg.level])
  exact (h₂.piece ['\x7d'] false).newLine

theorem isSeparated_eq (h : Shows u base before outer w p) (hp : p.current.pieces = [])
    (hi : before = [] ∨ ∃ line ∈ p.lines, line.pieces ≠ []) :
    w.isSeparated = p.isSeparated := by
  have hw := h.written
  rw [Page.inked, Line.inked, hp, List.nil_append] at hw
  unfold Writer.isSeparated Page.isSeparated
  rw [hw]
  -- The answer depends on the last two characters. Once the page has a line with
  -- pieces, both are its own; otherwise nothing stands before the page.
  cases hl : p.lines with
  | nil =>
    rw [hl] at hi
    have hb : before = [] := by simpa using hi
    rw [hb]
    rfl
  | cons line rest =>
    rw [List.flatMap_cons]
    cases hlp : line.pieces with
    | nil =>
      cases rest with
      | nil =>
        have hb : before = [] := by simpa [hl, hlp] using hi
        simp [Line.inked, hlp, Line.joined, hb]
      | cons next more => simp [Line.inked, hlp, Line.joined]
    | cons piece more =>
      obtain ⟨c, cs, hc⟩ := List.exists_cons_of_ne_nil
        (Line.joined_ne_nil (show piece :: more ≠ [] by simp))
      simp only [Line.inked, hlp, hc, List.cons_append]
      by_cases hn : c = '\n'
      · simp [hn]
      · simp [hn]

theorem blankLine (h : Shows u base before outer w p)
    (hi : before = [] ∨ ∃ line ∈ p.lines, line.pieces ≠ []) :
    Shows u base before outer w.blankLine p.blankLine := by
  have h₁ := h.endLine
  have hc := Page.endLine_current p
  have hi' : before = [] ∨ ∃ line ∈ p.endLine.lines, line.pieces ≠ [] :=
    hi.imp_right fun ⟨line, hm, hl⟩ => ⟨line, (Page.endLine_grows p).lines.subset hm, hl⟩
  unfold Writer.blankLine Page.blankLine Writer.separate Page.separate
  rw [h₁.isSeparated_eq hc hi']
  split
  · exact h₁
  · refine ⟨h₁.unit, h₁.level, h₁.newLine.written, ?_, h₁.scopes⟩
    have hs := h₁.lineStart
    rw [hc] at hs
    exact hs

end Shows

theorem Scoped.run_shows {ok : Op → Prop} {s i s' i' : Nat} {ops : List Op}
    (h : Scoped ok s i ops s' i') {u before : List Char} {base : Nat} {outer : List Bool}
    {w : Writer} {p : Page} (hp : p.Within s i) (hw : Shows u base before outer w p) :
    (p.run w.nesting ops).Within s' i' ∧
      Shows u base before outer (w.run ops) (p.run w.nesting ops) := by
  -- How far in the page stands is what tells that a scope or a level is left to close.
  induction h generalizing w p with
  | nil =>
    rw [Writer.run, Page.run]
    exact ⟨hp, hw⟩
  | @plain s i s' i' op rest hpl _ _ ih =>
    rw [Writer.run, Page.run, ← Writer.step_nesting op w]
    refine ih (hp.grow (Page.plain_grows _ p hpl)) ?_
    cases op with
    | literal text =>
      rw [Writer.step, Page.step]
      exact hw.literal text.toList
    | word text =>
      rw [Writer.step, Page.step]
      exact hw.piece text.toList false
    | newLine =>
      rw [Writer.step, Page.step]
      exact hw.newLine
    | endLine =>
      rw [Writer.step, Page.step]
      exact hw.endLine
    | report event =>
      rw [Writer.step, Page.step]
      exact ⟨hw.unit, hw.level, hw.written, hw.lineStart, hw.scopes⟩
    | openScope | closeScope | blankLine | indent | dedent | nested => simp [Op.isPlain] at hpl
  | blankLine _ ih =>
    rw [Writer.run, Page.run, ← Writer.step_nesting .blankLine w, Writer.step, Page.step]
    exact ih (hp.grow (Page.blankLine_grows p))
      (hw.blankLine (Or.inr (hp.opened (Nat.succ_pos _))))
  | openScope _ ih =>
    rw [Writer.run, Page.run, ← Writer.step_nesting .openScope w, Writer.step, Page.step]
    exact ih hp.openScope hw.openScope
  | closeScope _ ih =>
    rw [Writer.run, Page.run, ← Writer.step_nesting .closeScope w, Writer.step, Page.step]
    have hs : p.scopes ≠ [] := fun he => by simpa [he] using hp.scopes
    have hl : 0 < p.level := by
      rw [hp.level]
      omega
    exact ih hp.closeScope (hw.closeScope (Or.inr hs) (Or.inr hl))
  | @indent s i _ _ _ _ ih =>
    rw [Writer.run, Page.run, ← Writer.step_nesting .indent w, Writer.step, Page.step]
    have hp' : p.indent.Within s (i + 1) :=
      ⟨hp.scopes, by show p.level + 1 = s + (i + 1); rw [hp.level]; omega, hp.opened⟩
    exact ih hp' hw.indent
  | @dedent s i _ _ _ _ ih =>
    rw [Writer.run, Page.run, ← Writer.step_nesting .dedent w, Writer.step, Page.step]
    have hl : 0 < p.level := by
      rw [hp.level]
      omega
    have hp' : p.dedent.Within s i :=
      ⟨hp.scopes, by show p.level - 1 = s + i; rw [hp.level]; omega, hp.opened⟩
    exact ih hp' (hw.dedent (Or.inr hl))
  | @nested s i _ _ inner _ _ _ ihi ih =>
    rw [Writer.run, Page.run, ← Writer.step_nesting (.nested inner) w]
    have hstep : (p.step (w.step (.nested inner)).nesting (.nested inner)).Within s i ∧
        Shows u base before outer (w.step (.nested inner))
          (p.step (w.step (.nested inner)).nesting (.nested inner)) := by
      rw [Writer.step_nesting, Writer.step, Page.step]
      split
      · obtain ⟨hp₁, hw₁⟩ := ihi (w := w.enter) hp
          ⟨hw.unit, hw.level, hw.written, hw.lineStart, hw.scopes⟩
        exact ⟨hp₁, hw₁.unit, hw₁.level, hw₁.written, hw₁.lineStart, hw₁.scopes⟩
      · exact ⟨hp, hw.unit, hw.level, hw.written, hw.lineStart, hw.scopes⟩
    exact ih hstep.1 hstep.2

end SwiftDecl.Layout
