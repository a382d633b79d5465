import SwiftDecl.Proofs.Clauses
import SwiftDecl.Proofs.Composition
import SwiftDecl.Proofs.Inline

/-!
# Within a line

The parts of a declaration that share its first line. What a part adds depends on
the last character before it and on nothing else, so parts compose by the
character that each of them ends in. A line starts with words; behind them come
punctuation, types and code.
-/

set_option autoImplicit false

namespace SwiftDecl
open SwiftDecl.Layout

theorem Layout.Writer.run_level_eq (ops : List Op) {w v : Writer} (hl : w.level = v.level)
    (hn : w.nesting = v.nesting) : (w.run ops).level = (v.run ops).level := by
  induction ops using Op.consInduct generalizing w v with
  | nil => simpa only [run] using hl
  | flat op rest ho ih =>
    rw [run, run]
    refine ih ?_ (by rw [step_nesting, step_nesting, hn])
    have hw := Ignores.nothing w
    have hv := Ignores.nothing v
    cases op with
    | openScope =>
      rw [step, step, (openScope_writes hw).level_eq, (openScope_writes hv).level_eq, hl]
    | closeScope =>
      rw [step, step, (closeScope_writes hw).level_eq, (closeScope_writes hv).level_eq, hl]
    | blankLine =>
      rw [step, step, Writes.level_eq (blankLine_adds hw), Writes.level_eq (blankLine_adds hv), hl]
    | indent =>
      rw [step, step]
      exact congrArg (· + 1) hl
    | dedent =>
      rw [step, step]
      exact congrArg (· - 1) hl
    | nested inner => exact absurd rfl (ho inner)
    | literal | word | newLine | endLine | report =>
      rw [Writes.level_eq (plain_adds hw rfl), Writes.level_eq (plain_adds hv rfl), hl]
  | nested inner rest ihi ih =>
    rw [run, run]
    refine ih ?_ (by rw [step_nesting, step_nesting, hn])
    rw [step, step, hn]
    split
    · exact ihi (w := w.enter) (v := v.enter) hl (congrArg (· + 1) hn)
    · exact hl

/-- A writer in the middle of a line and outside of all scopes. -/
structure Amid (unit : List Char) (level : Nat) (text : List Char) (w : Writer) : Prop where
  unit : w.unit = unit
  level : w.level = level
  inLine : w.atLineStart = false
  scopes : w.scopes = []
  nesting : w.nesting = 0
  written : w.written = text.reverse

def Continues (ops : List Op) (c : Char) (added : List Char) (level level' : Nat) : Prop :=
  ∀ (unit text : List Char) (w : Writer), text.getLast? = some c → Amid unit level text w →
    Amid unit level' (text ++ added) (w.run ops)

def endOf (c : Char) (added : List Char) : Char :=
  added.getLast?.getD c

theorem getLast?_added {c : Char} {text : List Char} (h : text.getLast? = some c)
    (added : List Char) : (text ++ added).getLast? = some (endOf c added) := by
  rw [List.getLast?_append, h, endOf]
  cases added.getLast? <;> rfl

theorem endOf_append (c : Char) (a b : List Char) : endOf c (a ++ b) = endOf (endOf c a) b := by
  unfold endOf
  rw [List.getLast?_append]
  cases b.getLast? <;> rfl

theorem endOf_of_getLast? {c d : Char} {added : List Char} (h : added.getLast? = some d)
    (front : List Char) : endOf c (front ++ added) = d := by
  rw [endOf_append, endOf, h, Option.getD_some]

variable {c : Char} {a b : List Op} {x y : List Char} {level level' level'' : Nat}

theorem Continues.nil : Continues [] c [] level level := by
  intro unit text w _ h
  rw [Writer.run, List.append_nil]
  exact h

theorem Continues.append (ha : Continues a c x level level')
    (hb : Continues b (endOf c x) y level' level'') :
    Continues (a ++ b) c (x ++ y) level level'' := by
  intro unit text w hc h
  rw [Writer.run_append, ← List.append_assoc]
  exact hb unit _ _ (getLast?_added hc x) (ha unit text w hc h)

theorem Continues.cons {op : Op} (ho : Continues [op] c x level level')
    (hb : Continues b (endOf c x) y level' level'') :
    Continues (op :: b) c (x ++ y) level level'' :=
  ho.append hb

section Amid

variable {unit text : List Char} {w : Writer}

theorem Amid.piece (h : Amid unit level text w) (hc : text.getLast? = some c) (cs : List Char)
    (hne : cs ≠ []) (attaches : Bool) :
    Amid unit level (text ++ ((if needsSpace (some c) attaches then [' '] else []) ++ cs))
      (w.piece cs attaches) := by
  have hlead : w.lead attaches = if needsSpace (some c) attaches then [' '] else [] := by
    rw [Writer.lead, if_neg (by simp [h.inLine]), h.written, List.head?_reverse, hc]
  cases cs with
  | nil => exact absurd rfl hne
  | cons first rest =>
    refine ⟨h.unit, h.level, rfl, ?_, h.nesting, ?_⟩
    · show Writer.fill w.scopes = []
      rw [h.scopes]
      rfl
    · show (w.lead attaches ++ first :: rest).reverse ++ w.written = _
      rw [hlead, h.written, ← List.reverse_append]

theorem Amid.endLine (h : Amid unit level text w) : w.endLine.text.toList = text ++ ['\n'] := by
  rw [Writer.endLine, if_neg (by simp [h.inLine]), Writer.text_toList]
  simp [Writer.newLine, Writer.put, h.written]

theorem Amid.openScope {indent : Indent} (h : Amid indent.unit level text w)
    (hc : text.getLast? = some c) (hs : spacedAfter c = true) :
    Stands indent (level + 1) false (text ++ [' ', '\x7b', '\n']) w.openScope := by
  have hbrace := h.piece hc ['\x7b'] (by simp) false
  have hspace : needsSpace (some c) false = true := by simp [needsSpace, hs]
  rw [if_pos hspace] at hbrace
  refine ⟨hbrace.unit, ?_, rfl, ?_, hbrace.nesting, ?_⟩
  · exact congrArg (· + 1) hbrace.level
  · exact congrArg (List.cons false) hbrace.scopes
  · show '\n' :: (w.piece ['\x7b'] false).written = _
    rw [hbrace.written]
    simp

end Amid

theorem piece_continues {op : Op} {cs : List Char} {attaches : Bool}
    (hs : ∀ w : Writer, w.step op = w.piece cs attaches) (hne : cs ≠ []) :
    Continues [op] c ((if needsSpace (some c) attaches then [' '] else []) ++ cs) level level := by
  intro unit text w hc h
  rw [Writer.run, Writer.run, hs]
  exact h.piece hc cs hne attaches

/-- A space, unless there is a blank or opening punctuation to the left. -/
def gapAfter (c : Char) : List Char :=
  if spacedAfter c then [' '] else []

theorem gapAfter_eq (c : Char) :
    gapAfter c = if needsSpace (some c) false then [' '] else [] := by
  simp [gapAfter, needsSpace]

theorem word_continues {text : String} (hne : text ≠ "") :
    Continues [.word text] c (gapAfter c ++ text.toList) level level := by
  rw [gapAfter_eq]
  exact piece_continues (fun w => by rw [Writer.step]) (by simpa using hne)

theorem says_continues {op : Op} {text : String} (hs : Op.Says op text) :
    Continues [op] c (gapAfter c ++ text.toList) level level := by
  rw [gapAfter_eq]
  exact piece_continues hs.step hs.isWord.toList_ne_nil

theorem fixed_continues {text : String} (hm : text ∈ fixedTexts) :
    Continues [.literal text] c
      ((if needsSpace (some c) (attachesLeft text.toList) then [' '] else []) ++ text.toList)
      level level := by
  obtain ⟨hne, hf⟩ := fixed_text hm
  refine piece_continues (fun w => ?_) hne
  rw [Writer.step, Writer.literal, Text.pieces_single hf]
  rfl

theorem attaching_continues (text : String) (hm : text ∈ fixedTexts)
    (ha : attachesLeft text.toList = true) (hc : c ≠ '=') :
    Continues [.literal text] c text.toList level level := by
  have h : Continues [.literal text] c _ level level := fixed_continues hm
  rwa [ha, if_neg (by simp [needsSpace, hc]), List.nil_append] at h

theorem apart_continues (text : String) (hm : text ∈ fixedTexts)
    (ha : attachesLeft text.toList = false) (hc : spacedAfter c = true) :
    Continues [.literal text] c (' ' :: text.toList) level level := by
  have h : Continues [.literal text] c _ level level := fixed_continues hm
  rwa [ha, if_pos (by simp [needsSpace, hc]), List.singleton_append] at h

theorem code_continues {indent : Indent} {code : Block} (hf : '\n' ∉ code.textAlone indent)
    (hne : code.textAlone indent ≠ [])
    (hl : ((Writer.startingAt indent level).emit (.block code)).level = level') :
    Continues code.ops '=' (' ' :: code.inlineText) level level' := by
  intro unit text w hc h
  obtain ⟨first, rest, rfl⟩ : ∃ first rest, text = first :: rest := by
    cases text with
    | nil => simp at hc
    | cons first rest => exact ⟨first, rest, rfl⟩
  -- The line so far is taken as one piece of a page. Then the code joins it as its
  -- own pieces join each other.
  let start : Piece := ⟨first, rest, false⟩
  let page : Page := ⟨[], ⟨0, [start]⟩, level, [], true⟩
  have hshows : Shows unit 0 [] [] w page := by
    refine ⟨h.unit, ?_, ?_, h.inLine, h.scopes⟩
    · rw [h.level, Nat.zero_add]
    · rw [h.written]
      simp [page, start, Page.inked, Line.inked, Line.joined, Piece.text, needsSpace,
        Line.indentation]
  have hrun := hshows.run code.ops
  rw [h.nesting] at hrun
  have hstays := Block.stays_of_feedFree hf page
  have hpieces : (page.run 0 code.ops).current.pieces =
      (Op.piecesOfAll 0 code.ops).reverse ++ [start] := hstays.pieces
  have hdepth : (page.run 0 code.ops).current.depth = 0 := (hstays.depth (by simp [page])).2
  have hlines : (page.run 0 code.ops).lines = [] := hstays.lines
  have hjoin : Piece.join (start :: Op.piecesOfAll 0 code.ops) =
      first :: rest ++ ' ' :: code.inlineText := by
    rw [Block.inlineText_eq hf hne]
    obtain ⟨next, more, hm⟩ := List.exists_cons_of_ne_nil (Block.pieces_ne_nil hf hne)
    have hlast : start.last = '=' := by
      have hlast : start.text.getLast? = some start.last :=
        List.getLast?_eq_some_getLast (by simp [Piece.text])
      exact Option.some.inj (hlast.symm.trans hc)
    have hapart : Piece.Apart start next := by
      rw [Piece.apart_iff, hlast]
      exact ⟨by decide, Or.inl rfl⟩
    rw [hm, Piece.join, Piece.gap, if_pos hapart]
    simp [start, Piece.text]
  refine ⟨hrun.unit, ?_, ?_, ?_, ?_, ?_⟩
  · rw [← hl]
    exact Writer.run_level_eq code.ops (by rw [h.level, startingAt_eq])
      (by rw [h.nesting, startingAt_eq]; rfl)
  · rw [hrun.lineStart, hpieces]
    simp
  · have hscopes : (page.run 0 code.ops).scopes = [] :=
      List.length_eq_zero_iff.1 hstays.scopes
    rw [hrun.scopes, hscopes]
    simp [Writer.fill]
  · rw [Writer.run_nesting, h.nesting]
  · rw [hrun.written, List.append_nil, Page.inked, hlines, List.flatMap_nil, List.append_nil,
      ← List.reverse_inj, Line.inked_reverse_eq_spelled, Line.spelled, hpieces, hdepth,
      if_neg (by simp), List.reverse_reverse, ← hjoin]
    simp [Line.indentation]

section Phrase

variable {ops : List Op} {words : List String}

theorem words_frame (hs : List.Forall₂ Op.Says ops words) {w : Writer} (hw : w.scopes = []) :
    (w.run ops).unit = w.unit ∧ (w.run ops).level = w.level ∧ (w.run ops).scopes = [] := by
  induction hs generalizing w with
  | nil =>
    rw [Writer.run]
    exact ⟨rfl, rfl, hw⟩
  | @cons op text ops words hop _ ih =>
    obtain ⟨first, rest, hc⟩ := List.exists_cons_of_ne_nil hop.isWord.toList_ne_nil
    have hscopes : (w.piece (first :: rest) false).scopes = [] := by
      show Writer.fill w.scopes = []
      rw [hw]
      rfl
    rw [Writer.run, hop.step, hc]
    exact ih hscopes

theorem phrase_amid (hs : List.Forall₂ Op.Says ops words) (hne : words ≠ []) (indent : Indent)
    (level : Nat) :
    ∃ c, Name.isNameChar c = true ∧
      (Line.indentation indent.unit level ++ (" ".intercalate words).toList).getLast? = some c ∧
      Amid indent.unit level
        (Line.indentation indent.unit level ++ (" ".intercalate words).toList)
        ((Writer.startingAt indent level).run ops) := by
  rw [startingAt_eq]
  obtain ⟨hafter, htext⟩ := Writer.run_phrase hs hne
    (w := { Writer.new indent with level := level }) rfl
  obtain ⟨hu, hl, hscopes⟩ := words_frame hs (w := { Writer.new indent with level := level }) rfl
  obtain ⟨c, hc, hname⟩ := hafter.last
  have hwritten : ({ Writer.new indent with level := level } : Writer).text.toList = [] := rfl
  rw [hwritten, List.nil_append, Writer.text_toList, Writer.margin] at htext
  have htext' := congrArg List.reverse htext
  rw [List.reverse_reverse] at htext'
  refine ⟨c, hname, ?_, hu, hl, hafter.inLine, hscopes, ?_, htext'⟩
  · rw [htext', List.head?_reverse] at hc
    exact hc
  · rw [Writer.run_nesting]
    rfl

theorem line_amid (hs : List.Forall₂ Op.Says ops words) (hne : words ≠ []) {rest : List Op}
    {added : List Char} {level level' : Nat}
    (hr : ∀ c, Name.isNameChar c = true → Continues rest c added level level')
    (indent : Indent) :
    ∃ c, Name.isNameChar c = true ∧
      (Line.indentation indent.unit level ++ (" ".intercalate words).toList ++ added).getLast? =
        some (endOf c added) ∧
      Amid indent.unit level'
        (Line.indentation indent.unit level ++ (" ".intercalate words).toList ++ added)
        ((Writer.startingAt indent level).run (ops ++ rest)) := by
  obtain ⟨c, hname, hlast, hamid⟩ := phrase_amid hs hne indent level
  refine ⟨c, hname, getLast?_added hlast added, ?_⟩
  rw [Writer.run_append]
  exact hr c hname _ _ _ hlast hamid

theorem line_text (hs : List.Forall₂ Op.Says ops words) (hne : words ≠ []) {rest : List Op}
    {added : List Char} {level level' : Nat}
    (hr : ∀ c, Name.isNameChar c = true → Continues rest c added level level')
    (indent : Indent) :
    ((Writer.startingAt indent level).run (ops ++ rest ++ [.endLine])).text.toList =
      Line.indentation indent.unit level ++ ((" ".intercalate words).toList ++ added) ++
        ['\n'] := by
  obtain ⟨c, -, -, hamid⟩ := line_amid hs hne hr indent
  rw [Writer.run_append, Writer.run, Writer.run, Writer.step, hamid.endLine]
  simp only [List.append_assoc]

end Phrase

def EndsClear (marks : List Char) (text : String) : Prop :=
  ∃ c, text.toList.getLast? = some c ∧ Text.isBlank c = false ∧ c ∉ marks

instance (marks : List Char) (text : String) : Decidable (EndsClear marks text) :=
  Option.decidableExistsMem text.toList.getLast?

theorem EndsClear.nonempty {marks : List Char} {text : String} (h : EndsClear marks text) :
    text ≠ "" := by
  rintro rfl
  obtain ⟨c, hc, -⟩ := h
  simp at hc

structure Block.IsInline (indent : Indent) (b : Block) : Prop where
  nonempty : b.textAlone indent ≠ []
  feedFree : '\n' ∉ b.textAlone indent

instance (indent : Indent) (b : Block) : Decidable (b.IsInline indent) :=
  decidable_of_iff (_ ∧ _) ⟨fun h => ⟨h.1, h.2⟩, fun h => ⟨h.1, h.2⟩⟩

def Block.assignment (b : Block) : List Char :=
  [' ', '=', ' '] ++ b.inlineText

theorem assignment_continues {indent : Indent} {code : Block} (h : code.IsInline indent)
    (hc : spacedAfter c = true)
    (hl : ((Writer.startingAt indent level).emit (.block code)).level = level') :
    Continues (.literal "=" :: code.ops) c code.assignment level level' := by
  have hsign : Continues [.literal "="] c [' ', '='] level level :=
    apart_continues "=" (by decide) (by decide) hc
  have hcode : Continues code.ops (endOf c [' ', '=']) (' ' :: code.inlineText) level level' :=
    code_continues h.feedFree h.nonempty hl
  exact hsign.cons hcode

theorem typed_continues {type : TypeRef} (hc : Name.isNameChar c = true)
    (ht : type.render ≠ "") :
    Continues [.literal ":", .word type.render] c ([':', ' '] ++ type.render.toList)
      level level := by
  have hne : c ≠ '=' := by
    rintro rfl
    exact absurd hc (by decide)
  have hcolon : Continues [.literal ":"] c [':'] level level :=
    attaching_continues ":" (by decide) (by decide) hne
  have htype : Continues [.word type.render] (endOf c [':']) (' ' :: type.render.toList)
      level level :=
    word_continues (c := ':') ht
  exact hcolon.cons htype

def Heading.modifierText (h : Heading) : List Char :=
  (Modifier.all.filter (h.modifiers.contains ·)).flatMap fun m => m.keyword.toList ++ [' ']

theorem Heading.modifierText_append (h : Heading) {words : List String} (hne : words ≠ []) :
    (" ".intercalate (h.modifiers.toList.map Modifier.keyword ++ words)).toList =
      h.modifierText ++ (" ".intercalate words).toList := by
  rw [modifierText, ← Modifiers.toList_eq]
  induction h.modifiers.toList with
  | nil => rfl
  | cons m rest ih =>
    obtain ⟨next, more, hm⟩ := List.exists_cons_of_ne_nil
      (show rest.map Modifier.keyword ++ words ≠ [] by simp [hne])
    rw [String.toList_intercalate] at ih ⊢
    rw [List.map_cons, List.cons_append, List.flatMap_cons, List.append_assoc, ← ih, hm,
      List.map_cons, List.map_cons, List.intercalate_cons_cons]
    simp

end SwiftDecl
