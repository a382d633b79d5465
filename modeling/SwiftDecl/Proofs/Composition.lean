import SwiftDecl.Proofs.Depth
import SwiftDecl.Proofs.Lines
import Mathlib.Data.List.Forall2

/-!
# Composition

The text of a type is its header, the texts of its members as each of them is
written on its own one level further in, and a closing brace. Members share one
writer, so the proof is a frame argument: a declaration that starts on a fresh
line adds its own text and nothing else, marks the scope around it as filled,
and leaves the rest of the writer alone. The nesting limit is the one thing that
could tell the two apart, and what fits under it never meets it.
-/

set_option autoImplicit false

namespace SwiftDecl
open SwiftDecl.Layout

namespace Layout.Page

theorem run_append (n : Nat) (p : Page) (a b : List Op) :
    p.run n (a ++ b) = (p.run n a).run n b := by
  induction a generalizing p with
  | nil => simp [run]
  | cons op ops ih => simp [run, ih]

theorem leaveScope_touched (p : Page) : p.leaveScope.touched = p.touched := by
  unfold leaveScope
  split <;> rfl

theorem step_touched (n : Nat) (p : Page) (op : Op) (ho : ∀ inner, op ≠ .nested inner)
    (h : p.touched = true) : (p.step n op).touched = true := by
  cases op with
  | openScope =>
    rw [step]
    exact (piece_grows p ['\x7b'] false).touched h
  | closeScope =>
    rw [step]
    apply (piece_grows p.endLine.leaveScope.dedent ['\x7d'] false).touched
    exact (leaveScope_touched _).trans ((endLine_grows p).touched h)
  | blankLine =>
    rw [step]
    exact (blankLine_grows p).touched h
  | indent | dedent =>
    rw [step]
    exact h
  | nested inner => exact absurd rfl (ho inner)
  | literal | word | newLine | endLine | report => exact (plain_grows n p rfl).touched h

theorem run_touched (ops : List Op) (n : Nat) (p : Page) (h : p.touched = true) :
    (p.run n ops).touched = true :=
  run_keeps step_touched ops n h

end Layout.Page

theorem run_within {ok : Op → Prop} {ops : List Op} (h : Level ok ops) (n : Nat) :
    (Page.empty.run n ops).Within 0 0 := by
  let w : Writer := { Writer.new .standard with nesting := n }
  exact ((h 0 0).run_shows (w := w) Page.Within.empty (Shows.empty rfl)).1

theorem touched_of_fixed {ok : Op → Prop} {before after : List Op} {text : String}
    (hl : Level ok before) (ht : text ∈ fixedTexts) (n : Nat) :
    (Page.empty.run n (before ++ .literal text :: after)).touched = true := by
  rw [Page.run_append, Page.run]
  apply Page.run_touched
  have hs : (Page.empty.run n before).scopes = [] :=
    List.length_eq_zero_iff.1 (run_within hl n).scopes
  obtain ⟨hne, hfree⟩ := fixed_text ht
  obtain ⟨c, rest, hc⟩ := List.exists_cons_of_ne_nil hne
  rw [Page.step, Page.literal, Text.pieces_single hfree, hc]
  simp [Page.literalPart, Page.literalParts, Page.piece, hs]

theorem declaration_touched {node : Node} (hn : node.IsDeclaration) (n : Nat) :
    (node.page n).touched = true := by
  have hlevel := level_assembles vocabulary_true
  have hdoc : ∀ heading : Heading, Level (fun _ => True) heading.documentationOps :=
    fun heading => hlevel.documentation heading
      ⟨by simp, by simp, fun _ _ _ _ => .plain rfl trivial (.single rfl trivial)⟩
  have hhead : ∀ heading : Heading,
      Level (fun _ => True) (heading.documentationOps ++ heading.modifierOps) :=
    fun heading => (hdoc heading).append (hlevel.modifiers heading)
  unfold Node.page
  cases node with
  | field f =>
    obtain ⟨kind, hk⟩ := hn
    cases kind with
    | enumType =>
      simpa [Node.ops, Field.ops, Field.declarationOps, hk, Field.caseOps] using
        touched_of_fixed (hdoc f.heading) (show "case" ∈ fixedTexts by decide) n
    | protocolType =>
      have hf : Construct.mutableField.keyword ∈ fixedTexts := by decide
      simpa [Node.ops, Field.ops, Field.declarationOps, hk, Field.requirementOps] using
        touched_of_fixed (hhead f.heading) hf n
    | classType | structType | extensionType =>
      have hf : f.construct.keyword ∈ fixedTexts := by
        unfold Field.construct
        split <;> decide
      simpa [Node.ops, Field.ops, Field.declarationOps, hk, Field.propertyOps] using
        touched_of_fixed (hhead f.heading) hf n
  | method m =>
    by_cases hi : m.isInitializer = true
    · simpa [Node.ops, Method.ops, Method.signatureOps, Method.nameOps, hi] using
        touched_of_fixed (hhead m.heading) (show "init" ∈ fixedTexts by decide) n
    · have hm : Construct.method.keyword ∈ fixedTexts := by decide
      simpa [Node.ops, Method.ops, Method.signatureOps, Method.nameOps, hi] using
        touched_of_fixed (hhead m.heading) hm n
  | type d =>
    have hk : d.kind.keyword ∈ fixedTexts := by cases d.kind <;> decide
    simp only [Node.ops, d.ops_eq, List.cons_append, Page.run, Page.step]
    simpa [TypeDecl.headerOps] using touched_of_fixed (hhead d.heading) hk n
  | parameter p => exact hn.elim
  | block b => exact hn.elim
  | ref t => exact hn.elim

/-- A writer on a fresh line, inside one scope, that has written `text`. -/
structure Stands (indent : Indent) (level : Nat) (filled : Bool) (text : List Char)
    (w : Writer) : Prop where
  unit : w.unit = indent.unit
  level : w.level = level
  lineStart : w.atLineStart = true
  scopes : w.scopes = [filled]
  nesting : w.nesting = 0
  written : w.written = text.reverse

/-- The frame of a declaration: it adds the text that it has on its own, and
fills the scope around it. -/
theorem declaration_after (node : Node) (hn : node.IsDeclaration)
    (hb : ∀ b ∈ node.blocks, b.Balanced) (indent : Indent) {w : Writer}
    (hu : w.unit = indent.unit) (hs : w.atLineStart = true)
    (hd : w.nesting + Op.depthOfAll node.ops ≤ maxNesting) :
    (w.emit node).unit = w.unit ∧ (w.emit node).level = w.level ∧
      (w.emit node).scopes = Writer.fill w.scopes ∧
      (w.emit node).written = (node.textAt indent w.level).reverse ++ w.written := by
  have hl := declaration_level vocabulary_true node hn (supplied_true hb)
  have hshow := run_at_line_start hl hs
  have hin := run_within hl w.nesting
  have hpage : Page.empty.run w.nesting node.ops = node.page 0 :=
    Page.run_fitting node.ops w.nesting 0 _ hd (by omega)
  have htouched := declaration_touched hn 0
  rw [hpage] at hshow hin
  have hscopes : (node.page 0).scopes = [] := List.length_eq_zero_iff.1 hin.scopes
  refine ⟨hshow.unit, ?_, ?_, ?_⟩
  · rw [Writer.emit, hshow.level, hin.level]
    rfl
  · rw [Writer.emit, hshow.scopes, hscopes, htouched]
    rfl
  · rw [Writer.emit, hshow.written, textAt_page hl, List.reverse_reverse, hu]

section Members

variable {indent : Indent} {level : Nat} {filled : Bool} {text : List Char} {w : Writer}

theorem Stands.emit (h : Stands indent level filled text w) (node : Node)
    (hn : node.IsDeclaration) (hb : ∀ b ∈ node.blocks, b.Balanced)
    (hd : Op.depthOfAll node.ops ≤ maxNesting) :
    Stands indent level true (text ++ node.textAt indent level) (w.run node.ops) := by
  obtain ⟨hu, hl, hs, hw⟩ := declaration_after node hn hb indent h.unit h.lineStart
    (by rw [h.nesting]; omega)
  refine ⟨hu.trans h.unit, hl.trans h.level,
    Writer.run_atLineStart w (declaration_last node hn), ?_,
    (Writer.run_nesting _ w).trans h.nesting, ?_⟩
  · rw [← Writer.emit, hs, h.scopes]
    rfl
  · rw [← Writer.emit, hw, h.level, h.written, List.reverse_append]

theorem Stands.emit_nested (h : Stands indent level filled text w) {d : TypeDecl}
    (hb : ∀ b ∈ d.blocks, b.Balanced) (hd : d.depth + 1 ≤ maxNesting) :
    Stands indent level true (text ++ (Node.type d).textAt indent level)
      (w.run [.nested d.ops]) := by
  have hdepth := d.ops_depth
  have hlimit : w.nesting < maxNesting := by
    rw [h.nesting]
    omega
  have hfit : w.enter.nesting + Op.depthOfAll (Node.type d).ops ≤ maxNesting := by
    show w.nesting + 1 + Op.depthOfAll d.ops ≤ maxNesting
    rw [h.nesting]
    omega
  obtain ⟨hu, hl, hs, hw⟩ := declaration_after (.type d) trivial hb indent
    (w := w.enter) h.unit h.lineStart hfit
  rw [Writer.run, Writer.run, Writer.step, if_pos hlimit]
  refine ⟨hu.trans h.unit, hl.trans h.level,
    Writer.run_atLineStart w.enter (declaration_last (.type d) trivial), ?_, ?_, ?_⟩
  · exact hs.trans (by show Writer.fill w.scopes = [true]; rw [h.scopes]; rfl)
  · show (w.enter.run d.ops).nesting - 1 = 0
    rw [Writer.run_nesting]
    exact h.nesting
  · refine hw.trans ?_
    show ((Node.type d).textAt indent w.level).reverse ++ w.written = _
    rw [h.level, h.written, List.reverse_append]

/-- The parts one after the other, in a text that starts with `before`. An extra
line end stands in front of each part, the first one only if something `follows`
from before, unless an empty line stands there already. -/
def setApart (before : List Char) : Bool → List (List Char) → List Char
  | _, [] => []
  | follows, part :: rest =>
    let gap := if follows = true ∧ ¬['\n', '\n'] <:+ before then ['\n'] else []
    gap ++ part ++ setApart (before ++ gap ++ part) true rest

theorem isSeparated_iff (h : w.written ≠ []) :
    w.isSeparated = true ↔ ['\n', '\n'] <:+ w.written.reverse := by
  rw [← List.reverse_prefix, List.reverse_reverse]
  unfold Writer.isSeparated
  split
  · rename_i hw
    exact absurd hw h
  · rename_i rest hw
    rw [hw]
    exact ⟨fun _ => ⟨rest, rfl⟩, fun _ => rfl⟩
  · rename_i hw
    refine ⟨fun hf => absurd hf (by simp), ?_⟩
    rintro ⟨rest, hr⟩
    exact absurd hr.symm (hw rest)

theorem Stands.blankLine (h : Stands indent level filled text w) (hne : text ≠ []) :
    Stands indent level filled
      (text ++ if ['\n', '\n'] <:+ text then [] else ['\n']) w.blankLine := by
  have hw : w.written ≠ [] := by
    rw [h.written]
    simpa using hne
  have hsep := isSeparated_iff hw
  rw [h.written, List.reverse_reverse] at hsep
  have hend : w.endLine = w := by
    rw [Writer.endLine, if_pos h.lineStart]
  unfold Writer.blankLine Writer.separate
  rw [hend]
  by_cases hs : ['\n', '\n'] <:+ text
  · rw [if_pos (hsep.2 hs), if_pos hs, List.append_nil]
    exact h
  · rw [if_neg (mt hsep.1 hs), if_neg hs]
    exact ⟨h.unit, h.level, h.lineStart, h.scopes, h.nesting, by simp [Writer.put, h.written]⟩

/-- A member of a type: operations that add one fixed text, wherever they start
on a fresh line inside the type. -/
def Contributes (indent : Indent) (level : Nat) (ops : List Op) (part : List Char) : Prop :=
  ∀ (filled : Bool) (text : List Char) (w : Writer), Stands indent level filled text w →
    Stands indent level true (text ++ part) (w.run ops)

theorem joined_stands {α : Type} {ops : α → List Op} {part : α → List Char} {l : List α}
    (h : ∀ x ∈ l, Contributes indent level (ops x) (part x))
    (hw : Stands indent level filled text w) :
    Stands indent level (filled || !l.isEmpty) (text ++ l.flatMap part)
      (w.run (l.flatMap ops)) := by
  induction l generalizing filled text w with
  | nil => simpa [Writer.run] using hw
  | cons x rest ih =>
    have hx := h x (by simp) filled text w hw
    have hr := ih (fun y hy => h y (by simp [hy])) hx
    rw [List.flatMap_cons, List.flatMap_cons, Writer.run_append, ← List.append_assoc]
    simpa using hr

theorem separated_stands {members : List (List Op)} {parts : List (List Char)}
    (h : List.Forall₂ (Contributes indent level) members parts)
    (hw : Stands indent level filled text w) (hne : text ≠ []) (follows : Bool) :
    Stands indent level (filled || !members.isEmpty) (text ++ setApart text follows parts)
      (w.run (TypeDecl.separatedOps follows members)) := by
  induction h generalizing filled text w follows with
  | nil => simpa [TypeDecl.separatedOps, Writer.run, setApart] using hw
  | cons hm _ ih =>
    have hgap : Stands indent level filled
        (text ++ if follows = true ∧ ¬['\n', '\n'] <:+ text then ['\n'] else [])
        (w.run (if follows then [.blankLine] else [])) := by
      cases follows with
      | false => simpa [Writer.run] using hw
      | true =>
        have hb := hw.blankLine hne
        simp only [if_true, true_and, Writer.run, Writer.step]
        rwa [ite_not]
    have hr := ih (hm _ _ _ hgap) (by simp [hne]) true
    rw [TypeDecl.separatedOps, setApart, Writer.run_append, Writer.run_append]
    simpa using hr

namespace TypeDecl

def bare (d : TypeDecl) : TypeDecl :=
  { d with fields := [], methods := [], nested := [] }

def HasMembers (d : TypeDecl) : Prop :=
  d.fields ≠ [] ∨ d.methods ≠ [] ∨ d.nested ≠ []

/-- The members as each is written on its own: fields one after the other, then
methods and types set apart. -/
def body (d : TypeDecl) (indent : Indent) (level : Nat) (head : List Char) : List Char :=
  let fields := d.fields.flatMap fun f => (Node.field f).textAt indent level
  let methods := d.methods.map fun m => (Node.method m).textAt indent level
  let types := d.nested.map fun n => (Node.type n).textAt indent level
  fields ++ setApart (head ++ fields) (!d.fields.isEmpty) (methods ++ types)

end TypeDecl

def closing (indent : Indent) (level : Nat) : List Char :=
  Line.indentation indent.unit level ++ ['\x7d', '\n']

theorem Stands.closeScope (h : Stands indent (level + 1) filled text w) :
    w.closeScope.text.toList =
      text ++ (if filled then [] else ['\n']) ++ closing indent level := by
  have hend : w.endLine = w := by
    rw [Writer.endLine, if_pos h.lineStart]
  rw [Writer.text_toList, Writer.closeScope, hend, Writer.leaveScope, h.scopes]
  cases filled with
  | true =>
    simp [Writer.newLine, Writer.piece, Writer.put, Writer.lead, Writer.dedent, Writer.margin,
      h.lineStart, h.unit, h.level, h.written, closing, Line.indentation]
  | false =>
    simp [Writer.newLine, Writer.piece, Writer.put, Writer.lead, Writer.dedent, Writer.margin,
      h.lineStart, h.unit, h.level, h.written, closing, Line.indentation]

end Members

def TypeDecl.opening (d : TypeDecl) (indent : Indent) (level : Nat) : List Char :=
  ((Page.empty.run 0 (d.headerOps ++ [.openScope])).inked indent.unit level).reverse

theorem opening_brace (d : TypeDecl) (indent : Indent) (level : Nat) :
    ['\x7b', '\n'] <:+ d.opening indent level := by
  rw [TypeDecl.opening, Page.run_append, Page.run, Page.run, Page.step,
    ← List.reverse_prefix, List.reverse_reverse]
  simp [Page.openScope, Page.piece, Page.newLine, Page.indent, Page.inked, Line.inked, Line.blank,
    Line.joined, Piece.text]

theorem opening_stands {d : TypeDecl} (h : TypeProvides (Level fun _ => True) d) (indent : Indent)
    (level : Nat) (event : Event) :
    Stands indent (level + 1) false (d.opening indent level)
      ((Writer.startingAt indent level).run (.report event :: d.headerOps ++ [.openScope])) := by
  have hstart : (Writer.startingAt indent level).atLineStart = true := by
    rw [startingAt_eq]
    rfl
  obtain ⟨hin, hshow⟩ := (opening_scoped vocabulary_true d event h 0 0).run_shows
    Page.Within.empty (Shows.empty hstart)
  have hpage : Page.empty.run (Writer.startingAt indent level).nesting
      (.report event :: d.headerOps ++ [.openScope]) =
        Page.empty.run 0 (d.headerOps ++ [.openScope]) := by
    rw [startingAt_eq, List.cons_append, Page.run, Page.step]
    rfl
  rw [hpage] at hin hshow
  rw [startingAt_eq] at hshow ⊢
  have hscopes : (Page.empty.run 0 (d.headerOps ++ [.openScope])).scopes = [false] := by
    have hlen := hin.scopes
    rw [Page.run_append, Page.run, Page.run, Page.step] at hlen ⊢
    have hcons : (Page.empty.run 0 d.headerOps).openScope.scopes =
        false :: ((Page.empty.run 0 d.headerOps).piece ['\x7b'] false).scopes := rfl
    rw [hcons, List.length_cons] at hlen
    rw [hcons, List.length_eq_zero_iff.1 (Nat.succ.inj hlen)]
  refine ⟨hshow.unit, ?_, ?_, ?_, Writer.run_nesting _ _, ?_⟩
  · rw [hshow.level, hin.level]
  · rw [hshow.lineStart, Page.run_append, Page.run, Page.run, Page.step]
    rfl
  · rw [hshow.scopes, hscopes]
    simp [Writer.new, Writer.fill]
  · rw [hshow.written, TypeDecl.opening, List.reverse_reverse]
    simp [Writer.new]

theorem declare_adopts (kind : TypeKind) (name : String) (clauses : List TypeDecl.Clause) :
    ∀ f ∈ (TypeDecl.declare kind name clauses).fields, ∃ k, f.parent = some (.type k) := by
  intro f hf
  have h := TypeDecl.adopts_declare (P := fun _ => True) kind name clauses fun _ _ => trivial
  exact ⟨_, h.field f hf⟩

/-- The members of a type, each on its own, inside the type. -/
theorem members_stand {d : TypeDecl} (ha : ∀ f ∈ d.fields, ∃ k, f.parent = some (.type k))
    (hb : ∀ b ∈ d.blocks, b.Balanced) (hd : d.depth ≤ maxNesting) (hm : d.HasMembers)
    {indent : Indent} {level : Nat} {filled : Bool} {head : List Char} {w : Writer}
    (hne : head ≠ []) (hw : Stands indent level filled head w) :
    Stands indent level true (head ++ d.body indent level head) (w.run d.memberOps) := by
  obtain ⟨hbf, hbm, hbn⟩ := TypeDecl.forall_blocks.1 hb
  have hf := TypeDecl.fits_of_depth hd
  have hfield : ∀ f ∈ d.fields,
      Contributes indent level f.ops ((Node.field f).textAt indent level) := by
    intro f hm filled text w hw
    exact hw.emit (.field f) (ha f hm) (hbf f hm)
      (depth_of_blocks (fun _ => field_nested) (hf.field f hm))
  have hmethod : ∀ m ∈ d.methods,
      Contributes indent level m.ops ((Node.method m).textAt indent level) := by
    intro m hm filled text w hw
    exact hw.emit (.method m) trivial (hbm m hm)
      (depth_of_blocks (fun _ => method_nested) (hf.method m hm))
  have htype : ∀ n ∈ d.nested,
      Contributes indent level [.nested n.ops] ((Node.type n).textAt indent level) := by
    intro n hm filled text w hw
    exact hw.emit_nested (hbn n hm) (hf.nested n hm)
  have hapart : List.Forall₂ (Contributes indent level)
      (d.methods.map Method.ops ++ d.nested.map fun n => [.nested n.ops])
      ((d.methods.map fun m => (Node.method m).textAt indent level) ++
        d.nested.map fun n => (Node.type n).textAt indent level) := by
    apply List.rel_append
    · rw [List.forall₂_map_left_iff, List.forall₂_map_right_iff, List.forall₂_same]
      exact hmethod
    · rw [List.forall₂_map_left_iff, List.forall₂_map_right_iff, List.forall₂_same]
      exact htype
  have h₁ := joined_stands hfield hw
  have h₂ := separated_stands hapart h₁ (by simp [hne]) (!d.fields.isEmpty)
  have hfilled : (filled || !d.fields.isEmpty ||
      !(d.methods.map Method.ops ++ d.nested.map fun n => [Op.nested n.ops]).isEmpty) = true := by
    rcases hm with h | h | h <;> simp [h]
  rw [hfilled] at h₂
  rw [TypeDecl.memberOps, Writer.run_append, TypeDecl.body, ← List.append_assoc]
  exact h₂

/-- A declared type whose blocks are balanced and that fits under the nesting
limit is written as its opening, its body and its closing brace. The opening is
that of the type without members, and the body consists of the members as they
are written on their own. -/
theorem emit_members {kind : TypeKind} {name : String} {clauses : List TypeDecl.Clause}
    {d : TypeDecl} (declared : d = .declare kind name clauses)
    (hb : ∀ b ∈ d.blocks, b.Balanced) (hd : d.depth ≤ maxNesting) (indent : Indent)
    (level : Nat) :
    ∃ head : List Char, ['\x7b', '\n'] <:+ head ∧
      (Node.type d.bare).textAt indent level = head ++ ['\n'] ++ closing indent level ∧
      (d.HasMembers → (Node.type d).textAt indent level =
        head ++ d.body indent (level + 1) head ++ closing indent level) := by
  have hs := type_provides ((@supplied_true (.type d) hb).provides vocabulary_true)
  have htext : ∀ t : TypeDecl, (Node.type t).textAt indent level =
      (((Writer.startingAt indent level).run (.report t.announcement :: t.headerOps ++
        [.openScope])).run t.memberOps).closeScope.text.toList := by
    intro t
    rw [Node.textAt, Writer.emit, Node.ops, t.ops_eq, Writer.run_append, Writer.run_append,
      Writer.run, Writer.run, Writer.step]
  refine ⟨d.opening indent level, opening_brace d indent level, ?_, ?_⟩
  · have h := (opening_stands hs indent level d.bare.announcement).closeScope
    have hheader : d.bare.headerOps = d.headerOps := rfl
    have hmembers : d.bare.memberOps = [] := rfl
    rw [htext, hheader, hmembers, Writer.run, h]
    rfl
  · intro hm
    have hne : d.opening indent level ≠ [] := by
      intro he
      have hsuffix := opening_brace d indent level
      rw [he, List.suffix_nil] at hsuffix
      exact absurd hsuffix (by simp)
    have ha : ∀ f ∈ d.fields, ∃ k, f.parent = some (.type k) := by
      rw [declared]
      exact declare_adopts kind name clauses
    have hin := members_stand ha hb hd hm hne (opening_stands hs indent level d.announcement)
    rw [htext, hin.closeScope, if_pos rfl, List.append_nil]

def station : TypeDecl :=
  .declare .structType "station"
    [.field (.declare "count" none []), .nested (.declare .enumType "kind" []), .method flowMethod]

theorem station_code : station.blocks = (Node.method flowMethod).blocks := by
  simp [station, TypeDecl.declare, TypeDecl.add, TypeDecl.new, TypeDecl.blocks_eq, Node.blocks,
    Field.adopt, Field.blocks, Field.declare, Field.new, Method.adopt, Method.blocks]

theorem station_blocks : ∀ b ∈ station.blocks, b.Balanced := by
  rw [station_code]
  exact flowMethod_blocks

theorem emit_members_station :
    station.HasMembers ∧ station.depth ≤ maxNesting ∧
    ∃ head : List Char, ['\x7b', '\n'] <:+ head ∧
      (Node.type station.bare).textAt .tab 1 = head ++ ['\n'] ++ closing .tab 1 ∧
      (Node.type station).textAt .tab 1 = head ++ station.body .tab 2 head ++ closing .tab 1 := by
  have hm : station.HasMembers := Or.inl (by simp [station, TypeDecl.declare, TypeDecl.add])
  have hd : station.depth ≤ maxNesting := by decide +kernel
  obtain ⟨head, hbrace, hbare, hall⟩ := emit_members (d := station) rfl station_blocks hd .tab 1
  exact ⟨hm, hd, head, hbrace, hbare, hall hm⟩

end SwiftDecl
