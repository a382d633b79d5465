import SwiftDecl.Proofs.Identifier
import SwiftDecl.Proofs.Scoped
import SwiftDecl.Proofs.TextLines

/-!
# Balance

A declaration with balanced blocks leaves a writer at the level, with the open
scopes and with the nesting that it found, at the start of a line, wherever the
writer stood before and also where the nesting limit cuts parts of it off. The
braces of what it writes come in pairs, provided that none are supplied.
-/

set_option autoImplicit false

namespace SwiftDecl

def opensBrace (c : Char) : Bool :=
  c == '\x7b'

def closesBrace (c : Char) : Bool :=
  c == '\x7d'

def isBrace (c : Char) : Bool :=
  opensBrace c || closesBrace c

structure Node.BraceFree (node : Node) : Prop where
  literal : ∀ text ∈ node.literals, ∀ c ∈ text.toList, isBrace c = false
  ref : ∀ r ∈ node.refs, ∀ c ∈ r.render.toList, isBrace c = false
  description : ∀ text ∈ node.descriptions, ∀ c ∈ text.toList, isBrace c = false

namespace Layout

/-- An operation is given a text in which braces come in pairs. -/
def PairsBraces (op : Op) : Prop :=
  Tally opensBrace closesBrace 0 op.text 0

instance (op : Op) : Decidable (PairsBraces op) :=
  inferInstanceAs (Decidable (Tally opensBrace closesBrace 0 op.text 0))

namespace Writer

def Deeper (w₀ : Writer) (s i : Nat) (w : Writer) : Prop :=
  w.level = w₀.level + s + i ∧ w.scopes.length = w₀.scopes.length + s

/-- `w` has written, after `w₀`, a text with `s` braces still open. -/
def Braced (w₀ : Writer) (s _i : Nat) (w : Writer) : Prop :=
  w.unit = w₀.unit ∧ ∃ added, w.written = added.reverse ++ w₀.written ∧
    Tally opensBrace closesBrace 0 added s

theorem Writes.deeper {keep : Char → Bool} {w₀ w w' : Writer} {cs : List Char} {l n s i : Nat}
    (h : Writes keep w cs l n w') (hl : l = w₀.level + s + i)
    (hn : n = w₀.scopes.length + s) : Deeper w₀ s i w' := by
  obtain ⟨_, _, h⟩ := h
  exact ⟨h.level.trans hl, h.scopes.trans hn⟩

theorem deeper_kept (w₀ : Writer) : Kept (fun _ => True) (Deeper w₀) where
  plain := by
    intro s i w op hp _ h
    exact Writes.deeper (plain_adds (Ignores.nothing w) hp) h.1 h.2
  blankLine := by
    intro s i w h
    exact Writes.deeper (blankLine_adds (Ignores.nothing w)) h.1 h.2
  openScope := by
    intro s i w h
    have h₁ := h.1
    have h₂ := h.2
    exact (openScope_writes (Ignores.nothing w)).deeper (by omega) (by omega)
  closeScope := by
    intro s i w h
    have h₁ := h.1
    have h₂ := h.2
    exact (closeScope_writes (Ignores.nothing w)).deeper (by omega) (by omega)
  indent := by
    intro s i w h
    have h₁ : w.indent.level = w.level + 1 := rfl
    exact ⟨by rw [h₁, h.1]; omega, h.2⟩
  dedent := by
    intro s i w h
    have h₁ : w.dedent.level = w.level - 1 := rfl
    exact ⟨by rw [h₁, h.1]; omega, h.2⟩
  enter := fun h => h
  leave := fun h => h
  report := fun h => h

theorem Writes.braced {w₀ w w' : Writer} {cs : List Char} {l n s s' i i' : Nat}
    (h : Writes isBrace w cs l n w') (hw : Braced w₀ s i w)
    (hcs : Tally opensBrace closesBrace s cs s') : Braced w₀ s' i' w' := by
  obtain ⟨text, hf, h⟩ := h
  obtain ⟨hu, added, ha, ht⟩ := hw
  have hk : ∀ c, isBrace c = false → opensBrace c = false ∧ closesBrace c = false := by
    intro c hc
    simpa [isBrace] using hc
  have htext : Tally opensBrace closesBrace s text s' := by
    rw [← Tally.filter_iff hk, hf, Tally.filter_iff hk]
    exact hcs
  refine ⟨h.unit.trans hu, added ++ text, ?_, ht.append htext⟩
  rw [h.written, ha, List.reverse_append, List.append_assoc]

theorem unit_ignored (indent : Indent) {w : Writer} (h : w.unit = indent.unit) :
    Ignores isBrace w := by
  refine ⟨by decide, by decide, ?_⟩
  rw [h]
  cases indent with
  | spaces width =>
    intro c hc
    rw [List.eq_of_mem_replicate hc]
    decide
  | tab =>
    intro c hc
    rw [List.mem_singleton.1 hc]
    decide

theorem braced_kept (indent : Indent) {w₀ : Writer} (hu : w₀.unit = indent.unit) :
    Kept PairsBraces (Braced w₀) where
  plain := by
    intro s i w op hp ho h
    have hw := unit_ignored indent (h.1.trans hu)
    have ht := ho.shift s
    rw [Nat.zero_add] at ht
    exact Writes.braced (plain_adds hw hp) h ht
  blankLine := by
    intro s i w h
    exact Writes.braced (blankLine_adds (unit_ignored indent (h.1.trans hu))) h (Tally.nil _)
  openScope := by
    intro s i w h
    have hw := unit_ignored indent (h.1.trans hu)
    exact (openScope_writes hw).braced h (Tally.single_open (by decide) (by decide) s)
  closeScope := by
    intro s i w h
    have hw := unit_ignored indent (h.1.trans hu)
    exact (closeScope_writes hw).braced h (Tally.single_close (by decide) (by decide) s)
  indent := fun h => h
  dedent := fun h => h
  enter := fun h => h
  leave := fun h => h
  report := fun h => h

theorem endLine_atLineStart (w : Writer) : w.endLine.atLineStart = true := by
  unfold endLine
  split
  · assumption
  · rfl

theorem run_atLineStart (w : Writer) {ops : List Op}
    (h : ops.getLast? = some .endLine ∨ ops.getLast? = some .closeScope) :
    (w.run ops).atLineStart = true := by
  rcases h with h | h
  · obtain ⟨before, rfl⟩ := List.getLast?_eq_some_iff.1 h
    rw [run_append, run, run, step]
    exact endLine_atLineStart _
  · obtain ⟨before, rfl⟩ := List.getLast?_eq_some_iff.1 h
    rw [run_append, run, run, step]
    rfl

end Writer

end Layout

open SwiftDecl.Layout

theorem brace_not_nameChar {c : Char} (h : Name.isNameChar c = true ∨ c = '.') :
    isBrace c = false := by
  cases hb : isBrace c with
  | false => rfl
  | true =>
    have hc : c = '\x7b' ∨ c = '\x7d' := by simpa [isBrace, opensBrace, closesBrace] using hb
    rcases hc with rfl | rfl <;> revert h <;> decide

theorem pairsBraces_of_none {op : Op} (h : ∀ c ∈ op.text, isBrace c = false) :
    PairsBraces op :=
  Tally.neutral (fun c hc => by simpa [isBrace] using h c hc) 0

theorem vocabulary_pairsBraces : Vocabulary PairsBraces where
  newLine := Tally.nil 0
  endLine := Tally.nil 0
  report := fun _ => Tally.nil 0
  fixed := by decide +kernel
  modifier := by
    intro m
    cases m <;> decide +kernel
  typeName := fun raw => pairsBraces_of_none fun c hc =>
    brace_not_nameChar (Or.inl (Name.typeName_nameChar raw c hc))
  memberName := fun raw => pairsBraces_of_none fun c hc =>
    brace_not_nameChar (Or.inl (Name.memberName_nameChar raw c hc))
  declaredName := fun d => pairsBraces_of_none fun c hc =>
    brace_not_nameChar (declaredName_nameChar d c hc)

theorem supplied_pairsBraces {node : Node} (hb : ∀ b ∈ node.blocks, b.Balanced)
    (hf : node.BraceFree) :
    Supplied PairsBraces node.blocks node.refs node.descriptions where
  balanced := hb
  literal := by
    intro b hm text ht
    exact pairsBraces_of_none (hf.literal text (List.mem_flatMap.2 ⟨b, hm, ht⟩))
  ref := fun r hr => pairsBraces_of_none (hf.ref r hr)
  description := by
    intro text ht line hl
    apply pairsBraces_of_none
    intro c hc
    rcases Heading.commentLine_chars hl hc with rfl | rfl | h
    · decide
    · decide
    · exact hf.description text ht c h.1

theorem supplied_true {node : Node} (hb : ∀ b ∈ node.blocks, b.Balanced) :
    Supplied (fun _ => True) node.blocks node.refs node.descriptions :=
  ⟨hb, fun _ _ _ _ => trivial, fun _ _ => trivial, fun _ _ _ _ => trivial⟩

theorem vocabulary_true : Vocabulary (fun _ => True) :=
  ⟨trivial, trivial, fun _ => trivial, fun _ _ => trivial, fun _ => trivial, fun _ => trivial,
    fun _ => trivial, fun _ => trivial⟩

/-- A declaration with balanced blocks leaves level, open scopes and nesting as
they were and ends its last line, whatever the writer held before. If no brace
is supplied, the braces of the text that it adds come in pairs. -/
theorem emit_balanced (node : Node) (hn : node.IsDeclaration)
    (hb : ∀ b ∈ node.blocks, b.Balanced) (w : Writer) :
    (w.emit node).level = w.level ∧
    (w.emit node).scopes.length = w.scopes.length ∧
    (w.emit node).nesting = w.nesting ∧
    (w.emit node).atLineStart = true ∧
    (∀ indent : Indent, w.unit = indent.unit → node.BraceFree →
      ∃ added : String, (w.emit node).text = w.text ++ added ∧
        Tally opensBrace closesBrace 0 added.toList 0) := by
  have hdepth := (declaration_level vocabulary_true node hn (supplied_true hb) 0 0).run_keeps
    (Writer.deeper_kept w) w ⟨rfl, rfl⟩
  refine ⟨hdepth.1, hdepth.2, Writer.run_nesting _ w,
    Writer.run_atLineStart w (declaration_last node hn), ?_⟩
  intro indent hu hf
  have hlevel := declaration_level vocabulary_pairsBraces node hn (supplied_pairsBraces hb hf) 0 0
  obtain ⟨_, added, ha, ht⟩ := hlevel.run_keeps (Writer.braced_kept indent hu) w
    ⟨rfl, [], rfl, Tally.nil 0⟩
  refine ⟨String.ofList added, ?_, by rwa [String.toList_ofList]⟩
  rw [Writer.text, Writer.emit, ha, List.reverse_append, List.reverse_reverse, String.ofList_append]
  rfl

def flowMethod : Method :=
  .declare "run"
    [.code (Block.beginFlow "if ready" ++ Block.nested (Block.line "go()") ++ Block.endFlow)]

theorem flowMethod_blocks : ∀ b ∈ (Node.method flowMethod).blocks, b.Balanced := by
  intro b hb
  have hb : b =
      [.literal "if ready", .openScope, .code [.literal "go()", .newLine], .closeScope] := by
    simpa [Node.blocks, Method.blocks, flowMethod, Method.declare, Method.add, Method.new,
      Block.beginFlow, Block.nested, Block.line, Block.endFlow] using hb
  subst hb
  refine .intro (by decide) (by decide) ?_
  intro inner hi
  have hi : inner = [.literal "go()", .newLine] := by simpa using hi
  subst hi
  exact .intro (by decide) (by decide) (by simp)

theorem flowMethod_braceFree : (Node.method flowMethod).BraceFree where
  literal := by
    have h : ((Node.method flowMethod).literals.all fun text =>
        text.toList.all fun c => isBrace c == false) = true := by decide +kernel
    simpa using h
  ref := by
    have h : (Node.method flowMethod).refs = [] := by decide +kernel
    simp [h]
  description := by
    have h : (Node.method flowMethod).descriptions = [] := by decide +kernel
    simp [h]

theorem emit_balanced_flowMethod :
    (Node.method flowMethod).BraceFree ∧
    ((Writer.new .standard).openScope.emit (.method flowMethod)).level = 1 ∧
    ((Writer.new .standard).openScope.emit (.method flowMethod)).scopes.length = 1 ∧
    ∃ added : String, ((Writer.new .standard).openScope.emit (.method flowMethod)).text =
        (Writer.new .standard).openScope.text ++ added ∧
      Tally opensBrace closesBrace 0 added.toList 0 := by
  have h := emit_balanced (.method flowMethod) trivial flowMethod_blocks
    (Writer.new .standard).openScope
  exact ⟨flowMethod_braceFree, h.1, h.2.1, h.2.2.2.2 .standard rfl flowMethod_braceFree⟩

end SwiftDecl
