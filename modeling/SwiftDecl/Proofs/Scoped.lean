import SwiftDecl.Proofs.Assembly
import SwiftDecl.Proofs.Writes

/-!
# Scoped operations

`Scoped ok s i ops s' i'` says that `ops` can be read with `s` scopes and `i`
further indentations open and leaves `s'` and `i'` of them: nothing is closed
that is not open, an empty line is only asked for inside a scope, and what is
nested ends where it starts. `ok` is a condition on the operations that write
text. Every declaration is scoped when its blocks are balanced; this is the one
fact about declarations that the theorems on balance and on lines start from.
-/

set_option autoImplicit false

namespace SwiftDecl.Layout

inductive Scoped (ok : Op → Prop) : Nat → Nat → List Op → Nat → Nat → Prop
  | nil {s i : Nat} : Scoped ok s i [] s i
  | plain {s i s' i' : Nat} {op : Op} {rest : List Op} (plain : op.isPlain = true) (fits : ok op)
      (tail : Scoped ok s i rest s' i') : Scoped ok s i (op :: rest) s' i'
  | blankLine {s i s' i' : Nat} {rest : List Op} (tail : Scoped ok (s + 1) i rest s' i') :
      Scoped ok (s + 1) i (.blankLine :: rest) s' i'
  | openScope {s i s' i' : Nat} {rest : List Op} (tail : Scoped ok (s + 1) i rest s' i') :
      Scoped ok s i (.openScope :: rest) s' i'
  | closeScope {s i s' i' : Nat} {rest : List Op} (tail : Scoped ok s i rest s' i') :
      Scoped ok (s + 1) i (.closeScope :: rest) s' i'
  | indent {s i s' i' : Nat} {rest : List Op} (tail : Scoped ok s (i + 1) rest s' i') :
      Scoped ok s i (.indent :: rest) s' i'
  | dedent {s i s' i' : Nat} {rest : List Op} (tail : Scoped ok s i rest s' i') :
      Scoped ok s (i + 1) (.dedent :: rest) s' i'
  | nested {s i s' i' : Nat} {inner rest : List Op} (body : Scoped ok s i inner s i)
      (tail : Scoped ok s i rest s' i') : Scoped ok s i (.nested inner :: rest) s' i'

/-- Operations that end with as many scopes and indentations open as they start
with, however many that are. -/
def Level (ok : Op → Prop) (ops : List Op) : Prop :=
  ∀ s i, Scoped ok s i ops s i

variable {ok : Op → Prop}

theorem Scoped.append {s i s' i' s'' i'' : Nat} {a b : List Op} (ha : Scoped ok s i a s' i')
    (hb : Scoped ok s' i' b s'' i'') : Scoped ok s i (a ++ b) s'' i'' := by
  induction ha with
  | nil => exact hb
  | plain hp ho _ ih => exact .plain hp ho (ih hb)
  | blankLine _ ih => exact .blankLine (ih hb)
  | openScope _ ih => exact .openScope (ih hb)
  | closeScope _ ih => exact .closeScope (ih hb)
  | indent _ ih => exact .indent (ih hb)
  | dedent _ ih => exact .dedent (ih hb)
  | nested hin _ _ ih => exact .nested hin (ih hb)

namespace Level

theorem nil : Level ok [] :=
  fun _ _ => .nil

theorem append {a b : List Op} (ha : Level ok a) (hb : Level ok b) : Level ok (a ++ b) :=
  fun s i => (ha s i).append (hb s i)

theorem plain {op : Op} {rest : List Op} (hp : op.isPlain = true) (ho : ok op)
    (hr : Level ok rest) : Level ok (op :: rest) :=
  fun s i => .plain hp ho (hr s i)

theorem single {op : Op} (hp : op.isPlain = true) (ho : ok op) : Level ok [op] :=
  plain hp ho nil

theorem braced {inner : List Op} (h : Level ok inner) :
    Level ok (.openScope :: inner ++ [.closeScope]) :=
  fun s i => .openScope ((h (s + 1) i).append (.closeScope .nil))

end Level

/-- What each operation has to do to a property of writers, given how many scopes
and indentations are open, so that scoped operations keep it. -/
structure Kept (ok : Op → Prop) (P : Nat → Nat → Writer → Prop) : Prop where
  plain : ∀ {s i w op}, op.isPlain = true → ok op → P s i w → P s i (w.step op)
  blankLine : ∀ {s i w}, P (s + 1) i w → P (s + 1) i w.blankLine
  openScope : ∀ {s i w}, P s i w → P (s + 1) i w.openScope
  closeScope : ∀ {s i w}, P (s + 1) i w → P s i w.closeScope
  indent : ∀ {s i w}, P s i w → P s (i + 1) w.indent
  dedent : ∀ {s i w}, P s (i + 1) w → P s i w.dedent
  enter : ∀ {s i w}, P s i w → P s i w.enter
  leave : ∀ {s i w}, P s i w → P s i w.leave
  report : ∀ {s i w event}, P s i w → P s i (w.report event)

theorem Scoped.run_keeps {P : Nat → Nat → Writer → Prop} (hk : Kept ok P) {s i s' i' : Nat}
    {ops : List Op} (h : Scoped ok s i ops s' i') (w : Writer) (hw : P s i w) :
    P s' i' (w.run ops) := by
  induction h generalizing w with
  | nil => simpa only [Writer.run] using hw
  | plain hp ho _ ih =>
    rw [Writer.run]
    exact ih _ (hk.plain hp ho hw)
  | blankLine _ ih =>
    rw [Writer.run, Writer.step]
    exact ih _ (hk.blankLine hw)
  | openScope _ ih =>
    rw [Writer.run, Writer.step]
    exact ih _ (hk.openScope hw)
  | closeScope _ ih =>
    rw [Writer.run, Writer.step]
    exact ih _ (hk.closeScope hw)
  | indent _ ih =>
    rw [Writer.run, Writer.step]
    exact ih _ (hk.indent hw)
  | dedent _ ih =>
    rw [Writer.run, Writer.step]
    exact ih _ (hk.dedent hw)
  | nested _ _ ihi ih =>
    rw [Writer.run, Writer.step]
    apply ih
    split
    · exact hk.leave (ihi _ (hk.enter hw))
    · exact hk.report hw

end SwiftDecl.Layout

namespace SwiftDecl
open SwiftDecl.Layout

variable {ok : Op → Prop}

/-- A condition that holds of everything a declaration writes besides what its
author supplies: fixed texts, cleaned names, modifiers and line ends. -/
structure Vocabulary (ok : Op → Prop) : Prop where
  newLine : ok .newLine
  endLine : ok .endLine
  report : ∀ event, ok (.report event)
  fixed : ∀ text ∈ fixedTexts, ok (.literal text)
  modifier : ∀ m : Modifier, ok (.word m.keyword)
  typeName : ∀ raw, ok (.literal (Name.typeName raw))
  memberName : ∀ raw, ok (.literal (Name.memberName raw))
  declaredName : ∀ d : TypeDecl, ok (.literal d.typeName)

structure Supplied (ok : Op → Prop) (blocks : List Block) (refs : List TypeRef)
    (descriptions : List String) : Prop where
  balanced : ∀ b ∈ blocks, b.Balanced
  literal : ∀ b ∈ blocks, ∀ text ∈ b.literals, ok (.literal text)
  ref : ∀ r ∈ refs, ok (.word r.render)
  description : ∀ text ∈ descriptions, ∀ line ∈ Text.lines (Text.trimEnd text.toList),
    ok (.word (Heading.commentLine line))

/-- Reading the tokens of a block from the left, with `s` scopes and `i`
indentations still to close. -/
theorem tokens_scoped (hv : Vocabulary ok) (tokens : List Token) (s i : Nat)
    (hs : Tally Token.opensScope Token.closesScope s tokens 0)
    (hi : Tally Token.opensIndent Token.closesIndent i tokens 0)
    (hin : ∀ inner, Token.code inner ∈ tokens → Level ok (Block.ops inner))
    (hl : ∀ text ∈ Block.literals tokens, ok (.literal text))
    (hr : ∀ r ∈ Block.refs tokens, ok (.word r.render)) (a b : Nat) :
    Scoped ok (a + s) (b + i) (Block.ops tokens) a b := by
  induction tokens generalizing s i with
  | nil =>
    have h₁ : s = 0 := by simpa using hs.total
    have h₂ : i = 0 := by simpa using hi.total
    subst h₁ h₂
    exact .nil
  | cons token rest ih =>
    have hin' : ∀ inner, Token.code inner ∈ rest → Level ok (Block.ops inner) :=
      fun inner h => hin inner (List.mem_cons_of_mem _ h)
    rw [Block.literals_cons] at hl
    rw [Block.refs_cons] at hr
    have hl' : ∀ text ∈ Block.literals rest, ok (.literal text) :=
      fun text h => hl text (by simp [h])
    have hr' : ∀ r ∈ Block.refs rest, ok (.word r.render) := fun r h => hr r (by simp [h])
    rw [Block.ops_cons]
    cases token with
    | literal text =>
      rw [Token.op]
      exact .plain rfl (hl text (by simp [Token.literals]))
        (ih s i (hs.tail_neutral rfl rfl) (hi.tail_neutral rfl rfl) hin' hl' hr')
    | type ref =>
      rw [Token.op]
      exact .plain rfl (hr ref (by simp [Token.refs]))
        (ih s i (hs.tail_neutral rfl rfl) (hi.tail_neutral rfl rfl) hin' hl' hr')
    | code block =>
      rw [Token.op]
      exact .nested (hin block (by simp) _ _)
        (ih s i (hs.tail_neutral rfl rfl) (hi.tail_neutral rfl rfl) hin' hl' hr')
    | newLine =>
      rw [Token.op]
      exact .plain rfl hv.newLine
        (ih s i (hs.tail_neutral rfl rfl) (hi.tail_neutral rfl rfl) hin' hl' hr')
    | openScope =>
      rw [Token.op]
      exact .openScope
        (ih (s + 1) i (hs.tail_open rfl rfl) (hi.tail_neutral rfl rfl) hin' hl' hr')
    | closeScope =>
      obtain ⟨s, rfl, hs'⟩ := hs.tail_close rfl rfl
      rw [Token.op]
      exact .closeScope (ih s i hs' (hi.tail_neutral rfl rfl) hin' hl' hr')
    | indent =>
      rw [Token.op]
      exact .indent (ih s (i + 1) (hs.tail_neutral rfl rfl) (hi.tail_open rfl rfl) hin' hl' hr')
    | dedent =>
      obtain ⟨i, rfl, hi'⟩ := hi.tail_close rfl rfl
      rw [Token.op]
      exact .dedent (ih s i (hs.tail_neutral rfl rfl) hi' hin' hl' hr')

theorem block_level (hv : Vocabulary ok) {block : Block} (hb : block.Balanced)
    (hl : ∀ text ∈ block.literals, ok (.literal text))
    (hr : ∀ r ∈ block.refs, ok (.word r.render)) : Level ok block.ops := by
  induction hb with
  | @intro block hs hi _ ih =>
    have hin : ∀ inner, Token.code inner ∈ block → Level ok (Block.ops inner) := by
      intro inner hm
      exact ih inner hm
        (fun text h => hl text (Block.literals_of_code hm h))
        (fun r h => hr r (Block.refs_of_code hm h))
    intro a b
    exact tokens_scoped hv block 0 0 hs hi hin hl hr a b

theorem level_assembles (hv : Vocabulary ok) : Assembles (Level ok) where
  nil := Level.nil
  append := Level.append
  braced := Level.braced
  endLine := .single rfl hv.endLine
  report := fun event => .single rfl (hv.report event)
  fixed := fun text h => .single rfl (hv.fixed text h)
  modifier := fun m => .single rfl (hv.modifier m)
  typeName := fun raw => .single rfl (hv.typeName raw)
  memberName := fun raw => .single rfl (hv.memberName raw)
  declaredName := fun d => .single rfl (hv.declaredName d)

theorem Supplied.provides (hv : Vocabulary ok) {node : Node}
    (h : Supplied ok node.blocks node.refs node.descriptions) :
    Provides (Level ok) node.blocks node.refs node.descriptions where
  block := fun b hb => block_level hv (h.balanced b hb) (h.literal b hb)
    fun r hr => h.ref r (node.refs_of_block hb hr)
  ref := fun r hr => .single rfl (h.ref r hr)
  description := fun text ht line hl =>
    .plain rfl (h.description text ht line hl) (.single rfl hv.newLine)

theorem separated_scoped (follows : Bool) (members : List (List Op))
    (h : ∀ member ∈ members, Level ok member) (s i : Nat) :
    Scoped ok (s + 1) i (TypeDecl.separatedOps follows members) (s + 1) i := by
  induction members generalizing follows with
  | nil => exact .nil
  | cons member rest ih =>
    have hm := h member (by simp) (s + 1) i
    have hr := ih true fun m hm => h m (by simp [hm])
    cases follows with
    | false => exact hm.append hr
    | true => exact .blankLine (hm.append hr)

theorem opening_scoped (hv : Vocabulary ok) (d : TypeDecl) (event : Event)
    (h : TypeProvides (Level ok) d) (s i : Nat) :
    Scoped ok s i (.report event :: d.headerOps ++ [.openScope]) (s + 1) i :=
  .plain rfl (hv.report _)
    (((level_assembles hv).header d h.header s i).append (.openScope .nil))

theorem type_level (hv : Vocabulary ok) (d : TypeDecl)
    (h : Provides (Level ok) d.blocks d.refs d.descriptions) : Level ok d.ops := by
  induction d using TypeDecl.induct with
  | step d ih =>
    intro s i
    have ha := level_assembles hv
    have hd := type_provides h
    have hfields : Level ok (d.fields.flatMap Field.ops) :=
      ha.flatMap fun f hf => ha.field f (hd.field f hf)
    have hmembers : ∀ member ∈ d.methods.map Method.ops ++ d.nested.map (fun n => [.nested n.ops]),
        Level ok member := by
      intro member hm
      rcases List.mem_append.1 hm with hm | hm
      · obtain ⟨m, hm', rfl⟩ := List.mem_map.1 hm
        exact ha.method m (hd.method m hm')
      · obtain ⟨n, hn, rfl⟩ := List.mem_map.1 hm
        exact fun s i => .nested (ih n hn (hd.nested n hn) s i) .nil
    rw [d.ops_eq]
    exact ((opening_scoped hv d _ hd s i).append
      ((hfields (s + 1) i).append (separated_scoped _ _ hmembers s i))).append (.closeScope .nil)

theorem declaration_level (hv : Vocabulary ok) (node : Node) (hn : node.IsDeclaration)
    (h : Supplied ok node.blocks node.refs node.descriptions) : Level ok node.ops := by
  have hp := h.provides hv
  cases node with
  | field f => exact (level_assembles hv).field f hp
  | method m => exact (level_assembles hv).method m hp
  | type d => exact type_level hv d hp
  | parameter p => exact hn.elim
  | block b => exact hn.elim
  | ref t => exact hn.elim

theorem declaration_last (node : Node) (hn : node.IsDeclaration) :
    node.ops.getLast? = some .endLine ∨ node.ops.getLast? = some .closeScope := by
  cases node with
  | field f =>
    obtain ⟨kind, hk⟩ := hn
    left
    cases kind <;>
      simp [Node.ops, Field.ops, Field.declarationOps, hk, Field.caseOps, Field.requirementOps,
        Field.propertyOps, List.getLast?_cons]
  | method m =>
    simp only [Node.ops, Method.ops, Method.bodyOps]
    split <;> simp [List.getLast?_cons]
  | type d => simp [Node.ops, d.ops_eq, List.getLast?_cons]
  | parameter p => exact hn.elim
  | block b => exact hn.elim
  | ref t => exact hn.elim

end SwiftDecl
