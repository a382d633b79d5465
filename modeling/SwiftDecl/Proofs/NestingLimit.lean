import SwiftDecl.Proofs.Aside
import SwiftDecl.Proofs.Gaps

/-!
# The nesting limit

What would take a writer more than `maxNesting` levels down is left out, and a
warning says so. Types and blocks count on one chain: each step into a nested
type and each step into a nested block of code that is written takes one level.
A type is warned about exactly if one of its chains is longer than the limit;
otherwise it is written as a writer without a limit would write it. Either way
the writer stays within the limit and comes back to the level it started at.
-/

set_option autoImplicit false

namespace SwiftDecl
open SwiftDecl.Layout

namespace Layout

namespace Op

/-- No event reported by the operations, or by those nested in them, is a
warning. -/
inductive Quiet : List Op → Prop
  | intro {ops : List Op} (reports : ∀ event, Op.report event ∈ ops → event.severity ≠ .warn)
      (inner : ∀ inner, Op.nested inner ∈ ops → Quiet inner) : Quiet ops

end Op

namespace Writer

mutual

def stepUnlimited (w : Writer) : Op → Writer
  | .nested ops => (runUnlimited w.enter ops).leave
  | op => w.step op

def runUnlimited (w : Writer) : List Op → Writer
  | [] => w
  | op :: ops => runUnlimited (stepUnlimited w op) ops

end

theorem run_fitting (ops : List Op) (w : Writer)
    (h : w.nesting + Op.depthOfAll ops ≤ maxNesting) : w.run ops = w.runUnlimited ops := by
  induction ops using Op.consInduct generalizing w with
  | nil => rw [run, runUnlimited]
  | flat op rest ho ih =>
    rw [Op.depthOfAll] at h
    have hstep : w.step op = w.stepUnlimited op := by
      cases op with
      | nested inner => exact absurd rfl (ho inner)
      | _ => simp only [stepUnlimited]
    rw [run, runUnlimited, ← hstep]
    refine ih _ ?_
    rw [step_nesting]
    omega
  | nested inner rest ihi ih =>
    rw [Op.depthOfAll, Op.depth] at h
    have henter : w.enter.nesting = w.nesting + 1 := rfl
    have hstep : w.step (.nested inner) = w.stepUnlimited (.nested inner) := by
      rw [step, stepUnlimited, if_pos (by omega), ihi w.enter (by omega)]
    rw [run, runUnlimited, ← hstep]
    refine ih _ ?_
    rw [step_nesting]
    omega

mutual

/-- Runs one operation and lists the writers on the way through what is nested
in it. -/
def stepVisiting (w : Writer) : Op → Writer × List Writer
  | .nested ops =>
    if w.nesting < maxNesting then
      let below := runVisiting w.enter ops
      (below.1.leave, below.2)
    else (w.report (.nestingLimit w.nesting), [])
  | op => (w.step op, [])

def runVisiting (w : Writer) : List Op → Writer × List Writer
  | [] => (w, [w])
  | op :: ops =>
    let next := stepVisiting w op
    let last := runVisiting next.1 ops
    (last.1, w :: next.2 ++ last.2)

end

theorem stepVisiting_flat {op : Op} (h : ∀ inner, op ≠ .nested inner) (w : Writer) :
    w.stepVisiting op = (w.step op, []) := by
  cases op with
  | nested inner => exact absurd rfl (h inner)
  | _ => simp only [stepVisiting]

theorem runVisiting_fst (ops : List Op) (w : Writer) : (w.runVisiting ops).1 = w.run ops := by
  induction ops using Op.consInduct generalizing w with
  | nil => rw [runVisiting, run]
  | flat op rest ho ih => rw [runVisiting, stepVisiting_flat ho, run, ih]
  | nested inner rest ihi ih =>
    have hstep : (w.stepVisiting (.nested inner)).1 = w.step (.nested inner) := by
      rw [stepVisiting, step]
      split
      · dsimp only
        rw [ihi]
      · rfl
    rw [runVisiting, run, ih, hstep]

theorem stepVisiting_fst (op : Op) (w : Writer) : (w.stepVisiting op).1 = w.step op := by
  have h := runVisiting_fst [op] w
  rwa [runVisiting, runVisiting, run, run] at h

theorem run_mem_visited (ops : List Op) (w : Writer) : w.run ops ∈ (w.runVisiting ops).2 := by
  induction ops generalizing w with
  | nil => simp [runVisiting, run]
  | cons op rest ih =>
    rw [runVisiting, run, stepVisiting_fst]
    exact List.mem_append_right _ (ih _)

theorem visited_nesting_le (ops : List Op) {w : Writer} (hw : w.nesting ≤ maxNesting) :
    ∀ v ∈ (w.runVisiting ops).2, v.nesting ≤ maxNesting := by
  induction ops using Op.consInduct generalizing w with
  | nil => simpa [runVisiting] using hw
  | flat op rest ho ih =>
    rw [runVisiting, stepVisiting_flat ho]
    exact List.forall_mem_cons.2 ⟨hw, ih (by rwa [step_nesting])⟩
  | nested inner rest ihi ih =>
    have hinside : ∀ v ∈ (w.stepVisiting (.nested inner)).2, v.nesting ≤ maxNesting := by
      rw [stepVisiting]
      split
      · rename_i hbelow
        exact ihi hbelow
      · simp
    rw [runVisiting, stepVisiting_fst]
    have hafter := ih (w := w.step (.nested inner)) (by rwa [step_nesting])
    exact List.forall_mem_append.2 ⟨List.forall_mem_cons.2 ⟨hw, hinside⟩, hafter⟩

def Warned (w : Writer) : Prop :=
  ∃ event ∈ w.events, event.severity = .warn

theorem warned_of_log {w w' : Writer} (h : w'.log = w.log) : w'.Warned ↔ w.Warned := by
  rw [Warned, Warned, events, events, h]

theorem enter_warned (w : Writer) : w.enter.Warned ↔ w.Warned :=
  Iff.rfl

theorem leave_warned (w : Writer) : w.leave.Warned ↔ w.Warned :=
  Iff.rfl

theorem report_warned (w : Writer) (event : Event) :
    (w.report event).Warned ↔ w.Warned ∨ event.severity = .warn := by
  simp [Warned, events, report, or_comm]

theorem step_warned_iff {op : Op} {w : Writer} (hw : w.nesting ≤ maxNesting)
    (hreport : ∀ event, op = .report event → event.severity ≠ .warn)
    (hnested : ∀ inner, op = .nested inner → ∀ v : Writer, v.nesting ≤ maxNesting →
      ((v.run inner).Warned ↔ v.Warned ∨ maxNesting < v.nesting + Op.depthOfAll inner)) :
    (w.step op).Warned ↔ w.Warned ∨ maxNesting < w.nesting + op.depth := by
  cases op with
  | nested inner =>
    rw [step, Op.depth]
    by_cases hbelow : w.nesting < maxNesting
    · have hrun := hnested inner rfl w.enter hbelow
      rw [if_pos hbelow, leave_warned, hrun, enter_warned]
      show _ ∨ maxNesting < w.nesting + 1 + _ ↔ _
      rw [Nat.add_assoc, Nat.add_comm 1]
    · -- At the limit this step is one too many, whatever is inside.
      rw [if_neg hbelow, report_warned]
      exact or_congr_right ⟨fun _ => by omega, fun _ => rfl⟩
  | report event =>
    simp only [step, report_warned, Op.depth]
    exact or_congr_right ⟨fun h => absurd h (hreport event rfl), fun h => by omega⟩
  | literal | word | openScope | closeScope | newLine | endLine | blankLine | indent | dedent =>
    simp only [Op.depth]
    exact Iff.trans (warned_of_log (step_log rfl w)) (or_iff_left (by omega)).symm

/-- A writer within the limit is warned by quiet operations exactly if they take
it further down than the limit. -/
theorem run_warned_iff {ops : List Op} (hq : Op.Quiet ops) {w : Writer}
    (hw : w.nesting ≤ maxNesting) :
    (w.run ops).Warned ↔ w.Warned ∨ maxNesting < w.nesting + Op.depthOfAll ops := by
  -- The outer induction is on what is nested, the inner one along the list. Steps
  -- keep the nesting, so each operation is measured from the same level.
  induction hq generalizing w with
  | @intro ops hreports hquiet ih =>
    induction ops generalizing w with
    | nil =>
      rw [run, Op.depthOfAll]
      exact (or_iff_left (by omega)).symm
    | cons op rest ihr =>
      have hstep : (w.step op).Warned ↔ w.Warned ∨ maxNesting < w.nesting + op.depth := by
        apply step_warned_iff hw
        · exact fun event he => hreports event (by simp [he])
        · exact fun inner hi v hv => ih inner (by simp [hi]) hv
      have hrest := ihr (fun event he => hreports event (List.mem_cons_of_mem _ he))
        (fun inner hm => hquiet inner (List.mem_cons_of_mem _ hm))
        (fun inner hm => ih inner (List.mem_cons_of_mem _ hm)) (w := w.step op)
        (by rwa [step_nesting])
      rw [run, hrest, hstep, step_nesting, Op.depthOfAll, or_assoc]
      apply or_congr_right
      omega

end Writer

end Layout

namespace Block

/-- The block has a chain of `n` steps, each into a block inside the last. -/
inductive Chain : Block → Nat → Prop
  | start (b : Block) : Chain b 0
  | code {b inner : Block} {n : Nat} (member : Token.code inner ∈ b) (rest : Chain inner n) :
      Chain b (n + 1)

theorem chain_iff {b : Block} {n : Nat} : b.Chain n ↔ n ≤ Op.depthOfAll b.ops := by
  induction b using Block.induct generalizing n with
  | step b ih =>
    cases n with
    | zero => exact ⟨fun _ => Nat.zero_le _, fun _ => .start b⟩
    | succ n =>
      rw [Nat.succ_le_iff, Op.lt_depthOfAll_iff]
      constructor
      · rintro (_ | ⟨hc, hrest⟩)
        exact ⟨_, nested_mem_ops.2 ⟨_, hc, rfl⟩, (ih _ hc).1 hrest⟩
      · rintro ⟨inner, hm, hn⟩
        obtain ⟨c, hc, rfl⟩ := nested_mem_ops.1 hm
        exact .code hc ((ih c hc).2 hn)

theorem ops_quiet (b : Block) : Op.Quiet b.ops := by
  induction b using Block.induct with
  | step b ih =>
    constructor
    · intro event he
      obtain ⟨c, _, h⟩ := mem_outline.1 (Op.report_mem_outline.2 he)
      exact absurd h (by simp)
    · intro inner hm
      obtain ⟨c, hc, rfl⟩ := nested_mem_ops.1 hm
      exact ih c hc

theorem inner_quiet {b : Block} {inner : List Op} (h : Op.nested inner ∈ b.ops) :
    Op.Quiet inner := by
  obtain ⟨c, _, rfl⟩ := nested_mem_ops.1 h
  exact c.ops_quiet

end Block

namespace TypeDecl

/-- The blocks that a type has written with its own members. A protocol has
neither initializers nor bodies written, but the defaults of parameters. -/
inductive WritesCode (d : TypeDecl) : Block → Prop
  | initializer {f : Field} {b : Block} (kind : d.kind ≠ .protocolType) (member : f ∈ d.fields)
      (value : f.initializer = some b) : WritesCode d b
  | defaultValue {m : Method} {p : Parameter} {b : Block} (member : m ∈ d.methods)
      (parameter : p ∈ m.parameters) (value : p.defaultValue = some b) : WritesCode d b
  | body {m : Method} {b : Block} (kind : d.kind ≠ .protocolType) (member : m ∈ d.methods)
      (value : m.body = some b) : WritesCode d b

/-- The type has a chain of `n` steps, first from type to nested type and then
from block to block inside, all of it in what is written. -/
inductive Chain : TypeDecl → Nat → Prop
  | start (d : TypeDecl) : Chain d 0
  | code {d : TypeDecl} {b : Block} {n : Nat} (written : d.WritesCode b) (rest : b.Chain n) :
      Chain d n
  | nested {d t : TypeDecl} {n : Nat} (member : t ∈ d.nested) (rest : Chain t n) :
      Chain d (n + 1)

section Written

variable {P : TypeDecl → Prop} {d : TypeDecl} {inner : List Op}

theorem nested_of_writesCode (h : d.Adopts P) {b : Block} (hb : d.WritesCode b)
    (hi : Op.nested inner ∈ b.ops) : Op.nested inner ∈ d.ops := by
  apply nested_mem_ops.2
  cases hb with
  | initializer kind member value =>
    refine Or.inl ⟨_, member, Op.nested_mem_outline.1 ?_⟩
    rw [Field.outline_adopted (h.field _ member), if_neg kind]
    exact nested_mem_blocks.2 ⟨b, by simp [Field.blocks, value], hi⟩
  | defaultValue member parameter value =>
    refine Or.inr (Or.inl ⟨_, member, Op.nested_mem_outline.1 ?_⟩)
    rw [Method.outline_ops]
    refine List.mem_append_left _ (nested_mem_blocks.2 ⟨b, ?_, hi⟩)
    exact List.mem_flatMap.2 ⟨_, parameter, by simp [Parameter.blocks, value]⟩
  | body kind member value =>
    refine Or.inr (Or.inl ⟨_, member, Op.nested_mem_outline.1 ?_⟩)
    rw [Method.outline_ops, h.method _ member, if_neg (by simpa using kind)]
    exact List.mem_append_right _ (nested_mem_blocks.2 ⟨b, by simp [value], hi⟩)

theorem writesCode_of_field (h : d.Adopts P) {f : Field} (hf : f ∈ d.fields)
    (hi : Op.nested inner ∈ f.ops) : ∃ b, d.WritesCode b ∧ Op.nested inner ∈ b.ops := by
  have ho := Op.nested_mem_outline.2 hi
  rw [Field.outline_adopted (h.field f hf)] at ho
  split at ho
  · simp at ho
  · rename_i kind
    obtain ⟨b, hb, hi⟩ := nested_mem_blocks.1 ho
    exact ⟨b, .initializer kind hf (by simpa [Field.blocks] using hb), hi⟩

theorem writesCode_of_method (h : d.Adopts P) {m : Method} (hm : m ∈ d.methods)
    (hi : Op.nested inner ∈ m.ops) : ∃ b, d.WritesCode b ∧ Op.nested inner ∈ b.ops := by
  have ho := Op.nested_mem_outline.2 hi
  rw [Method.outline_ops, h.method m hm] at ho
  rcases List.mem_append.1 ho with ho | ho
  · obtain ⟨b, hb, hi⟩ := nested_mem_blocks.1 ho
    obtain ⟨p, hp, hb⟩ := List.mem_flatMap.1 hb
    exact ⟨b, .defaultValue hm hp (by simpa [Parameter.blocks] using hb), hi⟩
  · split at ho
    · simp at ho
    · rename_i kind
      obtain ⟨b, hb, hi⟩ := nested_mem_blocks.1 ho
      exact ⟨b, .body (by simpa using kind) hm (by simpa using hb), hi⟩

end Written

theorem chain_iff {d : TypeDecl} (h : d.Declared) {n : Nat} :
    d.Chain n ↔ n ≤ Op.depthOfAll d.ops := by
  induction d using TypeDecl.induct generalizing n with
  | step d ih =>
    have ha := h.adopts
    cases n with
    | zero => exact ⟨fun _ => Nat.zero_le _, fun _ => .start d⟩
    | succ n =>
      -- To enter the code of a member is no step; the first step of such a chain is
      -- one into a nested block.
      have hcode : ∀ b inner, d.WritesCode b → Op.nested inner ∈ b.ops →
          n ≤ Op.depthOfAll inner → d.Chain (n + 1) := by
        intro b inner hb hi hn
        exact .code hb (Block.chain_iff.2 (Op.lt_depthOfAll_iff.2 ⟨inner, hi, hn⟩))
      rw [Nat.succ_le_iff, Op.lt_depthOfAll_iff]
      constructor
      · rintro (_ | ⟨hb, hrest⟩ | ⟨ht, hrest⟩)
        · obtain ⟨inner, hi, hn⟩ := Op.lt_depthOfAll_iff.1 (Block.chain_iff.1 hrest)
          exact ⟨inner, nested_of_writesCode ha hb hi, hn⟩
        · exact ⟨_, nested_mem_ops.2 (Or.inr (Or.inr ⟨_, ht, rfl⟩)),
            (ih _ ht (ha.nested _ ht)).1 hrest⟩
      · rintro ⟨inner, hm, hn⟩
        rcases nested_mem_ops.1 hm with ⟨f, hf, hi⟩ | ⟨m, hm, hi⟩ | ⟨t, ht, rfl⟩
        · obtain ⟨b, hb, hi⟩ := writesCode_of_field ha hf hi
          exact hcode b inner hb hi hn
        · obtain ⟨b, hb, hi⟩ := writesCode_of_method ha hm hi
          exact hcode b inner hb hi hn
        · exact .nested ht ((ih t ht (ha.nested t ht)).2 hn)

theorem ops_quiet (d : TypeDecl) : Op.Quiet d.ops := by
  induction d using TypeDecl.induct with
  | step d ih =>
    constructor
    · intro event he
      rcases report_mem_ops.1 he with rfl | ⟨f, _, hr⟩ | ⟨m, _, hr⟩
      · simp [announcement, Event.severity]
      · simp [Field.report_severity hr]
      · exact absurd hr Method.report_notMem_ops
    · intro inner hm
      rcases nested_mem_ops.1 hm with ⟨f, hf, hi⟩ | ⟨m, hm, hi⟩ | ⟨t, ht, rfl⟩
      · obtain ⟨b, _, hi⟩ := field_nested hi
        exact b.inner_quiet hi
      · obtain ⟨b, _, hi⟩ := method_nested hi
        exact b.inner_quiet hi
      · exact ih t ht

end TypeDecl

/-- A declared type that is written from the start is warned about exactly if it
has a chain of more than 256 steps. Without a warning the limit has changed
nothing. In any case the run that lists the writers on its way comes to the same
end, which is among them, none of them is more than 256 levels down, and the last
one is at the level of the first. -/
theorem emit_warned_iff {d : TypeDecl} (declared : d.Declared) (indent : Indent) :
    (((Writer.new indent).emit (.type d)).Warned ↔ ∃ n, d.Chain n ∧ 256 < n) ∧
    (¬((Writer.new indent).emit (.type d)).Warned →
      (Writer.new indent).emit (.type d) = (Writer.new indent).runUnlimited d.ops) ∧
    ((Writer.new indent).runVisiting d.ops).1 = (Writer.new indent).emit (.type d) ∧
    (Writer.new indent).emit (.type d) ∈ ((Writer.new indent).runVisiting d.ops).2 ∧
    (∀ v ∈ ((Writer.new indent).runVisiting d.ops).2, v.nesting ≤ 256) ∧
    ((Writer.new indent).emit (.type d)).nesting = (Writer.new indent).nesting := by
  have hstart : (Writer.new indent).nesting = 0 := rfl
  have hclean : ¬(Writer.new indent).Warned := by simp [Writer.Warned, Writer.events, Writer.new]
  have hwarned : ((Writer.new indent).emit (.type d)).Warned ↔
      maxNesting < Op.depthOfAll d.ops := by
    have h := Writer.run_warned_iff d.ops_quiet (w := Writer.new indent) (Nat.zero_le _)
    rwa [or_iff_right hclean, hstart, Nat.zero_add] at h
  refine ⟨?_, ?_, Writer.runVisiting_fst d.ops _, Writer.run_mem_visited d.ops _,
    Writer.visited_nesting_le d.ops (Nat.zero_le _), Writer.run_nesting d.ops _⟩
  · rw [hwarned]
    constructor
    · exact fun h => ⟨_, (TypeDecl.chain_iff declared).2 (Nat.le_refl _), h⟩
    · rintro ⟨n, hn, hlong⟩
      exact Nat.lt_of_lt_of_le hlong ((TypeDecl.chain_iff declared).1 hn)
  · intro h
    rw [hwarned, Nat.not_lt] at h
    apply Writer.run_fitting
    rw [hstart, Nat.zero_add]
    exact h

theorem station_declared : station.Declared := by
  apply TypeDecl.Declared.intro
  intro t ht
  simp only [List.mem_cons, reduceCtorEq, TypeDecl.Clause.nested.injEq, List.not_mem_nil,
    or_false, false_or] at ht
  rw [ht]
  exact .intro (by simp)

theorem tower_declared {d : TypeDecl} (h : d.Declared) (n : Nat) : (tower d n).Declared := by
  induction n with
  | zero => exact h
  | succ n ih =>
    apply TypeDecl.Declared.intro
    intro t ht
    rw [TypeDecl.Clause.nested.inj (List.mem_singleton.1 ht)]
    exact ih

theorem tower_chain {d : TypeDecl} {k : Nat} (h : d.Chain k) (n : Nat) :
    (tower d n).Chain (k + n) := by
  induction n with
  | zero => exact h
  | succ n ih => exact .nested (by simp [tower, TypeDecl.declare, TypeDecl.add]) ih

theorem tower_depth (d : TypeDecl) (n : Nat) : (tower d n).depth = d.depth + n := by
  induction n with
  | zero => rfl
  | succ n ih =>
    rw [tower]
    simp [TypeDecl.declare, TypeDecl.add, TypeDecl.new, TypeDecl.depth, TypeDecl.depthOfAll,
      TypeDecl.ownCode, Block.depth, Token.depthOfAll, ih, Nat.add_assoc]

theorem station_chain : station.Chain 1 := by
  have hmethod : flowMethod.adopt .structType ∈ station.methods := by
    simp [station, TypeDecl.declare, TypeDecl.add, TypeDecl.new]
  exact .code (.body (by decide) hmethod rfl) (.code (by simp [Block.nested])
    (.start (Block.line "go()")))

/-- Inside of 255 types the block is written, inside of 256 it is left out. -/
theorem emit_warned_tower :
    (tower station 255).Declared ∧
    ¬((Writer.new .tab).emit (.type (tower station 255))).Warned ∧
    (Writer.new .tab).emit (.type (tower station 255)) =
      (Writer.new .tab).runUnlimited (tower station 255).ops ∧
    (tower station 256).Declared ∧
    ((Writer.new .tab).emit (.type (tower station 256))).Warned := by
  have hfits := tower_declared station_declared 255
  have hexceeds := tower_declared station_declared 256
  have hunwarned : ¬((Writer.new .tab).emit (.type (tower station 255))).Warned := by
    rw [(emit_warned_iff hfits .tab).1]
    rintro ⟨n, hn, hlong⟩
    have hstation : station.depth ≤ 1 := by decide +kernel
    have hdepth := (tower station 255).ops_depth
    rw [tower_depth] at hdepth
    have hle := (TypeDecl.chain_iff hfits).1 hn
    omega
  exact ⟨hfits, hunwarned, (emit_warned_iff hfits .tab).2.1 hunwarned, hexceeds,
    (emit_warned_iff hexceeds .tab).1.2 ⟨_, tower_chain station_chain 256, by decide⟩⟩

end SwiftDecl
