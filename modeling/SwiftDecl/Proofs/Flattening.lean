import SwiftDecl.Proofs.Clauses
import SwiftDecl.Proofs.Dependencies
import SwiftDecl.Proofs.NestingLimit

/-!
# Flattening

A nested block is written as its tokens would be in its place. So a block has a
flat form, with every nested block replaced by its tokens down to the nesting
limit and the blocks below the limit left out, and a writer cannot tell the two
apart but by its log, which has one warning for each block that was left out.
Modules are collected from all blocks, however deep they are.
-/

set_option autoImplicit false

namespace SwiftDecl
open SwiftDecl.Layout

namespace Token

mutual

/-- The token itself. A block is replaced by its tokens, as far down as there are
levels, and left out below. -/
def flatten : Token → Nat → List Token
  | .code _, 0 => []
  | .code block, levels + 1 => flattenAll block levels
  | token, _ => [token]

def flattenAll : List Token → Nat → List Token
  | [], _ => []
  | token :: rest, levels => token.flatten levels ++ flattenAll rest levels

end

mutual

def blocksAt : Token → Nat → List (List Token)
  | .code block, 0 => [block]
  | .code block, level + 1 => blocksAtOfAll block level
  | _, _ => []

def blocksAtOfAll : List Token → Nat → List (List Token)
  | [], _ => []
  | token :: rest, level => token.blocksAt level ++ blocksAtOfAll rest level

end

end Token

namespace Block

def flatten (block : Block) (levels : Nat) : Block :=
  Token.flattenAll block levels

/-- The blocks at one level: those nested in the block itself at level zero,
those nested in these at level one. -/
def blocksAt (block : Block) (level : Nat) : List Block :=
  Token.blocksAtOfAll block level

theorem flatten_cons (token : Token) (rest : Block) (levels : Nat) :
    flatten (token :: rest) levels = token.flatten levels ++ flatten rest levels := by
  rw [flatten, Token.flattenAll, flatten]

theorem blocksAt_cons (token : Token) (rest : Block) (level : Nat) :
    blocksAt (token :: rest) level = token.blocksAt level ++ blocksAt rest level := by
  rw [blocksAt, Token.blocksAtOfAll, blocksAt]

theorem flatten_code (inner : Block) (levels : Nat) :
    Token.flatten (.code inner) (levels + 1) = inner.flatten levels := by
  rw [Token.flatten, flatten]

theorem blocksAt_code (inner : Block) (level : Nat) :
    Token.blocksAt (.code inner) (level + 1) = inner.blocksAt level := by
  rw [Token.blocksAt, blocksAt]

theorem flatten_flat {token : Token} (h : ∀ inner, token ≠ .code inner) (levels : Nat) :
    token.flatten levels = [token] := by
  cases token with
  | code inner => exact absurd rfl (h inner)
  | _ => cases levels <;> rfl

theorem blocksAt_flat {token : Token} (h : ∀ inner, token ≠ .code inner) (level : Nat) :
    token.blocksAt level = [] := by
  cases token with
  | code inner => exact absurd rfl (h inner)
  | _ => cases level <;> rfl

theorem code_notMem_flatten (block : Block) (levels : Nat) (inner : Block) :
    Token.code inner ∉ block.flatten levels := by
  induction block using Block.consInduct generalizing levels with
  | nil => simp [flatten, Token.flattenAll]
  | flat token rest hflat ih =>
    rw [flatten_cons, flatten_flat hflat, List.mem_append, List.mem_singleton, not_or]
    exact ⟨(hflat inner).symm, ih levels⟩
  | code block rest ihb ih =>
    rw [flatten_cons, List.mem_append, not_or]
    refine ⟨?_, ih levels⟩
    cases levels with
    | zero => simp [Token.flatten]
    | succ levels =>
      rw [flatten_code]
      exact ihb levels

theorem outline_flatten (block : Block) (levels : Nat) :
    ∀ op ∈ (block.flatten levels).ops, Op.outline [op] = [] := by
  intro op ho
  cases op with
  | nested inner =>
    obtain ⟨c, hc, -⟩ := nested_mem_ops.1 ho
    exact absurd hc (code_notMem_flatten block levels c)
  | report event =>
    obtain ⟨c, -, h⟩ := mem_outline.1 (Op.report_mem_outline.2 ho)
    exact absurd h (by simp)
  | _ => rfl

/-- What is left out at the limit, in a log that had `log` before. -/
def cutLog (blocks : List Block) (log : List Event) : List Event :=
  List.replicate blocks.length (.nestingLimit maxNesting) ++ log

theorem cutLog_append (a b : List Block) (log : List Event) :
    cutLog b (cutLog a log) = cutLog (a ++ b) log := by
  rw [cutLog, cutLog, cutLog, ← List.append_assoc, List.replicate_append_replicate,
    List.length_append, Nat.add_comm]

theorem step_flatten_flat {token : Token} (hflat : ∀ inner, token ≠ .code inner) (w : Writer)
    (levels : Nat) :
    w.step token.op = (w.run (ops (token.flatten levels))).aside w.nesting
      (cutLog (token.blocksAt levels) w.log) := by
  have hop : Op.outline [token.op] = [] := by
    cases token with
    | code inner => exact absurd rfl (hflat inner)
    | _ => rfl
  have hlog := Writer.step_log hop w
  have hnesting := Writer.step_nesting token.op w
  rw [flatten_flat hflat, blocksAt_flat hflat, ops_cons, ops_nil, Writer.run, Writer.run]
  simp [Writer.aside, cutLog, ← hlog, ← hnesting]

theorem step_flatten_code {inner : Block} {w : Writer} {levels : Nat}
    (h : w.nesting + levels = maxNesting)
    (hinner : ∀ (v : Writer) (n : Nat), v.nesting + n = maxNesting →
      v.run inner.ops = (v.run (inner.flatten n).ops).aside v.nesting
        (cutLog (inner.blocksAt n) v.log)) :
    w.step (Token.code inner).op = (w.run (ops (Token.flatten (.code inner) levels))).aside
      w.nesting (cutLog (Token.blocksAt (.code inner) levels) w.log) := by
  have hop : (Token.code inner).op = .nested (ops inner) := by rw [Token.op, ops]
  rw [hop, Writer.step]
  cases levels with
  | zero =>
    rw [if_neg (by omega), Token.flatten, Token.blocksAt, ops_nil, Writer.run]
    have hn : w.nesting = maxNesting := h
    rw [hn]
    simp [Writer.report, Writer.aside, cutLog, ← hn]
  | succ levels =>
    have hn : w.enter.nesting = w.nesting + 1 := rfl
    have henter : w.enter = w.aside (w.nesting + 1) w.log := rfl
    rw [if_pos (by omega), hinner w.enter levels (by omega), flatten_code, blocksAt_code,
      henter, Writer.run_aside _ _ _ (outline_flatten inner levels)]
    rfl

theorem run_flatten_cons {token : Token} {rest : Block} {w : Writer} {levels : Nat}
    (hstep : w.step token.op = (w.run (ops (token.flatten levels))).aside w.nesting
      (cutLog (token.blocksAt levels) w.log))
    (hrest : (w.step token.op).run rest.ops =
      ((w.step token.op).run (rest.flatten levels).ops).aside (w.step token.op).nesting
        (cutLog (rest.blocksAt levels) (w.step token.op).log)) :
    w.run (ops (token :: rest)) = (w.run (ops (flatten (token :: rest) levels))).aside w.nesting
      (cutLog (blocksAt (token :: rest) levels) w.log) := by
  -- What is flat runs the same wherever the token has brought nesting and log to.
  rw [ops_cons, Writer.run, hrest, Writer.step_nesting, hstep,
    Writer.run_aside _ _ _ (outline_flatten rest levels), flatten_cons, blocksAt_cons,
    ops_append, Writer.run_append, ← cutLog_append]
  rfl

/-- With as many levels as there are left to the limit, the flat form is written
as the block is, bar the warnings about the blocks below. -/
theorem run_flatten (block : Block) (w : Writer) (levels : Nat)
    (h : w.nesting + levels = maxNesting) :
    w.run block.ops = (w.run (block.flatten levels).ops).aside w.nesting
      (cutLog (block.blocksAt levels) w.log) := by
  induction block using Block.consInduct generalizing w levels with
  | nil => rfl
  | flat token rest hflat ih =>
    exact run_flatten_cons (step_flatten_flat hflat w levels)
      (ih _ levels (by rwa [Writer.step_nesting]))
  | code inner rest ihi ih =>
    exact run_flatten_cons (step_flatten_code h ihi)
      (ih _ levels (by rwa [Writer.step_nesting]))

theorem depth_flat_le_iff {token : Token} (hflat : ∀ inner, token ≠ .code inner)
    (rest : Block) (n : Nat) : depth (token :: rest) ≤ n ↔ rest.depth ≤ n := by
  rw [depth_le_iff, depth_le_iff]
  simp [fun inner => (hflat inner).symm]

theorem depth_code_le_iff (inner rest : Block) (n : Nat) :
    depth (.code inner :: rest) ≤ n ↔ inner.depth + 1 ≤ n ∧ rest.depth ≤ n := by
  rw [depth_le_iff, depth_le_iff]
  simp [or_imp, forall_and]

theorem blocksAt_eq_nil_iff (block : Block) (level : Nat) :
    block.blocksAt level = [] ↔ block.depth ≤ level := by
  induction block using Block.consInduct generalizing level with
  | nil => simp [blocksAt, Token.blocksAtOfAll, depth_le_iff]
  | flat token rest hflat ih =>
    rw [blocksAt_cons, blocksAt_flat hflat, List.nil_append, ih, depth_flat_le_iff hflat]
  | code inner rest ihi ih =>
    rw [blocksAt_cons, List.append_eq_nil_iff, ih, depth_code_le_iff]
    cases level with
    | zero => simp [Token.blocksAt]
    | succ level => rw [blocksAt_code, ihi, Nat.add_le_add_iff_right]

theorem flatten_of_depth (block : Block) {n m : Nat} (hn : block.depth ≤ n)
    (hm : block.depth ≤ m) : block.flatten n = block.flatten m := by
  induction block using Block.consInduct generalizing n m with
  | nil => rfl
  | flat token rest hflat ih =>
    rw [depth_flat_le_iff hflat] at hn hm
    rw [flatten_cons, flatten_cons, ih hn hm, flatten_flat hflat, flatten_flat hflat]
  | code inner rest ihi ih =>
    obtain ⟨hi, hn⟩ := (depth_code_le_iff inner rest n).1 hn
    obtain ⟨hj, hm⟩ := (depth_code_le_iff inner rest m).1 hm
    rw [flatten_cons, flatten_cons, ih hn hm]
    obtain ⟨n, rfl⟩ := Nat.exists_eq_add_of_lt hi
    obtain ⟨m, rfl⟩ := Nat.exists_eq_add_of_lt hj
    rw [flatten_code, flatten_code, ihi (Nat.le_add_right _ n) (Nat.le_add_right _ m)]

theorem run_nested (block : Block) {w : Writer} (h : w.nesting + block.depth < maxNesting) :
    w.run (nested block).ops = w.run block.ops := by
  obtain ⟨levels, hlevels⟩ := Nat.exists_eq_add_of_lt h
  have hfits : block.depth ≤ block.depth + levels := Nat.le_add_right _ _
  have hnested : ∀ n, (nested block).flatten (n + 1) = block.flatten n ∧
      (nested block).blocksAt (n + 1) = block.blocksAt n := by
    intro n
    rw [nested, flatten_cons, blocksAt_cons, flatten_code, blocksAt_code]
    exact ⟨List.append_nil _, List.append_nil _⟩
  rw [run_flatten _ w (block.depth + levels + 1) (by omega), (hnested _).1, (hnested _).2,
    run_flatten block w (block.depth + levels + 1) (by omega),
    (blocksAt_eq_nil_iff block _).2 hfits,
    (blocksAt_eq_nil_iff block _).2 (Nat.le_succ_of_le hfits),
    flatten_of_depth block hfits (Nat.le_succ_of_le hfits)]

theorem run_joined (blocks : List Block) (w : Writer) :
    w.run (ops blocks.flatten) = blocks.foldl (fun w block => w.run block.ops) w := by
  induction blocks generalizing w with
  | nil => rfl
  | cons block rest ih =>
    rw [List.flatten_cons, ops_append, Writer.run_append, ih, List.foldl_cons]

theorem imports_append (a b : Block) : imports (a ++ b) = a.imports ∪ b.imports := by
  apply SortedSet.ext_mem
  intro module
  simp [imports, mem_importsOfAll, or_and_right, exists_or]

theorem imports_nested (block : Block) : (nested block).imports = block.imports := by
  apply SortedSet.ext_mem
  intro module
  simp [imports, nested, Token.importsOfAll, Token.imports]

end Block

theorem Method.body_perform (name : String) (calls : List (List Clause)) :
    (perform add (new name) calls).body.getD [] =
      (calls.flatten.filterMap Clause.code?).flatten := by
  have hbody := view_foldl add (fun m => m.body.getD []) Clause.code?
    (fun body block => body ++ id block) (fun _ c => by cases c <;> rfl) calls.flatten (new name)
  rw [perform_eq, hbody, List.foldl_append_eq_append]
  simp [new]

/-- From every writer within the nesting limit, a block and its flat form end in
the same writer, but for one warning for each block that is left out, which is
every block one level below the last one that is written; there is none exactly
if the block stays within the limit. So a block may be nested in others or joined
to their tokens as long as it stays within the limit. Code that is added to a
method piece by piece is written one piece after the other. Nested or joined, a
block contributes the same modules, whatever the limit. -/
theorem nested_as_joined :
    (∀ (w : Writer) (block : Block), w.nesting ≤ 256 →
      let levels := 256 - w.nesting
      let flat := block.flatten levels
      (∀ inner, Token.code inner ∉ flat) ∧
      (w.emit (.block flat)).log = w.log ∧
      w.emit (.block block) = { w.emit (.block flat) with
        log := List.replicate (block.blocksAt levels).length (.nestingLimit 256) ++ w.log } ∧
      (block.blocksAt levels = [] ↔ w.nesting + block.depth ≤ 256)) ∧
    (∀ (w : Writer) (before block after : Block), w.nesting + block.depth < 256 →
      w.emit (.block (before ++ block.nested ++ after)) =
        w.emit (.block (before ++ block ++ after))) ∧
    (∀ (w : Writer) (name : String) (calls : List (List Method.Clause)),
      w.emit (.block ((perform Method.add (.new name) calls).body.getD [])) =
        (calls.flatten.filterMap Method.Clause.code?).foldl
          (fun w block => w.emit (.block block)) w) ∧
    ∀ before block after : Block,
      Block.imports (before ++ block.nested ++ after) =
        Block.imports (before ++ block ++ after) := by
  refine ⟨?_, ?_, ?_, ?_⟩
  · intro w block h levels flat
    have hflat := Block.outline_flatten block levels
    have hrun := block.run_flatten w levels (Nat.add_sub_cancel' h)
    have hnesting := Writer.run_nesting flat.ops w
    refine ⟨block.code_notMem_flatten levels, Writer.run_log hflat w, ?_, ?_⟩
    · refine hrun.trans ?_
      rw [← hnesting]
      rfl
    · rw [Block.blocksAt_eq_nil_iff]
      omega
  · intro w before block after h
    have hnesting := Writer.run_nesting before.ops w
    show w.run (Block.ops _) = w.run (Block.ops _)
    rw [Block.ops_append, Block.ops_append, Block.ops_append, Block.ops_append,
      Writer.run_append, Writer.run_append, Writer.run_append, Writer.run_append,
      block.run_nested (by rw [hnesting]; exact h)]
  · intro w name calls
    rw [Method.body_perform]
    exact Block.run_joined _ w
  · intro before block after
    simp only [Block.imports_append, Block.imports_nested]

def bundle : Block :=
  [.literal "a", .code [.literal "b", .code [.literal "c"]]]

/-- One level above the limit the inner one is left out. -/
theorem nested_as_joined_bundle :
    let deep := { Writer.new .tab with nesting := 255 }
    deep.nesting ≤ 256 ∧
    bundle.flatten 1 = [.literal "a", .literal "b"] ∧
    deep.emit (.block bundle) = { deep.emit (.block [.literal "a", .literal "b"]) with
      log := [.nestingLimit 256] } ∧
    (deep.emit (.block bundle)).text = "a b" ∧
    (Writer.new .tab).nesting + bundle.depth < 256 ∧
    (Writer.new .tab).emit (.block (bundle ++ bundle.nested ++ bundle)) =
      (Writer.new .tab).emit (.block (bundle ++ bundle ++ bundle)) := by
  intro deep
  have hlimit : deep.nesting ≤ 256 := by decide
  have hfits : (Writer.new .tab).nesting + bundle.depth < 256 := by decide
  obtain ⟨-, -, hdeep, -⟩ := nested_as_joined.1 deep bundle hlimit
  refine ⟨hlimit, rfl, hdeep, ?_, hfits, nested_as_joined.2.1 _ _ _ _ hfits⟩
  rw [hdeep]
  decide +kernel

end SwiftDecl
