import SwiftDecl.Proofs.Outline
import SwiftDecl.Proofs.Page

/-!
# Depth

How many levels of nesting a declaration asks for: a chain goes one level down
into a nested type and one into a nested block. Operations that fit under the
nesting limit are run in full, so from then on it does not matter how deep the
place is where they are run.
-/

set_option autoImplicit false

namespace SwiftDecl.Layout

namespace Op

mutual

def depth : Op → Nat
  | .nested ops => depthOfAll ops + 1
  | _ => 0

def depthOfAll : List Op → Nat
  | [] => 0
  | op :: rest => max op.depth (depthOfAll rest)

end

theorem depthOfAll_le_iff {ops : List Op} {n : Nat} :
    depthOfAll ops ≤ n ↔ ∀ inner, Op.nested inner ∈ ops → depthOfAll inner + 1 ≤ n := by
  induction ops with
  | nil => simp [depthOfAll]
  | cons op rest ih =>
    rw [depthOfAll, Nat.max_le, ih]
    constructor
    · rintro ⟨h₁, h₂⟩ inner hm
      rcases List.mem_cons.1 hm with rfl | hm
      · simpa only [depth] using h₁
      · exact h₂ inner hm
    · intro h
      refine ⟨?_, fun inner hm => h inner (List.mem_cons_of_mem _ hm)⟩
      cases op with
      | nested inner => simpa only [depth] using h inner (by simp)
      | _ => simp [depth]

theorem lt_depthOfAll_iff {ops : List Op} {n : Nat} :
    n < depthOfAll ops ↔ ∃ inner, Op.nested inner ∈ ops ∧ n ≤ depthOfAll inner := by
  rw [← Nat.not_le, depthOfAll_le_iff]
  push Not
  simp only [Nat.lt_succ_iff]

end Op

theorem Page.run_fitting (ops : List Op) (n m : Nat) (p : Page)
    (hn : n + Op.depthOfAll ops ≤ maxNesting) (hm : m + Op.depthOfAll ops ≤ maxNesting) :
    p.run n ops = p.run m ops := by
  induction ops using Op.consInduct generalizing n m p with
  | nil => rw [run, run]
  | flat op rest ho ih =>
    rw [Op.depthOfAll] at hn hm
    have hstep : p.step n op = p.step m op := by
      cases op with
      | nested inner => exact absurd rfl (ho inner)
      | _ => simp only [step]
    rw [run, run, hstep]
    exact ih n m _ (by omega) (by omega)
  | nested inner rest ihi ih =>
    rw [Op.depthOfAll, Op.depth] at hn hm
    rw [run, run, step, step, if_pos (by omega), if_pos (by omega),
      ihi (n + 1) (m + 1) p (by omega) (by omega)]
    exact ih n m _ (by omega) (by omega)

end SwiftDecl.Layout

namespace SwiftDecl
open SwiftDecl.Layout

namespace Token

mutual

def depth : Token → Nat
  | .code block => depthOfAll block + 1
  | _ => 0

def depthOfAll : List Token → Nat
  | [] => 0
  | token :: rest => max token.depth (depthOfAll rest)

end

end Token

namespace Block

/-- The longest chain of blocks inside blocks. -/
def depth (block : Block) : Nat :=
  Token.depthOfAll block

theorem depth_le_iff {block : Block} {n : Nat} :
    block.depth ≤ n ↔ ∀ inner : Block, Token.code inner ∈ block → inner.depth + 1 ≤ n := by
  unfold depth
  induction block with
  | nil => simp [Token.depthOfAll]
  | cons token rest ih =>
    rw [Token.depthOfAll, Nat.max_le, ih]
    constructor
    · rintro ⟨h₁, h₂⟩ inner hm
      rcases List.mem_cons.1 hm with rfl | hm
      · simpa only [Token.depth] using h₁
      · exact h₂ inner hm
    · intro h
      refine ⟨?_, fun inner hm => h inner (List.mem_cons_of_mem _ hm)⟩
      cases token with
      | code inner => simpa only [Token.depth] using h inner (by simp)
      | _ => simp [Token.depth]

theorem ops_depth (block : Block) : Op.depthOfAll block.ops ≤ block.depth := by
  induction block using Block.induct with
  | step block ih =>
    apply Op.depthOfAll_le_iff.2
    intro inner hm
    obtain ⟨c, hc, rfl⟩ := nested_mem_ops.1 hm
    have h₁ := ih c hc
    have h₂ : depth c + 1 ≤ block.depth := depth_le_iff.1 (Nat.le_refl _) c hc
    omega

end Block

theorem depth_of_blocks {ops : List Op} {blocks : List Block} {n : Nat}
    (h : ∀ inner, Op.nested inner ∈ ops → ∃ b ∈ blocks, Op.nested inner ∈ b.ops)
    (hn : ∀ b ∈ blocks, b.depth ≤ n) : Op.depthOfAll ops ≤ n := by
  apply Op.depthOfAll_le_iff.2
  intro inner hm
  obtain ⟨b, hb, hi⟩ := h inner hm
  exact Op.depthOfAll_le_iff.1 (Nat.le_trans b.ops_depth (hn b hb)) inner hi

theorem field_nested {f : Field} {inner : List Op} (h : Op.nested inner ∈ f.ops) :
    ∃ b ∈ f.blocks, Op.nested inner ∈ b.ops := by
  have h := Op.nested_mem_outline.2 h
  by_cases hp : ∃ kind, f.parent = some (.type kind)
  · obtain ⟨kind, hp⟩ := hp
    rw [Field.outline_adopted hp] at h
    split at h
    · simp at h
    · exact nested_mem_blocks.1 h
  · obtain ⟨event, _, ho⟩ := Field.outline_loose fun kind hk => hp ⟨kind, hk⟩
    simp [ho] at h

theorem method_nested {m : Method} {inner : List Op} (h : Op.nested inner ∈ m.ops) :
    ∃ b ∈ m.blocks, Op.nested inner ∈ b.ops := by
  have h := Op.nested_mem_outline.2 h
  rw [m.outline_ops] at h
  rcases List.mem_append.1 h with h | h
  · obtain ⟨b, hb, hi⟩ := nested_mem_blocks.1 h
    exact ⟨b, List.mem_append_left _ hb, hi⟩
  · split at h
    · simp at h
    · obtain ⟨b, hb, hi⟩ := nested_mem_blocks.1 h
      exact ⟨b, List.mem_append_right _ hb, hi⟩

namespace TypeDecl

def ownCode (d : TypeDecl) : Block :=
  (d.fields.flatMap Field.blocks ++ d.methods.flatMap Method.blocks).flatten

mutual

/-- The longest chain of types inside a type and of blocks inside a block. -/
def depth : TypeDecl → Nat
  | d@⟨_, _, _, _, _, _, nested⟩ => max d.ownCode.depth (depthOfAll nested)

def depthOfAll : List TypeDecl → Nat
  | [] => 0
  | d :: rest => max (d.depth + 1) (depthOfAll rest)

end

theorem depthOfAll_le_iff {decls : List TypeDecl} {n : Nat} :
    depthOfAll decls ≤ n ↔ ∀ d ∈ decls, d.depth + 1 ≤ n := by
  induction decls with
  | nil => simp [depthOfAll]
  | cons d rest ih => rw [depthOfAll, Nat.max_le, ih, List.forall_mem_cons]

structure Fits (n : Nat) (d : TypeDecl) : Prop where
  field : ∀ f ∈ d.fields, ∀ b ∈ f.blocks, b.depth ≤ n
  method : ∀ m ∈ d.methods, ∀ b ∈ m.blocks, b.depth ≤ n
  nested : ∀ t ∈ d.nested, t.depth + 1 ≤ n

theorem fits_of_depth {d : TypeDecl} {n : Nat} (h : d.depth ≤ n) : d.Fits n := by
  have hd : d.depth = max d.ownCode.depth (depthOfAll d.nested) := by
    cases d
    rw [depth]
  rw [hd, Nat.max_le, Block.depth_le_iff, depthOfAll_le_iff] at h
  have hown : ∀ b ∈ d.fields.flatMap Field.blocks ++ d.methods.flatMap Method.blocks,
      b.depth ≤ n := by
    intro b hb
    apply Block.depth_le_iff.2
    intro inner hi
    exact h.1 inner (List.mem_flatten.2 ⟨b, hb, hi⟩)
  constructor
  · intro f hf b hb
    exact hown b (List.mem_append_left _ (List.mem_flatMap.2 ⟨f, hf, hb⟩))
  · intro m hm b hb
    exact hown b (List.mem_append_right _ (List.mem_flatMap.2 ⟨m, hm, hb⟩))
  · exact h.2

theorem ops_depth (d : TypeDecl) : Op.depthOfAll d.ops ≤ d.depth := by
  induction d using TypeDecl.induct with
  | step d ih =>
    have hf := fits_of_depth (Nat.le_refl d.depth)
    apply Op.depthOfAll_le_iff.2
    intro inner hm
    rcases nested_mem_ops.1 hm with ⟨f, hmf, hi⟩ | ⟨m, hmm, hi⟩ | ⟨t, ht, rfl⟩
    · have h := depth_of_blocks (fun _ => field_nested) (hf.field f hmf)
      exact Op.depthOfAll_le_iff.1 h inner hi
    · have h := depth_of_blocks (fun _ => method_nested) (hf.method m hmm)
      exact Op.depthOfAll_le_iff.1 h inner hi
    · have h₁ := ih t ht
      have h₂ := hf.nested t ht
      omega

end TypeDecl

end SwiftDecl
