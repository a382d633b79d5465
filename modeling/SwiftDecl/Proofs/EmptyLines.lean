import SwiftDecl.Proofs.Assembly
import SwiftDecl.Proofs.Balance
import SwiftDecl.Proofs.TextLines
import SwiftDecl.Proofs.Writes

/-!
# Empty lines

Where empty lines come from. A writer is loose when its text has no two of them
in a row, and solid when in addition none stands at the end and an empty scope
shows nothing but its brace. Asking for an empty line makes a solid writer loose,
and any piece makes a loose writer solid again, so only a scope that is closed in
between can be left with a line too many. `Keeps` carries both conditions through
operations, together with the shape of every scope that is closed on the way.
-/

set_option autoImplicit false

namespace SwiftDecl.Layout

namespace Writer

mutual

/-- The writers at which `op` closes a scope. -/
def closingsOf (w : Writer) : Op → List Writer
  | .closeScope => [w]
  | .nested ops => if w.nesting < maxNesting then closings w.enter ops else []
  | _ => []

/-- The writers at which a run closes a scope, in order. -/
def closings (w : Writer) : List Op → List Writer
  | [] => []
  | op :: ops => closingsOf w op ++ closings (w.step op) ops

end

/-- An empty line stands directly before the brace that `w` closes a scope with
only if the scope is empty, and then the scope is two braces around it. -/
def ClosesCleanly (w : Writer) : Prop :=
  ['\n', '\n'] <:+ w.endLine.leaveScope.text.toList →
    w.scopes.head? = some false ∧
      ['\x7b', '\n', '\n'] ++ w.dedent.margin ++ ['\x7d', '\n'] <:+ w.closeScope.text.toList

theorem closings_append (w : Writer) (a b : List Op) :
    w.closings (a ++ b) = w.closings a ++ (w.run a).closings b := by
  induction a generalizing w with
  | nil => simp [closings, run]
  | cons op ops ih => simp [closings, run, ih]

structure Loose (w : Writer) : Prop where
  unit : '\n' ∉ w.unit
  sparse : ¬['\n', '\n', '\n'] <:+: w.written
  inked : w.atLineStart = false → w.written.head? ≠ some '\n'

structure Solid (w : Writer) : Prop extends Loose w where
  firm : ¬['\n', '\n'] <+: w.written
  hollow : w.scopes.head? = some false → ['\n', '\x7b'] <+: w.written

theorem Loose.of_same {w w' : Writer} (h : Loose w) (hu : w'.unit = w.unit)
    (hw : w'.written = w.written) (hs : w'.atLineStart = w.atLineStart) : Loose w' :=
  ⟨by rw [hu]; exact h.unit, by rw [hw]; exact h.sparse, by rw [hw, hs]; exact h.inked⟩

theorem Solid.of_same {w w' : Writer} (h : Solid w) (hu : w'.unit = w.unit)
    (hw : w'.written = w.written) (hs : w'.atLineStart = w.atLineStart)
    (ho : w'.scopes = w.scopes) : Solid w' :=
  ⟨h.toLoose.of_same hu hw hs, by rw [hw]; exact h.firm, by rw [hw, ho]; exact h.hollow⟩

theorem sparse_append {cs written : List Char} (hc : '\n' ∉ cs)
    (h : ¬['\n', '\n', '\n'] <:+: written) : ¬['\n', '\n', '\n'] <:+: cs ++ written := by
  induction cs with
  | nil => exact h
  | cons c cs ih =>
    rw [List.mem_cons, not_or] at hc
    rw [List.cons_append, List.infix_cons_iff, not_or]
    refine ⟨?_, ih hc.2⟩
    intro hp
    exact hc.1 (List.cons_prefix_cons.1 hp).1

theorem sparse_feed {written : List Char} (hf : ¬['\n', '\n'] <+: written)
    (h : ¬['\n', '\n', '\n'] <:+: written) : ¬['\n', '\n', '\n'] <:+: '\n' :: written := by
  rw [List.infix_cons_iff, not_or]
  refine ⟨?_, h⟩
  intro hp
  exact hf (List.cons_prefix_cons.1 hp).2

theorem head_of_start {cs written : List Char} {c : Char} (h : c :: cs <+: written) :
    written.head? = some c := by
  obtain ⟨rest, rfl⟩ := h
  rfl

theorem lead_free {w : Writer} (h : '\n' ∉ w.unit) (attaches : Bool) :
    '\n' ∉ w.lead attaches := by
  unfold lead
  split
  · intro hm
    obtain ⟨u, hu, hc⟩ := List.mem_flatten.1 hm
    rw [List.eq_of_mem_replicate hu] at hc
    exact h hc
  · split <;> simp

theorem fill_head (scopes : List Bool) : (fill scopes).head? ≠ some false := by
  cases scopes <;> simp [fill]

theorem Loose.piece {w : Writer} (h : Loose w) (cs : List Char) (hne : cs ≠ [])
    (hc : '\n' ∉ cs) (attaches : Bool) :
    Solid (w.piece cs attaches) ∧ (w.piece cs attaches).atLineStart = false := by
  obtain ⟨c, rest, rfl⟩ := List.exists_cons_of_ne_nil hne
  have hw : (w.piece (c :: rest) attaches).written =
      (w.lead attaches ++ c :: rest).reverse ++ w.written := rfl
  have hfree : '\n' ∉ (w.lead attaches ++ c :: rest).reverse := by
    rw [List.mem_reverse, List.mem_append, not_or]
    exact ⟨lead_free h.unit attaches, hc⟩
  have hhead : (w.piece (c :: rest) attaches).written.head? ≠ some '\n' := by
    rw [hw]
    cases hr : (w.lead attaches ++ c :: rest).reverse with
    | nil => simp at hr
    | cons d more =>
      rw [hr, List.mem_cons, not_or] at hfree
      simpa using Ne.symm hfree.1
  refine ⟨⟨⟨h.unit, ?_, fun _ => hhead⟩, fun hp => hhead (head_of_start hp), ?_⟩, rfl⟩
  · rw [hw]
    exact sparse_append hfree h.sparse
  · intro hs
    exact absurd hs (fill_head w.scopes)

theorem Loose.newLine {w : Writer} (h : Loose w) (hm : w.atLineStart = false) :
    Loose w.newLine := by
  refine ⟨h.unit, ?_, fun hf => absurd hf (by simp [Writer.newLine])⟩
  exact sparse_feed (fun hp => h.inked hm (head_of_start hp)) h.sparse

theorem Solid.newLine {w : Writer} (h : Solid w) (hm : w.atLineStart = false) :
    Solid w.newLine := by
  refine ⟨h.toLoose.newLine hm, ?_, ?_⟩
  · intro hp
    exact h.inked hm (head_of_start (List.cons_prefix_cons.1 hp).2)
  · intro hs
    exact absurd (head_of_start (h.hollow hs)) (h.inked hm)

theorem Loose.endLine {w : Writer} (h : Loose w) : Loose w.endLine := by
  unfold Writer.endLine
  split
  · exact h
  · rename_i hm
    exact h.newLine (by simpa using hm)

theorem Solid.endLine {w : Writer} (h : Solid w) : Solid w.endLine := by
  unfold Writer.endLine
  split
  · exact h
  · rename_i hm
    exact h.newLine (by simpa using hm)

theorem Solid.blankLine {w : Writer} (h : Solid w) : Loose w.blankLine := by
  have he := h.endLine
  unfold Writer.blankLine separate
  split
  · exact he.toLoose
  · refine ⟨he.unit, sparse_feed he.firm he.sparse, ?_⟩
    intro hf
    exact absurd (endLine_atLineStart w) (by simpa [put] using hf)

theorem openScope_written (w : Writer) :
    w.openScope.written = '\n' :: '\x7b' :: ((w.lead false).reverse ++ w.written) := by
  simp [Writer.openScope, Writer.indent, Writer.newLine, Writer.piece, put]

theorem Loose.openScope {w : Writer} (h : Loose w) : Solid w.openScope := by
  obtain ⟨hp, hm⟩ := h.piece ['\x7b'] (by simp) (by decide) false
  have hn := hp.newLine hm
  refine ⟨hn.toLoose.of_same rfl rfl rfl, hn.firm, fun _ => ?_⟩
  rw [openScope_written]
  exact ⟨_, rfl⟩

@[simp] theorem leaveScope_atLineStart (w : Writer) : w.leaveScope.atLineStart = w.atLineStart := by
  unfold leaveScope
  split <;> rfl

@[simp] theorem leaveScope_unit (w : Writer) : w.leaveScope.unit = w.unit := by
  unfold leaveScope
  split <;> rfl

@[simp] theorem leaveScope_level (w : Writer) : w.leaveScope.level = w.level := by
  unfold leaveScope
  split <;> rfl

theorem leaveScope_written (w : Writer) :
    w.leaveScope.written =
      if w.scopes.head? = some false then '\n' :: w.written else w.written := by
  unfold leaveScope
  split <;> simp_all [put]

@[simp] theorem endLine_scopes (w : Writer) : w.endLine.scopes = w.scopes := by
  unfold Writer.endLine
  split <;> rfl

@[simp] theorem endLine_level (w : Writer) : w.endLine.level = w.level := by
  unfold Writer.endLine
  split <;> rfl

@[simp] theorem endLine_unit (w : Writer) : w.endLine.unit = w.unit := by
  unfold Writer.endLine
  split <;> rfl

theorem closeScope_written (w : Writer) :
    w.closeScope.written =
      '\n' :: '\x7d' :: (w.dedent.margin.reverse ++ w.endLine.leaveScope.written) := by
  have hstart : w.endLine.leaveScope.dedent.atLineStart = true :=
    (leaveScope_atLineStart _).trans (endLine_atLineStart w)
  have hlead : w.endLine.leaveScope.dedent.lead false = w.dedent.margin := by
    rw [lead, if_pos hstart]
    simp [margin, Writer.dedent]
  have hwritten : w.closeScope.written = '\n' ::
      ((w.endLine.leaveScope.dedent.lead false ++ ['\x7d']).reverse ++
        w.endLine.leaveScope.written) := rfl
  rw [hwritten, hlead]
  simp

theorem Solid.leaveScope {w : Writer} (h : Solid w) (hs : w.atLineStart = true) :
    Loose w.leaveScope := by
  refine ⟨by rw [leaveScope_unit]; exact h.unit, ?_, ?_⟩
  · rw [leaveScope_written]
    split
    · exact sparse_feed h.firm h.sparse
    · exact h.sparse
  · intro hf
    rw [leaveScope_atLineStart, hs] at hf
    exact absurd hf (by simp)

theorem Solid.closeScope {w : Writer} (h : Solid w) : Solid w.closeScope := by
  have hl := h.endLine.leaveScope (endLine_atLineStart w)
  have hd : Loose w.endLine.leaveScope.dedent := hl.of_same rfl rfl rfl
  obtain ⟨hp, hm⟩ := hd.piece ['\x7d'] (by simp) (by decide) false
  exact hp.newLine hm

theorem closesCleanly_iff (w : Writer) :
    w.ClosesCleanly ↔ (['\n', '\n'] <+: w.endLine.leaveScope.written →
      w.scopes.head? = some false ∧
        ['\n', '\n', '\x7b'] <+: w.endLine.leaveScope.written) := by
  have hbrace : ['\x7b', '\n', '\n'] ++ w.dedent.margin ++ ['\x7d', '\n'] <:+
      w.closeScope.text.toList ↔ ['\n', '\n', '\x7b'] <+: w.endLine.leaveScope.written := by
    rw [text_toList, ← List.reverse_prefix, List.reverse_reverse, closeScope_written]
    simp [List.prefix_append_right_inj]
  unfold ClosesCleanly
  rw [hbrace, text_toList, ← List.reverse_prefix, List.reverse_reverse]
  rfl

theorem Solid.closesCleanly {w : Writer} (h : Solid w) : w.ClosesCleanly := by
  have he := h.endLine
  rw [closesCleanly_iff, leaveScope_written, endLine_scopes]
  by_cases hs : w.scopes.head? = some false
  · intro _
    have hw := he.hollow (by rwa [endLine_scopes])
    rw [if_pos hs]
    exact ⟨hs, List.cons_prefix_cons.2 ⟨rfl, hw⟩⟩
  · intro hp
    rw [if_neg hs] at hp
    exact absurd hp he.firm

/-- From a writer with `P`, the run ends with `Q` and closes every scope cleanly. -/
def Keeps (P Q : Writer → Prop) (ops : List Op) : Prop :=
  ∀ w : Writer, P w → Q (w.run ops) ∧ ∀ v ∈ w.closings ops, v.ClosesCleanly

namespace Keeps

variable {P Q R : Writer → Prop}

theorem nil : Keeps P P [] := by
  intro w h
  rw [run, closings]
  exact ⟨h, by simp⟩

theorem append {a b : List Op} (ha : Keeps P Q a) (hb : Keeps Q R b) : Keeps P R (a ++ b) := by
  intro w h
  obtain ⟨hq, hca⟩ := ha w h
  obtain ⟨hr, hcb⟩ := hb _ hq
  rw [run_append, closings_append]
  exact ⟨hr, List.forall_mem_append.2 ⟨hca, hcb⟩⟩

theorem imp_left {P' : Writer → Prop} {ops : List Op} (h : Keeps P Q ops)
    (hp : ∀ w, P' w → P w) : Keeps P' Q ops :=
  fun w hw => h w (hp w hw)

theorem imp_right {Q' : Writer → Prop} {ops : List Op} (h : Keeps P Q ops)
    (hq : ∀ w, Q w → Q' w) : Keeps P Q' ops :=
  fun w hw => ⟨hq _ (h w hw).1, (h w hw).2⟩

theorem flatMap {α : Type} {f : α → List Op} {l : List α} (h : ∀ x ∈ l, Keeps P P (f x)) :
    Keeps P P (l.flatMap f) := by
  induction l with
  | nil => exact nil
  | cons x l ih =>
    rw [List.flatMap_cons]
    exact append (h x (by simp)) (ih fun y hy => h y (by simp [hy]))

theorem single {op : Op} (hc : ∀ w, closingsOf w op = []) (h : ∀ w, P w → Q (w.step op)) :
    Keeps P Q [op] := by
  intro w hw
  rw [run, run, closings, closings, hc]
  exact ⟨h w hw, by simp⟩

theorem openScope : Keeps Loose Solid [.openScope] := by
  apply single (fun w => by simp [closingsOf])
  intro w h
  rw [step]
  exact h.openScope

theorem blankLine : Keeps Solid Loose [.blankLine] := by
  apply single (fun w => by simp [closingsOf])
  intro w h
  rw [step]
  exact h.blankLine

theorem closeScope : Keeps Solid Solid [.closeScope] := by
  intro w h
  rw [run, run, closings, closings, closingsOf, step]
  exact ⟨h.closeScope, by simpa using h.closesCleanly⟩

theorem nested {ops : List Op} (h : Keeps P P ops) (henter : ∀ w, P w → P w.enter)
    (hleave : ∀ w, P w → P w.leave) (hskip : ∀ w event, P w → P (w.report event)) :
    Keeps P P [.nested ops] := by
  intro w hw
  rw [run, run, closings, closings, closingsOf, step, List.append_nil]
  by_cases hn : w.nesting < maxNesting
  · rw [if_pos hn, if_pos hn]
    obtain ⟨hp, hc⟩ := h w.enter (henter w hw)
    exact ⟨hleave _ hp, hc⟩
  · rw [if_neg hn, if_neg hn]
    exact ⟨hskip w _ hw, by simp⟩

end Keeps

/-- Operations that keep a writer solid, and leave it loose at least where they
find it loose. -/
def Settles (ops : List Op) : Prop :=
  Keeps Solid Solid ops ∧ Keeps Loose Loose ops

end Writer

end SwiftDecl.Layout

namespace SwiftDecl
open SwiftDecl.Layout SwiftDecl.Layout.Writer

def OneLine (text : String) : Prop :=
  text.toList ≠ [] ∧ '\n' ∉ text.toList

/-- `op` writes `cs` as one piece. -/
structure Pens (op : Op) (cs : List Char) : Prop where
  closes : ∀ w, closingsOf w op = []
  piece : ∃ attaches, ∀ w : Writer, w.step op = w.piece cs attaches

theorem literal_pens {text : String} (h : '\n' ∉ text.toList) :
    Pens (.literal text) text.toList := by
  refine ⟨fun w => by simp [closingsOf], attachesLeft text.toList, ?_⟩
  intro w
  rw [step, Writer.literal, Text.pieces_single h]
  rfl

theorem word_pens (text : String) : Pens (.word text) text.toList :=
  ⟨fun w => by simp [closingsOf], false, fun w => by rw [step]⟩

theorem Pens.keeps {op : Op} {cs : List Char} (h : Pens op cs) (hne : cs ≠ [])
    (hfree : '\n' ∉ cs) : Keeps Loose (fun w => Solid w ∧ w.atLineStart = false) [op] := by
  obtain ⟨attaches, hop⟩ := h.piece
  apply Keeps.single h.closes
  intro w hw
  rw [hop]
  exact hw.piece cs hne hfree attaches

theorem Pens.settles {op : Op} {cs : List Char} (h : Pens op cs) (hfree : '\n' ∉ cs) :
    Settles [op] := by
  by_cases hne : cs = []
  · obtain ⟨attaches, hop⟩ := h.piece
    have hsame : ∀ w : Writer, w.step op = w := by
      intro w
      rw [hop, hne]
      rfl
    constructor
    · exact Keeps.single h.closes fun w hw => by rwa [hsame]
    · exact Keeps.single h.closes fun w hw => by rwa [hsame]
  · have hk := h.keeps hne hfree
    constructor
    · exact (hk.imp_left fun w hw => hw.toLoose).imp_right fun w hw => hw.1
    · exact hk.imp_right fun w hw => hw.1.toLoose

theorem Pens.line {op : Op} {cs : List Char} (h : Pens op cs) (hne : cs ≠ [])
    (hfree : '\n' ∉ cs) : Settles [op, .newLine] := by
  have hfeed : Keeps (fun w => Solid w ∧ w.atLineStart = false) Solid [.newLine] := by
    apply Keeps.single (fun w => by simp [closingsOf])
    intro w hw
    rw [step]
    exact hw.1.newLine hw.2
  have hk := (h.keeps hne hfree).append hfeed
  exact ⟨hk.imp_left fun w hw => hw.toLoose, hk.imp_right fun w hw => hw.toLoose⟩

theorem not_feed_nameChar {c : Char} (h : Name.isNameChar c = true ∨ c = '.') : c ≠ '\n' := by
  rintro rfl
  revert h
  decide

theorem settles_assembles : Assembles Settles where
  nil := ⟨Keeps.nil, Keeps.nil⟩
  append := fun ha hb => ⟨ha.1.append hb.1, ha.2.append hb.2⟩
  braced := by
    intro inner h
    have hk : Keeps Loose Solid (.openScope :: inner ++ [.closeScope]) :=
      (Keeps.openScope.append h.1).append Keeps.closeScope
    exact ⟨hk.imp_left fun w hw => hw.toLoose, hk.imp_right fun w hw => hw.toLoose⟩
  endLine := by
    constructor
    · exact Keeps.single (fun w => by simp [closingsOf]) fun w h => by rw [step]; exact h.endLine
    · exact Keeps.single (fun w => by simp [closingsOf]) fun w h => by rw [step]; exact h.endLine
  report := by
    intro event
    constructor
    · apply Keeps.single (fun w => by simp [closingsOf])
      intro w h
      rw [step]
      exact h.of_same rfl rfl rfl rfl
    · apply Keeps.single (fun w => by simp [closingsOf])
      intro w h
      rw [step]
      exact h.of_same rfl rfl rfl
  fixed := by
    intro text h
    have hfree := (fixed_text h).2
    exact (literal_pens hfree).settles hfree
  modifier := by
    intro m
    apply (word_pens _).settles
    cases m <;> decide +kernel
  typeName := by
    intro raw
    have hfree : '\n' ∉ (Name.typeName raw).toList :=
      fun hc => not_feed_nameChar (Or.inl (Name.typeName_nameChar raw _ hc)) rfl
    exact (literal_pens hfree).settles hfree
  memberName := by
    intro raw
    have hfree : '\n' ∉ (Name.memberName raw).toList :=
      fun hc => not_feed_nameChar (Or.inl (Name.memberName_nameChar raw _ hc)) rfl
    exact (literal_pens hfree).settles hfree
  declaredName := by
    intro d
    have hfree : '\n' ∉ d.typeName.toList :=
      fun hc => not_feed_nameChar (declaredName_nameChar d _ hc) rfl
    exact (literal_pens hfree).settles hfree

end SwiftDecl
