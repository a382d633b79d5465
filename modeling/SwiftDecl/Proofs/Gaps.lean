import SwiftDecl.Proofs.Composition
import SwiftDecl.Proofs.EmptyLines

/-!
# Gaps

A type sets its methods and nested types apart before it writes them. Where the
nesting limit leaves the nested types out, the empty line in front of them stays
behind, and the scope of the type ends in a gap. This is the only way in which a
declaration made of ordinary code leaves an empty line where none belongs.
-/

set_option autoImplicit false

namespace SwiftDecl
open SwiftDecl.Layout SwiftDecl.Layout.Writer

/-- Code made of words, lines, types, braced flows and blocks of the same make,
nested or one after the other. No text in it is empty or spread over lines. -/
inductive Block.Regular : Block → Prop
  | nil : Regular []
  | literal {text : String} (fits : OneLine text) : Regular (Block.literal text)
  | line {text : String} (fits : OneLine text) : Regular (Block.line text)
  | type {ref : TypeRef} (fits : OneLine ref.render) : Regular [.type ref]
  | flow {header : String} {body : Block} (fits : OneLine header) (inner : Regular body) :
      Regular (Block.beginFlow header ++ body ++ Block.endFlow)
  | nested {body : Block} (inner : Regular body) : Regular (Block.nested body)
  | append {a b : Block} (first : Regular a) (second : Regular b) : Regular (a ++ b)

theorem nested_settles {ops : List Op} (h : Settles ops) : Settles [.nested ops] := by
  constructor
  · apply h.1.nested
    · exact fun w hw => hw.of_same rfl rfl rfl rfl
    · exact fun w hw => hw.of_same rfl rfl rfl rfl
    · exact fun w _ hw => hw.of_same rfl rfl rfl rfl
  · apply h.2.nested
    · exact fun w hw => hw.of_same rfl rfl rfl
    · exact fun w hw => hw.of_same rfl rfl rfl
    · exact fun w _ hw => hw.of_same rfl rfl rfl

theorem block_settles {block : Block} (h : block.Regular) : Settles block.ops := by
  have ha := settles_assembles
  induction h with
  | nil =>
    rw [Block.ops_nil]
    exact ha.nil
  | literal fits =>
    rw [Block.literal, Block.ops_cons, Token.op]
    exact (literal_pens fits.2).settles fits.2
  | line fits =>
    rw [Block.line, Block.ops_cons, Block.ops_cons, Token.op, Token.op]
    exact (literal_pens fits.2).line fits.1 fits.2
  | type fits =>
    rw [Block.ops_cons, Token.op]
    exact (word_pens _).settles fits.2
  | @flow header body fits _ ih =>
    have hops : Block.ops (Block.beginFlow header ++ body ++ Block.endFlow) =
        .literal header :: (.openScope :: Block.ops body ++ [.closeScope]) := by
      simp [Block.ops_append, Block.beginFlow, Block.endFlow, Token.op]
    rw [hops]
    exact ha.cons ((literal_pens fits.2).settles fits.2) (ha.braced ih)
  | nested _ ih =>
    rw [Block.nested, Block.ops_cons, Token.op]
    exact nested_settles ih
  | append _ _ ihf ihs =>
    rw [Block.ops_append]
    exact ha.append ihf ihs

theorem commentLine_oneLine {text line : List Char} (h : line ∈ Text.lines (Text.trimEnd text)) :
    OneLine (Heading.commentLine line) := by
  constructor
  · unfold Heading.commentLine
    split <;> simp
  · intro hc
    rcases Heading.commentLine_chars h hc with h | h | h
    · exact absurd h (by decide)
    · exact absurd h (by decide)
    · exact h.2 rfl

theorem provides_settles {d : TypeDecl} (hb : ∀ b ∈ d.blocks, b.Regular)
    (hr : ∀ r ∈ d.refs, OneLine r.render) : Provides Settles d.blocks d.refs d.descriptions where
  block := fun b h => block_settles (hb b h)
  ref := fun r h => (word_pens _).settles (hr r h).2
  description := by
    intro text _ line hl
    have h := commentLine_oneLine hl
    exact (word_pens _).line h.1 h.2

theorem method_keeps {m : Method} (h : Provides Settles m.blocks m.refs m.descriptions) :
    Keeps Loose Solid m.ops := by
  have hfixed : ")" ∈ fixedTexts := by decide
  obtain ⟨before, after, hs, hbefore, hafter⟩ := settles_assembles.signature_split m h
  have hmark : Keeps Loose Solid [.literal ")"] :=
    ((literal_pens (fixed_text hfixed).2).keeps (fixed_text hfixed).1
      (fixed_text hfixed).2).imp_right fun w hw => hw.1
  rw [Method.ops, hs]
  exact (hbefore.2.append (hmark.append hafter.1)).append (settles_assembles.body m h).1

namespace TypeDecl

/-- Written `n` levels down, the type or one inside it asks for an empty line in
front of a nested type that the nesting limit leaves out. -/
inductive LeavesGap : Nat → TypeDecl → Prop
  | here {d : TypeDecl} (cut : d.nested ≠ [])
      (set_apart : 2 ≤ d.fields.length + d.methods.length + d.nested.length) :
      LeavesGap maxNesting d
  | inside {n : Nat} {d t : TypeDecl} (below : n < maxNesting) (member : t ∈ d.nested)
      (gap : LeavesGap (n + 1) t) : LeavesGap n d

end TypeDecl

def Layout.Writer.Below (n : Nat) (P : Writer → Prop) (w : Writer) : Prop :=
  P w ∧ w.nesting = n

theorem Layout.Writer.Keeps.below {P Q : Writer → Prop} {ops : List Op} (h : Keeps P Q ops)
    (n : Nat) : Keeps (Below n P) (Below n Q) ops :=
  fun w hw => ⟨⟨(h w hw.1).1, (run_nesting ops w).trans hw.2⟩, (h w hw.1).2⟩

theorem separated_keeps {P Q : Writer → Prop} (hblank : Keeps Q P [.blankLine])
    (hqp : ∀ w, Q w → P w) {members : List (List Op)} (h : ∀ member ∈ members, Keeps P Q member)
    (follows : Bool) : Keeps Q Q (TypeDecl.separatedOps follows members) := by
  induction members generalizing follows with
  | nil => exact Keeps.nil
  | cons member rest ih =>
    have hm := h member (by simp)
    have hr := ih (fun m hm => h m (by simp [hm])) true
    cases follows with
    | false => exact (hm.imp_left hqp).append hr
    | true => exact (hblank.append hm).append hr

theorem members_keep {d : TypeDecl} (h : TypeProvides Settles d) {n : Nat}
    (hn : ∀ t ∈ d.nested, Keeps (Below n Loose) (Below n Solid) [.nested t.ops]) :
    Keeps (Below n Solid) (Below n Solid) d.memberOps := by
  have hfields : Keeps Solid Solid (d.fields.flatMap Field.ops) :=
    Keeps.flatMap fun f hf => (settles_assembles.field f (h.field f hf)).1
  refine (hfields.below n).append (separated_keeps (Keeps.blankLine.below n)
    (fun w hw => ⟨hw.1.toLoose, hw.2⟩) ?_ _)
  intro member hm
  rcases List.mem_append.1 hm with hm | hm
  · obtain ⟨m, hmethod, rfl⟩ := List.mem_map.1 hm
    exact (method_keeps (h.method m hmethod)).below n
  · obtain ⟨t, ht, rfl⟩ := List.mem_map.1 hm
    exact hn t ht

theorem nested_keeps {ops : List Op} {n : Nat} (hn : n < maxNesting)
    (h : Keeps (Below (n + 1) Loose) (Below (n + 1) Solid) ops) :
    Keeps (Below n Loose) (Below n Solid) [.nested ops] := by
  intro w hw
  have hlimit : w.nesting < maxNesting := by
    rw [hw.2]
    exact hn
  obtain ⟨hs, hc⟩ := h w.enter ⟨hw.1.of_same rfl rfl rfl, by rw [← hw.2]; rfl⟩
  rw [run, run, closings, closings, closingsOf, step, if_pos hlimit, if_pos hlimit,
    List.append_nil]
  refine ⟨⟨hs.1.of_same rfl rfl rfl rfl, ?_⟩, hc⟩
  show (w.enter.run ops).nesting - 1 = n
  rw [hs.2]
  rfl

theorem nested_cut (ops : List Op) :
    Keeps (Below maxNesting Solid) (Below maxNesting Solid) [.nested ops] := by
  intro w hw
  have hlimit : ¬w.nesting < maxNesting := by
    rw [hw.2]
    omega
  rw [run, run, closings, closings, closingsOf, step, if_neg hlimit, if_neg hlimit]
  exact ⟨⟨hw.1.of_same rfl rfl rfl rfl, hw.2⟩, by simp⟩

theorem type_keeps (d : TypeDecl) (h : Provides Settles d.blocks d.refs d.descriptions) {n : Nat}
    (hn : n ≤ maxNesting) (hgap : ¬d.LeavesGap n) :
    Keeps (Below n Loose) (Below n Solid) d.ops := by
  induction d using TypeDecl.induct generalizing n with
  | step d ih =>
    have ha := settles_assembles
    have hd := type_provides h
    have hmembers : Keeps (Below n Solid) (Below n Solid) d.memberOps := by
      by_cases hlimit : n < maxNesting
      · apply members_keep hd
        intro t ht
        exact nested_keeps hlimit (ih t ht (hd.nested t ht) hlimit
          fun hg => hgap (.inside hlimit ht hg))
      · have hmax : n = maxNesting := by omega
        subst hmax
        by_cases hcut : d.nested = []
        · apply members_keep hd
          simp [hcut]
        · -- A nested type is left out, so for want of a gap it is the only member.
          have hfew : d.fields.length + d.methods.length + d.nested.length < 2 := by
            by_contra hmany
            exact hgap (.here hcut (by omega))
          have hpos : 0 < d.nested.length := List.length_pos_iff.2 hcut
          have hf : d.fields = [] := List.length_eq_zero_iff.1 (by omega)
          have hm : d.methods = [] := List.length_eq_zero_iff.1 (by omega)
          obtain ⟨t, ht⟩ := List.length_eq_one_iff.1 (show d.nested.length = 1 by omega)
          rw [TypeDecl.memberOps, hf, hm, ht]
          exact nested_cut t.ops
    have hopening : Keeps Loose Solid (.report d.announcement :: d.headerOps ++ [.openScope]) :=
      ((ha.report _).2.append (ha.header d hd.header).2).append Keeps.openScope
    rw [d.ops_eq]
    exact ((hopening.below n).append hmembers).append (Keeps.closeScope.below n)

namespace Layout.Writer

/-- Something is written, and a line start follows the end of a line. -/
structure Begun (w : Writer) : Prop where
  written : w.written ≠ []
  fed : w.atLineStart = true → w.written.head? = some '\n'

theorem Begun.piece {w : Writer} (h : Begun w) (cs : List Char) (attaches : Bool) :
    Begun (w.piece cs attaches) := by
  cases cs with
  | nil => exact h
  | cons c rest => exact ⟨by simp [Writer.piece, put], fun hf => absurd hf (by simp [Writer.piece])⟩

theorem newLine_begun (w : Writer) : Begun w.newLine :=
  ⟨by simp [Writer.newLine, put], fun _ => rfl⟩

theorem openScope_begun (w : Writer) : Begun w.openScope := by
  constructor
  · rw [openScope_written]
    simp
  · intro _
    rw [openScope_written]
    rfl

theorem Begun.endLine {w : Writer} (h : Begun w) : Begun w.endLine := by
  unfold Writer.endLine
  split
  · exact h
  · exact newLine_begun w

theorem Begun.blankLine {w : Writer} (h : Begun w) : Begun w.blankLine := by
  unfold Writer.blankLine separate
  split
  · exact h.endLine
  · exact ⟨by simp [put], fun _ => rfl⟩

theorem Begun.literal {w : Writer} (h : Begun w) (cs : List Char) : Begun (w.literal cs) := by
  have hparts : ∀ (parts : List (List Char)) (v : Writer), Begun v →
      Begun (v.literalParts parts) := by
    intro parts
    induction parts with
    | nil => exact fun v hv => hv
    | cons part rest ih => exact fun v _ => ih _ ((newLine_begun v).piece part _)
  unfold Writer.literal
  split
  · exact h
  · exact hparts _ _ (h.piece _ _)

theorem Begun.step {op : Op} {w : Writer} (h : Begun w)
    (hn : ∀ inner, op = .nested inner → ∀ v, Begun v → Begun (v.run inner)) :
    Begun (w.step op) := by
  unfold Writer.step
  cases op with
  | literal text => exact h.literal _
  | word text => exact h.piece _ _
  | openScope => exact openScope_begun w
  | closeScope => exact newLine_begun _
  | newLine => exact newLine_begun w
  | endLine => exact h.endLine
  | blankLine => exact h.blankLine
  | indent | dedent | report => exact ⟨h.written, h.fed⟩
  | nested inner =>
    dsimp only
    split
    · have hr := hn inner rfl w.enter ⟨h.written, h.fed⟩
      exact ⟨hr.written, hr.fed⟩
    · exact ⟨h.written, h.fed⟩

theorem run_begun (ops : List Op) (w : Writer) (h : Begun w) : Begun (w.run ops) := by
  induction ops using Op.consInduct generalizing w with
  | nil =>
    rw [run]
    exact h
  | flat op rest hflat ihr =>
    rw [run]
    exact ihr _ (h.step fun inner he => absurd he (hflat inner))
  | nested inner rest ih ihr =>
    rw [run]
    apply ihr
    apply h.step
    rintro _ ⟨⟩
    exact ih

theorem Begun.gap {w : Writer} (h : Begun w) :
    ['\n', '\n'] <+: w.blankLine.written ∧ w.blankLine.atLineStart = true := by
  have hstart := endLine_atLineStart w
  have hfed := h.endLine.fed hstart
  obtain ⟨rest, hw⟩ : ∃ rest, w.endLine.written = '\n' :: rest := by
    cases hc : w.endLine.written with
    | nil => exact absurd hc h.endLine.written
    | cons c rest =>
      rw [hc] at hfed
      exact ⟨rest, by rw [Option.some.inj hfed]⟩
  unfold Writer.blankLine separate
  by_cases hs : w.endLine.isSeparated = true
  · rw [if_pos hs]
    have hp := (isSeparated_iff h.endLine.written).1 hs
    rw [← List.reverse_prefix, List.reverse_reverse] at hp
    exact ⟨hp, hstart⟩
  · rw [if_neg hs]
    exact ⟨⟨rest, by rw [put, hw]; rfl⟩, hstart⟩

theorem gap_unclean {w : Writer} (hp : ['\n', '\n'] <+: w.written) (hs : w.atLineStart = true) :
    ¬w.ClosesCleanly := by
  have hend : w.endLine = w := by
    rw [Writer.endLine, if_pos hs]
  rw [closesCleanly_iff, hend, leaveScope_written]
  by_cases hscope : w.scopes.head? = some false
  · rw [if_pos hscope]
    intro h
    have hthree := (h (List.cons_prefix_cons.2 ⟨rfl, (List.cons_prefix_cons.2
      ⟨rfl, List.nil_prefix⟩).trans hp⟩)).2
    obtain ⟨rest, hw⟩ := hp
    rw [← hw] at hthree
    exact absurd hthree (by simp)
  · rw [if_neg hscope]
    exact fun h => hscope (h hp).1

end Layout.Writer

theorem separatedOps_concat (follows : Bool) (members : List (List Op)) (last : List Op) :
    TypeDecl.separatedOps follows (members ++ [last]) = TypeDecl.separatedOps follows members ++
      (if follows || !members.isEmpty then [.blankLine] else []) ++ last := by
  induction members generalizing follows with
  | nil => cases follows <;> simp [TypeDecl.separatedOps]
  | cons member rest ih => cases follows <;> simp [TypeDecl.separatedOps, ih]

theorem members_end {d : TypeDecl} (hcut : d.nested ≠ [])
    (hmany : 2 ≤ d.fields.length + d.methods.length + d.nested.length) :
    ∃ (before : List Op) (t : TypeDecl), d.memberOps = before ++ [.blankLine, .nested t.ops] := by
  obtain ⟨init, t, hn⟩ := (List.eq_nil_or_concat d.nested).resolve_left hcut
  rw [List.concat_eq_append] at hn
  let earlier := d.methods.map Method.ops ++ init.map fun n => [Op.nested n.ops]
  have hmore : (!d.fields.isEmpty || !earlier.isEmpty) = true := by
    rw [hn, List.length_append] at hmany
    by_contra hnone
    have hnone : d.fields = [] ∧ d.methods = [] ∧ init = [] := by simpa [earlier] using hnone
    rw [hnone.1, hnone.2.1, hnone.2.2] at hmany
    exact absurd hmany (by simp)
  have hops : d.memberOps = d.fields.flatMap Field.ops ++
      TypeDecl.separatedOps (!d.fields.isEmpty) (earlier ++ [[.nested t.ops]]) := by
    rw [TypeDecl.memberOps, hn, List.map_append, ← List.append_assoc]
    rfl
  refine ⟨d.fields.flatMap Field.ops ++ TypeDecl.separatedOps (!d.fields.isEmpty) earlier, t, ?_⟩
  rw [hops, separatedOps_concat, if_pos hmore]
  simp

theorem gap_spoils {n : Nat} {d : TypeDecl} (h : d.LeavesGap n) {w : Writer}
    (hw : w.nesting = n) : ∃ v ∈ w.closings d.ops, ¬v.ClosesCleanly := by
  induction h generalizing w with
  | @here d hcut hmany =>
    -- The empty line stands there, and what it was asked for is left out.
    obtain ⟨before, t, hops⟩ := members_end hcut hmany
    let opening := .report d.announcement :: d.headerOps ++ [.openScope]
    have hbegun : Begun ((w.run opening).run before) := by
      apply run_begun
      rw [run_append, run, run, step]
      exact openScope_begun _
    have hlimit : ¬((w.run opening).run before).blankLine.nesting < maxNesting := by
      have hn := step_nesting .blankLine ((w.run opening).run before)
      rw [step, run_nesting, run_nesting, hw] at hn
      omega
    obtain ⟨hp, hs⟩ := hbegun.gap
    refine ⟨w.run (opening ++ d.memberOps), ?_, ?_⟩
    · rw [d.ops_eq, closings_append]
      exact List.mem_append_right _ (by simp [closings, closingsOf, opening])
    · rw [run_append, hops, run_append, run, run, run, step, step, if_neg hlimit]
      exact gap_unclean hp hs
  | @inside n d t hbelow hmember _ ih =>
    have hops : Op.nested t.ops ∈ d.ops :=
      TypeDecl.nested_mem_ops.2 (Or.inr (Or.inr ⟨t, hmember, rfl⟩))
    obtain ⟨before, after, hsplit⟩ := List.append_of_mem hops
    have hnesting : (w.run before).nesting < maxNesting := by
      rw [run_nesting, hw]
      exact hbelow
    obtain ⟨v, hv, hclean⟩ := @ih (w.run before).enter (by rw [← hw, ← run_nesting before w]; rfl)
    refine ⟨v, ?_, hclean⟩
    rw [hsplit, closings_append, closings, closingsOf, if_pos hnesting]
    exact List.mem_append_right _ (List.mem_append_left _ hv)

theorem new_solid (indent : Indent) : Solid (Writer.new indent) where
  unit := by
    have h := indentation_feedFree indent 1
    simpa [Line.indentation, Writer.new] using h
  sparse := by simp [Writer.new]
  inked := by simp [Writer.new]
  firm := by simp [Writer.new]
  hollow := by simp [Writer.new]

/-- A type made of ordinary code has no two empty lines in a row and closes every
scope cleanly, exactly if the nesting limit leaves no gap in it. -/
theorem emit_sparse_iff (d : TypeDecl) (hb : ∀ b ∈ d.blocks, b.Regular)
    (hr : ∀ r ∈ d.refs, OneLine r.render) (indent : Indent) :
    (¬['\n', '\n', '\n'] <:+: ((Writer.new indent).emit (.type d)).text.toList ∧
      ∀ w ∈ (Writer.new indent).closings d.ops, w.ClosesCleanly) ↔ ¬d.LeavesGap 0 := by
  constructor
  · rintro ⟨_, hclean⟩ hgap
    obtain ⟨v, hv, hunclean⟩ := gap_spoils hgap (w := Writer.new indent) rfl
    exact hunclean (hclean v hv)
  · intro hgap
    have hkeep := type_keeps d (provides_settles hb hr) (Nat.zero_le _) hgap
    obtain ⟨hsolid, hclean⟩ := hkeep (Writer.new indent) ⟨(new_solid indent).toLoose, rfl⟩
    refine ⟨?_, hclean⟩
    rw [text_toList, ← List.reverse_infix, List.reverse_reverse]
    exact hsolid.1.sparse

/-- A gap takes a chain of types that reaches below the nesting limit. -/
theorem gap_depth {n : Nat} {d : TypeDecl} (h : d.LeavesGap n) : maxNesting < n + d.depth := by
  induction h with
  | @here d hcut _ =>
    obtain ⟨t, ht⟩ := List.exists_mem_of_ne_nil _ hcut
    have hd := (TypeDecl.fits_of_depth (Nat.le_refl d.depth)).nested t ht
    omega
  | @inside n d t _ hmember _ ih =>
    have hd := (TypeDecl.fits_of_depth (Nat.le_refl d.depth)).nested t hmember
    omega

theorem station_regular : ∀ b ∈ station.blocks, b.Regular := by
  intro b hb
  rw [station_code] at hb
  rw [List.mem_singleton.1 hb]
  exact .flow ⟨by decide, by decide⟩ (.nested (.line ⟨by decide, by decide⟩))

theorem emit_sparse_station :
    ¬station.LeavesGap 0 ∧
    ¬['\n', '\n', '\n'] <:+: ((Writer.new .tab).emit (.type station)).text.toList ∧
    ∀ w ∈ (Writer.new .tab).closings station.ops, w.ClosesCleanly := by
  have hgap : ¬station.LeavesGap 0 := by
    intro h
    have hdepth := gap_depth h
    exact absurd hdepth (by decide +kernel)
  have hrefs : ∀ r ∈ station.refs, OneLine r.render := by
    have hnone : station.refs = [] := by decide +kernel
    simp [hnone]
  exact ⟨hgap, (emit_sparse_iff station station_regular hrefs .tab).2 hgap⟩

/-- `n` types around `d`, each the only member of the one around it. -/
def tower (d : TypeDecl) : Nat → TypeDecl
  | 0 => d
  | n + 1 => .declare .structType ("Level" ++ toString (n + 1)) [.nested (tower d n)]

def pair : TypeDecl :=
  .declare .structType "Last"
    [.nested (.declare .structType "A" []), .nested (.declare .structType "B" [])]

theorem tower_gap {d : TypeDecl} (h : d.LeavesGap maxNesting) (n k : Nat)
    (hk : k + n = maxNesting) : (tower d n).LeavesGap k := by
  induction n generalizing k with
  | zero =>
    rw [tower, show k = maxNesting by omega]
    exact h
  | succ n ih =>
    have hmember : tower d n ∈ (tower d (n + 1)).nested := by
      simp [tower, TypeDecl.declare, TypeDecl.add]
    exact .inside (by omega) hmember (ih (k + 1) (by omega))

theorem tower_parts (d : TypeDecl) (n : Nat) :
    (tower d n).blocks = d.blocks ∧ (tower d n).refs = d.refs := by
  induction n with
  | zero => exact ⟨rfl, rfl⟩
  | succ n ih =>
    rw [TypeDecl.blocks_eq, TypeDecl.refs_eq, tower]
    simpa [TypeDecl.declare, TypeDecl.add, TypeDecl.new, TypeDecl.inherited] using ih

/-- Inside of 256 types, two empty types leave two empty lines behind. -/
theorem tower_unclean :
    (∀ b ∈ (tower pair maxNesting).blocks, b.Regular) ∧
    (∀ r ∈ (tower pair maxNesting).refs, OneLine r.render) ∧
    ¬(¬['\n', '\n', '\n'] <:+:
        ((Writer.new (.spaces 0)).emit (.type (tower pair maxNesting))).text.toList ∧
      ∀ w ∈ (Writer.new (.spaces 0)).closings (tower pair maxNesting).ops, w.ClosesCleanly) := by
  obtain ⟨hblocks, hrefs⟩ := tower_parts pair maxNesting
  have hpair : pair.LeavesGap maxNesting :=
    .here (by simp [pair, TypeDecl.declare, TypeDecl.add]) (by decide)
  have hnone : pair.blocks = [] ∧ pair.refs = [] := by decide +kernel
  rw [hblocks, hrefs, hnone.1, hnone.2]
  refine ⟨by simp, by simp, ?_⟩
  rintro ⟨_, hclean⟩
  obtain ⟨v, hv, hunclean⟩ := gap_spoils (tower_gap hpair maxNesting 0 (by omega))
    (w := Writer.new (.spaces 0)) rfl
  exact hunclean (hclean v hv)

end SwiftDecl
