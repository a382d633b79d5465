import SwiftDecl.Proofs.EmptyLines
import SwiftDecl.Proofs.History
import SwiftDecl.Proofs.Pieces

/-!
# Scope marks

A writer marks the innermost scope when it writes a piece and sets the marks of
the others never again. The mark of every open scope is right all the same: it
says whether a piece has been written since that scope was opened. The brace of
an inner scope is written before that scope is opened, and the closing one after
it is left, so both count for the scope around it.
-/

set_option autoImplicit false

namespace SwiftDecl.Layout

namespace Op

def opens : Op → Bool
  | .openScope => true
  | _ => false

def closes : Op → Bool
  | .closeScope => true
  | _ => false

def Inks (ops : List Op) : Prop :=
  piecesOfAll 0 ops ≠ []

instance (ops : List Op) : Decidable (Inks ops) :=
  inferInstanceAs (Decidable (_ ≠ _))

theorem inks_append {a b : List Op} : Inks (a ++ b) ↔ Inks a ∨ Inks b := by
  rw [Inks, piecesOfAll_append, ne_eq, List.append_eq_nil_iff, not_and_or]
  rfl

theorem inks_single {op : Op} : Inks [op] ↔ op.pieces 0 ≠ [] := by
  rw [Inks, piecesOfAll, piecesOfAll, List.append_nil]

theorem inks_of_opens {ops : List Op} (h : 0 < ops.countP opens) : Inks ops := by
  obtain ⟨op, hm, hop⟩ := List.countP_pos_iff.1 h
  obtain ⟨before, after, rfl⟩ := List.append_of_mem hm
  refine inks_append.2 (.inr (inks_append (a := [op]).2 (.inl (inks_single.2 ?_))))
  cases op with
  | openScope => exact List.cons_ne_nil _ _
  | _ => exact absurd hop (by simp [opens])

/-- A scope that was opened in the history is open at the end of it, with `depth`
scopes open inside; `inside` is what has been carried out since. -/
structure OpenSince (history inside : List Op) (depth : Nat) : Prop where
  opened : ∃ before, history = before ++ .openScope :: inside
  still : Tally opens closes 0 inside depth

theorem not_openSince_nil {inside : List Op} {depth : Nat} : ¬OpenSince [] inside depth := by
  rintro ⟨⟨before, h⟩, -⟩
  exact absurd h (by simp)

/-- One operation more: a scope is opened by it, or was open before and is not
closed by it. -/
theorem openSince_concat_iff {history inside : List Op} {op : Op} {depth : Nat} :
    OpenSince (history ++ [op]) inside depth ↔
      op = .openScope ∧ inside = [] ∧ depth = 0 ∨
      ∃ past k, inside = past ++ [op] ∧ OpenSince history past k ∧
        k + (if op.opens then 1 else 0) = depth + (if op.closes then 1 else 0) := by
  constructor
  · rintro ⟨⟨before, hopened⟩, hstill⟩
    obtain rfl | ⟨past, last, rfl⟩ := List.eq_nil_or_concat' inside
    · obtain ⟨-, hop⟩ := List.append_inj' hopened rfl
      exact .inl ⟨List.head_eq_of_cons_eq hop, rfl, (Tally.nil_iff.1 hstill).symm⟩
    · rw [← List.cons_append, ← List.append_assoc] at hopened
      obtain ⟨hhistory, hop⟩ := List.append_inj' hopened rfl
      cases hop
      obtain ⟨k, hpast, hk⟩ := Tally.concat_iff.1 hstill
      exact .inr ⟨past, k, rfl, ⟨⟨before, hhistory⟩, hpast⟩, hk⟩
  · rintro (⟨rfl, rfl, rfl⟩ | ⟨past, k, rfl, ⟨⟨before, rfl⟩, hpast⟩, hk⟩)
    · exact ⟨⟨history, rfl⟩, Tally.nil 0⟩
    · exact ⟨⟨before, by simp⟩, Tally.concat_iff.2 ⟨k, hpast, hk⟩⟩

theorem OpenSince.inks {history inside : List Op} {depth : Nat}
    (h : OpenSince history inside depth) (hd : 0 < depth) : Inks inside := by
  refine inks_of_opens ?_
  have htotal := h.still.total
  omega

end Op

namespace Writer

def mark (pieces : List Piece) (scopes : List Bool) : List Bool :=
  if pieces = [] then scopes else fill scopes

theorem mark_append (a b : List Piece) (scopes : List Bool) :
    mark (a ++ b) scopes = mark b (mark a scopes) := by
  cases a <;> cases b <;> simp [mark, fill_fill]

theorem mark_getElem? {pieces : List Piece} {scopes : List Bool} {k : Nat} {marked : Bool}
    (hk : scopes[k]? = some marked) (hm : k = 0 ∨ marked = true) :
    (mark pieces scopes)[k]? = some (marked || decide (pieces ≠ [])) := by
  by_cases hp : pieces = []
  · simpa [mark, hp] using hk
  · rw [mark, if_neg hp, decide_eq_true hp, Bool.or_true]
    cases scopes with
    | nil => exact absurd hk (by simp)
    | cons first outer =>
      cases k with
      | zero => rfl
      | succ k => exact hm.resolve_left (Nat.succ_ne_zero k) ▸ hk

theorem mark_length (pieces : List Piece) (scopes : List Bool) :
    (mark pieces scopes).length = scopes.length := by
  unfold mark
  split
  · rfl
  · exact fill_length scopes

theorem piece_scopes (w : Writer) (cs : List Char) (attaches : Bool) :
    (w.piece cs attaches).scopes = mark (Piece.ofText attaches cs) w.scopes := by
  cases cs <;> rfl

theorem literalPart_scopes (w : Writer) (part : List Char) :
    (w.literalPart part).scopes =
      mark (Piece.ofText (decide (Attaching part)) part) w.scopes := by
  rw [literalPart, piece_scopes, decide_attaching]

theorem literalParts_scopes (w : Writer) (parts : List (List Char)) :
    (w.literalParts parts).scopes =
      mark (parts.flatMap fun part => Piece.ofText (decide (Attaching part)) part) w.scopes := by
  induction parts generalizing w with
  | nil => rfl
  | cons part rest ih =>
    rw [literalParts, ih, literalPart_scopes, List.flatMap_cons, mark_append]
    rfl

theorem literal_scopes (w : Writer) (text : String) :
    (w.literal text.toList).scopes = mark (Op.pieces 0 (.literal text)) w.scopes := by
  rw [literal, Op.pieces]
  cases Text.pieces text.toList with
  | nil => rfl
  | cons first rest =>
    simp only [literalParts_scopes, literalPart_scopes, List.flatMap_cons, mark_append]

/-- The scopes around an operation that only writes. It may open one, or leave
one; its pieces go to the innermost of the others. -/
def scopesAfter (op : Op) (scopes : List Bool) : List Bool :=
  match op with
  | .openScope => false :: mark (op.pieces 0) scopes
  | .closeScope => mark (op.pieces 0) scopes.tail
  | _ => mark (op.pieces 0) scopes

theorem blankLine_scopes (w : Writer) : w.blankLine.scopes = w.scopes := by
  unfold blankLine separate
  split <;> exact endLine_scopes w

theorem leaveScope_scopes (w : Writer) : w.leaveScope.scopes = w.scopes.tail := by
  unfold leaveScope
  split <;> simp_all

theorem closeScope_scopes (w : Writer) : w.closeScope.scopes = fill w.scopes.tail := by
  have hleft : w.endLine.leaveScope.scopes = w.scopes.tail := by
    rw [leaveScope_scopes, endLine_scopes]
  rw [← hleft]
  rfl

theorem step_scopes {op : Op} (h : Op.outline [op] = []) (w : Writer) :
    (w.step op).scopes = scopesAfter op w.scopes := by
  cases op with
  | literal text =>
    rw [step]
    exact literal_scopes w text
  | word text =>
    rw [step]
    exact piece_scopes w text.toList false
  | closeScope =>
    rw [step]
    exact closeScope_scopes w
  | endLine =>
    rw [step]
    exact endLine_scopes w
  | blankLine =>
    rw [step]
    exact blankLine_scopes w
  | openScope | newLine | indent | dedent =>
    rw [step]
    rfl
  | nested inner => exact absurd h (by simp)
  | report event => exact absurd h (by simp)

theorem scopesAfter_length (op : Op) (scopes : List Bool) :
    (scopesAfter op scopes).length =
      scopes.length + (if op.opens then 1 else 0) - (if op.closes then 1 else 0) := by
  cases op <;> simp [scopesAfter, mark_length, Op.opens, Op.closes]

theorem scopesAfter_getElem? {op : Op} {scopes : List Bool} {k depth : Nat} {marked : Bool}
    (hd : k + (if op.opens then 1 else 0) = depth + (if op.closes then 1 else 0))
    (hk : scopes[k]? = some marked) (hm : k = 0 ∨ marked = true) :
    (scopesAfter op scopes)[depth]? = some (marked || decide (Op.Inks [op])) := by
  have hink : decide (Op.Inks [op]) = decide (op.pieces 0 ≠ []) := decide_eq_decide.2 Op.inks_single
  rw [hink]
  cases op with
  | openScope =>
    obtain rfl : depth = k + 1 := hd.symm
    exact mark_getElem? hk hm
  | closeScope =>
    obtain rfl : k = depth + 1 := hd
    exact mark_getElem? (by rwa [List.getElem?_tail]) (.inr (hm.resolve_left (Nat.succ_ne_zero _)))
  | _ =>
    obtain rfl : k = depth := hd
    exact mark_getElem? hk hm

structure MarksHistory (history : List Op) (w : Writer) : Prop where
  marks : ∀ inside depth, Op.OpenSince history inside depth →
    w.scopes[depth]? = some (decide (Op.Inks inside))
  counts : ∀ depth < w.scopes.length, ∃ inside, Op.OpenSince history inside depth

theorem MarksHistory.new (indent : Indent) : MarksHistory [] (Writer.new indent) where
  marks := fun _ _ h => absurd h Op.not_openSince_nil
  counts := fun _ h => absurd h (Nat.not_lt_zero _)

theorem MarksHistory.step {past : List Op} {w : Writer} {op : Op} (ho : Op.outline [op] = [])
    (h : MarksHistory past w) : MarksHistory (past ++ [op]) (w.step op) where
  marks := by
    intro inside depth hopen
    rw [step_scopes ho]
    rcases Op.openSince_concat_iff.1 hopen with ⟨rfl, rfl, rfl⟩ | ⟨before, k, rfl, hbefore, hk⟩
    · rfl
    · have hmarked := h.marks before k hbefore
      have houter : k = 0 ∨ decide (Op.Inks before) = true :=
        k.eq_zero_or_pos.imp_right fun hpos => decide_eq_true (hbefore.inks hpos)
      rw [scopesAfter_getElem? hk hmarked houter, ← Bool.decide_or]
      simp only [Op.inks_append]
  counts := by
    intro depth hd
    rw [step_scopes ho, scopesAfter_length] at hd
    have hold : ∀ k < w.scopes.length,
        k + (if op.opens then 1 else 0) = depth + (if op.closes then 1 else 0) →
        ∃ inside, Op.OpenSince (past ++ [op]) inside depth := by
      intro k hlt hk
      obtain ⟨before, hbefore⟩ := h.counts k hlt
      exact ⟨before ++ [op], Op.openSince_concat_iff.2 (.inr ⟨before, k, rfl, hbefore, hk⟩)⟩
    cases op with
    | openScope =>
      cases depth with
      | zero => exact ⟨[], Op.openSince_concat_iff.2 (.inl ⟨rfl, rfl, rfl⟩)⟩
      | succ depth => exact hold depth (Nat.lt_of_succ_lt_succ hd) rfl
    | closeScope => exact hold (depth + 1) (Nat.add_lt_of_lt_sub hd) rfl
    | _ => exact hold depth hd rfl

theorem Traces.marksHistory {indent : Indent} {ops history : List Op} {w : Writer}
    (h : (Writer.new indent).Traces ops history w) : MarksHistory history w :=
  h.keeps (.new indent) (fun _ _ _ ho hu => hu.step ho) fun _ _ _ _ hu => ⟨hu.marks, hu.counts⟩

namespace MarksHistory

variable {history : List Op} {w : Writer}

theorem marked_iff (h : MarksHistory history w) (depth : Nat) (marked : Bool) :
    w.scopes[depth]? = some marked ↔
      ∃ inside, Op.OpenSince history inside depth ∧ (marked = true ↔ Op.Inks inside) := by
  constructor
  · intro hm
    obtain ⟨hlt, -⟩ := List.getElem?_eq_some_iff.1 hm
    obtain ⟨inside, hopen⟩ := h.counts depth hlt
    rw [h.marks inside depth hopen, Option.some.injEq] at hm
    exact ⟨inside, hopen, by rw [← hm, decide_eq_true_iff]⟩
  · rintro ⟨inside, hopen, hm⟩
    rw [h.marks inside depth hopen, Option.some.injEq, Bool.eq_iff_iff, decide_eq_true_iff, hm]

theorem outer (h : MarksHistory history w) : ∀ marked ∈ w.scopes.tail, marked = true := by
  intro marked hm
  obtain ⟨depth, hdepth⟩ := List.mem_iff_getElem?.1 hm
  rw [List.getElem?_tail] at hdepth
  obtain ⟨inside, hopen, hmarked⟩ := (h.marked_iff (depth + 1) marked).1 hdepth
  exact hmarked.2 (hopen.inks (Nat.succ_pos depth))

theorem head_false_iff (h : MarksHistory history w) :
    w.scopes.head? = some false ↔ ∃ inside, Op.OpenSince history inside 0 ∧ ¬Op.Inks inside := by
  rw [List.head?_eq_getElem?, h.marked_iff]
  simp

end MarksHistory

theorem closeScope_text (w : Writer) :
    w.closeScope.text.toList =
      w.endLine.text.toList ++ (if w.scopes.head? = some false then ['\n'] else []) ++
        w.dedent.margin ++ ['\x7d', '\n'] := by
  rw [text_toList, text_toList, closeScope_written, leaveScope_written, endLine_scopes]
  split <;> simp

/-- Wherever a writer is on its way through calls, balanced or not, its scopes are
those that its history leaves open, each with whether a piece was written since
it was opened; for all but the innermost that is so. So a scope that is closed
gets an empty line exactly if it is open and nothing was written in it. -/
theorem scopes_marked {indent : Indent} {calls : List Call} {history : List Op} {w : Writer}
    (h : (Writer.new indent).Traces (Call.opsOfAll calls) history w) :
    (∀ depth marked, w.scopes[depth]? = some marked ↔
      ∃ inside, Op.OpenSince history inside depth ∧ (marked = true ↔ Op.Inks inside)) ∧
    (∀ marked ∈ w.scopes.tail, marked = true) ∧
    (∃ extra, w.closeScope.text.toList =
        w.endLine.text.toList ++ extra ++ w.dedent.margin ++ ['\x7d', '\n'] ∧
      (extra = ['\n'] ∨ extra = []) ∧
      (extra = ['\n'] ↔ ∃ inside, Op.OpenSince history inside 0 ∧ ¬Op.Inks inside)) ∧
    (w.scopes = [] → w.closeScope.text.toList =
      w.endLine.text.toList ++ w.dedent.margin ++ ['\x7d', '\n']) := by
  have hmarks := h.marksHistory
  refine ⟨hmarks.marked_iff, hmarks.outer, ⟨_, closeScope_text w, ?_, ?_⟩, fun hnone => ?_⟩
  · split
    · exact .inl rfl
    · exact .inr rfl
  · rw [← hmarks.head_false_iff]
    simp
  · rw [closeScope_text, hnone, if_neg (by simp), List.append_nil]

def hollow : List Call :=
  [.literal "if ready", .openScope, .literal "", .nested [.newLine]]

def hollowHistory : List Op :=
  [.literal "if ready", .openScope, .literal "", .newLine]

theorem scopes_marked_hollow :
    ∃ w, (Writer.new .tab).Traces (Call.opsOfAll hollow) hollowHistory w ∧
      w.scopes[0]? = some false ∧
      w.closeScope.text.toList =
        w.endLine.text.toList ++ ['\n'] ++ w.dedent.margin ++ ['\x7d', '\n'] := by
  have htraces := traces_run (Writer.new .tab) (Call.opsOfAll hollow)
  have hhistory : Op.performedAll (Writer.new .tab).nesting (Call.opsOfAll hollow) =
      hollowHistory := rfl
  rw [hhistory] at htraces
  have hopen : Op.OpenSince hollowHistory [.literal "", .newLine] 0 :=
    ⟨⟨[.literal "if ready"], rfl⟩, by decide⟩
  have hdry : ¬Op.Inks [.literal "", .newLine] := by decide
  obtain ⟨hmarks, -, ⟨extra, htext, -, hextra⟩, -⟩ := scopes_marked htraces
  refine ⟨_, htraces, (hmarks 0 false).2 ⟨_, hopen, by simpa using hdry⟩, ?_⟩
  rw [htext, hextra.2 ⟨_, hopen, hdry⟩]

end Writer

end SwiftDecl.Layout
