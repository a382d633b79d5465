import SwiftDecl.Decl.Node
import SwiftDecl.Proofs.Writes
import Mathlib.Data.List.DropRight

/-!
# Looking back

A writer never takes back what it has written, and of the text before it, it
looks at the last two characters at most: one to tell whether a space is due,
two to tell whether an empty line is there. So two writers that are alike apart
from their texts write the same, as long as their texts end in the same two
characters. The proof goes through the writer's functions one by one; each of
them asks the text for no more than that, and after what it adds the two texts
again end alike.
-/

set_option autoImplicit false

namespace SwiftDecl
open SwiftDecl.Layout

namespace Layout.Writer

structure Alike (w v : Writer) : Prop where
  unit : w.unit = v.unit
  level : w.level = v.level
  atLineStart : w.atLineStart = v.atLineStart
  scopes : w.scopes = v.scopes
  nesting : w.nesting = v.nesting

/-- The last two characters of the text; all of it if it has no more. -/
def ending (w : Writer) : List Char :=
  w.text.toList.rtake 2

theorem ending_eq_iff {w v : Writer} :
    w.ending = v.ending ↔ w.written.take 2 = v.written.take 2 := by
  simp [ending, text_toList, List.rtake_eq_reverse_take_reverse]

theorem isSeparated_iff_ending (w : Writer) :
    w.isSeparated = true ↔ w.ending = [] ∨ w.ending = ['\n', '\n'] := by
  rw [ending, text_toList, List.rtake_eq_reverse_take_reverse, List.reverse_reverse,
    List.reverse_eq_nil_iff, List.reverse_eq_iff]
  unfold isSeparated
  split
  · rename_i hw
    simp [hw]
  · rename_i rest hw
    simp [hw]
  · rename_i hsome hother
    have hno : ¬(w.written.take 2 = [] ∨ w.written.take 2 = ['\n', '\n']) := by
      rintro (h | h)
      · exact hsome (by simpa using h)
      · have hsplit := List.take_append_drop 2 w.written
        rw [h] at hsplit
        exact hother _ hsplit.symm
    simpa using hno

theorem Alike.refl (w : Writer) : w.Alike w :=
  ⟨rfl, rfl, rfl, rfl, rfl⟩

/-- `w'` and `v'` come from `w` and `v` by the same addition to both texts and
both logs, and are alike. -/
def AddsAlike (w v w' v' : Writer) : Prop :=
  ∃ (added : List Char) (events : List Event),
    w'.text.toList = w.text.toList ++ added ∧ v'.text.toList = v.text.toList ++ added ∧
      w'.events = w.events ++ events ∧ v'.events = v.events ++ events ∧ w'.Alike v'

theorem AddsAlike.intro {w v w' v' : Writer} (added : List Char) (events : List Event)
    (hw : w'.written = added.reverse ++ w.written) (hv : v'.written = added.reverse ++ v.written)
    (hwl : w'.log = events.reverse ++ w.log) (hvl : v'.log = events.reverse ++ v.log)
    (h : w'.Alike v') : AddsAlike w v w' v' := by
  refine ⟨added, events, ?_, ?_, ?_, ?_, h⟩
  · simp [text_toList, hw]
  · simp [text_toList, hv]
  · simp [Writer.events, hwl]
  · simp [Writer.events, hvl]

theorem AddsAlike.ending {w v w' v' : Writer} (h : AddsAlike w v w' v')
    (he : w.ending = v.ending) : w'.ending = v'.ending := by
  obtain ⟨added, _, hw, hv, _⟩ := h
  have hend : ∀ cs : List Char, (cs ++ added).rtake 2 =
      cs.rtake (2 - added.length) ++ added.rtake 2 := by
    intro cs
    simp [List.rtake_eq_reverse_take_reverse, List.take_append]
  have hless : ∀ cs : List Char, cs.rtake (2 - added.length) =
      (cs.rtake 2).rtake (2 - added.length) := by
    intro cs
    simp [List.rtake_eq_reverse_take_reverse, List.take_take]
  unfold Writer.ending at he ⊢
  rw [hw, hv, hend, hend, hless, hless v.text.toList, he]

theorem AddsAlike.alike {w v w' v' : Writer} (h : AddsAlike w v w' v') : w'.Alike v' := by
  obtain ⟨_, _, _, _, _, _, ha⟩ := h
  exact ha

theorem AddsAlike.trans {w v w' v' w'' v'' : Writer} (h₁ : AddsAlike w v w' v')
    (h₂ : AddsAlike w' v' w'' v'') : AddsAlike w v w'' v'' := by
  obtain ⟨a, e, hw, hv, hwe, hve, _⟩ := h₁
  obtain ⟨b, f, hw', hv', hwe', hve', h⟩ := h₂
  exact ⟨a ++ b, e ++ f, by rw [hw', hw, List.append_assoc], by rw [hv', hv, List.append_assoc],
    by rw [hwe', hwe, List.append_assoc], by rw [hve', hve, List.append_assoc], h⟩

/-- What `act` adds to a writer depends on the text through its last two
characters at most. -/
def LooksBack (act : Writer → Writer) : Prop :=
  ∀ w v : Writer, w.Alike v → w.ending = v.ending → AddsAlike w v (act w) (act v)

namespace LooksBack

variable {f g : Writer → Writer}

theorem of_adds (added : List Char) (events : List Event)
    (hwritten : ∀ w, (f w).written = added.reverse ++ w.written)
    (hlog : ∀ w, (f w).log = events.reverse ++ w.log)
    (halike : ∀ w v : Writer, w.Alike v → (f w).Alike (f v)) : LooksBack f :=
  fun w v h _ => .intro added events (hwritten w) (hwritten v) (hlog w) (hlog v) (halike w v h)

theorem id : LooksBack fun w => w :=
  of_adds [] [] (fun _ => rfl) (fun _ => rfl) fun _ _ h => h

theorem andThen (hf : LooksBack f) (hg : LooksBack g) : LooksBack fun w => g (f w) := by
  intro w v h he
  have hfirst := hf w v h he
  exact hfirst.trans (hg _ _ hfirst.alike (hfirst.ending he))

theorem ite {p : Writer → Bool} (hp : ∀ w v : Writer, w.Alike v → w.ending = v.ending → p w = p v)
    (hf : LooksBack f) (hg : LooksBack g) : LooksBack fun w => if p w then f w else g w := by
  intro w v h he
  show AddsAlike w v (if p w then f w else g w) (if p v then f v else g v)
  rw [hp w v h he]
  by_cases hc : p v = true
  · rw [if_pos hc, if_pos hc]
    exact hf w v h he
  · rw [if_neg hc, if_neg hc]
    exact hg w v h he

theorem piece (cs : List Char) (attaches : Bool) : LooksBack fun w => w.piece cs attaches := by
  intro w v h he
  have hhead : w.written.head? = v.written.head? := by
    have htake := congrArg List.head? (ending_eq_iff.1 he)
    rwa [List.head?_take, List.head?_take] at htake
  have hlead : w.lead attaches = v.lead attaches := by
    rw [lead, lead, margin, margin, h.atLineStart, h.level, h.unit, hhead]
  cases cs with
  | nil => exact id w v h he
  | cons c rest =>
    have hwritten : (w.piece (c :: rest) attaches).written =
        (v.lead attaches ++ c :: rest).reverse ++ w.written := by
      rw [← hlead]
      rfl
    exact .intro (v.lead attaches ++ c :: rest) [] hwritten rfl rfl rfl
      ⟨h.unit, h.level, rfl, congrArg fill h.scopes, h.nesting⟩

theorem newLine : LooksBack Writer.newLine :=
  of_adds ['\n'] [] (fun _ => rfl) (fun _ => rfl)
    fun _ _ h => ⟨h.unit, h.level, rfl, h.scopes, h.nesting⟩

theorem endLine : LooksBack Writer.endLine :=
  ite (fun _ _ h _ => h.atLineStart) id newLine

theorem separate : LooksBack Writer.separate := by
  have hfeed : LooksBack fun w => w.put ['\n'] :=
    of_adds ['\n'] [] (fun _ => rfl) (fun _ => rfl)
      fun _ _ h => ⟨h.unit, h.level, h.atLineStart, h.scopes, h.nesting⟩
  apply ite _ id hfeed
  intro w v _ he
  rw [Bool.eq_iff_iff, isSeparated_iff_ending, isSeparated_iff_ending, he]

theorem blankLine : LooksBack Writer.blankLine := by
  have h := endLine.andThen separate
  exact h

theorem indent : LooksBack Writer.indent :=
  of_adds [] [] (fun _ => rfl) (fun _ => rfl)
    fun _ _ h => ⟨h.unit, congrArg (· + 1) h.level, h.atLineStart, h.scopes, h.nesting⟩

theorem dedent : LooksBack Writer.dedent :=
  of_adds [] [] (fun _ => rfl) (fun _ => rfl)
    fun _ _ h => ⟨h.unit, congrArg (· - 1) h.level, h.atLineStart, h.scopes, h.nesting⟩

theorem report (event : Event) : LooksBack fun w => w.report event :=
  of_adds [] [event] (fun _ => rfl) (fun _ => rfl)
    fun _ _ h => ⟨h.unit, h.level, h.atLineStart, h.scopes, h.nesting⟩

theorem enter : LooksBack Writer.enter :=
  of_adds [] [] (fun _ => rfl) (fun _ => rfl)
    fun _ _ h => ⟨h.unit, h.level, h.atLineStart, h.scopes, congrArg (· + 1) h.nesting⟩

theorem leave : LooksBack Writer.leave :=
  of_adds [] [] (fun _ => rfl) (fun _ => rfl)
    fun _ _ h => ⟨h.unit, h.level, h.atLineStart, h.scopes, congrArg (· - 1) h.nesting⟩

theorem literalParts (parts : List (List Char)) : LooksBack fun w => w.literalParts parts := by
  induction parts with
  | nil => exact id
  | cons part rest ih =>
    have h := (newLine.andThen (piece part (attachesLeft part))).andThen ih
    exact h

theorem literal (cs : List Char) : LooksBack fun w => w.literal cs := by
  unfold Writer.literal
  cases Text.pieces cs with
  | nil => exact id
  | cons first rest =>
    have h := (piece first (attachesLeft first)).andThen (literalParts rest)
    exact h

theorem openScope : LooksBack Writer.openScope := by
  have hpush : LooksBack fun w => { w with scopes := false :: w.scopes } :=
    of_adds [] [] (fun _ => rfl) (fun _ => rfl)
      fun _ _ h => ⟨h.unit, h.level, h.atLineStart, congrArg (false :: ·) h.scopes, h.nesting⟩
  have h := (((piece ['\x7b'] false).andThen newLine).andThen hpush).andThen indent
  exact h

theorem leaveScope : LooksBack Writer.leaveScope := by
  intro w v h he
  have hscopes := h.scopes
  unfold Writer.leaveScope
  cases hs : v.scopes with
  | nil =>
    rw [hs] at hscopes
    simpa only [hscopes] using id w v h he
  | cons filled outer =>
    rw [hs] at hscopes
    simp only [hscopes]
    cases filled with
    | true =>
      exact .intro [] [] rfl rfl rfl rfl ⟨h.unit, h.level, h.atLineStart, rfl, h.nesting⟩
    | false =>
      exact .intro ['\n'] [] rfl rfl rfl rfl ⟨h.unit, h.level, h.atLineStart, rfl, h.nesting⟩

theorem closeScope : LooksBack Writer.closeScope := by
  have hbrace := (piece ['\x7d'] false).andThen newLine
  have h := ((endLine.andThen leaveScope).andThen dedent).andThen hbrace
  exact h

theorem step {op : Op} (h : ∀ inner, op = .nested inner → LooksBack fun w => w.run inner) :
    LooksBack fun w => w.step op := by
  cases op with
  | literal text => simpa only [Writer.step] using literal text.toList
  | word text => simpa only [Writer.step] using piece text.toList false
  | openScope => simpa only [Writer.step] using openScope
  | closeScope => simpa only [Writer.step] using closeScope
  | newLine => simpa only [Writer.step] using newLine
  | endLine => simpa only [Writer.step] using endLine
  | blankLine => simpa only [Writer.step] using blankLine
  | indent => simpa only [Writer.step] using indent
  | dedent => simpa only [Writer.step] using dedent
  | report event => simpa only [Writer.step] using report event
  | nested inner =>
    have hdeep := (enter.andThen (h inner rfl)).andThen leave
    intro w v ha he
    by_cases hn : v.nesting < maxNesting
    · simpa only [Writer.step, ha.nesting, if_pos hn] using hdeep w v ha he
    · -- At the limit both report the level they share.
      have hreport := report (.nestingLimit v.nesting) w v ha he
      simpa only [Writer.step, ha.nesting, if_neg hn] using hreport

theorem run (ops : List Op) : LooksBack fun w => w.run ops := by
  induction ops using Op.consInduct with
  | nil => simpa only [Writer.run] using id
  | flat op rest hflat ihr =>
    have hstep : LooksBack fun w => w.step op := step fun inner hi => absurd hi (hflat inner)
    simpa only [Writer.run] using hstep.andThen ihr
  | nested inner rest ih ihr =>
    have hstep : LooksBack fun w => w.step (.nested inner) := by
      apply step
      rintro _ ⟨⟩
      exact ih
    simpa only [Writer.run] using hstep.andThen ihr

theorem grows (h : LooksBack f) (w : Writer) : w.text.toList <+: (f w).text.toList := by
  obtain ⟨added, _, hw, _⟩ := h w w (.refl w) rfl
  exact ⟨added, hw.symm⟩

end LooksBack

end Layout.Writer

/-- Operations of any kind, and so nodes of any kind, only add to the text. Two
writers that differ in no more than their texts and logs, and whose texts end in
the same two characters, have the same added to them and still differ in no
more. -/
theorem emit_appends :
    (∀ (ops : List Op) (w : Writer), w.text.toList <+: (w.run ops).text.toList) ∧
    (∀ (node : Node) (w : Writer), w.text.toList <+: (w.emit node).text.toList) ∧
    (∀ (ops : List Op) (w v : Writer), w.Alike v → w.ending = v.ending →
      w.AddsAlike v (w.run ops) (v.run ops)) ∧
    ∀ (node : Node) (w v : Writer), w.Alike v → w.ending = v.ending →
      w.AddsAlike v (w.emit node) (v.emit node) := by
  refine ⟨?_, ?_, ?_, ?_⟩
  · exact fun ops w => (Writer.LooksBack.run ops).grows w
  · exact fun node w => (Writer.LooksBack.run node.ops).grows w
  · exact fun ops => Writer.LooksBack.run ops
  · exact fun node => Writer.LooksBack.run node.ops

def Layout.Writer.after (text : String) : Writer :=
  { Writer.new .standard with written := text.toList.reverse, atLineStart := false }

/-- Two lines that have no more in common than how they end. -/
theorem emit_appends_assignment :
    (Writer.after "let first =").Alike (Writer.after "x =") ∧
    (Writer.after "let first =").ending = (Writer.after "x =").ending ∧
    (Writer.after "let first =").AddsAlike (Writer.after "x =")
      ((Writer.after "let first =").emit (.block [.literal ".none", .newLine]))
      ((Writer.after "x =").emit (.block [.literal ".none", .newLine])) := by
  have halike : (Writer.after "let first =").Alike (Writer.after "x =") :=
    ⟨rfl, rfl, rfl, rfl, rfl⟩
  have hending : (Writer.after "let first =").ending = (Writer.after "x =").ending := by
    decide
  exact ⟨halike, hending, emit_appends.2.2.2 _ _ _ halike hending⟩

/-- One character would not do: an empty line takes two to see. -/
example :
    ({ Writer.new .tab with written := ['\n', 'x'] }.run [.blankLine]).text = "x\n\n" ∧
      ({ Writer.new .tab with written := ['\n', '\n'] }.run [.blankLine]).text = "\n\n" := by
  decide

end SwiftDecl
