import SwiftDecl.Proofs.Lookback
import SwiftDecl.Proofs.MethodText
import SwiftDecl.Proofs.Repeats

/-!
# Lookalikes

A method lists no parameter twice, but it compares names and labels before they
are cleaned and defaults token by token. What a parameter is written as can be
read back as far as its parts go: the head ends at the first colon, and a type
without an equals sign ends at the first one behind it. So two parameters are
written alike exactly if their parts are, and the ones that a method lists are
told apart by their texts once the parts are in the form that they are written in.
-/

set_option autoImplicit false

namespace SwiftDecl
open SwiftDecl.Layout

theorem append_mark_inj {mark : Char} {a b x y : List Char} (ha : mark ∉ a) (hb : mark ∉ b) :
    a ++ mark :: x = b ++ mark :: y ↔ a = b ∧ x = y := by
  induction a generalizing b with
  | nil =>
    cases b with
    | nil => simp
    | cons d b => simp [List.ne_of_not_mem_cons hb]
  | cons c a ih =>
    cases b with
    | nil => simp [(List.ne_of_not_mem_cons ha).symm]
    | cons d b =>
      have hrest := ih (List.not_mem_of_not_mem_cons ha) (List.not_mem_of_not_mem_cons hb)
      simp only [List.cons_append, List.cons.injEq, hrest, and_assoc]

def spaced (text : String) : List Char :=
  if text = "" then [] else ' ' :: text.toList

theorem spaced_injective : Function.Injective spaced := by
  intro a b h
  unfold spaced at h
  by_cases ha : a = "" <;> by_cases hb : b = ""
  · rw [ha, hb]
  · simp [ha, hb] at h
  · simp [ha, hb] at h
  · simpa [ha, hb, String.toList_inj] using h

/-- A writer that has nothing but an equals sign, set apart, on its line. -/
def Layout.Writer.assigning (indent : Indent) : Writer :=
  { Writer.new indent with written := ['=', ' '], atLineStart := false }

theorem Layout.Writer.assigning_text (indent : Indent) :
    (Writer.assigning indent).text.toList = [' ', '='] :=
  Writer.text_toList _

def Block.assigned (indent : Indent) (b : Block) : List Char :=
  ((Writer.assigning indent).run b.ops).text.toList.drop 2

theorem Block.run_assigned {indent : Indent} {line : List Char} {w : Writer}
    (h : Amid indent.unit 0 (line ++ [' ', '=']) w) (b : Block) :
    (w.run b.ops).text.toList = line ++ ' ' :: '=' :: b.assigned indent := by
  have halike : w.Alike (.assigning indent) := ⟨h.unit, h.level, h.inLine, h.scopes, h.nesting⟩
  have hending : w.ending = (Writer.assigning indent).ending := by
    rw [Writer.ending_eq_iff, h.written]
    simp [Writer.assigning]
  obtain ⟨added, -, hw, hv, -⟩ := Writer.LooksBack.run b.ops w _ halike hending
  have hadded : b.assigned indent = added := by
    rw [assigned, hv, Writer.assigning_text]
    rfl
  rw [hw, hadded, Writer.text_toList, h.written]
  simp

theorem Block.assigned_literal (indent : Indent) {text : String} (h : '\n' ∉ text.toList) :
    (Block.literal text).assigned indent = spaced text := by
  have hrun : (Writer.assigning indent).run (Block.literal text).ops =
      (Writer.assigning indent).piece text.toList (attachesLeft text.toList) := by
    rw [literal, ops_cons, ops_nil, Token.op, Writer.run, Writer.run, Writer.step, Writer.literal,
      Text.pieces_single h]
    rfl
  rw [assigned, hrun, spaced]
  by_cases ht : text = ""
  · rw [if_pos ht, ht]
    show (Writer.assigning indent).text.toList.drop 2 = []
    rw [Writer.assigning_text]
    rfl
  · have hlead : ∀ attaches, (Writer.assigning indent).lead attaches = [' '] := by
      intro attaches
      cases attaches <;> rfl
    rw [if_neg ht, Writer.piece_text (by simpa using ht), hlead, Writer.assigning_text]
    rfl

/-- The text has no equals sign of its own, and one is set apart behind it. -/
structure TypeRef.IsPlain (r : TypeRef) : Prop where
  signFree : '=' ∉ r.render.toList
  clear : r.render = "" ∨ EndsClear ['=', '(', '[', '<', '.'] r.render

instance (r : TypeRef) : Decidable r.IsPlain :=
  decidable_of_iff (_ ∧ _) ⟨fun h => ⟨h.1, h.2⟩, fun h => ⟨h.signFree, h.clear⟩⟩

theorem TypeRef.IsPlain.notMem {r : TypeRef} (h : r.IsPlain) : '=' ∉ spaced r.render := by
  unfold spaced
  split
  · simp
  · simp [h.signFree]

theorem TypeRef.IsPlain.continues {r : TypeRef} (h : r.IsPlain) :
    Continues [.word r.render] ':' (spaced r.render) 0 0 ∧
      spacedAfter (endOf ':' (spaced r.render)) = true := by
  unfold spaced
  rcases h.clear with hempty | hclear
  · rw [if_pos hempty, hempty]
    refine ⟨?_, by decide⟩
    intro unit text w _ hw
    rw [Writer.run, Writer.run, Writer.step, List.append_nil]
    exact hw
  · obtain ⟨d, hd, -, hspaced⟩ := hclear.last
    rw [if_neg hclear.nonempty]
    refine ⟨word_continues hclear.nonempty, ?_⟩
    rw [← List.singleton_append, endOf_of_getLast? hd]
    exact hspaced

theorem IsWord.notMem {text : String} (h : IsWord text) {mark : Char}
    (hm : Name.isNameChar mark = false) : mark ∉ text.toList := by
  intro hc
  exact absurd (h.2 mark hc) (by simp [hm])

namespace Parameter

variable {p q : Parameter} {indent : Indent}

def textAlone (indent : Indent) (p : Parameter) : List Char :=
  ((Writer.new indent).emit (.parameter p)).text.toList

def assignedText (indent : Indent) (p : Parameter) : List Char :=
  match p.defaultValue with
  | none => []
  | some code => ' ' :: '=' :: code.assigned indent

theorem headText_colonFree (p : Parameter) : ':' ∉ p.headText := by
  have colon : Name.isNameChar ':' = false := by decide
  have hname := (Name.memberName_isWord p.heading.name).notMem colon
  unfold headText
  cases p.label with
  | none => exact hname
  | some label =>
    have hlabel := (labelText_isWord label).notMem colon
    simp [hname, hlabel]

theorem headText_eq_iff (p q : Parameter) : p.headText = q.headText ↔
    Name.memberName p.heading.name = Name.memberName q.heading.name ∧
      p.label.map labelText = q.label.map labelText := by
  have hname : ∀ r : Parameter, ' ' ∉ (Name.memberName r.heading.name).toList :=
    fun r => (Name.memberName_isWord _).notMem (by decide)
  have hlabel : ∀ label : String, ' ' ∉ (labelText label).toList :=
    fun label => (labelText_isWord label).notMem (by decide)
  -- A head has a space in it if and only if it has a label.
  unfold headText
  cases p.label with
  | none =>
    cases q.label with
    | none => simp [String.toList_inj]
    | some b =>
      constructor
      · intro h
        have hspace : ' ' ∈ (Name.memberName p.heading.name).toList := by simp [h]
        exact absurd hspace (hname p)
      · simp
  | some a =>
    cases q.label with
    | none =>
      constructor
      · intro h
        have hspace : ' ' ∈ (Name.memberName q.heading.name).toList := by simp [← h]
        exact absurd hspace (hname q)
      · simp
    | some b =>
      have hsplit := append_mark_inj (x := (Name.memberName p.heading.name).toList)
        (y := (Name.memberName q.heading.name).toList) (hlabel a) (hlabel b)
      simp [hsplit, String.toList_inj, and_comm]

def headOps (p : Parameter) : List Op :=
  p.labelOps ++ [.literal (Name.memberName p.heading.name)] ++ [.literal ":"]

theorem ops_eq (p : Parameter) :
    p.ops = p.headOps ++ ([.word p.type.render] ++ p.defaultOps) := by
  simp [ops, headOps]

theorem head_amid (p : Parameter) (indent : Indent) :
    Amid indent.unit 0 (p.headText ++ [':']) ((Writer.new indent).run p.headOps) := by
  have hname := Name.memberName_isWord p.heading.name
  have hcolon : ∀ c, Name.isNameChar c = true → Continues [.literal ":"] c [':'] 0 0 := by
    intro c hc
    apply attaching_continues ":" (by decide) (by decide)
    rintro rfl
    exact absurd hc (by decide)
  have hstart : Writer.new indent = Writer.startingAt indent 0 := rfl
  rw [hstart]
  unfold headOps labelOps headText
  cases p.label with
  | none =>
    have hsays : List.Forall₂ Op.Says [.literal (Name.memberName p.heading.name)]
        [Name.memberName p.heading.name] := .cons (.literal hname) .nil
    obtain ⟨c, -, -, h⟩ := line_amid hsays (by simp) hcolon indent
    simpa [Line.indentation, Writer.intercalate_space] using h
  | some label =>
    have hsays : List.Forall₂ Op.Says
        [.literal (labelText label), .literal (Name.memberName p.heading.name)]
        [labelText label, Name.memberName p.heading.name] :=
      .cons (.literal (labelText_isWord label)) (.cons (.literal hname) .nil)
    obtain ⟨c, -, -, h⟩ := line_amid hsays (by simp) hcolon indent
    simpa [Line.indentation, Writer.intercalate_space] using h

theorem textAlone_head (indent : Indent) (p : Parameter) :
    ∃ rest, p.textAlone indent = p.headText ++ ':' :: rest := by
  have hgrows := (Writer.LooksBack.run ([.word p.type.render] ++ p.defaultOps)).grows
    ((Writer.new indent).run p.headOps)
  obtain ⟨rest, hrest⟩ := hgrows
  refine ⟨rest, ?_⟩
  rw [textAlone, Writer.emit, Node.ops, ops_eq, Writer.run_append, ← hrest, Writer.text_toList,
    (p.head_amid indent).written]
  simp

theorem head_of_textAlone (h : p.textAlone indent = q.textAlone indent) :
    Name.memberName p.heading.name = Name.memberName q.heading.name ∧
      p.label.map labelText = q.label.map labelText := by
  obtain ⟨x, hx⟩ := p.textAlone_head indent
  obtain ⟨y, hy⟩ := q.textAlone_head indent
  rw [hx, hy, append_mark_inj p.headText_colonFree q.headText_colonFree, headText_eq_iff] at h
  exact h.1

theorem textAlone_eq (hp : p.type.IsPlain) (indent : Indent) :
    p.textAlone indent = p.headText ++ ':' :: (spaced p.type.render ++ p.assignedText indent) := by
  obtain ⟨htype, hspaced⟩ := hp.continues
  have hline := htype _ _ _ List.getLast?_concat (p.head_amid indent)
  rw [textAlone, Writer.emit, Node.ops, ops_eq, Writer.run_append, Writer.run_append]
  unfold defaultOps assignedText
  cases p.defaultValue with
  | none =>
    rw [Writer.run, Writer.text_toList, hline.written]
    simp
  | some code =>
    have hsign : Continues [.literal "="] (endOf ':' (spaced p.type.render)) [' ', '='] 0 0 :=
      apart_continues "=" (by decide) (by decide) hspaced
    have hassign := hsign _ _ _ (getLast?_added List.getLast?_concat _) hline
    rw [Writer.run, Writer.run] at hassign
    rw [Writer.run, Block.run_assigned hassign]
    simp

structure WrittenAlike (indent : Indent) (p q : Parameter) : Prop where
  name : Name.memberName p.heading.name = Name.memberName q.heading.name
  label : p.label.map labelText = q.label.map labelText
  type : p.type.render = q.type.render
  default : p.defaultValue.map (Block.assigned indent) = q.defaultValue.map (Block.assigned indent)

theorem tail_eq_iff (hp : p.type.IsPlain) (hq : q.type.IsPlain) (indent : Indent) :
    spaced p.type.render ++ p.assignedText indent = spaced q.type.render ++ q.assignedText indent ↔
      p.type.render = q.type.render ∧
      p.defaultValue.map (Block.assigned indent) = q.defaultValue.map (Block.assigned indent) := by
  have hpm := hp.notMem
  have hqm := hq.notMem
  rw [← spaced_injective.eq_iff]
  unfold assignedText
  -- The first equals sign ends the type and shows that there is a default.
  cases p.defaultValue with
  | none =>
    cases q.defaultValue with
    | none => simp
    | some b =>
      constructor
      · intro h
        rw [List.append_nil] at h
        exact absurd (by simp [h]) hpm
      · simp
  | some a =>
    cases q.defaultValue with
    | none =>
      constructor
      · intro h
        rw [List.append_nil] at h
        exact absurd (by simp [← h]) hqm
      · simp
    | some b =>
      have hpsign : '=' ∉ spaced p.type.render ++ [' '] := by simp [hpm]
      have hqsign : '=' ∉ spaced q.type.render ++ [' '] := by simp [hqm]
      have hsplit := append_mark_inj (x := a.assigned indent) (y := b.assigned indent) hpsign hqsign
      simpa using hsplit

theorem textAlone_eq_iff (hp : p.type.IsPlain) (hq : q.type.IsPlain) (indent : Indent) :
    p.textAlone indent = q.textAlone indent ↔ p.WrittenAlike indent q := by
  rw [textAlone_eq hp, textAlone_eq hq, append_mark_inj p.headText_colonFree q.headText_colonFree,
    headText_eq_iff, tail_eq_iff hp hq]
  constructor
  · rintro ⟨⟨hname, hlabel⟩, htype, hdefault⟩
    exact ⟨hname, hlabel, htype, hdefault⟩
  · exact fun h => ⟨⟨h.name, h.label⟩, h.type, h.default⟩

/-- Each part is in the form that it is written in, and the default is a single
literal. -/
structure IsTidy (p : Parameter) : Prop where
  name : Name.memberName p.heading.name = p.heading.name
  label : ∀ label ∈ p.label, labelText label = label
  type : p.type.IsPlain
  default : ∀ code ∈ p.defaultValue, ∃ text : String, '\n' ∉ text.toList ∧ code = .literal text

theorem IsTidy.label_eq (h : p.IsTidy) : p.label.map labelText = p.label := by
  cases hl : p.label with
  | none => rfl
  | some label => rw [Option.map_some, h.label label hl]

theorem IsTidy.default_same (hp : p.IsTidy) (hq : q.IsTidy)
    (h : p.defaultValue.map (Block.assigned indent) = q.defaultValue.map (Block.assigned indent)) :
    Block.sameOption p.defaultValue q.defaultValue = true := by
  cases hpd : p.defaultValue with
  | none =>
    cases hqd : q.defaultValue with
    | none => rfl
    | some b => simp [hpd, hqd] at h
  | some a =>
    cases hqd : q.defaultValue with
    | none => simp [hpd, hqd] at h
    | some b =>
      obtain ⟨s, hs, rfl⟩ := hp.default a hpd
      obtain ⟨t, ht, rfl⟩ := hq.default b hqd
      rw [hpd, hqd, Option.map_some, Option.map_some, Option.some.injEq,
        Block.assigned_literal indent hs, Block.assigned_literal indent ht] at h
      rw [spaced_injective h, Block.sameOption_iff]

theorem WrittenAlike.declaresSame (h : p.WrittenAlike indent q) (hp : p.IsTidy) (hq : q.IsTidy) :
    p.declaresSame q = true := by
  have hname : p.heading.name = q.heading.name := by
    rw [← hp.name, h.name, hq.name]
  have hlabel : p.label = q.label := by
    rw [← hp.label_eq, h.label, hq.label_eq]
  have htype : p.type.same q.type = true := by simp [TypeRef.same, h.type]
  simp only [Parameter.declaresSame, Bool.and_eq_true, beq_iff_eq]
  exact ⟨⟨⟨hname, hlabel⟩, htype⟩, hp.default_same hq h.default⟩

end Parameter

/-- Any two parameters that a method lists are declared differently. Where they are
written the same, their cleaned names and labels agree, and so do their types and
defaults if the types are plain. If their parts are in the form that they are
written in, their texts differ. -/
theorem parameters_written_apart (name : String) (calls : List (List Method.Clause))
    (indent : Indent) :
    (perform Method.add (.new name) calls).parameters.Pairwise fun p q =>
      p.declaresSame q = false ∧
      (p.textAlone indent = q.textAlone indent →
        Name.memberName p.heading.name = Name.memberName q.heading.name ∧
          p.label.map Parameter.labelText = q.label.map Parameter.labelText) ∧
      (p.type.IsPlain → q.type.IsPlain →
        (p.textAlone indent = q.textAlone indent ↔ p.WrittenAlike indent q)) ∧
      (p.IsTidy → q.IsTidy → p.textAlone indent ≠ q.textAlone indent) := by
  rw [Method.parameters_perform]
  refine (Parameter.merges.pairwise_addAll _ .nil).imp ?_
  intro p q hpq
  refine ⟨hpq, Parameter.head_of_textAlone, ?_, ?_⟩
  · exact fun hp hq => Parameter.textAlone_eq_iff hp hq indent
  · intro hp hq h
    have halike := (Parameter.textAlone_eq_iff hp.type hq.type indent).1 h
    rw [halike.declaresSame hp hq] at hpq
    exact absurd hpq (by simp)

def searching : List (List Method.Clause) :=
  [[.parameter (.new "id" (.named ∅ "Int"))],
   [.parameter (.declare "id" (.named ∅ "Int") [.label "by"]),
    .parameter (.declare "id" (.named ∅ "Int") [.defaultValue (.literal "0")])]]

theorem parameters_written_apart_searching :
    let parameters := (perform Method.add (.new "find") searching).parameters
    parameters.length = 3 ∧ (∀ p ∈ parameters, p.IsTidy) ∧
      parameters.Pairwise fun p q => p.textAlone .standard ≠ q.textAlone .standard := by
  intro parameters
  have htidy : ∀ p ∈ parameters, p.IsTidy := by
    have hall : parameters =
        [.new "id" (.named ∅ "Int"), .declare "id" (.named ∅ "Int") [.label "by"],
          .declare "id" (.named ∅ "Int") [.defaultValue (.literal "0")]] := rfl
    have hname : Name.memberName "id" = "id" := by decide +kernel
    have hlabel : Parameter.labelText "by" = "by" := by decide +kernel
    have htype : TypeRef.IsPlain (.named ∅ "Int") := by decide +kernel
    rw [hall]
    simp only [List.forall_mem_cons]
    refine ⟨⟨hname, by simp [Parameter.new], htype, by simp [Parameter.new]⟩, ?_, ?_, by simp⟩
    · exact ⟨hname, by simp [Parameter.declare, Parameter.add, hlabel], htype,
        by simp [Parameter.declare, Parameter.add, Parameter.new]⟩
    · refine ⟨hname, by simp [Parameter.declare, Parameter.add, Parameter.new], htype, ?_⟩
      rintro _ ⟨⟩
      exact ⟨"0", by decide, rfl⟩
  refine ⟨rfl, htidy, ?_⟩
  refine (parameters_written_apart "find" searching .standard).imp_of_mem ?_
  rintro p q hp hq ⟨-, -, -, hapart⟩
  exact hapart (htidy p hp) (htidy q hq)

def respelled : List (List Method.Clause) :=
  [[.parameter (.new "user_id" (.named ∅ "Int"))], [.parameter (.new "userId" (.named ∅ "Int"))],
   [.parameter (.declare "limit" (.named ∅ "Int") [.defaultValue [.literal "1", .literal "+ 2"]]),
    .parameter (.declare "limit" (.named ∅ "Int") [.defaultValue (.literal "1 + 2")])]]

/-- None of them repeats another, yet they are not told apart by what is written.
-/
theorem respelled_written_alike :
    let parameters := (perform Method.add (.new "find") respelled).parameters
    parameters.map (fun p => p.heading.name) = ["user_id", "userId", "limit", "limit"] ∧
    parameters.map (Parameter.textAlone .standard) =
      ["userId: Int".toList, "userId: Int".toList, "limit: Int = 1 + 2".toList,
       "limit: Int = 1 + 2".toList] ∧
    ¬ parameters.Pairwise fun p q => p.textAlone .standard ≠ q.textAlone .standard := by
  intro parameters
  have htexts : parameters.map (Parameter.textAlone .standard) =
      ["userId: Int".toList, "userId: Int".toList, "limit: Int = 1 + 2".toList,
       "limit: Int = 1 + 2".toList] := by decide +kernel
  refine ⟨rfl, htexts, ?_⟩
  intro h
  rw [← List.pairwise_map, htexts] at h
  simp at h

end SwiftDecl
