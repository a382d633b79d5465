import SwiftDecl.Proofs.Dependencies
import SwiftDecl.Proofs.Lookback
import SwiftDecl.Proofs.NestingLimit
import SwiftDecl.Proofs.Phrases

/-!
# Adoption

A type adopts the fields and methods that are added to it, whatever they were
bound to before. So in a tree of declared types every member knows the kind of
the type around it. A field that a type has adopted is written as a declaration:
after its documentation it starts a line with words of its own and ends the
line. The reports of a field that no type has adopted are never made.
-/

set_option autoImplicit false

namespace SwiftDecl
open SwiftDecl.Layout

namespace Layout

/-- All that the operations report, or those nested in them, is in `P`. -/
inductive Op.ReportsOnly (P : Event → Prop) : List Op → Prop
  | intro {ops : List Op} (reports : ∀ event, Op.report event ∈ ops → P event)
      (inner : ∀ inner, Op.nested inner ∈ ops → ReportsOnly P inner) : ReportsOnly P ops

namespace Writer

def Logs (P : Event → Prop) (w v : Writer) : Prop :=
  ∃ events, v.events = w.events ++ events ∧
    ∀ event ∈ events, P event ∨ ∃ depth, event = .nestingLimit depth

variable {P : Event → Prop}

theorem Logs.of_log {w v : Writer} (h : v.log = w.log) : Logs P w v :=
  ⟨[], by simp [events, h], by simp⟩

theorem Logs.report {event : Event} (h : P event ∨ ∃ depth, event = .nestingLimit depth)
    (w : Writer) : Logs P w (w.report event) :=
  ⟨[event], by simp [events, Writer.report], by simpa using h⟩

theorem Logs.trans {w v u : Writer} (h₁ : Logs P w v) (h₂ : Logs P v u) : Logs P w u := by
  obtain ⟨first, hv, hfirst⟩ := h₁
  obtain ⟨second, hu, hsecond⟩ := h₂
  refine ⟨first ++ second, by rw [hu, hv, List.append_assoc], ?_⟩
  intro event he
  rcases List.mem_append.1 he with he | he
  · exact hfirst event he
  · exact hsecond event he

theorem step_logs {op : Op} (hreport : ∀ event, op = .report event → P event)
    (hnested : ∀ inner, op = .nested inner → ∀ v : Writer, Logs P v (v.run inner)) (w : Writer) :
    Logs P w (w.step op) := by
  cases op with
  | report event =>
    rw [step]
    exact .report (Or.inl (hreport event rfl)) w
  | nested inner =>
    rw [step]
    split
    · have henter : Logs P w w.enter := .of_log rfl
      exact (henter.trans (hnested inner rfl w.enter)).trans (.of_log rfl)
    · exact .report (Or.inr ⟨_, rfl⟩) w
  | _ => exact .of_log (step_log rfl w)

theorem run_logs {ops : List Op} (h : Op.ReportsOnly P ops) (w : Writer) :
    Logs P w (w.run ops) := by
  induction h generalizing w with
  | @intro ops hreports hinner ih =>
    induction ops generalizing w with
    | nil =>
      rw [run]
      exact .of_log rfl
    | cons op rest ihr =>
      have hstep : Logs P w (w.step op) := by
        apply step_logs
        · exact fun event he => hreports event (by simp [he])
        · exact fun inner hi => ih inner (by simp [hi])
      rw [run]
      refine hstep.trans (ihr ?_ ?_ ?_ _)
      · exact fun event he => hreports event (List.mem_cons_of_mem _ he)
      · exact fun inner hm => hinner inner (List.mem_cons_of_mem _ hm)
      · exact fun inner hm => ih inner (List.mem_cons_of_mem _ hm)

theorem Begun.feed {w : Writer} (h : w.Begun) (hw : w.atLineStart = true) :
    w.text.toList.getLast? = some '\n' := by
  rw [text_toList, List.getLast?_reverse]
  exact h.fed hw

theorem run_line {opening rest : List Op} {words : List String}
    (hs : List.Forall₂ Op.Says opening words) (hne : words ≠ []) {w : Writer} (hb : w.Begun)
    (hw : w.atLineStart = true) : ∃ more : List Char,
      (w.run (opening ++ rest ++ [.endLine])).text.toList =
        w.text.toList ++ w.margin ++ (" ".intercalate words).toList ++ more ++ ['\n'] := by
  obtain ⟨⟨_, c, hc, hname⟩, htext⟩ := run_phrase hs hne hw
  obtain ⟨added, hadded⟩ := (LooksBack.run rest).grows (w.run opening)
  have hbegun : ((w.run opening).run rest).Begun := run_begun _ _ (run_begun _ _ hb)
  have hend : w.run (opening ++ rest ++ [.endLine]) = ((w.run opening).run rest).endLine := by
    rw [run_append, run_append, run, run, step]
  rw [hend, ← htext]
  by_cases hstart : ((w.run opening).run rest).atLineStart = true
  · -- The line was ended before, but not by the words, which end in no line feed.
    have hfeed := hbegun.feed hstart
    have hsome : added ≠ [] := by
      rintro rfl
      rw [← hadded, List.append_nil, text_toList, List.getLast?_reverse, hc,
        Option.some.injEq] at hfeed
      rw [hfeed] at hname
      exact absurd hname (by decide)
    rw [← hadded, List.getLast?_append, List.getLast?_eq_some_getLast hsome, Option.some_or,
      Option.some.injEq] at hfeed
    refine ⟨added.dropLast, ?_⟩
    rw [endLine, if_pos hstart, ← hadded, List.append_assoc, ← hfeed,
      List.dropLast_append_getLast]
  · refine ⟨added, ?_⟩
    rw [endLine, if_neg hstart, hadded]
    simp [text_toList, newLine, put]

theorem flatMap_atLineStart {α : Type} {f : α → List Op} {l : List α}
    (h : ∀ x ∈ l, ∀ v : Writer, (v.run (f x)).atLineStart = true) {w : Writer}
    (hw : w.atLineStart = true) : (w.run (l.flatMap f)).atLineStart = true := by
  induction l generalizing w with
  | nil => simpa [run] using hw
  | cons x rest ih =>
    rw [List.flatMap_cons, run_append]
    exact ih (fun y hy => h y (List.mem_cons_of_mem _ hy)) (h x (by simp) w)

theorem run_documentation {w : Writer} (hw : w.atLineStart = true) (h : Heading) :
    (w.run h.documentationOps).atLineStart = true := by
  unfold Heading.documentationOps Heading.descriptionOps
  split
  · rwa [run]
  · split
    · rwa [run]
    · rw [run, step]
      apply flatMap_atLineStart _ (endLine_atLineStart w)
      intro line _ v
      rw [run, run, run, step, step]
      rfl

end Writer

end Layout

theorem Block.reportsOnly (P : Event → Prop) (b : Block) : Op.ReportsOnly P b.ops := by
  induction b using Block.induct with
  | step b ih =>
    constructor
    · intro event he
      obtain ⟨c, _, h⟩ := Block.mem_outline.1 (Op.report_mem_outline.2 he)
      exact absurd h (by simp)
    · intro inner hm
      obtain ⟨c, hc, rfl⟩ := Block.nested_mem_ops.1 hm
      exact ih c hc

namespace Field

/-- The words that a field of a type of this kind starts its line with. -/
def introduction (kind : TypeKind) (f : Field) : List String :=
  match kind with
  | .enumType => ["case", Name.typeName f.heading.name]
  | .protocolType =>
    f.heading.modifiers.toList.map Modifier.keyword ++ ["var", Name.memberName f.heading.name]
  | _ =>
    f.heading.modifiers.toList.map Modifier.keyword ++
      [f.construct.keyword, Name.memberName f.heading.name]

theorem introduction_ne_nil (kind : TypeKind) (f : Field) : f.introduction kind ≠ [] := by
  cases kind <;> simp [introduction]

theorem report_notMem_ops {f : Field} {kind : TypeKind} (h : f.parent = some (.type kind))
    {event : Event} : Op.report event ∉ f.ops := by
  rw [← Op.report_mem_outline, outline_adopted h]
  split
  · simp
  · exact report_notMem_blocks

theorem construct_isWord (f : Field) : IsWord f.construct.keyword := by
  unfold construct
  split
  · exact .of_all (by decide) (by decide)
  · exact .of_all (by decide) (by decide)

theorem ops_introduced {f : Field} {kind : TypeKind} (h : f.parent = some (.type kind)) :
    ∃ opening rest, f.ops = f.heading.documentationOps ++ (opening ++ rest ++ [.endLine]) ∧
      List.Forall₂ Op.Says opening (f.introduction kind) := by
  have hcase : IsWord "case" := .of_all (by decide) (by decide)
  have hvar : IsWord "var" := .of_all (by decide) (by decide)
  have hname := Name.memberName_isWord f.heading.name
  have hmodifiers := f.heading.modifiers_say
  cases kind with
  | enumType =>
    refine ⟨[.literal "case", .literal (Name.typeName f.heading.name)], f.initializerOps, ?_, ?_⟩
    · simp [ops, declarationOps, h, caseOps]
    · exact .cons (.literal hcase) (.cons (.literal (Name.typeName_isWord _)) .nil)
  | protocolType =>
    refine ⟨f.heading.modifierOps ++ [.literal "var", .literal (Name.memberName f.heading.name)],
      f.typeOps ++ [.literal f.accessors], ?_, ?_⟩
    · simp [ops, declarationOps, h, requirementOps, Construct.keyword]
    · exact List.rel_append hmodifiers (.cons (.literal hvar) (.cons (.literal hname) .nil))
  | classType | structType | extensionType =>
    refine ⟨f.heading.modifierOps ++
      [.literal f.construct.keyword, .literal (Name.memberName f.heading.name)],
      f.typeOps ++ f.initializerOps, ?_, ?_⟩
    · simp [ops, declarationOps, h, propertyOps]
    · exact List.rel_append hmodifiers
        (.cons (.literal f.construct_isWord) (.cons (.literal hname) .nil))

end Field

namespace TypeDecl

theorem ops_reportsOnly {d : TypeDecl} (h : d.Declared) {P : Event → Prop}
    (hP : ∀ t, d.Holds t → P t.announcement) : Op.ReportsOnly P d.ops := by
  induction d using TypeDecl.induct with
  | step d ih =>
    have ha := h.adopts
    constructor
    · intro event he
      rcases report_mem_ops.1 he with rfl | ⟨f, hf, hr⟩ | ⟨m, _, hr⟩
      · exact hP d (.self d)
      · exact absurd hr (Field.report_notMem_ops (ha.field f hf))
      · exact absurd hr Method.report_notMem_ops
    · intro inner hm
      rcases nested_mem_ops.1 hm with ⟨f, _, hi⟩ | ⟨m, _, hi⟩ | ⟨t, ht, rfl⟩
      · obtain ⟨b, _, hi⟩ := field_nested hi
        cases b.reportsOnly P with
        | intro _ hinner => exact hinner inner hi
      · obtain ⟨b, _, hi⟩ := method_nested hi
        cases b.reportsOnly P with
        | intro _ hinner => exact hinner inner hi
      · exact ih t ht (ha.nested t ht) fun u hu => hP u (.nested ht hu)

theorem Declared.holds {d t : TypeDecl} (h : d.Declared) (ht : d.Holds t) : t.Declared := by
  induction ht with
  | self => exact h
  | nested member _ ih => exact ih (h.adopts.nested _ member)

/-- What a type writes before a field of its own: its header, the opening brace
and the fields in front. -/
def opsBefore (d : TypeDecl) (front : List Field) : List Op :=
  .report d.announcement :: d.headerOps ++ [.openScope] ++ front.flatMap Field.ops

/-- `d.Reaches w t f v`: written by `w`, the type `d` gets to the field `f` of
`t`, which is `d` or stands inside it, and `v` is the writer then. -/
inductive Reaches : TypeDecl → Writer → TypeDecl → Field → Writer → Prop
  | field {d : TypeDecl} {w : Writer} {f : Field} {front back : List Field}
      (split : d.fields = front ++ f :: back) : Reaches d w d f (w.run (d.opsBefore front))
  | nested {d n t : TypeDecl} {w v : Writer} {f : Field} {front back : List Op}
      (member : n ∈ d.nested) (split : d.ops = front ++ .nested n.ops :: back)
      (below : (w.run front).nesting < maxNesting)
      (inside : Reaches n (w.run front).enter t f v) : Reaches d w t f v

namespace Reaches

variable {d t : TypeDecl} {w v : Writer} {f : Field}

theorem owned (h : d.Reaches w t f v) : d.Holds t ∧ f ∈ t.fields := by
  induction h with
  | field split =>
    rw [split]
    exact ⟨.self _, by simp⟩
  | nested member _ _ _ ih => exact ⟨.nested member ih.1, ih.2⟩

theorem start (h : d.Reaches w t f v) (hd : d.Declared) : v.Begun ∧ v.atLineStart = true := by
  induction h with
  | @field d w f front back split =>
    have hopen : w.run (.report d.announcement :: d.headerOps ++ [.openScope]) =
        (w.run (.report d.announcement :: d.headerOps)).openScope := by
      rw [Writer.run_append, Writer.run, Writer.run, Writer.step]
    rw [opsBefore, Writer.run_append, hopen]
    constructor
    · exact Writer.run_begun _ _ (Writer.openScope_begun _)
    · apply Writer.flatMap_atLineStart _ rfl
      intro g hg u
      have hparent := hd.adopts.field g (by simp [split, hg])
      obtain ⟨opening, tail, hops, _⟩ := Field.ops_introduced hparent
      apply Writer.run_atLineStart
      rw [hops]
      simp
  | nested member _ _ _ ih => exact ih (hd.adopts.nested _ member)

theorem grows (h : d.Reaches w t f v) :
    (v.emit (.field f)).text.toList <+: (w.emit (.type d)).text.toList := by
  induction h with
  | @field d w f front back split =>
    have hops : ∃ more, d.ops = d.opsBefore front ++ f.ops ++ more := by
      rw [d.ops_eq, memberOps, split, List.flatMap_append, List.flatMap_cons]
      exact ⟨_, by simp only [opsBefore, List.append_assoc]; rfl⟩
    obtain ⟨more, hops⟩ := hops
    rw [Writer.emit, Writer.emit, Node.ops, Node.ops, hops, Writer.run_append, Writer.run_append]
    exact (Writer.LooksBack.run more).grows _
  | @nested d n t w v f front back member split below inside ih =>
    have hstep : (w.run front).step (.nested n.ops) = ((w.run front).enter.run n.ops).leave := by
      rw [Writer.step, if_pos below]
    have hback := (Writer.LooksBack.run back).grows ((w.run front).enter.run n.ops).leave
    have htype : w.emit (.type d) = (((w.run front).enter.run n.ops).leave).run back := by
      rw [Writer.emit, Node.ops, split, Writer.run_append, Writer.run, hstep]
    rw [htype]
    exact ih.trans hback

end Reaches

theorem reaches_of_depth {d t : TypeDecl} (ht : d.Holds t) {f : Field} (hf : f ∈ t.fields)
    {w : Writer} (h : w.nesting + d.depth ≤ maxNesting) : ∃ v, d.Reaches w t f v := by
  induction ht generalizing w with
  | self d =>
    obtain ⟨front, back, hsplit⟩ := List.append_of_mem hf
    exact ⟨_, .field hsplit⟩
  | @nested d n t member _ ih =>
    have hmem : Op.nested n.ops ∈ d.ops := nested_mem_ops.2 (Or.inr (Or.inr ⟨n, member, rfl⟩))
    obtain ⟨front, back, hsplit⟩ := List.append_of_mem hmem
    have hdepth := (fits_of_depth (Nat.le_refl d.depth)).nested n member
    have hfront := Writer.run_nesting front w
    have henter : (w.run front).enter.nesting = w.nesting + 1 := congrArg (· + 1) hfront
    obtain ⟨v, hv⟩ := ih hf (w := (w.run front).enter) (by omega)
    exact ⟨v, .nested member hsplit (by omega) hv⟩

end TypeDecl

/-- In a tree of declared types every field and every method has been adopted by
the type it stands in. So all that is reported while the tree is written are the
types on the way and the nesting limit, and no field that is reached is left
out: after its documentation, if it has any, it starts a line with its words,
ends the line, and stays in the text. In a tree within the nesting limit all
fields are reached. -/
theorem members_adopted {d : TypeDecl} (declared : d.Declared) :
    (∀ t, d.Holds t → (∀ f ∈ t.fields, f.parent = some (.type t.kind)) ∧
      ∀ m ∈ t.methods, m.parent = some (.type t.kind)) ∧
    (∀ w : Writer,
      w.Logs (fun event => ∃ t, d.Holds t ∧ event = t.announcement) (w.emit (.type d))) ∧
    (∀ (w v : Writer) (t : TypeDecl) (f : Field), d.Reaches w t f v →
      let start := v.run f.heading.documentationOps
      start.atLineStart = true ∧ start.text.toList.getLast? = some '\n' ∧
      (∃ more, (v.emit (.field f)).text.toList = start.text.toList ++ start.margin ++
        (" ".intercalate (f.introduction t.kind)).toList ++ more ++ ['\n']) ∧
      (v.emit (.field f)).text.toList <+: (w.emit (.type d)).text.toList) ∧
    ∀ w : Writer, w.nesting + d.depth ≤ maxNesting →
      ∀ t, d.Holds t → ∀ f ∈ t.fields, ∃ v, d.Reaches w t f v := by
  refine ⟨?_, ?_, ?_, fun w hw t ht f hf => TypeDecl.reaches_of_depth ht hf hw⟩
  · intro t ht
    have ha := (declared.holds ht).adopts
    exact ⟨ha.field, ha.method⟩
  · intro w
    exact Writer.run_logs (TypeDecl.ops_reportsOnly declared fun t ht => ⟨t, ht, rfl⟩) w
  · intro w v t f hr start
    obtain ⟨hholds, hf⟩ := hr.owned
    obtain ⟨hbegun, hline⟩ := hr.start declared
    have hparent := (declared.holds hholds).adopts.field f hf
    have hstart : start.atLineStart = true := Writer.run_documentation hline f.heading
    have hready : start.Begun := Writer.run_begun _ _ hbegun
    refine ⟨hstart, hready.feed hstart, ?_, hr.grows⟩
    obtain ⟨opening, rest, hops, hsay⟩ := Field.ops_introduced hparent
    rw [Writer.emit, Node.ops, hops, Writer.run_append]
    exact Writer.run_line hsay (Field.introduction_ne_nil t.kind f) hready hstart

def annex : TypeDecl :=
  .declare .enumType "annex" [.field (.declare "first" none [.parent .parameter])]

def hall : TypeDecl :=
  .declare .structType "hall" [.nested annex]

theorem hall_declared : hall.Declared := by
  apply TypeDecl.Declared.intro
  intro t ht
  rw [TypeDecl.Clause.nested.inj (List.mem_singleton.1 ht)]
  exact .intro (by simp)

theorem members_adopted_hall :
    hall.Declared ∧ (Writer.new .tab).nesting + hall.depth ≤ maxNesting ∧ hall.Holds annex ∧
    ∃ f v, hall.Reaches (Writer.new .tab) annex f v ∧ f.parent = some (.type .enumType) ∧
      (v.emit (.field f)).text.toList <+:
        ((Writer.new .tab).emit (.type hall)).text.toList := by
  have hdepth : (Writer.new .tab).nesting + hall.depth ≤ maxNesting := by decide +kernel
  have hholds : hall.Holds annex := .nested (List.mem_singleton_self annex) (.self annex)
  obtain ⟨hadopted, _, hlines, hreached⟩ := members_adopted hall_declared
  obtain ⟨v, hv⟩ := hreached _ hdepth annex hholds _ (List.mem_singleton_self _)
  have hparent := (hadopted annex hholds).1 _ (List.mem_singleton_self _)
  exact ⟨hall_declared, hdepth, hholds, _, v, hv, hparent, (hlines _ v annex _ hv).2.2.2⟩

example : ((Writer.new .tab).emit (.type hall)).text =
    "struct Hall \x7b\n\tenum Annex \x7b\n\t\tcase First\n\t\x7d\n\x7d\n" := by
  decide +kernel

end SwiftDecl
