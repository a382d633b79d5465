import SwiftDecl.Proofs.Lines
import Mathlib.Data.List.DropRight

/-!
# Documentation comments

A description becomes comment lines, one for each line of its text, and nothing
but comment lines: whatever stands on the open line is ended first. Blanks at the
end of a line and empty lines at the end of the description are not shown, so a
reader who strips the marks has the description back up to these.
-/

set_option autoImplicit false

namespace SwiftDecl.Text

theorem trimEnd_concat (text : List Char) (c : Char) :
    trimEnd (text ++ [c]) = if isBlank c then trimEnd text else text ++ [c] :=
  List.rdropWhile_concat isBlank text c

theorem trimEnd_eq_nil_iff (text : List Char) : trimEnd text = [] ↔ ∀ c ∈ text, isBlank c = true :=
  List.rdropWhile_eq_nil_iff

theorem trim_eq_nil_iff (text : List Char) : trim text = [] ↔ ∀ c ∈ text, isBlank c = true := by
  rw [trim, trimEnd_eq_nil_iff]
  constructor
  · intro h c hc
    rw [← List.takeWhile_append_dropWhile (p := isBlank) (l := text), List.mem_append] at hc
    exact hc.elim List.mem_takeWhile_imp (h c)
  · intro h c hc
    exact h c ((List.dropWhile_sublist isBlank).subset hc)

theorem dropReturn_concat (line : List Char) (c : Char) :
    dropReturn (line ++ [c]) = if c = '\r' then line else line ++ [c] := by
  induction line with
  | nil =>
    by_cases hc : c = '\r'
    · simp [hc, dropReturn]
    · simp [hc, dropReturn]
  | cons d rest ih =>
    have hcons : dropReturn (d :: (rest ++ [c])) = d :: dropReturn (rest ++ [c]) := by
      rw [dropReturn]
      simp
    rw [List.cons_append, hcons, ih]
    split <;> rfl

theorem trimEnd_dropReturn (line : List Char) : trimEnd (dropReturn line) = trimEnd line := by
  induction line using List.reverseRecOn with
  | nil => rfl
  | append_singleton rest c _ =>
    rw [dropReturn_concat]
    split
    · rename_i hc
      rw [trimEnd_concat, hc, if_pos (by decide)]
    · rfl

theorem pieces_concat (text : List Char) {c : Char} (h : c ≠ '\n') :
    ∃ front last, pieces text = front ++ [last] ∧
      pieces (text ++ [c]) = front ++ [last ++ [c]] := by
  by_cases hfeed : '\n' ∈ text
  · obtain ⟨tail, front, hsplit, htail⟩ := List.eq_append_cons_of_mem (List.mem_reverse.2 hfeed)
    have htext : text = front.reverse ++ '\n' :: tail.reverse := by
      rw [← List.reverse_reverse text, hsplit]
      simp
    have hlast : pieces tail.reverse = [tail.reverse] := pieces_single (by simpa using htail)
    have hlonger : pieces (tail.reverse ++ [c]) = [tail.reverse ++ [c]] :=
      pieces_single (by simpa using ⟨htail, h.symm⟩)
    refine ⟨pieces front.reverse, tail.reverse, ?_, ?_⟩
    · rw [htext, pieces_feed, hlast]
    · rw [htext, List.append_assoc, List.cons_append, pieces_feed, hlonger]
  · exact ⟨[], text, pieces_single hfeed, pieces_single (by simpa using ⟨hfeed, h.symm⟩)⟩

theorem closeLines_concat (front : List (List Char)) (last : List Char) :
    closeLines (front ++ [last]) = front.map dropReturn ++ if last = [] then [] else [last] := by
  induction front with
  | nil =>
    by_cases h : last = []
    · simp [h, closeLines]
    · simp [h, closeLines]
  | cons line rest ih =>
    have hcons : closeLines (line :: (rest ++ [last])) =
        dropReturn line :: closeLines (rest ++ [last]) := by
      rw [closeLines] <;> simp
    rw [List.cons_append, hcons, ih]
    rfl

/-- Lines without the blanks at their ends, and without the empty lines at the
end. -/
def trimmedLines (lines : List (List Char)) : List (List Char) :=
  (lines.map trimEnd).rdropWhile List.isEmpty

theorem trimmedLines_closeLines (parts : List (List Char)) :
    trimmedLines (closeLines parts) = trimmedLines parts := by
  induction parts using List.reverseRecOn with
  | nil => rfl
  | append_singleton front last _ =>
    have hfront : (front.map dropReturn).map trimEnd = front.map trimEnd := by
      rw [List.map_map]
      exact List.map_congr_left fun line _ => trimEnd_dropReturn line
    rw [closeLines_concat, trimmedLines, trimmedLines, List.map_append, List.map_append, hfront]
    by_cases h : last = []
    · rw [if_pos h, h, List.map_nil, List.append_nil]
      exact (List.rdropWhile_concat_pos List.isEmpty _ [] rfl).symm
    · rw [if_neg h]

theorem trimmedLines_trimEnd (text : List Char) :
    trimmedLines (pieces (trimEnd text)) = trimmedLines (pieces text) := by
  induction text using List.reverseRecOn with
  | nil => rfl
  | append_singleton front c ih =>
    rw [trimEnd_concat]
    by_cases hc : isBlank c = true
    · rw [if_pos hc, ih]
      by_cases hfeed : c = '\n'
      · rw [hfeed, pieces_feed, trimmedLines, trimmedLines, List.map_append]
        exact (List.rdropWhile_concat_pos List.isEmpty _ [] rfl).symm
      · obtain ⟨lines, last, hp, hpc⟩ := pieces_concat front hfeed
        rw [hp, hpc, trimmedLines, trimmedLines, List.map_append, List.map_append,
          List.map_singleton, List.map_singleton, trimEnd_concat, if_pos hc]
    · rw [if_neg hc]

theorem lines_trimEnd {text : List Char} (h : trimEnd text ≠ []) :
    ∃ front last, lines (trimEnd text) = front ++ [last] ∧ trimEnd last ≠ [] := by
  obtain ⟨front, c, hc, hblank⟩ : ∃ front c, trimEnd text = front ++ [c] ∧ isBlank c = false :=
    ⟨_, _, (List.dropLast_append_getLast h).symm,
      Bool.eq_false_iff.2 (List.rdropWhile_last_not isBlank text h)⟩
  have hfeed : c ≠ '\n' := by
    rintro rfl
    exact absurd hblank (by decide)
  obtain ⟨parts, last, -, hp⟩ := pieces_concat front hfeed
  refine ⟨parts.map dropReturn, last ++ [c], ?_, ?_⟩
  · rw [lines, hc, hp, closeLines_concat, if_neg (by simp)]
  · rw [trimEnd_concat, hblank]
    simp

theorem trimmedLines_lines {text : List Char} (h : trimEnd text ≠ []) :
    (lines (trimEnd text)).map trimEnd = trimmedLines (lines text) := by
  obtain ⟨front, last, hl, hlast⟩ := lines_trimEnd h
  calc (lines (trimEnd text)).map trimEnd
      = trimmedLines (lines (trimEnd text)) := by
        rw [hl, trimmedLines, List.map_append, List.map_singleton]
        exact (List.rdropWhile_concat_neg List.isEmpty _ _ (by simpa using hlast)).symm
    _ = trimmedLines (pieces text) := by
        rw [lines, trimmedLines_closeLines, trimmedLines_trimEnd]
    _ = trimmedLines (lines text) := by
        rw [lines, trimmedLines_closeLines]

end SwiftDecl.Text

namespace SwiftDecl
open SwiftDecl.Layout SwiftDecl.Text

namespace Heading

def commented (line : List Char) : List Char :=
  if line.all isBlank then "///".toList else "/// ".toList ++ trimEnd line

def uncommented : List Char → List Char
  | '/' :: '/' :: '/' :: ' ' :: shown => shown
  | '/' :: '/' :: '/' :: shown => shown
  | text => text

theorem commentLine_toList (line : List Char) : (commentLine line).toList = commented line := by
  unfold commentLine commented
  split
  · rename_i h
    rw [trimEnd_eq_nil_iff] at h
    rw [if_pos (List.all_eq_true.2 h)]
  · rename_i shown h
    have hsome : ¬line.all isBlank = true := by
      intro hall
      exact absurd ((trimEnd_eq_nil_iff line).2 (List.all_eq_true.1 hall)) h
    rw [if_neg hsome, String.toList_ofList]

theorem uncommented_commented (line : List Char) : uncommented (commented line) = trimEnd line := by
  unfold commented
  split
  · rename_i h
    rw [(trimEnd_eq_nil_iff line).2 (List.all_eq_true.1 h)]
    rfl
  · rfl

end Heading

namespace Layout.Writer

theorem run_comment {w : Writer} (hw : w.atLineStart = true) (line : List Char) :
    w.run [.word (Heading.commentLine line), .newLine] =
      { w.put (w.margin ++ Heading.commented line ++ ['\n']) with scopes := fill w.scopes } := by
  obtain ⟨c, rest, hc⟩ : ∃ c rest, Heading.commented line = c :: rest := by
    unfold Heading.commented
    split
    · exact ⟨_, _, rfl⟩
    · exact ⟨_, _, rfl⟩
  rw [run, run, run, step, step, Heading.commentLine_toList, hc, piece, lead, if_pos hw]
  simp [newLine, put, margin, hw]

theorem run_comments {w : Writer} (hw : w.atLineStart = true) (hf : fill w.scopes = w.scopes)
    (lines : List (List Char)) :
    w.run (Heading.commentOps lines) =
      w.put (lines.flatMap fun line => w.margin ++ Heading.commented line ++ ['\n']) := by
  induction lines generalizing w with
  | nil => simp [Heading.commentOps, run, put]
  | cons line rest ih =>
    have hfirst : w.run [.word (Heading.commentLine line), .newLine] =
        w.put (w.margin ++ Heading.commented line ++ ['\n']) := by
      rw [run_comment hw, hf]
      rfl
    have hrest := ih (w := w.put (w.margin ++ Heading.commented line ++ ['\n'])) hw hf
    rw [Heading.commentOps, List.flatMap_cons, run_append, hfirst, ← Heading.commentOps, hrest]
    simp [put, margin]

theorem run_commented (w : Writer) {lines : List (List Char)} (h : lines ≠ []) :
    w.run (.endLine :: Heading.commentOps lines) =
      { w.endLine.put (lines.flatMap fun line => w.margin ++ Heading.commented line ++ ['\n']) with
        scopes := fill w.scopes } := by
  obtain ⟨first, rest, rfl⟩ := List.exists_cons_of_ne_nil h
  have hstart := endLine_atLineStart w
  have hmargin : w.endLine.margin = w.margin := by
    unfold endLine
    split <;> rfl
  have hscopes : w.endLine.scopes = w.scopes := by
    unfold endLine
    split <;> rfl
  have hrest := run_comments (w := { w.endLine.put (w.margin ++ Heading.commented first ++ ['\n'])
    with scopes := fill w.scopes }) hstart (fill_fill w.scopes) rest
  rw [run, step, Heading.commentOps, List.flatMap_cons, run_append, run_comment hstart,
    ← Heading.commentOps, hscopes, hmargin, hrest, ← hmargin]
  simp [put, margin]

end Layout.Writer

def Heading.comments (margin description : List Char) : List (List Char) :=
  (lines (trimEnd description)).map fun line => margin ++ Heading.commented line

/-- What a description that shows something does to a writer whose lines have this
margin. -/
structure Documented (margin description : List Char) (w after : Writer) : Prop where
  text : after.text.toList = w.text.toList ++ (if w.atLineStart then [] else ['\n']) ++
    (Heading.comments margin description).flatMap (· ++ ['\n'])
  state : after =
    { w with written := after.written, atLineStart := true, scopes := Writer.fill w.scopes }
  openScopes : after.scopes.length = w.scopes.length
  nonempty : Heading.comments margin description ≠ []
  closed : pieces ((Heading.comments margin description).flatMap (· ++ ['\n'])) =
    Heading.comments margin description ++ [[]]
  marked : ∀ comment ∈ Heading.comments margin description,
    margin ++ "///".toList <+: comment ∧ ∀ c ∈ comment.getLast?, isBlank c = false
  faithful : (Heading.comments margin description).map
      (fun comment => Heading.uncommented (comment.drop margin.length)) =
    trimmedLines (lines description)

namespace Heading

theorem commented_marked (line : List Char) : "///".toList <+: commented line := by
  unfold commented
  split
  · exact List.prefix_refl _
  · exact ⟨' ' :: trimEnd line, rfl⟩

theorem commented_stop (line : List Char) : ∀ c ∈ (commented line).getLast?, isBlank c = false := by
  unfold commented
  split
  · rintro c ⟨⟩
    rfl
  · rename_i h
    have hne : trimEnd line ≠ [] := by
      rw [Ne, trimEnd_eq_nil_iff, ← List.all_eq_true]
      exact h
    rw [List.getLast?_append_of_ne_nil _ hne, List.getLast?_eq_some_getLast hne]
    rintro c ⟨⟩
    exact Bool.eq_false_iff.2 (List.rdropWhile_last_not isBlank line hne)

theorem comments_feedFree {margin : List Char} (hm : '\n' ∉ margin) (description : List Char) :
    ∀ comment ∈ comments margin description, '\n' ∉ comment := by
  intro comment hc
  obtain ⟨line, hl, rfl⟩ := List.mem_map.1 hc
  rw [List.mem_append, not_or, ← commentLine_toList]
  exact ⟨hm, commentLine_feedFree hl⟩

end Heading

theorem Heading.documentationOps_blank {heading : Heading}
    (h : ∀ description ∈ heading.description, ∀ c ∈ description.toList, isBlank c = true) :
    heading.documentationOps = [] := by
  unfold Heading.documentationOps
  cases hd : heading.description with
  | none => rfl
  | some description =>
    have htrim := (trim_eq_nil_iff description.toList).2 (h description hd)
    simp [Heading.descriptionOps, htrim]

theorem Layout.Writer.run_description {w : Writer} {heading : Heading} {description : String}
    (hd : heading.description = some description) (h : trimEnd description.toList ≠ []) :
    w.run heading.documentationOps =
      { w.endLine.put ((Heading.comments w.margin description.toList).flatMap (· ++ ['\n'])) with
        scopes := fill w.scopes } := by
  have htrim : trim description.toList ≠ [] := by
    rw [Ne, trim_eq_nil_iff, ← trimEnd_eq_nil_iff]
    exact h
  obtain ⟨front, last, hl, -⟩ := lines_trimEnd h
  have hops : heading.documentationOps =
      .endLine :: Heading.commentOps (lines (trimEnd description.toList)) := by
    simp [Heading.documentationOps, hd, Heading.descriptionOps, htrim]
  rw [hops, run_commented w (by simp [hl]), Heading.comments, List.flatMap_map]

theorem Heading.documented (indent : Indent) {w after : Writer} {description : List Char}
    (h : trimEnd description ≠ [])
    (ha : after = { w.endLine.put ((comments (Line.indentation indent.unit w.level)
      description).flatMap (· ++ ['\n'])) with scopes := Writer.fill w.scopes }) :
    Documented (Line.indentation indent.unit w.level) description w after where
  text := by
    rw [ha, Writer.text_toList, Writer.text_toList, Writer.endLine]
    split <;> simp [Writer.put, Writer.newLine]
  state := by
    rw [ha, Writer.endLine]
    split
    · rename_i hw
      simp [Writer.put, hw]
    · rfl
  openScopes := by
    rw [ha]
    exact Writer.fill_length w.scopes
  nonempty := by
    obtain ⟨front, last, hl, -⟩ := lines_trimEnd h
    simp [comments, hl]
  closed := by
    have hstop : '\n' ∉ ([] : List Char) := List.not_mem_nil
    have hpieces := pieces_lines
      (comments_feedFree (indentation_feedFree indent w.level) description) hstop
    rwa [List.append_nil] at hpieces
  marked := by
    intro comment hc
    obtain ⟨line, -, rfl⟩ := List.mem_map.1 hc
    have hmarked := commented_marked line
    refine ⟨(List.prefix_append_right_inj _).2 hmarked, ?_⟩
    rw [List.getLast?_append_of_ne_nil]
    · exact commented_stop line
    · rintro hnil
      rw [hnil] at hmarked
      exact absurd hmarked (by decide)
  faithful := by
    rw [← trimmedLines_lines h, comments, List.map_map]
    refine List.map_congr_left fun line _ => ?_
    rw [Function.comp_apply, List.drop_left, uncommented_commented]

/-- An absent or blank description adds nothing. Any other becomes comments, one
to a line, that nothing else stands on: their marks stripped, they are the lines
of the description up to blanks and empty lines at the end. -/
theorem documentation_commented (heading : Heading) (indent : Indent) (w : Writer)
    (hu : w.unit = indent.unit) :
    ((∀ description ∈ heading.description, ∀ c ∈ description.toList, isBlank c = true) →
      w.run heading.documentationOps = w) ∧
    (∀ description ∈ heading.description, (∃ c ∈ description.toList, isBlank c = false) →
      Documented (Line.indentation indent.unit w.level) description.toList w
        (w.run heading.documentationOps)) := by
  refine ⟨fun h => by rw [Heading.documentationOps_blank h, Writer.run], ?_⟩
  rintro description hd ⟨c, hc, hblank⟩
  have hshows : trimEnd description.toList ≠ [] := by
    intro h
    rw [(trimEnd_eq_nil_iff _).1 h c hc] at hblank
    exact absurd hblank (by decide)
  have hmargin : w.margin = Line.indentation indent.unit w.level := by
    rw [← hu]
    rfl
  exact Heading.documented indent hshows (by rw [Writer.run_description hd hshows, hmargin])

def annotated : Heading :=
  (Heading.new "id").add (.description "\n  Unique id. \r\n\nNever reused.\n \n")

def midway : Writer :=
  (Writer.new .tab).run [.openScope, .word "var"]

theorem documentation_commented_annotated :
    midway.unit = Indent.tab.unit ∧
    (∀ description ∈ annotated.description, ∃ c ∈ description.toList, isBlank c = false) ∧
    (∀ description ∈ annotated.description,
      Documented (Line.indentation Indent.tab.unit midway.level) description.toList midway
        (midway.run annotated.documentationOps)) ∧
    (midway.run annotated.documentationOps).text =
      "\x7b\n\tvar\n\t///\n\t///   Unique id.\n\t///\n\t/// Never reused.\n" ∧
    (∀ description ∈ ((Heading.new "id").add (.description " \n\t")).description,
      ∀ c ∈ description.toList, isBlank c = true) ∧
    midway.run ((Heading.new "id").add (.description " \n\t")).documentationOps = midway := by
  have hunit : midway.unit = Indent.tab.unit := by decide +kernel
  have hshows : ∀ description ∈ annotated.description,
      ∃ c ∈ description.toList, isBlank c = false := by
    rintro _ ⟨⟩
    exact ⟨'U', by decide +kernel, by decide +kernel⟩
  have hblank : ∀ description ∈ ((Heading.new "id").add (.description " \n\t")).description,
      ∀ c ∈ description.toList, isBlank c = true := by
    rintro _ ⟨⟩
    exact List.all_eq_true.1 (by decide +kernel)
  exact ⟨hunit, hshows,
    fun description hd => (documentation_commented annotated .tab midway hunit).2 description hd
      (hshows description hd),
    by decide +kernel, hblank, (documentation_commented _ .tab midway hunit).1 hblank⟩

end SwiftDecl
