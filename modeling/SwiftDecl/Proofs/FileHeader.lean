import SwiftDecl.Proofs.FileNames

/-!
# The header of a file

A header is a block of comment lines and an empty line behind them. Names are
cleaned and a date has no more than letters, digits and punctuation, so each of
them stays on the line it is put on. The text about the generator is taken as it
is: a line feed in it ends the comment, and what follows is read as source.
-/

set_option autoImplicit false

namespace SwiftDecl
open SwiftDecl.Text

namespace Date

theorem digits_feedFree (n : Nat) : '\n' ∉ Nat.toDigits 10 n := by
  intro h
  exact absurd (Nat.isDigit_of_mem_toDigits (by decide) (by decide) h) (by decide)

theorem padded_feedFree (width n : Nat) : '\n' ∉ (padded width n).toList := by
  simp [padded, digits_feedFree]

theorem yearText_feedFree (year : Int) : '\n' ∉ (yearText year).toList := by
  unfold yearText
  split_ifs <;> simp [padded_feedFree]

theorem monthName_feedFree (i : Nat) : '\n' ∉ (monthNames[i]?.getD "").toList := by
  cases h : monthNames[i]? with
  | none => simp
  | some name =>
    have hall : (monthNames.all fun name => !name.toList.contains '\n') = true := by decide
    have hname := List.all_eq_true.1 hall name (List.mem_of_getElem? h)
    simpa using hname

theorem text_feedFree (date : Date) : '\n' ∉ date.text.toList := by
  simp [text, monthName_feedFree, yearText_feedFree, Event.number, digits_feedFree]

end Date

theorem TypeDecl.typeName_feedFree (d : TypeDecl) : '\n' ∉ d.typeName.toList := by
  intro h
  rcases declaredName_nameChar d _ h with h | h
  · exact absurd h (by decide)
  · exact absurd h (by decide)

namespace SourceFile

def opening (file : SourceFile) : List String :=
  ["//", "//  " ++ file.name, "//", "//  Contains:",
   "//  " ++ file.decl.kind.keyword ++ " " ++ file.decl.typeName, "//",
   "//  Generated by SwiftPoet"]

def closing (file : SourceFile) (today : Date) : List String :=
  (if file.options.addGenerationDate then ["//  on " ++ (file.date.getD today).text] else []) ++
    ["//"]

def infoLine (info : String) : String :=
  "//  " ++ info

/-- The lines that the text about the generator takes. -/
def infoText (file : SourceFile) : List (List Char) :=
  file.options.generatorInfo.toList.flatMap fun info => pieces (infoLine info).toList

def commentLines (file : SourceFile) (today : Date) : List (List Char) :=
  file.opening.map String.toList ++ file.infoText ++ (file.closing today).map String.toList

theorem pieces_comments (lines : List String) (rest : List Char) :
    pieces ((String.join (lines.map commentLine)).toList ++ rest) =
      lines.flatMap (fun line => pieces ("//" ++ line).toList) ++ pieces rest := by
  induction lines with
  | nil => simp
  | cons line lines ih =>
    have hline : (String.join ((line :: lines).map commentLine)).toList ++ rest =
        ("//" ++ line).toList ++
          '\n' :: ((String.join (lines.map commentLine)).toList ++ rest) := by
      simp [commentLine]
    rw [hline, pieces_feed, ih, List.flatMap_cons, List.append_assoc]

theorem pieces_comment {lines : List String} (h : ∀ line ∈ lines, '\n' ∉ line.toList) :
    lines.flatMap (fun line => pieces ("//" ++ line).toList) =
      lines.map fun line => ("//" ++ line).toList := by
  induction lines with
  | nil => rfl
  | cons line lines ih =>
    obtain ⟨hline, hlines⟩ := List.forall_mem_cons.1 h
    have hfeed : '\n' ∉ ("//" ++ line).toList := by simp [hline]
    rw [List.flatMap_cons, List.map_cons, pieces_single hfeed, ih hlines, List.singleton_append]

theorem headerLines_pieces (file : SourceFile) (today : Date) :
    (file.headerLines today).flatMap (fun line => pieces ("//" ++ line).toList) =
      file.commentLines today := by
  have hname : '\n' ∉ file.name.toList := by
    intro h
    exact absurd (file.name_isEntry.unblank _ h) (by decide)
  have hkeyword : '\n' ∉ file.decl.kind.keyword.toList := by
    cases file.decl.kind <;> decide
  have htype := file.decl.typeName_feedFree
  have hdate := (file.date.getD today).text_feedFree
  have hinfo : file.infoLines.flatMap (fun line => pieces ("//" ++ line).toList) =
      file.infoText := by
    unfold infoLines infoText
    cases file.options.generatorInfo <;> simp [infoLine]
  have hclosing : (file.dateLines today ++ [""]).flatMap
      (fun line => pieces ("//" ++ line).toList) = (file.closing today).map String.toList := by
    rw [pieces_comment, dateLines, closing]
    · split_ifs <;> simp
    · unfold dateLines
      split_ifs <;> simp [hdate]
  rw [headerLines, List.append_assoc, List.flatMap_append, List.flatMap_append, hinfo, hclosing,
    pieces_comment, commentLines]
  · simp [opening, generator]
  · simp [hname, hkeyword, htype, generator]

theorem pieces_header (file : SourceFile) (today : Date) (rest : List Char) :
    pieces ((file.header today).toList ++ rest) = file.commentLines today ++ pieces rest := by
  rw [header, pieces_comments, headerLines_pieces]

theorem opening_commented (file : SourceFile) :
    ∀ line ∈ file.opening.map String.toList, ['/', '/'] <+: line := by
  simp [opening]

theorem closing_commented (file : SourceFile) (today : Date) :
    ∀ line ∈ (file.closing today).map String.toList, ['/', '/'] <+: line := by
  unfold closing
  split_ifs <;> simp

theorem infoText_commented_iff (file : SourceFile) :
    (∀ line ∈ file.infoText, ['/', '/'] <+: line) ↔
      ∀ info ∈ file.options.generatorInfo, ∀ part ∈ (pieces info.toList).tail,
        ['/', '/'] <+: part := by
  unfold infoText
  cases file.options.generatorInfo with
  | none => simp
  | some info =>
    obtain ⟨first, rest, hp, hb⟩ := pieces_behind (show '\n' ∉ "//  ".toList by decide) info.toList
    rw [← String.toList_append, ← infoLine] at hb
    simp [hp, hb]

theorem infoText_single_iff (file : SourceFile) :
    file.infoText = (file.options.generatorInfo.toList.map infoLine).map String.toList ↔
      ∀ info ∈ file.options.generatorInfo, '\n' ∉ info.toList := by
  unfold infoText
  cases file.options.generatorInfo with
  | none => simp
  | some info =>
    have hfeed : '\n' ∉ (infoLine info).toList ↔ '\n' ∉ info.toList := by simp [infoLine]
    simp [pieces_eq_single_iff, hfeed]

end SourceFile

/-- A file is its header, an empty line and the rest, and the header is the file
name, what the file contains, the generator and the date, each on a comment line
of its own; the text about the generator is between them. All lines are comments
exactly if each line of that text but the first brings its own comment marks, and
it has a line of its own exactly if there is no line feed in it. -/
theorem header_commented_iff (file : SourceFile) (today : Date) :
    pieces (file.header today).toList = file.commentLines today ++ [[]] ∧
    pieces (file.contents today).toList = file.commentLines today ++
      [] :: pieces (file.importSection ++ file.writer.text).toList ∧
    ((∀ line ∈ file.commentLines today, ['/', '/'] <+: line) ↔
      ∀ info ∈ file.options.generatorInfo, ∀ part ∈ (pieces info.toList).tail,
        ['/', '/'] <+: part) ∧
    (file.commentLines today =
        (file.opening ++ file.options.generatorInfo.toList.map SourceFile.infoLine ++
          file.closing today).map String.toList ↔
      ∀ info ∈ file.options.generatorInfo, '\n' ∉ info.toList) := by
  refine ⟨?_, ?_, ?_, ?_⟩
  · have hheader := file.pieces_header today []
    rwa [List.append_nil] at hheader
  · have hcontents : (file.contents today).toList = (file.header today).toList ++
        '\n' :: (file.importSection ++ file.writer.text).toList := by
      simp [SourceFile.contents]
    rw [hcontents, file.pieces_header]
    rfl
  · rw [SourceFile.commentLines, List.forall_mem_append, List.forall_mem_append,
      file.infoText_commented_iff]
    constructor
    · exact fun h => h.1.2
    · exact fun h => ⟨⟨file.opening_commented, h⟩, file.closing_commented today⟩
  · rw [SourceFile.commentLines, List.map_append, List.map_append, List.append_left_inj,
      List.append_right_inj, file.infoText_single_iff]

def leakyHeader : SourceFile :=
  ⟨.declare .structType "User" [],
    { Options.standard with
      generatorInfo := some "schema v3\nimport Legacy"
      addGenerationDate := false },
    none⟩

/-- Its second line is no comment, and an import of the file. -/
theorem info_leaves_comment :
    "import Legacy".toList ∈ (pieces (leakyHeader.header ⟨2018, 4, 24⟩).toList).dropLast ∧
    ¬['/', '/'] <+: "import Legacy".toList ∧
    (leakyHeader.contents ⟨2018, 4, 24⟩) =
      "//\n//  User.swift\n//\n//  Contains:\n//  struct User\n//\n" ++
        "//  Generated by SwiftPoet\n//  schema v3\nimport Legacy\n//\n\n" ++
        "struct User \x7b\n\n\x7d\n" := by
  decide +kernel

end SwiftDecl
