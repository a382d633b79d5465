import SwiftDecl.Proofs.BodyText
import SwiftDecl.Proofs.Midline

/-!
# The text of a method

A signature is one line whichever of its optional parts are there: each part is
set apart or attaches by the character before it, and that is the same for all
that can come before it. Behind the signature stands the body in braces, or
nothing in a protocol.
-/

set_option autoImplicit false

namespace SwiftDecl
open SwiftDecl.Layout

/-- Code that can be the default of a parameter: one line of text that the list of
parameters can go on behind, and no trace on the level. -/
structure Block.IsDefault (indent : Indent) (level : Nat) (b : Block) : Prop
    extends b.IsInline indent where
  unassigned : (b.textAlone indent).getLast? ≠ some '='
  level : ((Writer.startingAt indent level).emit (.block b)).level = level

instance (indent : Indent) (level : Nat) (b : Block) : Decidable (b.IsDefault indent level) :=
  decidable_of_iff (b.IsInline indent ∧ _ ∧ _)
    ⟨fun h => ⟨h.1, h.2.1, h.2.2⟩, fun h => ⟨h.1, h.2, h.3⟩⟩

theorem getLast?_behind {text : List Char} {d : Char} (h : text.getLast? = some d)
    (front : List Char) : (front ++ text).getLast? = some d := by
  rw [List.getLast?_append, h, Option.some_or]

theorem Piece.join_ne_nil {pieces : List Piece} (h : pieces ≠ []) : Piece.join pieces ≠ [] := by
  have hne : Line.joined pieces.reverse ≠ [] := Line.joined_ne_nil (by simpa using h)
  intro hj
  rw [← pieces.reverse_reverse, ← Line.joined_reverse, List.reverse_eq_nil_iff] at hj
  exact hne hj

theorem Block.IsInline.inlineText_ne_nil {indent : Indent} {b : Block} (h : b.IsInline indent) :
    b.inlineText ≠ [] := by
  rw [Block.inlineText_eq h.feedFree h.nonempty]
  exact Piece.join_ne_nil (Block.pieces_ne_nil h.feedFree h.nonempty)

theorem Block.IsDefault.getLast? {indent : Indent} {level : Nat} {b : Block}
    (h : b.IsDefault indent level) : ∃ d, b.inlineText.getLast? = some d ∧ d ≠ '=' := by
  obtain ⟨depth, hd⟩ := Block.textAlone_inline h.feedFree h.nonempty
  have hne := h.toIsInline.inlineText_ne_nil
  have hlast := List.getLast?_eq_some_getLast hne
  refine ⟨_, hlast, fun he => h.unassigned ?_⟩
  rw [hd, getLast?_behind hlast, he]

theorem EndsClear.last {text : String} (h : EndsClear ['=', '(', '[', '<', '.'] text) :
    ∃ d, text.toList.getLast? = some d ∧ d ≠ '=' ∧ spacedAfter d = true := by
  obtain ⟨d, hd, hblank, hmarks⟩ := h
  refine ⟨d, hd, fun he => hmarks (by simp [he]), Piece.spacedAfter_iff.2 ⟨hblank, fun hm => ?_⟩⟩
  exact hmarks (List.mem_cons_of_mem _ hm)

/-- The operations add `text` wherever they stand in a list, and a comma can
follow. -/
structure ListEntry (level : Nat) (ops : List Op) (text : List Char) : Prop where
  continues : ∀ c, Continues ops c (gapAfter c ++ text) level level
  last : ∃ d, text.getLast? = some d ∧ d ≠ '='

def listed (texts : List (List Char)) : List Char :=
  [',', ' '].intercalate texts

section Lists

variable {level : Nat} {parts : List (List Op)} {texts : List (List Char)}

theorem comma_continues {c : Char} (hc : c ≠ '=') :
    Continues [.literal ","] c [','] level level :=
  attaching_continues "," (by decide) (by decide) hc

theorem entries_continue (h : List.Forall₂ (ListEntry level) parts texts) (hne : texts ≠ [])
    (c : Char) :
    Continues (Method.commaSeparated parts) c (gapAfter c ++ listed texts) level level ∧
      endOf c (gapAfter c ++ listed texts) ≠ '=' := by
  induction h generalizing c with
  | nil => exact absurd rfl hne
  | @cons part text parts texts hentry hrest ih =>
    obtain ⟨d, hd, hassign⟩ := hentry.last
    have hend : endOf c (gapAfter c ++ text) = d := endOf_of_getLast? hd _
    cases hrest with
    | nil =>
      have honly : listed [text] = text := by simp [listed]
      rw [honly, hend]
      exact ⟨hentry.continues c, hassign⟩
    | @cons next text' parts texts hnext hmore =>
      have hlisted : listed (text :: text' :: texts) =
          text ++ ([','] ++ (gapAfter ',' ++ listed (text' :: texts))) := by
        simp [listed, List.intercalate_cons_cons, gapAfter, show spacedAfter ',' = true by decide]
      obtain ⟨hmore', hlast⟩ := ih (by simp) ','
      have hcomma : Continues [.literal ","] (endOf c (gapAfter c ++ text)) [','] level level := by
        rw [hend]
        exact comma_continues hassign
      have htail : Continues (Method.commaSeparated (next :: parts))
          (endOf (endOf c (gapAfter c ++ text)) [',']) (gapAfter ',' ++ listed (text' :: texts))
          level level := hmore'
      rw [hlisted, ← List.append_assoc, endOf_append, endOf_append]
      exact ⟨(hentry.continues c).append (hcomma.cons htail), hlast⟩

theorem bracketed_continues (h : List.Forall₂ (ListEntry level) parts texts)
    (opening closing : String) (ho : opening ∈ fixedTexts) (hc : closing ∈ fixedTexts)
    (hao : attachesLeft opening.toList = true) (hac : attachesLeft closing.toList = true)
    {c : Char} (hassign : c ≠ '=') (hopen : spacedAfter (endOf c opening.toList) = false) :
    Continues (.literal opening :: (Method.commaSeparated parts ++ [.literal closing])) c
      (opening.toList ++ (listed texts ++ closing.toList)) level level := by
  have hfirst : Continues [.literal opening] c opening.toList level level :=
    attaching_continues opening ho hao hassign
  refine hfirst.cons ?_
  cases texts with
  | nil =>
    have hparts : parts = [] := by
      cases h
      rfl
    have hne : endOf c opening.toList ≠ '=' := by
      intro he
      rw [he] at hopen
      exact absurd hopen (by decide)
    rw [hparts]
    exact attaching_continues closing hc hac hne
  | cons text more =>
    obtain ⟨hentries, hlast⟩ := entries_continue h (by simp) (endOf c opening.toList)
    have hgap : gapAfter (endOf c opening.toList) = [] := by
      rw [gapAfter, if_neg (by simp [hopen])]
    rw [hgap, List.nil_append] at hentries hlast
    exact hentries.append (attaching_continues closing hc hac hlast)

end Lists

namespace Parameter

def headText (p : Parameter) : List Char :=
  match p.label with
  | none => (Name.memberName p.heading.name).toList
  | some label => (labelText label).toList ++ [' '] ++ (Name.memberName p.heading.name).toList

def defaultText (p : Parameter) : List Char :=
  match p.defaultValue with
  | none => []
  | some code => code.assignment

def sourceText (p : Parameter) : List Char :=
  p.headText ++ [':', ' '] ++ p.type.render.toList ++ p.defaultText

theorem labelText_isWord (label : String) : IsWord (labelText label) := by
  unfold labelText
  split
  · exact .of_all (by decide) (by decide)
  · exact Name.memberName_isWord label

theorem endOf_word {text : String} (h : IsWord text) (c : Char) (front : List Char) :
    Name.isNameChar (endOf c (front ++ text.toList)) = true := by
  have hne := h.toList_ne_nil
  rw [endOf_of_getLast? (List.getLast?_eq_some_getLast hne)]
  exact h.2 _ (List.getLast_mem hne)

theorem head_continues (p : Parameter) (c : Char) (level : Nat) :
    Continues (p.labelOps ++ [.literal (Name.memberName p.heading.name)]) c
        (gapAfter c ++ p.headText) level level ∧
      Name.isNameChar (endOf c (gapAfter c ++ p.headText)) = true := by
  have hname := Name.memberName_isWord p.heading.name
  unfold labelOps headText
  cases p.label with
  | none => exact ⟨says_continues (.literal hname), endOf_word hname c _⟩
  | some label =>
    have hlabel := labelText_isWord label
    have hgap : gapAfter (endOf c (gapAfter c ++ (labelText label).toList)) = [' '] := by
      rw [gapAfter, if_pos (spacedAfter_nameChar (endOf_word hlabel c _))]
    have hfirst : Continues [.literal (labelText label)] c _ level level :=
      says_continues (.literal hlabel)
    have hboth := hfirst.append (says_continues (.literal hname))
    rw [hgap] at hboth
    simp only [List.append_assoc] at hboth ⊢
    refine ⟨hboth, ?_⟩
    rw [← List.append_assoc, ← List.append_assoc]
    exact endOf_word hname c _

theorem entry {p : Parameter} {indent : Indent} {level : Nat}
    (ht : EndsClear ['=', '(', '[', '<', '.'] p.type.render)
    (hd : ∀ code ∈ p.defaultValue, code.IsDefault indent level) :
    ListEntry level p.ops p.sourceText := by
  obtain ⟨d, hlast, hassign, hspaced⟩ := ht.last
  have hdefault : Continues p.defaultOps d p.defaultText level level := by
    unfold defaultOps defaultText
    cases hp : p.defaultValue with
    | none => exact Continues.nil
    | some code =>
      have hcode := hd code hp
      exact assignment_continues hcode.toIsInline hspaced hcode.level
  constructor
  · intro c
    obtain ⟨hhead, hname⟩ := p.head_continues c level
    have htype := hhead.append (typed_continues hname ht.nonempty)
    have hend : endOf c (gapAfter c ++ p.headText ++ ([':', ' '] ++ p.type.render.toList)) = d := by
      rw [← List.append_assoc]
      exact endOf_of_getLast? hlast _
    rw [← hend] at hdefault
    have hall := htype.append hdefault
    simpa [ops, sourceText, List.append_assoc] using hall
  · unfold sourceText defaultText
    cases hp : p.defaultValue with
    | none =>
      rw [List.append_nil]
      exact ⟨d, getLast?_behind hlast _, hassign⟩
    | some code =>
      obtain ⟨e, he, hcode⟩ := (hd code hp).getLast?
      have hsource := getLast?_behind (getLast?_behind he [' ', '=', ' '])
        (p.headText ++ [':', ' '] ++ p.type.render.toList)
      exact ⟨e, hsource, hcode⟩

end Parameter

namespace Method

def nameText (m : Method) : List Char :=
  if m.heading.name = "init" then "init".toList
  else "func ".toList ++ (Name.memberName m.heading.name).toList

def typeVariableText (m : Method) : List Char :=
  if m.typeVariables = [] then []
  else ['<'] ++ listed (m.typeVariables.map fun type => type.render.toList) ++ ['>']

def parameterText (m : Method) : List Char :=
  ['('] ++ listed (m.parameters.map Parameter.sourceText) ++ [')']

def effectText (m : Method) : List Char :=
  if m.canThrow then " throws".toList else []

def returnText (m : Method) : List Char :=
  match m.returns with
  | none => []
  | some type => " -> ".toList ++ type.render.toList

def signatureText (m : Method) : List Char :=
  m.heading.modifierText ++ m.nameText ++
    (m.typeVariableText ++ m.parameterText ++ m.effectText ++ m.returnText)

def bodyText (m : Method) (indent : Indent) (level : Nat) : List Char :=
  linesAt indent (level + 1) (m.body.getD []).ops ++
    (if Op.piecesOfAll 0 (m.body.getD []).ops = [] then ['\n'] else []) ++ closing indent level

/-- What the parts of the signature have to be for it to be one line. -/
structure HasLine (m : Method) (indent : Indent) (level : Nat) : Prop where
  typeVariable : ∀ type ∈ m.typeVariables, EndsClear ['=', '(', '[', '<', '.'] type.render
  parameter : ∀ p ∈ m.parameters, EndsClear ['=', '(', '[', '<', '.'] p.type.render
  returns : ∀ type ∈ m.returns, EndsClear ['=', '(', '[', '<', '.'] type.render
  default : ∀ p ∈ m.parameters, ∀ code ∈ p.defaultValue, code.IsDefault indent level

variable {m : Method} {indent : Indent} {level : Nat}

theorem typeVariables_continue (h : m.HasLine indent level) {c : Char}
    (hc : Name.isNameChar c = true) :
    Continues m.typeVariableOps c m.typeVariableText level level ∧
      endOf c m.typeVariableText ≠ '=' := by
  have hassign : c ≠ '=' := by
    rintro rfl
    exact absurd hc (by decide)
  unfold typeVariableOps typeVariableText
  cases hv : m.typeVariables with
  | nil => exact ⟨Continues.nil, hassign⟩
  | cons first rest =>
    have hentries : List.Forall₂ (ListEntry level)
        ((first :: rest).map fun type => [.word type.render])
        ((first :: rest).map fun type => type.render.toList) := by
      rw [List.forall₂_map_left_iff, List.forall₂_map_right_iff, List.forall₂_same]
      intro type hm
      have hclear := h.typeVariable type (hv ▸ hm)
      obtain ⟨d, hd, hne, -⟩ := hclear.last
      exact ⟨fun c => word_continues hclear.nonempty, d, hd, hne⟩
    have hlist := bracketed_continues hentries "<" ">" (by decide)
      (by decide) (by decide) (by decide) hassign rfl
    refine ⟨?_, ?_⟩
    · simpa using hlist
    · rw [if_neg (by simp), endOf_of_getLast? (d := '>') (by rfl)]
      decide

theorem parameters_continue (h : m.HasLine indent level) {c : Char} (hassign : c ≠ '=') :
    Continues m.parameterOps c m.parameterText level level ∧ endOf c m.parameterText = ')' := by
  have hentries : List.Forall₂ (ListEntry level) (m.parameters.map Parameter.ops)
      (m.parameters.map Parameter.sourceText) := by
    rw [List.forall₂_map_left_iff, List.forall₂_map_right_iff, List.forall₂_same]
    exact fun p hm => Parameter.entry (h.parameter p hm) (h.default p hm)
  have hlist := bracketed_continues hentries "(" ")" (by decide)
    (by decide) (by decide) (by decide) hassign rfl
  refine ⟨?_, endOf_of_getLast? (by rfl) _⟩
  simpa [parameterOps, parameterText] using hlist

theorem effects_continue (m : Method) (level : Nat) :
    Continues m.effectOps ')' m.effectText level level ∧
      spacedAfter (endOf ')' m.effectText) = true := by
  unfold effectOps effectText
  split
  · exact ⟨apart_continues "throws" (by decide) (by decide) (by decide), by decide⟩
  · exact ⟨Continues.nil, by decide⟩

theorem returns_continue (h : m.HasLine indent level) {c : Char} (hc : spacedAfter c = true) :
    Continues m.returnOps c m.returnText level level ∧
      spacedAfter (endOf c m.returnText) = true := by
  unfold returnOps returnText
  cases hr : m.returns with
  | none => exact ⟨Continues.nil, hc⟩
  | some type =>
    have hclear := h.returns type hr
    obtain ⟨d, hd, -, hspaced⟩ := hclear.last
    have harrow : Continues [.literal "->"] c [' ', '-', '>'] level level :=
      apart_continues "->" (by decide) (by decide) hc
    have htype : Continues [.word type.render] (endOf c [' ', '-', '>'])
        (' ' :: type.render.toList) level level :=
      word_continues (c := '>') hclear.nonempty
    refine ⟨harrow.cons htype, ?_⟩
    rw [endOf_of_getLast? hd]
    exact hspaced

theorem rest_continues (h : m.HasLine indent level) {c : Char} (hc : Name.isNameChar c = true) :
    Continues (m.typeVariableOps ++ m.parameterOps ++ m.effectOps ++ m.returnOps) c
        (m.typeVariableText ++ m.parameterText ++ m.effectText ++ m.returnText) level level ∧
      spacedAfter (endOf c
        (m.typeVariableText ++ m.parameterText ++ m.effectText ++ m.returnText)) = true := by
  obtain ⟨hvars, hassign⟩ := typeVariables_continue h hc
  obtain ⟨hparams, hclose⟩ := parameters_continue h hassign
  obtain ⟨heffect, hthrows⟩ := m.effects_continue level
  have hend : endOf c (m.typeVariableText ++ m.parameterText) = ')' := by
    rw [endOf_append, hclose]
  rw [← hend] at heffect hthrows
  rw [← endOf_append] at hthrows
  obtain ⟨hreturn, hlast⟩ := returns_continue h hthrows
  rw [← endOf_append] at hlast
  exact ⟨((hvars.append hparams).append heffect).append hreturn, hlast⟩

theorem name_says (m : Method) : ∃ words : List String, words ≠ [] ∧
    (" ".intercalate words).toList = m.nameText ∧ List.Forall₂ Op.Says m.nameOps words := by
  have hinit : m.isInitializer = decide (m.heading.name = "init") := rfl
  unfold nameOps nameText
  rw [hinit]
  by_cases h : m.heading.name = "init"
  · rw [if_pos h, if_pos (by simpa using h)]
    exact ⟨["init"], by simp, by simp, .cons (.literal (.of_all (by decide) (by decide))) .nil⟩
  · rw [if_neg h, if_neg (by simpa using h)]
    refine ⟨["func", Name.memberName m.heading.name], by simp, ?_,
      .cons (.literal (.of_all (by decide) (by decide)))
        (.cons (.literal (Name.memberName_isWord _)) .nil)⟩
    rw [String.toList_intercalate]
    simp

theorem signature_amid (h : m.HasLine indent level) (hd : m.heading.description = none) :
    ∃ c, spacedAfter c = true ∧
      (Line.indentation indent.unit level ++ m.signatureText).getLast? = some c ∧
      Amid indent.unit level (Line.indentation indent.unit level ++ m.signatureText)
        ((Writer.startingAt indent level).run m.signatureOps) := by
  obtain ⟨words, hne, hname, hwords⟩ := m.name_says
  have hs := List.rel_append m.heading.modifiers_say hwords
  obtain ⟨c, hc, hlast, hamid⟩ := line_amid hs (by simp [hne])
    (fun c hc => (rest_continues h hc).1) indent
  have htext : Line.indentation indent.unit level ++
      (" ".intercalate (m.heading.modifiers.toList.map Modifier.keyword ++ words)).toList ++
      (m.typeVariableText ++ m.parameterText ++ m.effectText ++ m.returnText) =
      Line.indentation indent.unit level ++ m.signatureText := by
    rw [m.heading.modifierText_append hne, hname, signatureText]
    simp only [List.append_assoc]
  have hops : m.signatureOps = m.heading.modifierOps ++ m.nameOps ++
      (m.typeVariableOps ++ m.parameterOps ++ m.effectOps ++ m.returnOps) := by
    rw [signatureOps, Heading.documentationOps, hd]
    simp
  rw [htext] at hlast hamid
  rw [hops]
  exact ⟨_, (rest_continues h hc).2, hlast, hamid⟩

end Method

/-- A method without a description whose types and defaults fit on a line is its
signature, and that alone where a protocol asks for it. Anywhere else a body that
is balanced stands behind it in braces, as the lines that it has on its own one
level further in, with an empty line between the braces if it writes nothing. -/
theorem emit_method_text (m : Method) (hd : m.heading.description = none) (indent : Indent)
    (level : Nat) (h : m.HasLine indent level) :
    (m.parent = some (.type .protocolType) →
      (Node.method m).textAt indent level =
        Line.indentation indent.unit level ++ m.signatureText ++ ['\n']) ∧
    (m.parent ≠ some (.type .protocolType) → (∀ code ∈ m.body, code.Balanced) →
      (Node.method m).textAt indent level =
        Line.indentation indent.unit level ++ m.signatureText ++ [' ', '\x7b', '\n'] ++
          m.bodyText indent level) := by
  obtain ⟨c, hspaced, hlast, hamid⟩ := Method.signature_amid h hd
  have htext : (Node.method m).textAt indent level =
      (((Writer.startingAt indent level).run m.signatureOps).run m.bodyOps).text.toList := by
    rw [Node.textAt, Writer.emit, Node.ops, Method.ops, Writer.run_append]
  refine ⟨?_, ?_⟩
  · intro hp
    have hbody : m.bodyOps = [.endLine] := by rw [Method.bodyOps, hp]
    rw [htext, hbody, Writer.run, Writer.run, Writer.step, hamid.endLine]
  · intro hp hb
    have hbody : m.bodyOps = .openScope :: ((m.body.getD []).ops ++ [.closeScope]) := by
      unfold Method.bodyOps
      split
      · exact absurd ‹_› hp
      · rfl
    have hlevel : Level (fun _ => True) (m.body.getD []).ops := by
      cases hm : m.body with
      | none => exact Level.nil
      | some code =>
        exact block_level vocabulary_true (hb code hm) (fun _ _ => trivial) fun _ _ => trivial
    rw [htext, hbody, Writer.run, Writer.step, (hamid.openScope hlast hspaced).run_braced hlevel,
      Method.bodyText]
    simp only [List.append_assoc]

def fetchMethod : Method :=
  .declare "fetch all"
    [.heading (.modifier .static), .heading (.modifier .publicAccess),
     .typeVariable (.named ∅ "T"), .typeVariable (.named ∅ "U"),
     .parameter (.declare "store" (.optional ∅ (.named ∅ "Store"))
       [.label "_", .defaultValue [.literal ".shared"]]),
     .parameter (.declare "limit" (.named ∅ "Int") [.label "up to"]),
     .throwing, .returns (.array ∅ (.named ∅ "T")),
     .code (Block.beginFlow "if limit > 0" ++ Block.line "go()" ++ Block.endFlow)]

theorem emit_method_text_fetchMethod :
    fetchMethod.HasLine .tab 1 ∧ (∀ code ∈ fetchMethod.body, code.Balanced) ∧
    (Node.method fetchMethod).textAt .tab 1 =
      Line.indentation ['\t'] 1 ++ fetchMethod.signatureText ++ [' ', '\x7b', '\n'] ++
        fetchMethod.bodyText .tab 1 ∧
    fetchMethod.signatureText =
      ("public static func fetchAll<T, U>" ++
        "(_ store: Store? = .shared, upTo limit: Int) throws -> [T]").toList ∧
    fetchMethod.bodyText .tab 1 =
      "\t\tif limit > 0 \x7b\n\t\t\tgo()\n\t\t\x7d\n\t\x7d\n".toList := by
  have hline : fetchMethod.HasLine .tab 1 :=
    ⟨by decide +kernel, by decide +kernel, by decide +kernel, by decide +kernel⟩
  have hbody : ∀ code ∈ fetchMethod.body, code.Balanced := by
    intro code hc
    have hcode : fetchMethod.body =
        some [.literal "if limit > 0", .openScope, .literal "go()", .newLine, .closeScope] := rfl
    obtain rfl := Option.some.inj (hcode.symm.trans hc)
    exact .intro (by decide) (by decide) (by simp)
  exact ⟨hline, hbody,
    (emit_method_text fetchMethod rfl .tab 1 hline).2 (by decide +kernel) hbody,
    by decide +kernel, by decide +kernel⟩

def slanted : Method :=
  .declare "f"
    [.parameter (.declare "x" (.named ∅ "Int")
      [.defaultValue [.indent, .literal "5", .dedent]])]

def stepping : Method :=
  .declare "f"
    [.parameter (.declare "x" (.named ∅ "Int") [.defaultValue [.dedent, .literal "5"]])]

/-- The text and the level that a default has at the outermost level do not tell
all: behind an equals sign it is not indented, and further in it can leave a
level, so that the closing brace is not where the method starts. -/
theorem default_alone_misleads :
    (∀ m ∈ [slanted, stepping], m.heading.description = none ∧ m.HasLine .standard 0 ∧
      m.heading.modifiers = ∅ ∧ m.body = none ∧ m.parent = none ∧
      ∀ p ∈ m.parameters, ∀ code ∈ p.defaultValue,
        ((Writer.new .standard).emit (.block code)).scopes = []) ∧
    (∀ p ∈ slanted.parameters, ∀ code ∈ p.defaultValue,
      code.textAlone .standard = "    5".toList) ∧
    (Node.method slanted).textAt .standard 0 ≠ "func f(x: Int =     5) \x7b\n\n\x7d\n".toList ∧
    (Node.method slanted).textAt .standard 0 = "func f(x: Int = 5) \x7b\n\n\x7d\n".toList ∧
    (∀ p ∈ stepping.parameters, ∀ code ∈ p.defaultValue,
      code.textAlone .standard = "5".toList) ∧
    (Node.method stepping).textAt .standard 1 ≠
      "    func f(x: Int = 5) \x7b\n\n    \x7d\n".toList ∧
    (Node.method stepping).textAt .standard 1 =
      "    func f(x: Int = 5) \x7b\n\n\x7d\n".toList := by
  have hparts : ∀ m ∈ [slanted, stepping], m.heading.description = none ∧
      m.HasLine .standard 0 ∧ m.heading.modifiers = ∅ ∧ m.body = none ∧ m.parent = none ∧
      ∀ p ∈ m.parameters, ∀ code ∈ p.defaultValue,
        ((Writer.new .standard).emit (.block code)).scopes = [] := by
    simp only [List.forall_mem_cons]
    refine ⟨⟨rfl, ?_, rfl, rfl, rfl, by decide +kernel⟩,
      ⟨rfl, ?_, rfl, rfl, rfl, by decide +kernel⟩, by simp⟩
    · exact ⟨by decide +kernel, by decide +kernel, by decide +kernel, by decide +kernel⟩
    · exact ⟨by decide +kernel, by decide +kernel, by decide +kernel, by decide +kernel⟩
  exact ⟨hparts, by decide +kernel, by decide +kernel, by decide +kernel, by decide +kernel,
    by decide +kernel, by decide +kernel⟩

end SwiftDecl
