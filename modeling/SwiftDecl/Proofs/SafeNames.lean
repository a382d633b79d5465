import SwiftDecl.Proofs.Identifier
import SwiftDecl.Proofs.Ascii

/-!
# Safe names

Whatever text a name is cleaned from, the result can stand in source as one
identifier. A name with anything alphanumeric in it is never lost: what is
written is the text in the wanted case, as it is or with one of two marks, an
underscore in front of a numeric character or backticks around a reserved word.
-/

set_option autoImplicit false

namespace SwiftDecl.Text

theorem wordChar_not_blank {c : Char} (h : isWordChar c = true) : isBlank c = false := by
  simp only [isWordChar, isWordCode, Bool.and_eq_true, List.all_eq_true, Bool.or_eq_true,
    decide_eq_true_eq] at h
  by_contra hb
  rw [Bool.not_eq_false, isBlank, inRanges_iff] at hb
  obtain ⟨range, hr, h₁, h₂⟩ := hb
  have hout := h.2 range hr
  omega

theorem wordChar_ascii {c : Char} (h : isWordChar c = true) (ha : c.toNat < 0x80) :
    c.isAlphanum = true := by
  simp only [isWordChar, isWordCode, Bool.and_eq_true, Bool.or_eq_true, decide_eq_true_eq] at h
  rw [isAlphanum_iff, isAlpha_iff, isUpper_iff, isLower_iff, isDigit_iff]
  omega

theorem fullyMapped_ne_nil {expansions : List (Nat × List Nat)}
    (ht : ∀ row ∈ expansions, row.2 ≠ []) (table : List (Nat × Nat × Nat × Nat)) (c : Char) :
    fullyMapped expansions table c ≠ [] := by
  unfold fullyMapped
  split
  · rename_i image hl
    obtain ⟨row, hr, rfl⟩ := lookup_mem hl
    simpa using ht row hr
  · simp

theorem toUpper_ne_nil (c : Char) : toUpper c ≠ [] :=
  fullyMapped_ne_nil (by decide +kernel) _ c

theorem toLower_ne_nil (c : Char) : toLower c ≠ [] :=
  fullyMapped_ne_nil (by decide +kernel) _ c

theorem capitalize_ne_nil {word : List Char} (h : word ≠ []) : capitalize word ≠ [] := by
  cases word with
  | nil => exact absurd rfl h
  | cons c rest => simp [capitalize, toUpper_ne_nil]

theorem lowercase_ne_nil {word : List Char} (h : word ≠ []) : lowercase word ≠ [] := by
  cases word with
  | nil => exact absurd rfl h
  | cons c rest =>
    by_cases hc : c = 'Σ' <;> simp [lowercase, lowercaseAfter, hc, toLower_ne_nil]

end SwiftDecl.Text

namespace SwiftDecl.Name
open SwiftDecl.Text

theorem words_ne_nil (text : List Char) : ∀ w ∈ words text, w ≠ [] := by
  induction text with
  | nil => simp [words]
  | cons c rest ih =>
    unfold words
    split
    · split
      · intro w hw
        cases hr : words rest with
        | nil => simp_all [prepend]
        | cons first more =>
          rw [hr, prepend] at hw
          rcases List.mem_cons.1 hw with rfl | hw
          · simp
          · exact ih w (by simp [hr, hw])
      · intro w hw
        rcases List.mem_cons.1 hw with rfl | hw
        · simp
        · exact ih w hw
    · exact ih

theorem words_eq_nil_iff (text : List Char) :
    words text = [] ↔ ∀ c ∈ text, isAlphanumeric c = false := by
  induction text with
  | nil => simp [words]
  | cons c rest ih =>
    unfold words
    by_cases hc : isAlphanumeric c = true
    · rw [if_pos hc]
      have hwords :
          (if joinsNext c rest then prepend c (words rest) else [c] :: words rest) ≠ [] := by
        split
        · cases words rest <;> simp [prepend]
        · simp
      simp [hwords, hc]
    · rw [if_neg hc, ih]
      simp [hc]

theorem pascalCase_eq_nil_iff (text : List Char) :
    pascalCase text = [] ↔ ∀ c ∈ text, isAlphanumeric c = false := by
  rw [← words_eq_nil_iff, pascalCase]
  have hne := words_ne_nil text
  cases hw : words text with
  | nil => simp
  | cons first more =>
    rw [hw] at hne
    simp [capitalize_ne_nil (hne first (by simp))]

theorem camelCase_eq_nil_iff (text : List Char) :
    camelCase text = [] ↔ ∀ c ∈ text, isAlphanumeric c = false := by
  rw [← words_eq_nil_iff, camelCase]
  have hne := words_ne_nil text
  cases hw : words text with
  | nil => simp
  | cons first more =>
    rw [hw] at hne
    simp [lowercase_ne_nil (hne first (by simp))]

theorem toPascalCase_eq_empty_iff (raw : String) :
    toPascalCase raw = "" ↔ ∀ c ∈ raw.toList, isAlphanumeric c = false := by
  rw [← pascalCase_eq_nil_iff, toPascalCase, String.ofList_eq_empty_iff]

theorem toCamelCase_eq_empty_iff (raw : String) :
    toCamelCase raw = "" ↔ ∀ c ∈ raw.toList, isAlphanumeric c = false := by
  rw [← camelCase_eq_nil_iff, toCamelCase, String.ofList_eq_empty_iff]

/-- What a name has to be in order to stand in source as one identifier. -/
structure IsSafe (name : String) : Prop where
  nonempty : name ≠ ""
  unblank : ∀ c ∈ name.toList, isBlank c = false
  ascii : ∀ c ∈ name.toList, c.toNat < 0x80 → c.isAlphanum = true ∨ c = '_' ∨ c = '`'
  underscore : ∀ before after, name.toList = before ++ '_' :: after →
    before = [] ∧ after.head?.any isNumeric = true
  backtick : '`' ∈ name.toList →
    ∃ word ∈ swift.reserved, name = backticked word ∧ '`' ∉ word.toList
  start : name.toList.head?.any isNumeric = false
  unreserved : name ∉ swift.reserved

/-- How a text that is in the wanted case is written. -/
inductive Spelling (cased : String) : String → Prop
  | plain (start : Convention.startsNumeric cased = false) (free : cased ∉ swift.reserved) :
      Spelling cased cased
  | underscored (start : Convention.startsNumeric cased = true) : Spelling cased ("_" ++ cased)
  | backticked (start : Convention.startsNumeric cased = false) (word : cased ∈ swift.reserved) :
      Spelling cased (backticked cased)

theorem finish_spelling {cased : String} (h : cased ≠ "") :
    Spelling cased (swift.finish cased) := by
  rw [Convention.finish, if_neg h]
  by_cases hn : Convention.startsNumeric cased = true
  · rw [if_pos hn]
    exact .underscored hn
  · rw [if_neg hn, Convention.safe]
    rw [Bool.not_eq_true] at hn
    by_cases hr : cased ∈ swift.reserved
    · rw [if_pos (by simpa [Convention.isReserved] using hr)]
      exact .backticked hn hr
    · rw [if_neg (by simpa [Convention.isReserved] using hr)]
      exact .plain hn hr

theorem reserved_wordChar : ∀ word ∈ swift.reserved, ∀ c ∈ word.toList, isWordChar c = true := by
  have h : (swift.reserved.all fun word => word.toList.all isWordChar) = true := by decide +kernel
  simpa only [List.all_eq_true] using h

theorem nameChar_not_blank {c : Char} (h : isNameChar c = true) : isBlank c = false := by
  simp only [isNameChar, Bool.or_eq_true, beq_iff_eq] at h
  rcases h with (h | rfl) | rfl
  · exact wordChar_not_blank h
  · decide
  · decide

theorem nameChar_ascii {c : Char} (h : isNameChar c = true) (ha : c.toNat < 0x80) :
    c.isAlphanum = true ∨ c = '_' ∨ c = '`' := by
  simp only [isNameChar, Bool.or_eq_true, beq_iff_eq] at h
  rcases h with (h | rfl) | rfl
  · exact Or.inl (wordChar_ascii h ha)
  · exact Or.inr (Or.inl rfl)
  · exact Or.inr (Or.inr rfl)

namespace Spelling

variable {cased name : String}

theorem unreserved (h : Spelling cased name) : name ∉ swift.reserved := by
  intro hr
  cases h with
  | plain _ free => exact free hr
  | underscored _ =>
    have hc := reserved_wordChar _ hr '_' (by simp)
    exact absurd hc (by decide)
  | backticked _ _ =>
    have hc := reserved_wordChar _ hr '`' (by simp [Name.backticked])
    exact absurd hc (by decide)

theorem start (h : Spelling cased name) : name.toList.head?.any isNumeric = false := by
  cases h with
  | plain start _ => exact start
  | underscored _ =>
    have hn : isNumeric '_' = false := by decide
    simpa using hn
  | backticked _ _ =>
    have hn : isNumeric '`' = false := by decide
    simpa [Name.backticked] using hn

theorem underscore (h : Spelling cased name) (hw : '_' ∉ cased.toList) {before after : List Char}
    (hs : name.toList = before ++ '_' :: after) :
    before = [] ∧ after.head?.any isNumeric = true := by
  cases h with
  | plain _ _ => exact absurd (by simp [hs]) hw
  | underscored start =>
    have hs : '_' :: cased.toList = before ++ '_' :: after := by
      simpa using hs
    cases before with
    | nil =>
      rw [← (List.cons.inj hs).2]
      exact ⟨rfl, start⟩
    | cons c rest => exact absurd (by simp [(List.cons.inj hs).2]) hw
  | backticked _ _ =>
    have hm : '_' ∈ (Name.backticked cased).toList := by simp [hs]
    simp [Name.backticked, hw] at hm

theorem backtick (h : Spelling cased name) (hw : '`' ∉ cased.toList) (hm : '`' ∈ name.toList) :
    ∃ word ∈ swift.reserved, name = Name.backticked word ∧ '`' ∉ word.toList := by
  cases h with
  | plain _ _ => exact absurd hm hw
  | underscored _ => exact absurd (by simpa using hm) hw
  | backticked _ word => exact ⟨cased, word, rfl, hw⟩

theorem ne_empty (h : Spelling cased name) (hne : cased ≠ "") : name ≠ "" := by
  cases h with
  | plain _ _ => exact hne
  | underscored _ | backticked _ _ => simp [Name.backticked]

end Spelling

theorem finish_isSafe {cased : String} (h : ∀ c ∈ cased.toList, isWordChar c = true) :
    IsSafe (swift.finish cased) := by
  have hspelled : ∃ text, text ≠ "" ∧ (∀ c ∈ text.toList, isWordChar c = true) ∧
      Spelling text (swift.finish cased) := by
    by_cases hne : cased = ""
    · -- The fallback is a word of its own and needs no mark.
      have hword : "unnamed".toList.all isWordChar = true := by decide
      refine ⟨"unnamed", by decide, List.all_eq_true.1 hword, ?_⟩
      rw [Convention.finish, if_pos hne]
      exact .plain (by decide) (by decide)
    · exact ⟨cased, hne, h, finish_spelling hne⟩
  obtain ⟨text, hne, hw, hs⟩ := hspelled
  have hmark : ∀ c, isWordChar c = false → c ∉ text.toList := by
    intro c hc hm
    rw [hw c hm] at hc
    exact absurd hc (by decide)
  constructor
  · exact hs.ne_empty hne
  · exact fun c hc => nameChar_not_blank (finish_nameChar h c hc)
  · exact fun c hc => nameChar_ascii (finish_nameChar h c hc)
  · exact fun before after => hs.underscore (hmark '_' (by decide))
  · exact hs.backtick (hmark '`' (by decide))
  · exact hs.start
  · exact hs.unreserved

/-- A cleaned name is safe, and it is the fallback if the raw text has nothing
alphanumeric in it. Any other name is the raw text in the wanted case, marked
only where it would start with a numeric character or be a reserved word. -/
theorem cleaned_isSafe (raw : String) :
    IsSafe (typeName raw) ∧ IsSafe (memberName raw) ∧
    ((∀ c ∈ raw.toList, isAlphanumeric c = false) →
      typeName raw = "unnamed" ∧ memberName raw = "unnamed") ∧
    ((∃ c ∈ raw.toList, isAlphanumeric c = true) →
      Spelling (toPascalCase raw) (typeName raw) ∧
      Spelling (toCamelCase raw) (memberName raw)) := by
  have hpascal : ∀ c ∈ (toPascalCase raw).toList, isWordChar c = true := by
    intro c hc
    exact pascalCase_wordChar raw.toList c (by simpa [toPascalCase] using hc)
  have hcamel : ∀ c ∈ (toCamelCase raw).toList, isWordChar c = true := by
    intro c hc
    exact camelCase_wordChar raw.toList c (by simpa [toCamelCase] using hc)
  refine ⟨finish_isSafe hpascal, finish_isSafe hcamel, ?_, ?_⟩
  · intro h
    exact ⟨if_pos ((toPascalCase_eq_empty_iff raw).2 h),
      if_pos ((toCamelCase_eq_empty_iff raw).2 h)⟩
  · rintro ⟨c, hm, hc⟩
    have hsome : ¬∀ c ∈ raw.toList, isAlphanumeric c = false := by
      intro h
      rw [h c hm] at hc
      exact absurd hc (by decide)
    exact ⟨finish_spelling (mt (toPascalCase_eq_empty_iff raw).1 hsome),
      finish_spelling (mt (toCamelCase_eq_empty_iff raw).1 hsome)⟩

/-- Lower case may make a reserved word of a name that was none. -/
example :
    memberName "SELF" = "`self`" ∧ typeName "404 not-found" = "_404NotFound" ∧
      typeName "\x7b\x7d\n" = "unnamed" := by
  decide +kernel

end SwiftDecl.Name
