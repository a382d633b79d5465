import SwiftDecl.Proofs.Separators
import Mathlib.Data.List.Basic

/-!
# Cleaning a name again

A name in Pascal or camel case has no separators left, so cleaning it again may
cut it into other words. In ASCII the result is the same text nevertheless: all
words but the first start with a capital and stay as they are, and the first has
capitals only if it starts with one. The marks that a cleaned name may have are
separators; they are dropped, and put back for the reason they were there.
-/

set_option autoImplicit false

namespace SwiftDecl.Name
open SwiftDecl.Text

def IsAsciiWord (text : List Char) : Prop :=
  ∀ c ∈ text, c.isAlphanum = true

namespace IsAsciiWord

variable {text : List Char}

theorem ascii (h : IsAsciiWord text) : ∀ c ∈ text, c.toNat < 128 :=
  fun c hc => ascii_of_isAlphanum (h c hc)

theorem alphanumeric (h : IsAsciiWord text) : ∀ c ∈ text, isAlphanumeric c = true := by
  intro c hc
  rw [isAlphanumeric_ascii (h.ascii c hc)]
  exact h c hc

end IsAsciiWord

theorem isAsciiWord_words {text : List Char} (h : ∀ c ∈ text, c.toNat < 128) :
    ∀ word ∈ words text, IsAsciiWord word := by
  intro word hw c hc
  have hascii := words_ascii h word hw c hc
  rw [← isAlphanumeric_ascii hascii]
  exact words_alphanumeric text word hw c hc

theorem first_word_small {c : Char} {rest first : List Char} {more : List (List Char)}
    (h : IsAsciiWord (c :: rest)) (hw : words (c :: rest) = first :: more)
    (hc : c.isUpper = false) : ∀ d ∈ first, d.isUpper = false := by
  induction rest generalizing c first more with
  | nil =>
    rw [words_cons_of_alphanumeric (h.alphanumeric c (by simp))] at hw
    obtain ⟨rfl, -⟩ : [c] = first ∧ [] = more := by simpa [attach, joinsNext, words] using hw
    simpa using hc
  | cons d later ih =>
    have halnum := h c (by simp)
    rcases words_cons_cases (h.alphanumeric c (by simp)) (d :: later) with
      ⟨-, hwords⟩ | ⟨hj, e, tail, begin, after, heq, -, hrest, hwords⟩
    · rw [hwords] at hw
      obtain ⟨rfl, -⟩ := List.cons.inj hw
      simpa using hc
    · obtain ⟨rfl, rfl⟩ := List.cons.inj heq
      rw [hwords] at hw
      obtain ⟨rfl, -⟩ := List.cons.inj hw
      -- A capital behind a small letter or a digit would start a word.
      have hd : d.isUpper = false := by
        by_contra hd
        rw [Bool.not_eq_false, ← isUppercase_ascii (h.ascii d (by simp))] at hd
        have hbefore : isLowercase c = true ∨ isNumeric c = true := by
          rw [isLowercase_ascii (h.ascii c (by simp)), isNumeric_ascii (h.ascii c (by simp))]
          simpa [isAlphanum_iff, isAlpha_iff, hc] using halnum
        have hstart : startsWord c d later.head? = true :=
          startsWord_iff.2 ⟨hd, hbefore.imp_right Or.inl⟩
        simp [joinsNext, hstart] at hj
      have htail := ih (fun e he => h e (List.mem_cons_of_mem _ he)) hrest hd
      exact List.forall_mem_cons.2 ⟨hc, htail⟩

theorem later_words_capital {text first : List Char} {more : List (List Char)}
    (h : ∀ c ∈ text, isAlphanumeric c = true) (hw : words text = first :: more) :
    ∀ word ∈ more, ∃ c rest, word = c :: rest ∧ isUppercase c = true := by
  induction text generalizing first more with
  | nil => simp [words] at hw
  | cons c rest ih =>
    have hlater : ∀ d ∈ rest, isAlphanumeric d = true := fun d hd => h d (List.mem_cons_of_mem _ hd)
    rcases words_cons_cases (h c (by simp)) rest with
      ⟨hj, hwords⟩ | ⟨-, d, later, begin, after, rfl, -, hrest, hwords⟩
    · rw [hwords] at hw
      obtain ⟨-, rfl⟩ := List.cons.inj hw
      cases rest with
      | nil => simp [words]
      | cons d later =>
        have hd : isAlphanumeric d = true := hlater d (by simp)
        obtain ⟨begin, after, hnext, -⟩ := words_head hd later
        have hupper : isUppercase d = true := by
          simp only [joinsNext, hd, Bool.true_and, Bool.not_eq_false'] at hj
          exact (startsWord_iff.1 hj).1
        rw [hnext]
        exact List.forall_mem_cons.2 ⟨⟨d, begin, rfl, hupper⟩, ih hlater hnext⟩
    · rw [hwords] at hw
      obtain ⟨-, rfl⟩ := List.cons.inj hw
      exact ih hlater hrest

theorem capitalize_fixed {c : Char} (h : c.toNat < 128) (hc : c.isLower = false)
    (rest : List Char) : capitalize (c :: rest) = c :: rest := by
  rw [capitalize_ascii h, toUpper_eq_self hc]

theorem lowercase_fixed {word : List Char} (h : ∀ c ∈ word, c.toNat < 128)
    (hs : ∀ c ∈ word, c.isUpper = false) : lowercase word = word := by
  have hfixed : ∀ c ∈ word, c.toLower = c := fun c hc => toLower_eq_self (hs c hc)
  rw [lowercase_ascii h, List.map_congr_left hfixed, List.map_id']

theorem capitalized_fixed {text first : List Char} {more : List (List Char)}
    (h : IsAsciiWord text) (hw : words text = first :: more) :
    more.flatMap capitalize = more.flatten := by
  have hmore : ∀ word ∈ more, capitalize word = word := by
    intro word hm
    obtain ⟨c, rest, rfl, hupper⟩ := later_words_capital h.alphanumeric hw word hm
    have hascii := words_ascii h.ascii (c :: rest) (by simp [hw, hm]) c (by simp)
    rw [isUppercase_ascii hascii] at hupper
    exact capitalize_fixed hascii (by grind) rest
  rw [List.flatMap_def, List.map_congr_left hmore, List.map_id']

theorem words_cover {text first : List Char} {more : List (List Char)} (h : IsAsciiWord text)
    (hw : words text = first :: more) : first ++ more.flatten = text := by
  rw [← List.flatten_cons, ← hw, words_flatten, List.filter_eq_self.2 h.alphanumeric]

theorem pascalCase_fixed {text : List Char} (h : IsAsciiWord text)
    (hs : ∀ c ∈ text.head?, c.isLower = false) : pascalCase text = text := by
  cases text with
  | nil => rfl
  | cons c rest =>
    obtain ⟨first, more, hw, -⟩ := words_head (h.alphanumeric c (by simp)) rest
    rw [pascalCase, hw, List.flatMap_cons, capitalize_fixed (h.ascii c (by simp)) (hs c rfl),
      capitalized_fixed h hw, words_cover h hw]

theorem camelCase_fixed {text : List Char} (h : IsAsciiWord text)
    (hs : ∀ c ∈ text.head?, c.isUpper = false) : camelCase text = text := by
  cases text with
  | nil => rfl
  | cons c rest =>
    obtain ⟨first, more, hw, -⟩ := words_head (h.alphanumeric c (by simp)) rest
    have hfirst := words_ascii h.ascii (c :: first) (by simp [hw])
    simp only [camelCase, hw]
    rw [lowercase_fixed hfirst (first_word_small h hw (hs c rfl)), capitalized_fixed h hw,
      words_cover h hw]

theorem capitalize_letters {word : List Char} (h : IsAsciiWord word) :
    IsAsciiWord (capitalize word) ∧ ∀ c ∈ (capitalize word).head?, c.isLower = false := by
  cases word with
  | nil => exact ⟨h, by simp [capitalize]⟩
  | cons c rest =>
    have hcapital : c.toUpper.isAlphanum = true := by
      rw [isAlphanum_toUpper]
      exact h c (by simp)
    rw [capitalize_ascii (h.ascii c (by simp))]
    refine ⟨List.forall_mem_cons.2 ⟨hcapital, fun d hd => h d (List.mem_cons_of_mem _ hd)⟩, ?_⟩
    rintro _ ⟨⟩
    grind

theorem lowercase_letters {word : List Char} (h : IsAsciiWord word) :
    IsAsciiWord (lowercase word) ∧ ∀ c ∈ (lowercase word).head?, c.isUpper = false := by
  rw [lowercase_ascii h.ascii]
  constructor
  · intro d hd
    obtain ⟨c, hc, rfl⟩ := List.mem_map.1 hd
    rw [isAlphanum_toLower]
    exact h c hc
  · intro d hd
    obtain ⟨c, -, rfl⟩ := List.mem_map.1 (List.mem_of_mem_head? hd)
    grind

theorem capitalized_letters {ws : List (List Char)} (h : ∀ word ∈ ws, IsAsciiWord word) :
    IsAsciiWord (ws.flatMap capitalize) := by
  intro c hc
  obtain ⟨word, hw, hm⟩ := List.mem_flatMap.1 hc
  exact (capitalize_letters (h word hw)).1 c hm

theorem pascalCase_letters {text : List Char} (h : ∀ c ∈ text, c.toNat < 128) :
    IsAsciiWord (pascalCase text) ∧ ∀ c ∈ (pascalCase text).head?, c.isLower = false := by
  have hwords := isAsciiWord_words h
  refine ⟨capitalized_letters hwords, ?_⟩
  have hne := words_ne_nil text
  rw [pascalCase]
  cases hw : words text with
  | nil => simp
  | cons first more =>
    rw [hw] at hwords hne
    rw [List.flatMap_cons, List.head?_append_of_ne_nil _ (capitalize_ne_nil (hne first (by simp)))]
    exact (capitalize_letters (hwords first (by simp))).2

theorem camelCase_letters {text : List Char} (h : ∀ c ∈ text, c.toNat < 128) :
    IsAsciiWord (camelCase text) ∧ ∀ c ∈ (camelCase text).head?, c.isUpper = false := by
  have hwords := isAsciiWord_words h
  have hne := words_ne_nil text
  rw [camelCase]
  cases hw : words text with
  | nil => exact ⟨by simp [IsAsciiWord], by simp⟩
  | cons first more =>
    rw [hw] at hwords hne
    obtain ⟨hfirst, hmore⟩ := List.forall_mem_cons.1 hwords
    obtain ⟨hletters, hhead⟩ := lowercase_letters hfirst
    refine ⟨List.forall_mem_append.2 ⟨hletters, capitalized_letters hmore⟩, ?_⟩
    rw [List.head?_append_of_ne_nil _ (lowercase_ne_nil (hne first (by simp)))]
    exact hhead

theorem Spelling.words_eq {cased name : String} (h : Spelling cased name) :
    words name.toList = words cased.toList := by
  cases h with
  | plain _ _ => rfl
  | underscored _ =>
    have hseparator : isAlphanumeric '_' = false := by decide +kernel
    rw [String.toList_append]
    exact words_of_separators (by simp [hseparator]) _
  | backticked _ _ =>
    have hseparator : isAlphanumeric '`' = false := by decide +kernel
    rw [Name.backticked, String.toList_append, String.toList_append]
    rw [show "`".toList = ['`'] from rfl, List.append_assoc, List.singleton_append,
      words_cons_of_not hseparator, words_append hseparator]
    simp [words]

theorem toPascalCase_again {raw name : String} (h : ∀ c ∈ raw.toList, c.toNat < 128)
    (hs : Spelling (toPascalCase raw) name) : toPascalCase name = toPascalCase raw := by
  obtain ⟨hletters, hhead⟩ := pascalCase_letters h
  have hfixed := pascalCase_fixed hletters hhead
  rw [toPascalCase, pascalCase, hs.words_eq, ← pascalCase, toPascalCase, String.toList_ofList,
    hfixed]

theorem toCamelCase_again {raw name : String} (h : ∀ c ∈ raw.toList, c.toNat < 128)
    (hs : Spelling (toCamelCase raw) name) : toCamelCase name = toCamelCase raw := by
  obtain ⟨hletters, hhead⟩ := camelCase_letters h
  have hfixed := camelCase_fixed hletters hhead
  rw [toCamelCase, camelCase, hs.words_eq, ← camelCase, toCamelCase, String.toList_ofList, hfixed]

/-- Cleaning an ASCII name again changes nothing, whatever marks it has. Only
the fallback, which is in camel case, is not a type name of itself. -/
theorem cleaned_again (raw : String) (h : ∀ c ∈ raw.toList, c.toNat < 128) :
    memberName (memberName raw) = memberName raw ∧
    (typeName (typeName raw) = typeName raw ↔ ∃ c ∈ raw.toList, isAlphanumeric c = true) := by
  by_cases hsome : ∃ c ∈ raw.toList, isAlphanumeric c = true
  · have hnone : ¬∀ c ∈ raw.toList, isAlphanumeric c = false := by
      obtain ⟨c, hm, hc⟩ := hsome
      intro hall
      rw [hall c hm] at hc
      exact absurd hc (by decide)
    have hmember : Spelling (toCamelCase raw) (memberName raw) :=
      finish_spelling (mt (toCamelCase_eq_empty_iff raw).1 hnone)
    have htype : Spelling (toPascalCase raw) (typeName raw) :=
      finish_spelling (mt (toPascalCase_eq_empty_iff raw).1 hnone)
    refine ⟨?_, iff_of_true ?_ hsome⟩
    · change swift.finish (toCamelCase (memberName raw)) = swift.finish (toCamelCase raw)
      rw [toCamelCase_again h hmember]
    · change swift.finish (toPascalCase (typeName raw)) = swift.finish (toPascalCase raw)
      rw [toPascalCase_again h htype]
  · have hnone : ∀ c ∈ raw.toList, isAlphanumeric c = false := by
      simpa using hsome
    have hmember : memberName raw = "unnamed" := if_pos ((toCamelCase_eq_empty_iff raw).2 hnone)
    have htype : typeName raw = "unnamed" := if_pos ((toPascalCase_eq_empty_iff raw).2 hnone)
    rw [hmember, htype]
    exact ⟨by decide +kernel, iff_of_false (by decide +kernel) hsome⟩

/-- A word that is reserved in either case, and one that starts with a digit. -/
theorem cleaned_again_marked :
    (∀ c ∈ "Self".toList, c.toNat < 128) ∧
    memberName "Self" = "`self`" ∧ memberName "`self`" = "`self`" ∧
    typeName "Self" = "`Self`" ∧ typeName "`Self`" = "`Self`" ∧
    (∀ c ∈ "404 not-found".toList, c.toNat < 128) ∧
    memberName "404 not-found" = "_404NotFound" ∧ memberName "_404NotFound" = "_404NotFound" ∧
    typeName "_404NotFound" = "_404NotFound" := by
  have hself : ∀ c ∈ "Self".toList, c.toNat < 128 := by simp
  have hfound : ∀ c ∈ "404 not-found".toList, c.toNat < 128 := by simp
  obtain ⟨hmember, htype⟩ := cleaned_again "Self" hself
  obtain ⟨hmember', htype'⟩ := cleaned_again "404 not-found" hfound
  have hm : memberName "Self" = "`self`" := by decide +kernel
  have ht : typeName "Self" = "`Self`" := by decide +kernel
  have hm' : memberName "404 not-found" = "_404NotFound" := by decide +kernel
  have ht' : typeName "404 not-found" = "_404NotFound" := by decide +kernel
  rw [hm] at hmember
  rw [ht] at htype
  rw [hm'] at hmember'
  rw [ht'] at htype'
  exact ⟨hself, hm, hmember, ht, htype.2 ⟨'S', by simp, by decide +kernel⟩, hfound, hm', hmember',
    htype'.2 ⟨'4', by simp, by decide +kernel⟩⟩

end SwiftDecl.Name
