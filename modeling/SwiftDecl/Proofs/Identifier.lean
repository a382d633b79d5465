import SwiftDecl.Decl.TypeDecl

/-!
# Characters of identifiers

A cleaned name is made of word characters: whatever text it was cleaned from, it
has no blank and no ASCII punctuation besides the underscore in front and the
backticks around a reserved word. That case mappings stay among the word
characters is read off the tables row by row.
-/

set_option autoImplicit false

namespace SwiftDecl.Text

/-- No blank, and in ASCII a letter or a digit. -/
def isWordCode (n : Nat) : Bool :=
  (0x30 ≤ n && n ≤ 0x39 || 0x41 ≤ n && n ≤ 0x5A || 0x61 ≤ n && n ≤ 0x7A || 0x80 ≤ n) &&
    blankRanges.all fun range => n < range.1 || range.2 < n

def isWordChar (c : Char) : Bool :=
  isWordCode c.toNat

def isWordRange (first last : Nat) : Bool :=
  (0x30 ≤ first && last ≤ 0x39 || 0x41 ≤ first && last ≤ 0x5A || 0x61 ≤ first && last ≤ 0x7A ||
      0x80 ≤ first) &&
    blankRanges.all fun range => last < range.1 || range.2 < first

def isCharRange (first last : Nat) : Bool :=
  last < 0xD800 || 0xDFFF < first && last < 0x110000

theorem wordCode_of_range {first last n : Nat} (h : isWordRange first last = true)
    (h₁ : first ≤ n) (h₂ : n ≤ last) : isWordCode n = true := by
  simp only [isWordRange, isWordCode, Bool.and_eq_true, Bool.or_eq_true, decide_eq_true_eq,
    List.all_eq_true] at h ⊢
  refine ⟨by omega, ?_⟩
  intro range hr
  have := h.2 range hr
  omega

theorem toNat_ofNat {first last n : Nat} (h : isCharRange first last = true)
    (h₁ : first ≤ n) (h₂ : n ≤ last) : (Char.ofNat n).toNat = n := by
  have hv : n.isValidChar := by
    simp only [isCharRange, Bool.and_eq_true, Bool.or_eq_true, decide_eq_true_eq] at h
    simp only [Nat.isValidChar]
    omega
  rw [Char.ofNat, dif_pos hv]
  rfl

theorem wordChar_of_inRanges {table : List (Nat × Nat)}
    (ht : ∀ range ∈ table, isWordRange range.1 range.2 = true) {c : Char}
    (h : inRanges table c = true) : isWordChar c = true := by
  obtain ⟨range, hr, h₁, h₂⟩ := inRanges_iff.1 h
  exact wordCode_of_range (ht range hr) h₁ h₂

theorem alphabetic_rows_wordRange :
    ∀ range ∈ alphabeticRanges, isWordRange range.1 range.2 = true := by
  decide +kernel

theorem numeric_rows_wordRange :
    ∀ range ∈ numericRanges, isWordRange range.1 range.2 = true := by
  decide +kernel

theorem wordChar_of_alphanumeric {c : Char} (h : isAlphanumeric c = true) :
    isWordChar c = true := by
  rcases Bool.or_eq_true_iff.1 h with h | h
  · exact wordChar_of_inRanges alphabetic_rows_wordRange h
  · exact wordChar_of_inRanges numeric_rows_wordRange h

def hasWordImages (expansions : List (Nat × List Nat)) (table : List (Nat × Nat × Nat × Nat)) :
    Bool :=
  (expansions.all fun row => row.2.all fun n => isWordRange n n && isCharRange n n) &&
    table.all fun run =>
      isWordRange run.2.2.2 (run.2.2.2 + (run.2.1 - run.1)) &&
        isCharRange run.2.2.2 (run.2.2.2 + (run.2.1 - run.1))

theorem uppercase_hasWordImages : hasWordImages uppercaseExpansions uppercaseMap = true := by
  decide +kernel

theorem lowercase_hasWordImages : hasWordImages lowercaseExpansions lowercaseMap = true := by
  decide +kernel

theorem wordChar_ofNat {first last n : Nat} (hw : isWordRange first last = true)
    (hc : isCharRange first last = true) (h₁ : first ≤ n) (h₂ : n ≤ last) :
    isWordChar (Char.ofNat n) = true := by
  rw [isWordChar, toNat_ofNat hc h₁ h₂]
  exact wordCode_of_range hw h₁ h₂

theorem lookup_mem {k : Nat} {rows : List (Nat × List Nat)} {image : List Nat}
    (h : rows.lookup k = some image) : ∃ row ∈ rows, row.2 = image := by
  induction rows with
  | nil => simp at h
  | cons row rest ih =>
    obtain ⟨key, value⟩ := row
    rw [List.lookup_cons] at h
    cases hk : k == key with
    | true =>
      rw [hk] at h
      exact ⟨_, List.mem_cons_self, Option.some.inj h⟩
    | false =>
      rw [hk] at h
      obtain ⟨row, hr, he⟩ := ih h
      exact ⟨row, List.mem_cons_of_mem _ hr, he⟩

theorem fullyMapped_wordChar {expansions : List (Nat × List Nat)}
    {table : List (Nat × Nat × Nat × Nat)} (ht : hasWordImages expansions table = true)
    {c d : Char} (hc : isWordChar c = true) (hd : d ∈ fullyMapped expansions table c) :
    isWordChar d = true := by
  simp only [hasWordImages, Bool.and_eq_true, List.all_eq_true] at ht
  unfold fullyMapped at hd
  split at hd
  · rename_i image hl
    obtain ⟨row, hr, rfl⟩ := lookup_mem hl
    obtain ⟨n, hn, rfl⟩ := List.mem_map.1 hd
    have := ht.1 row hr n hn
    exact wordChar_ofNat this.1 this.2 (Nat.le_refl n) (Nat.le_refl n)
  · rw [List.mem_singleton.1 hd]
    unfold mapped
    split
    · rename_i run hf
      have hr := ht.2 run (List.mem_of_find?_eq_some hf)
      have hin := List.find?_some hf
      simp only [inRun, Bool.and_eq_true, decide_eq_true_eq] at hin
      exact wordChar_ofNat hr.1 hr.2 (by omega) (by omega)
    · exact hc

theorem lowercaseAfter_wordChar {before word : List Char}
    (h : ∀ c ∈ word, isWordChar c = true) :
    ∀ d ∈ lowercaseAfter before word, isWordChar d = true := by
  induction word generalizing before with
  | nil => simp [lowercaseAfter]
  | cons c rest ih =>
    intro d hd
    rcases List.mem_append.1 hd with hd | hd
    · split at hd
      · rw [List.mem_singleton.1 hd, lowerSigma]
        split <;> decide
      · exact fullyMapped_wordChar lowercase_hasWordImages (h c (by simp)) hd
    · exact ih (fun e he => h e (by simp [he])) d hd

theorem capitalize_wordChar {word : List Char} (h : ∀ c ∈ word, isWordChar c = true) :
    ∀ d ∈ capitalize word, isWordChar d = true := by
  cases word with
  | nil => simp [capitalize]
  | cons c rest =>
    intro d hd
    rcases List.mem_append.1 hd with hd | hd
    · exact fullyMapped_wordChar uppercase_hasWordImages (h c (by simp)) hd
    · exact h d (by simp [hd])

end SwiftDecl.Text

namespace SwiftDecl.Name
open SwiftDecl.Text

def isNameChar (c : Char) : Bool :=
  isWordChar c || c == '_' || c == '`'

theorem prepend_alphanumeric {c : Char} {ws : List (List Char)} (hc : isAlphanumeric c = true)
    (h : ∀ w ∈ ws, ∀ d ∈ w, isAlphanumeric d = true) :
    ∀ w ∈ prepend c ws, ∀ d ∈ w, isAlphanumeric d = true := by
  cases ws with
  | nil => simpa [prepend] using hc
  | cons w ws =>
    intro v hv d hd
    rcases List.mem_cons.1 hv with rfl | hv
    · rcases List.mem_cons.1 hd with rfl | hd
      · exact hc
      · exact h w (by simp) d hd
    · exact h v (by simp [hv]) d hd

theorem words_alphanumeric (text : List Char) :
    ∀ w ∈ words text, ∀ c ∈ w, isAlphanumeric c = true := by
  induction text with
  | nil => simp [words]
  | cons c rest ih =>
    unfold words
    split
    · rename_i hc
      split
      · exact prepend_alphanumeric hc ih
      · intro w hw d hd
        rcases List.mem_cons.1 hw with rfl | hw
        · rw [List.mem_singleton.1 hd]
          exact hc
        · exact ih w hw d hd
    · exact ih

theorem words_wordChar (text : List Char) : ∀ w ∈ words text, ∀ c ∈ w, isWordChar c = true :=
  fun w hw c hc => wordChar_of_alphanumeric (words_alphanumeric text w hw c hc)

theorem pascalCase_wordChar (text : List Char) : ∀ c ∈ pascalCase text, isWordChar c = true := by
  intro c hc
  obtain ⟨w, hw, hc⟩ := List.mem_flatMap.1 hc
  exact capitalize_wordChar (words_wordChar text w hw) c hc

theorem camelCase_wordChar (text : List Char) : ∀ c ∈ camelCase text, isWordChar c = true := by
  have h := words_wordChar text
  intro c hc
  unfold camelCase at hc
  split at hc
  · simp at hc
  · rename_i first more hw
    rw [hw] at h
    rcases List.mem_append.1 hc with hc | hc
    · exact lowercaseAfter_wordChar (h first (by simp)) c hc
    · obtain ⟨w, hm, hc⟩ := List.mem_flatMap.1 hc
      exact capitalize_wordChar (h w (by simp [hm])) c hc

theorem finish_nameChar {name : String} (h : ∀ c ∈ name.toList, isWordChar c = true) :
    ∀ c ∈ (swift.finish name).toList, isNameChar c = true := by
  have hn : ∀ c ∈ name.toList, isNameChar c = true := fun c hc => by simp [isNameChar, h c hc]
  unfold Convention.finish
  split
  · exact List.all_eq_true.1 (by decide +kernel)
  · split
    · intro c hc
      rw [String.toList_append] at hc
      rcases List.mem_append.1 hc with hc | hc
      · rw [show c = '_' by simpa using hc]
        decide
      · exact hn c hc
    · unfold Convention.safe
      split
      · intro c hc
        simp only [swift, backticked, String.toList_append, List.mem_append] at hc
        rcases hc with (hc | hc) | hc
        · rw [show c = '`' by simpa using hc]
          decide
        · exact hn c hc
        · rw [show c = '`' by simpa using hc]
          decide
      · exact hn

theorem typeName_nameChar (raw : String) : ∀ c ∈ (typeName raw).toList, isNameChar c = true := by
  apply finish_nameChar
  intro c hc
  exact pascalCase_wordChar raw.toList c (by simpa [swift, toPascalCase] using hc)

theorem memberName_nameChar (raw : String) :
    ∀ c ∈ (memberName raw).toList, isNameChar c = true := by
  apply finish_nameChar
  intro c hc
  exact camelCase_wordChar raw.toList c (by simpa [swift, toCamelCase] using hc)

end SwiftDecl.Name

namespace SwiftDecl
open SwiftDecl.Name

theorem mem_intercalate {sep : List Char} {parts : List (List Char)} {c : Char}
    (h : c ∈ sep.intercalate parts) : c ∈ sep ∨ ∃ part ∈ parts, c ∈ part := by
  induction parts with
  | nil => simp at h
  | cons part rest ih =>
    cases rest with
    | nil => exact Or.inr ⟨part, by simp, by simpa using h⟩
    | cons next more =>
      rw [List.intercalate_cons_cons, List.mem_append, List.mem_append] at h
      rcases h with (h | h) | h
      · exact Or.inr ⟨part, by simp, h⟩
      · exact Or.inl h
      · rcases ih h with h | ⟨p, hp, h⟩
        · exact Or.inl h
        · exact Or.inr ⟨p, List.mem_cons_of_mem _ hp, h⟩

theorem declaredName_nameChar (d : TypeDecl) :
    ∀ c ∈ d.typeName.toList, isNameChar c = true ∨ c = '.' := by
  intro c hc
  unfold TypeDecl.typeName at hc
  split at hc
  · rw [String.toList_intercalate] at hc
    rcases mem_intercalate hc with h | ⟨part, hp, h⟩
    · exact Or.inr (by simpa using h)
    · simp only [List.map_map, List.mem_map, Function.comp_apply] at hp
      obtain ⟨segment, _, rfl⟩ := hp
      exact Or.inl (typeName_nameChar _ c h)
  · exact Or.inl (typeName_nameChar _ c hc)

end SwiftDecl
