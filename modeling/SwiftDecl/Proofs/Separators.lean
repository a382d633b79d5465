import SwiftDecl.Proofs.WordBoundaries

/-!
# Separators

A character that is not alphanumeric splits the words of a text: the words are
those in front of it and those behind it, whatever the two parts are. Whether a
word ends somewhere depends on one character further on, so a separator there
must decide as the end of the text does. It does, because small letters are
alphanumeric; and within a word nothing but the lack of a small letter is asked
of the character behind it, so a word cut out of its text is still one word.
-/

set_option autoImplicit false

namespace SwiftDecl.Text

/-- Each run lies in the first range that does not end before it. With the rows
of both tables in order this is one walk along them. -/
def runsLieIn : List (Nat × Nat × Nat) → List (Nat × Nat) → Bool
  | [], _ => true
  | run :: rest, ranges =>
    match ranges.dropWhile fun range => decide (range.2 < run.2.1) with
    | [] => false
    | range :: others => decide (range.1 ≤ run.1) && runsLieIn rest (range :: others)

theorem runsLieIn_covers {runs : List (Nat × Nat × Nat)} {ranges : List (Nat × Nat)}
    (h : runsLieIn runs ranges = true) :
    ∀ run ∈ runs, ∃ range ∈ ranges, run.2.1 ≤ range.2 ∧ range.1 ≤ run.1 := by
  induction runs generalizing ranges with
  | nil => simp
  | cons run rest ih =>
    unfold runsLieIn at h
    split at h
    · exact absurd h (by simp)
    · rename_i range others hdrop
      obtain ⟨hfirst, hrest⟩ := Bool.and_eq_true_iff.1 h
      have hsuffix : range :: others <:+ ranges := hdrop ▸ List.dropWhile_suffix _
      have hlast : run.2.1 ≤ range.2 := by
        simpa [hdrop] using List.head?_dropWhile_not (fun range => range.2 < run.2.1) ranges
      refine List.forall_mem_cons.2 ⟨⟨range, hsuffix.subset (by simp), hlast, ?_⟩, ?_⟩
      · exact of_decide_eq_true hfirst
      · intro later hl
        obtain ⟨cover, hc, hin⟩ := ih hrest later hl
        exact ⟨cover, hsuffix.subset hc, hin⟩

theorem lowercase_rows_alphabetic :
    ∀ run ∈ lowercaseRuns, ∃ range ∈ alphabeticRanges, run.2.1 ≤ range.2 ∧ range.1 ≤ run.1 :=
  runsLieIn_covers (by decide +kernel)

theorem alphanumeric_of_lowercase {c : Char} (h : isLowercase c = true) :
    isAlphanumeric c = true := by
  obtain ⟨run, hr, hin⟩ := inRuns_iff.1 h
  obtain ⟨range, hm, hlast, hfirst⟩ := lowercase_rows_alphabetic run hr
  simp only [inRun, Bool.and_eq_true, decide_eq_true_eq] at hin
  have halpha : isAlphabetic c = true := inRanges_iff.2 ⟨range, hm, by omega, by omega⟩
  rw [isAlphanumeric, halpha, Bool.true_or]

end SwiftDecl.Text

namespace SwiftDecl.Name
open SwiftDecl.Text

theorem startsWord_separator {before c separator : Char} (h : isAlphanumeric separator = false) :
    startsWord before c (some separator) = startsWord before c none := by
  have hlower : isLowercase separator = false := by
    by_contra hl
    rw [alphanumeric_of_lowercase (by simpa using hl)] at h
    exact absurd h (by decide)
  simp [startsWord, hlower]

theorem joinsNext_append {separator : Char} (h : isAlphanumeric separator = false) (c : Char)
    (front back : List Char) :
    joinsNext c (front ++ separator :: back) = joinsNext c front := by
  cases front with
  | nil => simp [joinsNext, h]
  | cons d more =>
    cases more with
    | nil => simp [joinsNext, startsWord_separator h]
    | cons e more => simp [joinsNext]

theorem words_append {separator : Char} (h : isAlphanumeric separator = false)
    (front back : List Char) :
    words (front ++ separator :: back) = words front ++ words back := by
  induction front with
  | nil => exact words_cons_of_not h back
  | cons c rest ih =>
    cases hc : isAlphanumeric c with
    | false => rw [List.cons_append, words_cons_of_not hc, words_cons_of_not hc, ih]
    | true =>
      rw [List.cons_append, words_cons_of_alphanumeric hc, joinsNext_append h, ih]
      rcases words_cons_cases hc rest with
        ⟨hj, hwords⟩ | ⟨hj, d, later, first, more, rfl, -, hrest, hwords⟩
      · rw [hwords, hj]
        rfl
      · rw [hwords, hj, hrest]
        rfl

theorem words_of_separators {front : List Char} (h : ∀ c ∈ front, isAlphanumeric c = false)
    (back : List Char) : words (front ++ back) = words back := by
  induction front with
  | nil => rfl
  | cons c rest ih =>
    rw [List.cons_append, words_cons_of_not (h c (by simp)),
      ih fun d hd => h d (List.mem_cons_of_mem _ hd)]

theorem words_append_append {separators : List Char} (hne : separators ≠ [])
    (h : ∀ c ∈ separators, isAlphanumeric c = false) (front back : List Char) :
    words (front ++ (separators ++ back)) = words front ++ words back := by
  obtain ⟨c, more, rfl⟩ := List.exists_cons_of_ne_nil hne
  rw [List.cons_append, words_append (h c (by simp)),
    words_of_separators fun d hd => h d (List.mem_cons_of_mem _ hd)]

theorem startsWord_of_none {before c : Char} (h : startsWord before c none = true)
    (after : Option Char) : startsWord before c after = true := by
  obtain ⟨hupper, hlower | hnumeric | ⟨_, _, hnone, _⟩⟩ := startsWord_iff.1 h
  · exact startsWord_iff.2 ⟨hupper, Or.inl hlower⟩
  · exact startsWord_iff.2 ⟨hupper, Or.inr (Or.inl hnumeric)⟩
  · exact absurd hnone (by simp)

theorem joinsNext_of_prefix {c d : Char} {part rest : List Char} (hp : part <+: rest)
    (h : joinsNext c (d :: rest) = true) : joinsNext c (d :: part) = true := by
  cases part with
  | nil =>
    simp only [joinsNext, Bool.and_eq_true, Bool.not_eq_true'] at h ⊢
    refine ⟨h.1, ?_⟩
    by_contra hs
    rw [startsWord_of_none (by simpa using hs)] at h
    exact absurd h.2 (by decide)
  | cons e part =>
    obtain ⟨more, rfl⟩ := hp
    exact h

theorem words_word {text word : List Char} (h : word ∈ words text) : words word = [word] := by
  induction text generalizing word with
  | nil => exact absurd h (by simp [words])
  | cons c rest ih =>
    cases hc : isAlphanumeric c with
    | false =>
      rw [words_cons_of_not hc] at h
      exact ih h
    | true =>
      rcases words_cons_cases hc rest with
        ⟨-, hwords⟩ | ⟨hj, d, later, first, more, rfl, hd, hrest, hwords⟩
      · rw [hwords] at h
        rcases List.mem_cons.1 h with rfl | h
        · rw [words_cons_of_alphanumeric hc]
          rfl
        · exact ih h
      · rw [hwords] at h
        rcases List.mem_cons.1 h with rfl | h
        · obtain ⟨front, after, hw, hp⟩ := words_head hd later
          rw [hrest] at hw
          obtain ⟨rfl, -⟩ : first = front ∧ more = after := by simpa using hw
          have hinner : words (d :: first) = [d :: first] := ih (by rw [hrest]; simp)
          rw [words_cons_of_alphanumeric hc, joinsNext_of_prefix hp hj, hinner]
          rfl
        · exact ih (by rw [hrest]; exact List.mem_cons_of_mem _ h)

theorem words_intercalate {separators : List Char} (hne : separators ≠ [])
    (hs : ∀ c ∈ separators, isAlphanumeric c = false) {parts : List (List Char)}
    (hp : ∀ part ∈ parts, words part = [part]) :
    words (separators.intercalate parts) = parts := by
  induction parts with
  | nil => simp [words]
  | cons part rest ih =>
    have hrest := ih fun p hm => hp p (List.mem_cons_of_mem _ hm)
    cases rest with
    | nil => simpa using hp part (by simp)
    | cons next more =>
      rw [List.intercalate_cons_cons, List.append_assoc, words_append_append hne hs,
        hp part (by simp), hrest]
      rfl

def rejoined (separators raw : String) : String :=
  separators.intercalate ((words raw.toList).map String.ofList)

theorem rejoined_toList (separators raw : String) :
    (rejoined separators raw).toList = separators.toList.intercalate (words raw.toList) := by
  simp [rejoined, String.toList_intercalate, Function.comp_def]

/-- A separator splits the words of the text around it, and every word is the
only word of itself. So the words come back when they are joined by other
separators, and with them the text in Pascal and in camel case. -/
theorem words_separated :
    (∀ (front back : List Char) (separator : Char), isAlphanumeric separator = false →
      words (front ++ [separator] ++ back) = words front ++ words back) ∧
    (∀ text, ∀ word ∈ words text, words word = [word]) ∧
    (∀ raw separators : String, separators ≠ "" →
      (∀ c ∈ separators.toList, isAlphanumeric c = false) →
      words (rejoined separators raw).toList = words raw.toList ∧
      toPascalCase (rejoined separators raw) = toPascalCase raw ∧
      toCamelCase (rejoined separators raw) = toCamelCase raw) := by
  refine ⟨fun front back separator h => ?_, fun _ _ => words_word,
    fun raw separators hne hs => ?_⟩
  · rw [List.append_assoc, List.singleton_append, words_append h]
  · have hwords : words (rejoined separators raw).toList = words raw.toList := by
      rw [rejoined_toList]
      exact words_intercalate (by simpa using hne) hs fun _ => words_word
    refine ⟨hwords, ?_, ?_⟩
    · rw [toPascalCase, toPascalCase, pascalCase, pascalCase, hwords]
    · rw [toCamelCase, toCamelCase, camelCase, camelCase, hwords]

/-- Without the separator a small letter cuts the word in front of it. -/
theorem words_separated_acronym :
    isAlphanumeric '-' = false ∧
    words "HTTP-erver".toList = words "HTTP".toList ++ words "erver".toList ∧
    words "HTTPerver".toList = ["HTT".toList, "Perver".toList] ∧
    words "Perver".toList = ["Perver".toList] ∧
    (" - " ≠ "" ∧ ∀ c ∈ " - ".toList, isAlphanumeric c = false) ∧
    words (rejoined " - " "HTTPerver").toList = words "HTTPerver".toList ∧
    toPascalCase (rejoined " - " "HTTPerver") = toPascalCase "HTTPerver" ∧
    toCamelCase (rejoined " - " "HTTPerver") = toCamelCase "HTTPerver" := by
  obtain ⟨hsplit, hword, hjoin⟩ := words_separated
  have hdash : isAlphanumeric '-' = false := by decide +kernel
  have hcut : words "HTTPerver".toList = ["HTT".toList, "Perver".toList] := by decide +kernel
  have hne : " - " ≠ "" := by decide
  have hspace : isAlphanumeric ' ' = false := by decide +kernel
  have hs : ∀ c ∈ " - ".toList, isAlphanumeric c = false := by simp [hspace, hdash]
  exact ⟨hdash, hsplit "HTTP".toList "erver".toList '-' hdash, hcut,
    hword _ "Perver".toList (by rw [hcut]; simp), ⟨hne, hs⟩, hjoin "HTTPerver" " - " hne hs⟩

end SwiftDecl.Name
