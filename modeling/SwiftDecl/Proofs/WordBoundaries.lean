import SwiftDecl.Proofs.Ascii
import SwiftDecl.Proofs.SafeNames

/-!
# Word boundaries

The words of a text are its alphanumeric characters in their order, cut where a
rule about three neighbours says so: a word begins at an alphanumeric character
that is the first one, that does not follow another, or that is a capital the
letter case sets apart. The words that a scan from left to right finds are the
same, and the scan never looks back from the first character. In ASCII, a name
in Pascal or camel case differs from its raw text in separators and letter case
only.
-/

set_option autoImplicit false

namespace SwiftDecl.Name
open SwiftDecl.Text

/-- Puts an open word in front of the words that follow it, or of the first one
if the two are one. -/
def attach (current : List Char) (joins : Bool) (following : List (List Char)) :
    List (List Char) :=
  if joins then
    match following with
    | [] => [current]
    | word :: more => (current ++ word) :: more
  else current :: following

theorem words_cons_of_alphanumeric {c : Char} (h : isAlphanumeric c = true) (rest : List Char) :
    words (c :: rest) = attach [c] (joinsNext c rest) (words rest) := by
  rw [words, if_pos h]
  unfold attach
  cases words rest <;> rfl

theorem words_cons_of_not {c : Char} (h : isAlphanumeric c = false) (rest : List Char) :
    words (c :: rest) = words rest := by
  simp [words, h]

theorem flatten_attach (current : List Char) (joins : Bool) (following : List (List Char)) :
    (attach current joins following).flatten = current ++ following.flatten := by
  cases joins <;> cases following <;> simp [attach]

theorem words_flatten (text : List Char) : (words text).flatten = text.filter isAlphanumeric := by
  induction text with
  | nil => rfl
  | cons c rest ih =>
    by_cases hc : isAlphanumeric c = true
    · rw [words_cons_of_alphanumeric hc, flatten_attach, ih, List.filter_cons_of_pos hc]
      rfl
    · rw [words_cons_of_not (by simpa using hc), ih, List.filter_cons_of_neg hc]

/-- At this place of the text the word is next, and all the words before it are
behind. -/
structure StandsAt (text : List Char) (i : Nat) (before : List (List Char)) (word : List Char) :
    Prop where
  behind : before.flatten = (text.take i).filter isAlphanumeric
  next : word <+: text.drop i

def BeginsAt (text : List Char) (i : Nat) : Prop :=
  ∃ before word after, words text = before ++ word :: after ∧ StandsAt text i before word

def IsBoundary (text : List Char) (i : Nat) : Prop :=
  ∃ c, text[i]? = some c ∧ isAlphanumeric c = true ∧
    (i = 0 ∨ ∃ before, text[i - 1]? = some before ∧
      (isAlphanumeric before = false ∨
        isUppercase c = true ∧
          (isLowercase before = true ∨ isNumeric before = true ∨
            isUppercase before = true ∧
              ∃ after, text[i + 1]? = some after ∧ isLowercase after = true)))

theorem words_head {c : Char} (h : isAlphanumeric c = true) (rest : List Char) :
    ∃ word more, words (c :: rest) = (c :: word) :: more ∧ word <+: rest := by
  induction rest generalizing c with
  | nil => exact ⟨[], [], by simp [words, h, joinsNext], List.prefix_refl _⟩
  | cons d rest ih =>
    rw [words_cons_of_alphanumeric h]
    cases hj : joinsNext c (d :: rest) with
    | false => exact ⟨[], words (d :: rest), rfl, List.nil_prefix⟩
    | true =>
      have hd : isAlphanumeric d = true := by
        simp only [joinsNext, Bool.and_eq_true] at hj
        exact hj.1
      obtain ⟨word, more, hw, hp⟩ := ih hd
      rw [hw]
      exact ⟨d :: word, more, rfl, (List.prefix_cons_inj d).2 hp⟩

theorem words_cons_cases {c : Char} (hc : isAlphanumeric c = true) (rest : List Char) :
    joinsNext c rest = false ∧ words (c :: rest) = [c] :: words rest ∨
    joinsNext c rest = true ∧ ∃ d later first more, rest = d :: later ∧ isAlphanumeric d = true ∧
      words rest = (d :: first) :: more ∧ words (c :: rest) = (c :: d :: first) :: more := by
  rw [words_cons_of_alphanumeric hc]
  cases hj : joinsNext c rest with
  | false => exact Or.inl ⟨rfl, rfl⟩
  | true =>
    cases rest with
    | nil => exact absurd hj (by simp [joinsNext])
    | cons d later =>
      have hd : isAlphanumeric d = true := by
        simp only [joinsNext, Bool.and_eq_true] at hj
        exact hj.1
      obtain ⟨first, more, hw, -⟩ := words_head hd later
      exact Or.inr ⟨rfl, d, later, first, more, rfl, hd, hw, by rw [hw]; rfl⟩

theorem isBoundary_zero (c : Char) (rest : List Char) :
    IsBoundary (c :: rest) 0 ↔ isAlphanumeric c = true := by
  simp [IsBoundary]

theorem startsWord_iff {before c : Char} {after : Option Char} :
    startsWord before c after = true ↔ isUppercase c = true ∧
      (isLowercase before = true ∨ isNumeric before = true ∨
        isUppercase before = true ∧ ∃ d, after = some d ∧ isLowercase d = true) := by
  simp [startsWord, Option.any_eq_true, or_assoc]

theorem isBoundary_succ (c : Char) (rest : List Char) (i : Nat) :
    IsBoundary (c :: rest) (i + 1) ↔
      IsBoundary rest i ∧ (i = 0 → ¬(isAlphanumeric c = true ∧ joinsNext c rest = true)) := by
  cases i with
  | succ j => simp [IsBoundary]
  | zero =>
    cases rest with
    | nil => simp [IsBoundary]
    | cons d more =>
      have hrule : IsBoundary (c :: d :: more) 1 ↔ isAlphanumeric d = true ∧
          (isAlphanumeric c = false ∨ startsWord c d more.head? = true) := by
        simp [IsBoundary, startsWord_iff, List.head?_eq_getElem?]
      rw [hrule, isBoundary_zero, joinsNext]
      cases isAlphanumeric c <;> cases isAlphanumeric d <;>
        cases startsWord c d more.head? <;> simp

theorem beginsAt_zero (c : Char) (rest : List Char) :
    BeginsAt (c :: rest) 0 ↔ isAlphanumeric c = true := by
  constructor
  · rintro ⟨before, word, after, hw, -, hnext⟩
    have hmem : word ∈ words (c :: rest) := by simp [hw]
    cases hword : word with
    | nil => exact absurd hword (words_ne_nil _ word hmem)
    | cons d more =>
      rw [hword, List.drop_zero, List.cons_prefix_cons] at hnext
      rw [← hnext.1]
      exact words_alphanumeric _ word hmem d (by simp [hword])
  · intro hc
    obtain ⟨word, more, hw, hp⟩ := words_head hc rest
    exact ⟨[], c :: word, more, hw, rfl, (List.prefix_cons_inj c).2 hp⟩

theorem standsAt_succ_of_not {c : Char} (hc : isAlphanumeric c = false) {rest : List Char} {i : Nat}
    {before : List (List Char)} {word : List Char} :
    StandsAt (c :: rest) (i + 1) before word ↔ StandsAt rest i before word := by
  constructor
  · rintro ⟨hb, hn⟩
    exact ⟨by simpa [hc] using hb, hn⟩
  · rintro ⟨hb, hn⟩
    exact ⟨by simpa [hc] using hb, hn⟩

theorem standsAt_succ {c : Char} (hc : isAlphanumeric c = true) {rest : List Char} {i : Nat}
    {first word : List Char} {before : List (List Char)} :
    StandsAt (c :: rest) (i + 1) ((c :: first) :: before) word ↔
      (first ++ before.flatten = (rest.take i).filter isAlphanumeric ∧ word <+: rest.drop i) := by
  constructor
  · rintro ⟨hb, hn⟩
    exact ⟨by simpa [hc] using hb, hn⟩
  · rintro ⟨hb, hn⟩
    exact ⟨by simpa [hc] using hb, hn⟩

theorem beginsAt_succ_of_not {c : Char} (hc : isAlphanumeric c = false) (rest : List Char)
    (i : Nat) : BeginsAt (c :: rest) (i + 1) ↔ BeginsAt rest i := by
  simp only [BeginsAt, words_cons_of_not hc, standsAt_succ_of_not hc]

theorem beginsAt_succ_iff {c : Char} (hc : isAlphanumeric c = true) {rest first : List Char}
    {more : List (List Char)} (hw : words (c :: rest) = (c :: first) :: more) (i : Nat) :
    BeginsAt (c :: rest) (i + 1) ↔ ∃ before word after, more = before ++ word :: after ∧
      first ++ before.flatten = (rest.take i).filter isAlphanumeric ∧ word <+: rest.drop i := by
  constructor
  · rintro ⟨before, word, after, hwords, hstands⟩
    cases before with
    | nil => exact absurd hstands.behind (by simp [hc])
    | cons front before =>
      rw [hw] at hwords
      obtain ⟨rfl, hmore⟩ := List.cons.inj hwords
      exact ⟨before, word, after, hmore, (standsAt_succ hc).1 hstands⟩
  · rintro ⟨before, word, after, hmore, hstands⟩
    exact ⟨(c :: first) :: before, word, after, by rw [hw, hmore]; rfl,
      (standsAt_succ hc).2 hstands⟩

theorem beginsAt_succ (c : Char) (rest : List Char) (i : Nat) :
    BeginsAt (c :: rest) (i + 1) ↔
      BeginsAt rest i ∧ (i = 0 → ¬(isAlphanumeric c = true ∧ joinsNext c rest = true)) := by
  cases hc : isAlphanumeric c with
  | false => simp [beginsAt_succ_of_not hc]
  | true =>
    rcases words_cons_cases hc rest with
      ⟨hj, hwords⟩ | ⟨hj, d, later, first, more, rfl, hd, hrest, hwords⟩
    · rw [beginsAt_succ_iff hc hwords, hj]
      simp only [Bool.false_eq_true, and_false, not_false_eq_true, implies_true, and_true]
      constructor
      · rintro ⟨before, word, after, hw, hb, hn⟩
        exact ⟨before, word, after, hw, hb, hn⟩
      · rintro ⟨before, word, after, hw, hb, hn⟩
        exact ⟨before, word, after, hw, hb, hn⟩
    · rw [beginsAt_succ_iff hc hwords]
      constructor
      · rintro ⟨before, word, after, hw, hb, hn⟩
        refine ⟨⟨(d :: first) :: before, word, after, by rw [hrest, hw]; rfl, hb, hn⟩, ?_⟩
        rintro rfl
        exact absurd hb (by simp)
      · rintro ⟨⟨before, word, after, hw, hb, hn⟩, hi⟩
        have hpos : i ≠ 0 := fun h => hi h ⟨rfl, hj⟩
        cases before with
        | nil =>
          -- The first character behind `c` is in front of this place.
          obtain ⟨j, rfl⟩ := Nat.exists_eq_succ_of_ne_zero hpos
          exact absurd hb (by simp [hd])
        | cons front before =>
          rw [hrest] at hw
          obtain ⟨rfl, hmore⟩ := List.cons.inj hw
          exact ⟨before, word, after, hmore, hb, hn⟩

theorem beginsAt_iff (text : List Char) (i : Nat) : BeginsAt text i ↔ IsBoundary text i := by
  induction text generalizing i with
  | nil => simp [BeginsAt, IsBoundary, words]
  | cons c rest ih =>
    cases i with
    | zero => rw [beginsAt_zero, isBoundary_zero]
    | succ i => rw [beginsAt_succ, isBoundary_succ, ih]

theorem words_stand {text : List Char} {before after : List (List Char)} {word : List Char}
    (h : words text = before ++ word :: after) : ∃ i, StandsAt text i before word := by
  induction text generalizing before with
  | nil => simp [words] at h
  | cons c rest ih =>
    cases hc : isAlphanumeric c with
    | false =>
      rw [words_cons_of_not hc] at h
      obtain ⟨i, hi⟩ := ih h
      exact ⟨i + 1, (standsAt_succ_of_not hc).2 hi⟩
    | true =>
      cases before with
      | nil =>
        obtain ⟨first, more, hw, hp⟩ := words_head hc rest
        rw [hw] at h
        obtain ⟨rfl, -⟩ := List.cons.inj h
        exact ⟨0, rfl, (List.prefix_cons_inj c).2 hp⟩
      | cons front before =>
        -- What `c` does to the first word is no matter to a word behind that one.
        rcases words_cons_cases hc rest with
          ⟨-, hwords⟩ | ⟨-, d, later, first, more, rfl, -, hrest, hwords⟩
        · rw [hwords] at h
          obtain ⟨rfl, hmore⟩ := List.cons.inj h
          obtain ⟨i, hb, hn⟩ := ih hmore
          exact ⟨i + 1, (standsAt_succ hc).2 ⟨hb, hn⟩⟩
        · rw [hwords] at h
          obtain ⟨rfl, hmore⟩ := List.cons.inj h
          have hnext : words (d :: later) = ((d :: first) :: before) ++ word :: after := by
            rw [hrest, hmore]
            rfl
          obtain ⟨i, hb, hn⟩ := ih hnext
          exact ⟨i + 1, (standsAt_succ hc).2 ⟨hb, hn⟩⟩

def close (found : List (List Char)) (current : List Char) : List (List Char) :=
  if current = [] then found else found ++ [current]

def charBefore? (text : List Char) (i : Nat) : Option Char :=
  if i = 0 then none else text[i - 1]?

/-- Finds words from left to right, from place `i` on with `current` as the open
word. In an open word a capital makes the scan look at the character before it,
and the scan fails if there is none. -/
def scanFrom (text : List Char) (i : Nat) (found : List (List Char)) (current : List Char) :
    List Char → Option (List (List Char))
  | [] => some (close found current)
  | c :: rest =>
    if isAlphanumeric c then
      if isUppercase c && current ≠ [] then
        match charBefore? text i with
        | none => none
        | some before =>
          if startsWord before c text[i + 1]? then
            scanFrom text (i + 1) (close found current) [c] rest
          else scanFrom text (i + 1) found (current ++ [c]) rest
      else scanFrom text (i + 1) found (current ++ [c]) rest
    else scanFrom text (i + 1) (close found current) [] rest

def scan (text : List Char) : Option (List (List Char)) :=
  scanFrom text 0 [] [] text

theorem attach_attach (current : List Char) (c : Char) (joins : Bool)
    (following : List (List Char)) :
    attach current true (attach [c] joins following) =
      attach (current ++ [c]) joins following := by
  cases joins <;> cases following <;> simp [attach]

/-- From any place on, the scan finds the words of what is left, and goes on with
an open word as the character before the place demands. -/
theorem scanFrom_eq (rest passed : List Char) (found : List (List Char)) :
    scanFrom (passed ++ rest) passed.length found [] rest = some (found ++ words rest) ∧
    ∀ (current front : List Char) (before : Char), current ≠ [] → passed = front ++ [before] →
      scanFrom (passed ++ rest) passed.length found current rest =
        some (found ++ attach current (joinsNext before rest) (words rest)) := by
  induction rest generalizing passed found with
  | nil =>
    constructor
    · simp [scanFrom, close, words]
    · intro current front before hcurrent _
      simp [scanFrom, close, hcurrent, words, attach, joinsNext]
  | cons c rest ih =>
    have hclosed : ∀ found, scanFrom (passed ++ c :: rest) (passed.length + 1) found [] rest =
        some (found ++ words rest) := by
      intro found
      simpa using (ih (passed ++ [c]) found).1
    have hopen : ∀ found current, current ≠ [] →
        scanFrom (passed ++ c :: rest) (passed.length + 1) found current rest =
          some (found ++ attach current (joinsNext c rest) (words rest)) := by
      intro found current hcurrent
      simpa using (ih (passed ++ [c]) found).2 current passed c hcurrent rfl
    cases hc : isAlphanumeric c with
    | false =>
      simp only [scanFrom, hc, hclosed, words_cons_of_not hc]
      constructor
      · simp [close]
      · intro current front before hcurrent _
        simp [close, hcurrent, attach, joinsNext, hc]
    | true =>
      rw [words_cons_of_alphanumeric hc]
      constructor
      · simp [scanFrom, hc, hopen]
      · intro current front before hcurrent hfront
        have hbefore : charBefore? (passed ++ c :: rest) passed.length = some before := by
          simp [charBefore?, hfront]
        have hafter : (passed ++ c :: rest)[passed.length + 1]? = rest.head? := by
          simp [List.getElem?_append_right, List.head?_eq_getElem?]
        have hjoins : joinsNext before (c :: rest) = !startsWord before c rest.head? := by
          simp [joinsNext, hc]
        simp only [scanFrom, hc, if_true, hbefore, hafter, hjoins]
        -- Either `c` starts a word and the open one is closed, or it joins that one.
        cases hs : startsWord before c rest.head? with
        | true =>
          have hupper : isUppercase c = true := (startsWord_iff.1 hs).1
          simp [hupper, hcurrent, close, hopen, attach]
        | false =>
          rw [Bool.not_false, attach_attach]
          simp [hopen]

theorem scan_eq (text : List Char) : scan text = some (words text) :=
  (scanFrom_eq text [] []).1

section Ascii

theorem capitalize_caseless {word : List Char} (h : ∀ c ∈ word, c.toNat < 128) :
    (capitalize word).map Char.toLower = word.map Char.toLower := by
  cases word with
  | nil => rfl
  | cons c rest =>
    rw [capitalize_ascii (h c (by simp)), List.map_cons, List.map_cons, toLower_toUpper]

theorem lowercase_caseless {word : List Char} (h : ∀ c ∈ word, c.toNat < 128) :
    (lowercase word).map Char.toLower = word.map Char.toLower := by
  rw [lowercase_ascii h, List.map_map]
  exact List.map_congr_left fun c _ => toLower_toLower c

theorem words_ascii {text : List Char} (h : ∀ c ∈ text, c.toNat < 128) :
    ∀ word ∈ words text, ∀ c ∈ word, c.toNat < 128 := by
  intro word hw c hc
  have hmem : c ∈ text.filter isAlphanumeric := by
    rw [← words_flatten]
    exact List.mem_flatten.2 ⟨word, hw, hc⟩
  exact h c (List.mem_filter.1 hmem).1

theorem capitalized_caseless {ws : List (List Char)} (h : ∀ word ∈ ws, ∀ c ∈ word, c.toNat < 128) :
    (ws.flatMap capitalize).map Char.toLower = ws.flatten.map Char.toLower := by
  induction ws with
  | nil => rfl
  | cons word rest ih =>
    rw [List.flatMap_cons, List.map_append, capitalize_caseless (h word (by simp)),
      ih fun w hw => h w (List.mem_cons_of_mem _ hw), List.flatten_cons, List.map_append]

theorem pascalCase_caseless {text : List Char} (h : ∀ c ∈ text, c.toNat < 128) :
    (pascalCase text).map Char.toLower = (text.filter isAlphanumeric).map Char.toLower := by
  rw [pascalCase, capitalized_caseless (words_ascii h), words_flatten]

theorem camelCase_caseless {text : List Char} (h : ∀ c ∈ text, c.toNat < 128) :
    (camelCase text).map Char.toLower = (text.filter isAlphanumeric).map Char.toLower := by
  have hwords := words_ascii h
  rw [← words_flatten, camelCase]
  cases hw : words text with
  | nil => rfl
  | cons first more =>
    rw [hw] at hwords
    simp only [List.map_append, List.flatten_cons]
    rw [lowercase_caseless (hwords first (by simp)),
      capitalized_caseless fun w hm => hwords w (List.mem_cons_of_mem _ hm)]

end Ascii

/-- The words of a text are made of its alphanumeric characters, all of them and
in their order. Each word is in the text in one piece, and one begins exactly
where the neighbouring characters say so. They are the words that a scan from
left to right finds, which has a character to look back at whenever it needs one.
Of an ASCII text, Pascal and camel case change the separators and the case of
letters only. -/
theorem words_at_boundaries (raw : String) :
    let text := raw.toList
    (words text).flatten = text.filter isAlphanumeric ∧
    (∀ word ∈ words text, word ≠ []) ∧
    (∀ before word after, words text = before ++ word :: after →
      ∃ i, StandsAt text i before word) ∧
    (∀ i, BeginsAt text i ↔ IsBoundary text i) ∧
    scan text = some (words text) ∧
    ((∀ c ∈ text, c.toNat < 128) →
      (toPascalCase raw).toList.map Char.toLower =
        (text.filter isAlphanumeric).map Char.toLower ∧
      (toCamelCase raw).toList.map Char.toLower =
        (text.filter isAlphanumeric).map Char.toLower) := by
  intro text
  refine ⟨words_flatten text, words_ne_nil text, fun _ _ _ => words_stand, beginsAt_iff text,
    scan_eq text, fun h => ?_⟩
  rw [toPascalCase, toCamelCase, String.toList_ofList, String.toList_ofList]
  exact ⟨pascalCase_caseless h, camelCase_caseless h⟩

/-- A separator, a run of capitals and a digit in one name. -/
theorem words_at_boundaries_server :
    (∀ c ∈ "my_HTTPServer2Go".toList, c.toNat < 128) ∧
    words "my_HTTPServer2Go".toList =
      ["my".toList, "HTTP".toList, "Server2".toList, "Go".toList] ∧
    scan "my_HTTPServer2Go".toList = some (words "my_HTTPServer2Go".toList) ∧
    (toCamelCase "my_HTTPServer2Go").toList.map Char.toLower = "myhttpserver2go".toList := by
  have hascii : ∀ c ∈ "my_HTTPServer2Go".toList, c.toNat < 128 := by simp
  obtain ⟨-, -, -, -, hscan, hcase⟩ := words_at_boundaries "my_HTTPServer2Go"
  refine ⟨hascii, by decide +kernel, hscan, ?_⟩
  rw [(hcase hascii).2]
  decide +kernel

end SwiftDecl.Name
