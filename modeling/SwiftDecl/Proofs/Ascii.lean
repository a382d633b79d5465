import SwiftDecl.Text.CaseMapping
import SwiftDecl.Text.Numeric
import Mathlib.Tactic.Common

/-!
# ASCII in the tables

In ASCII the classes and case mappings of the tables are the plain ones. What a
table holds of ASCII stands in its first rows, and the rows behind them begin
beyond it.
-/

set_option autoImplicit false

namespace SwiftDecl.Text

section Rows

variable {c : Char}

theorem inRanges_ascii {table : List (Nat × Nat)} (k : Nat)
    (h : ∀ range ∈ table.drop k, 128 ≤ range.1) (hc : c.toNat < 128) :
    inRanges table c = inRanges (table.take k) c := by
  have hdrop : inRanges (table.drop k) c = false := by
    rw [← Bool.not_eq_true, inRanges_iff]
    rintro ⟨range, hr, hfirst, -⟩
    have := h range hr
    omega
  conv => lhs; rw [← List.take_append_drop k table, inRanges_append, hdrop, Bool.or_false]

theorem inRuns_ascii {table : List (Nat × Nat × Nat)} (k : Nat)
    (h : ∀ run ∈ table.drop k, 128 ≤ run.1) (hc : c.toNat < 128) :
    inRuns table c = inRuns (table.take k) c := by
  have hdrop : inRuns (table.drop k) c = false := by
    rw [← Bool.not_eq_true, inRuns_iff]
    rintro ⟨run, hr, hin⟩
    have := h run hr
    simp only [inRun, Bool.and_eq_true, decide_eq_true_eq] at hin
    omega
  conv => lhs; rw [← List.take_append_drop k table, inRuns, List.any_append]
  rw [← inRuns, ← inRuns, hdrop, Bool.or_false]

theorem fullyMapped_ascii {expansions : List (Nat × List Nat)}
    {table : List (Nat × Nat × Nat × Nat)} {row : Nat × Nat × Nat × Nat}
    (he : ∀ expansion ∈ expansions, 128 ≤ expansion.1) (hr : table.head? = some row)
    (ht : ∀ run ∈ table.tail, 128 ≤ run.1) (hc : c.toNat < 128) :
    fullyMapped expansions table c = [mapped [row] c] := by
  have hlookup : expansions.lookup c.toNat = none := by
    rw [List.lookup_eq_none_iff]
    intro expansion hm
    have hkey := he expansion hm
    rw [bne_iff_ne]
    omega
  have htail : table.tail.find? (fun run => inRun (run.1, run.2.1, run.2.2.1) c) = none := by
    rw [List.find?_eq_none]
    intro run hm
    have hfirst := ht run hm
    simp only [inRun, Bool.and_eq_true, decide_eq_true_eq, not_and]
    omega
  obtain ⟨rest, rfl⟩ := List.head?_eq_some_iff.1 hr
  rw [List.tail_cons] at htail
  rw [fullyMapped, hlookup, mapped, mapped, List.find?_cons, List.find?_cons, htail]
  rfl

theorem class_rows_beyond_ascii :
    (∀ run ∈ uppercaseRuns.drop 1, 128 ≤ run.1) ∧ (∀ run ∈ lowercaseRuns.drop 1, 128 ≤ run.1) ∧
    (∀ range ∈ numericRanges.drop 1, 128 ≤ range.1) ∧
    ∀ range ∈ alphabeticRanges.drop 2, 128 ≤ range.1 := by
  decide +kernel

theorem mapping_rows_beyond_ascii :
    (∀ expansion ∈ uppercaseExpansions, 128 ≤ expansion.1) ∧
    (∀ run ∈ uppercaseMap.tail, 128 ≤ run.1) ∧
    (∀ expansion ∈ lowercaseExpansions, 128 ≤ expansion.1) ∧
    ∀ run ∈ lowercaseMap.tail, 128 ≤ run.1 := by
  decide +kernel

end Rows

section LetterCase

-- The tables speak of code points, so here letter case is arithmetic on them.
variable (c : Char)

theorem val_le_iff (d : Char) : c.val ≤ d.val ↔ c.toNat ≤ d.toNat :=
  UInt32.le_iff_toNat_le

@[grind =] theorem isUpper_iff : c.isUpper = true ↔ 65 ≤ c.toNat ∧ c.toNat ≤ 90 := by
  delta Char.isUpper
  rw [decide_eq_true_iff]
  exact and_congr (val_le_iff 'A' c) (val_le_iff c 'Z')

@[grind =] theorem isLower_iff : c.isLower = true ↔ 97 ≤ c.toNat ∧ c.toNat ≤ 122 := by
  delta Char.isLower
  rw [Bool.and_eq_true, decide_eq_true_iff, decide_eq_true_iff]
  exact and_congr (val_le_iff 'a' c) (val_le_iff c 'z')

@[grind =] theorem isDigit_iff : c.isDigit = true ↔ 48 ≤ c.toNat ∧ c.toNat ≤ 57 := by
  delta Char.isDigit
  rw [Bool.and_eq_true, decide_eq_true_iff, decide_eq_true_iff]
  exact and_congr (val_le_iff '0' c) (val_le_iff c '9')

@[grind =] theorem isAlpha_iff : c.isAlpha = true ↔ c.isUpper = true ∨ c.isLower = true := by
  delta Char.isAlpha
  exact Bool.or_eq_true_iff

@[grind =] theorem isAlphanum_iff :
    c.isAlphanum = true ↔ c.isAlpha = true ∨ c.isDigit = true := by
  delta Char.isAlphanum
  exact Bool.or_eq_true_iff

@[grind =] theorem toNat_toUpper :
    c.toUpper.toNat = if c.isLower = true then c.toNat - 32 else c.toNat := by
  have hrange : 'a'.val ≤ c.val ∧ c.val ≤ 'z'.val ↔ c.isLower = true := by
    rw [isLower_iff]
    exact and_congr (val_le_iff 'a' c) (val_le_iff c 'z')
  delta Char.toUpper
  by_cases h : c.isLower = true
  · have hnat := (isLower_iff c).1 h
    rw [if_pos h, dif_pos (hrange.2 h)]
    change (c.val + ('A'.val - 'a'.val)).toNat = _
    rw [UInt32.toNat_add]
    simp only [Char.toNat_val, Char.reduceVal, UInt32.reduceSub, UInt32.reduceToNat]
    omega
  · rw [if_neg h, dif_neg (hrange.not.2 h)]

@[grind =] theorem toNat_toLower :
    c.toLower.toNat = if c.isUpper = true then c.toNat + 32 else c.toNat := by
  have hrange : c.val ≥ 'A'.val ∧ c.val ≤ 'Z'.val ↔ c.isUpper = true := by
    rw [isUpper_iff]
    exact and_congr (val_le_iff 'A' c) (val_le_iff c 'Z')
  delta Char.toLower
  by_cases h : c.isUpper = true
  · have hnat := (isUpper_iff c).1 h
    rw [if_pos h, dif_pos (hrange.2 h)]
    change (c.val + ('a'.val - 'A'.val)).toNat = _
    rw [UInt32.toNat_add]
    simp only [Char.toNat_val, Char.reduceVal, UInt32.reduceSub, UInt32.reduceToNat]
    omega
  · rw [if_neg h, dif_neg (hrange.not.2 h)]

theorem inRun_capitals : inRun (0x41, 0x5A, 1) c = c.isUpper := by
  rw [Bool.eq_iff_iff, isUpper_iff]
  simp [inRun, Nat.mod_one]

theorem inRun_smalls : inRun (0x61, 0x7A, 1) c = c.isLower := by
  rw [Bool.eq_iff_iff, isLower_iff]
  simp [inRun, Nat.mod_one]

theorem mapped_smalls : mapped [(0x61, 0x7A, 1, 0x41)] c = c.toUpper := by
  rw [mapped, List.find?_cons, inRun_smalls, ← Char.ofNat_toNat c.toUpper, toNat_toUpper]
  cases h : c.isLower with
  | false => simp
  | true =>
    have hsmall := (isLower_iff c).1 h
    simp only [if_true]
    congr 1
    omega

theorem mapped_capitals : mapped [(0x41, 0x5A, 1, 0x61)] c = c.toLower := by
  rw [mapped, List.find?_cons, inRun_capitals, ← Char.ofNat_toNat c.toLower, toNat_toLower]
  cases h : c.isUpper with
  | false => simp
  | true =>
    have hcapital := (isUpper_iff c).1 h
    simp only [if_true]
    congr 1
    omega

theorem toLower_toUpper : c.toUpper.toLower = c.toLower := by
  rw [← Char.toNat_inj]
  grind

theorem toLower_toLower : c.toLower.toLower = c.toLower := by
  rw [← Char.toNat_inj]
  grind

theorem isAlphanum_toUpper : c.toUpper.isAlphanum = c.isAlphanum := by
  rw [Bool.eq_iff_iff]
  grind

theorem isAlphanum_toLower : c.toLower.isAlphanum = c.isAlphanum := by
  rw [Bool.eq_iff_iff]
  grind

end LetterCase

variable {c : Char}

theorem toUpper_eq_self (h : c.isLower = false) : c.toUpper = c := by
  rw [← Char.toNat_inj, toNat_toUpper, h]
  rfl

theorem toLower_eq_self (h : c.isUpper = false) : c.toLower = c := by
  rw [← Char.toNat_inj, toNat_toLower, h]
  rfl

theorem isUppercase_ascii (h : c.toNat < 128) : isUppercase c = c.isUpper := by
  have hrow : uppercaseRuns.take 1 = [(0x41, 0x5A, 1)] := rfl
  rw [isUppercase, inRuns_ascii 1 class_rows_beyond_ascii.1 h, hrow]
  simp [inRuns, inRun_capitals]

theorem isLowercase_ascii (h : c.toNat < 128) : isLowercase c = c.isLower := by
  have hrow : lowercaseRuns.take 1 = [(0x61, 0x7A, 1)] := rfl
  rw [isLowercase, inRuns_ascii 1 class_rows_beyond_ascii.2.1 h, hrow]
  simp [inRuns, inRun_smalls]

theorem isNumeric_ascii (h : c.toNat < 128) : isNumeric c = c.isDigit := by
  have hrow : numericRanges.take 1 = [(0x30, 0x39)] := rfl
  rw [isNumeric, inRanges_ascii 1 class_rows_beyond_ascii.2.2.1 h, hrow]
  rw [Bool.eq_iff_iff, isDigit_iff]
  simp [inRanges, inRange]

theorem isAlphabetic_ascii (h : c.toNat < 128) : isAlphabetic c = c.isAlpha := by
  have hrows : alphabeticRanges.take 2 = [(0x41, 0x5A), (0x61, 0x7A)] := rfl
  rw [isAlphabetic, inRanges_ascii 2 class_rows_beyond_ascii.2.2.2 h, hrows]
  rw [Bool.eq_iff_iff, isAlpha_iff, isUpper_iff, isLower_iff]
  simp [inRanges, inRange]

theorem isAlphanumeric_ascii (h : c.toNat < 128) : isAlphanumeric c = c.isAlphanum := by
  rw [Bool.eq_iff_iff, isAlphanum_iff, isAlphanumeric, isAlphabetic_ascii h, isNumeric_ascii h]
  exact Bool.or_eq_true_iff

theorem toUpper_ascii (h : c.toNat < 128) : toUpper c = [c.toUpper] := by
  obtain ⟨hexpansions, htail, -, -⟩ := mapping_rows_beyond_ascii
  rw [← mapped_smalls]
  exact fullyMapped_ascii hexpansions rfl htail h

theorem toLower_ascii (h : c.toNat < 128) : toLower c = [c.toLower] := by
  obtain ⟨-, -, hexpansions, htail⟩ := mapping_rows_beyond_ascii
  rw [← mapped_capitals]
  exact fullyMapped_ascii hexpansions rfl htail h

theorem capitalize_ascii (h : c.toNat < 128) (rest : List Char) :
    capitalize (c :: rest) = c.toUpper :: rest := by
  rw [capitalize, toUpper_ascii h, List.singleton_append]

theorem lowercase_ascii {word : List Char} (h : ∀ c ∈ word, c.toNat < 128) :
    lowercase word = word.map Char.toLower := by
  have hafter : ∀ before : List Char, lowercaseAfter before word = word.map Char.toLower := by
    induction word with
    | nil => exact fun _ => rfl
    | cons c rest ih =>
      intro before
      have hc := h c (by simp)
      have hsigma : c ≠ 'Σ' := by
        rintro rfl
        exact absurd hc (by decide)
      rw [lowercaseAfter, if_neg hsigma, toLower_ascii hc,
        ih fun d hd => h d (List.mem_cons_of_mem _ hd)]
      rfl
  exact hafter []

theorem ascii_of_isAlphanum (h : c.isAlphanum = true) : c.toNat < 128 := by
  grind

end SwiftDecl.Text
