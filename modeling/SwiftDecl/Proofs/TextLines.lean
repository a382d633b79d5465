import SwiftDecl.Decl.Heading
import Mathlib.Data.List.Induction

/-!
# Lines of a text

Cutting a text into lines brings in no characters and leaves no line feed in a
line. A comment line holds characters of the description it is made from, the
marks of a comment, and nothing else.
-/

set_option autoImplicit false

namespace SwiftDecl.Text

theorem splitAt_eq_splitOn (sep : Char) (text : List Char) :
    splitAt sep text = text.splitOn sep := by
  induction text with
  | nil => rfl
  | cons c rest ih =>
    rw [splitAt, ih, List.splitOn_cons_eq_if_modifyHead]
    by_cases h : c = sep
    · rw [if_pos h, if_pos (by simpa using h)]
    · rw [if_neg h, if_neg (by simpa using h)]
      cases hr : rest.splitOn sep with
      | nil => exact absurd hr (List.splitOn_ne_nil sep rest)
      | cons part parts => rfl

theorem splitAt_chars {sep : Char} {text part : List Char} {c : Char}
    (hp : part ∈ splitAt sep text) (hc : c ∈ part) : c ∈ text ∧ c ≠ sep := by
  induction text generalizing part with
  | nil =>
    rw [splitAt, List.mem_singleton] at hp
    simp [hp] at hc
  | cons d rest ih =>
    unfold splitAt at hp
    split at hp
    · rcases List.mem_cons.1 hp with rfl | hp
      · simp at hc
      · have := ih hp hc
        exact ⟨by simp [this.1], this.2⟩
    · rename_i hd
      cases hr : splitAt sep rest with
      | nil => exact absurd hr (splitAt_ne_nil _ _)
      | cons first more =>
        rw [hr] at hp ih
        rcases List.mem_cons.1 hp with rfl | hp
        · rcases List.mem_cons.1 hc with rfl | hc
          · exact ⟨by simp, hd⟩
          · have := ih (by simp) hc
            exact ⟨by simp [this.1], this.2⟩
        · have := ih (List.mem_cons_of_mem _ hp) hc
          exact ⟨by simp [this.1], this.2⟩

theorem splitAt_length (sep : Char) (text : List Char) :
    (splitAt sep text).length = text.count sep + 1 := by
  induction text with
  | nil => rfl
  | cons c rest ih =>
    unfold splitAt
    split
    · rename_i hc
      simp [hc, ih]
    · rename_i hc
      cases hr : splitAt sep rest with
      | nil => exact absurd hr (splitAt_ne_nil _ _)
      | cons part parts => simp_all

theorem pieces_chars {text part : List Char} {c : Char} (hp : part ∈ pieces text)
    (hc : c ∈ part) : c ∈ text ∧ c ≠ '\n' :=
  splitAt_chars hp hc

theorem pieces_single {text : List Char} (h : '\n' ∉ text) : pieces text = [text] := by
  rw [pieces, splitAt_eq_splitOn, List.splitOn_eq_singleton h]

theorem pieces_append (line rest : List Char) (h : '\n' ∉ line) :
    pieces (line ++ '\n' :: rest) = line :: pieces rest := by
  rw [pieces, pieces, splitAt_eq_splitOn, splitAt_eq_splitOn,
    List.splitOn_append_cons_self_of_not_mem h]

theorem pieces_lines {lines : List (List Char)} {tail : List Char}
    (hl : ∀ line ∈ lines, '\n' ∉ line) (ht : '\n' ∉ tail) :
    pieces (lines.flatMap (fun line => line ++ ['\n']) ++ tail) = lines ++ [tail] := by
  induction lines with
  | nil => exact pieces_single ht
  | cons line rest ih =>
    have hrest := ih fun l hm => hl l (List.mem_cons_of_mem _ hm)
    rw [List.flatMap_cons, List.append_assoc, List.append_assoc, List.singleton_append,
      pieces_append _ _ (hl line (by simp)), hrest]
    rfl

theorem pieces_feed (text rest : List Char) :
    pieces (text ++ '\n' :: rest) = pieces text ++ pieces rest := by
  simp only [pieces, splitAt_eq_splitOn, List.splitOn_append_cons_self]

theorem pieces_behind {front : List Char} (h : '\n' ∉ front) (text : List Char) :
    ∃ first rest, pieces text = first :: rest ∧
      pieces (front ++ text) = (front ++ first) :: rest := by
  induction front with
  | nil =>
    obtain ⟨first, rest, hp⟩ := List.exists_cons_of_ne_nil (splitAt_ne_nil '\n' text)
    exact ⟨first, rest, hp, hp⟩
  | cons c front ih =>
    rw [List.mem_cons, not_or] at h
    obtain ⟨first, rest, hp, hf⟩ := ih h.2
    refine ⟨first, rest, hp, ?_⟩
    unfold pieces at hf ⊢
    rw [List.cons_append, splitAt, if_neg (Ne.symm h.1), hf]
    rfl

theorem cut_last_line (text : List Char) :
    ∃ before line, text = before ++ line ∧ (before = [] ∨ ['\n'] <:+ before) ∧ '\n' ∉ line := by
  induction text using List.reverseRecOn with
  | nil => exact ⟨[], [], rfl, .inl rfl, List.not_mem_nil⟩
  | append_singleton text c ih =>
    by_cases hc : c = '\n'
    · exact ⟨text ++ [c], [], (List.append_nil _).symm, .inr (hc ▸ List.suffix_append text [c]),
        List.not_mem_nil⟩
    · obtain ⟨before, line, rfl, hbefore, hline⟩ := ih
      refine ⟨before, line ++ [c], List.append_assoc _ _ _, hbefore, ?_⟩
      rw [List.mem_append, List.mem_singleton, not_or]
      exact ⟨hline, Ne.symm hc⟩

theorem pieces_eq_single_iff (text : List Char) : pieces text = [text] ↔ '\n' ∉ text := by
  constructor
  · intro h
    have hlength := splitAt_length '\n' text
    rw [← pieces, h, List.length_singleton] at hlength
    rw [← List.count_eq_zero]
    omega
  · exact pieces_single

theorem dropReturn_subset (line : List Char) : dropReturn line ⊆ line := by
  induction line with
  | nil => simp [dropReturn]
  | cons c rest ih =>
    unfold dropReturn
    split <;> simp_all

theorem closeLines_chars {parts : List (List Char)} {line : List Char}
    (h : line ∈ closeLines parts) : ∃ part ∈ parts, line ⊆ part := by
  induction parts with
  | nil => simp [closeLines] at h
  | cons part rest ih =>
    unfold closeLines at h
    split at h
    · simp at h
    · simp at h
    · rename_i heq
      obtain ⟨rfl, rfl⟩ := List.cons.inj heq
      rw [List.mem_singleton.1 h]
      exact ⟨part, by simp, List.Subset.refl _⟩
    · rename_i heq
      obtain ⟨rfl, rfl⟩ := List.cons.inj heq
      rcases List.mem_cons.1 h with rfl | h
      · exact ⟨_, by simp, dropReturn_subset _⟩
      · obtain ⟨p, hp, hs⟩ := ih h
        exact ⟨p, List.mem_cons_of_mem _ hp, hs⟩

theorem lines_chars {text line : List Char} {c : Char} (hl : line ∈ lines text) (hc : c ∈ line) :
    c ∈ text ∧ c ≠ '\n' := by
  obtain ⟨part, hp, hs⟩ := closeLines_chars hl
  exact pieces_chars hp (hs hc)

theorem trimEnd_subset (text : List Char) : trimEnd text ⊆ text := by
  intro c hc
  have h := (List.dropWhile_sublist isBlank).subset (List.mem_reverse.1 hc)
  simpa using h

end SwiftDecl.Text

namespace SwiftDecl.Heading

theorem commentLine_chars {text line : List Char} {c : Char}
    (hl : line ∈ Text.lines (Text.trimEnd text)) (hc : c ∈ (commentLine line).toList) :
    c = '/' ∨ c = ' ' ∨ c ∈ text ∧ c ≠ '\n' := by
  unfold commentLine at hc
  split at hc
  · exact Or.inl (by simpa using hc)
  · rename_i shown hs
    rw [String.toList_ofList, List.mem_append] at hc
    rcases hc with hc | hc
    · have : c = '/' ∨ c = ' ' := by simpa [or_comm, or_assoc, or_left_comm] using hc
      exact this.elim Or.inl fun h => Or.inr (Or.inl h)
    · have hm := Text.lines_chars hl (Text.trimEnd_subset line hc)
      exact Or.inr (Or.inr ⟨Text.trimEnd_subset text hm.1, hm.2⟩)

theorem commentLine_feedFree {text line : List Char}
    (hl : line ∈ Text.lines (Text.trimEnd text)) : '\n' ∉ (commentLine line).toList := by
  intro hc
  rcases commentLine_chars hl hc with h | h | h
  · exact absurd h (by decide)
  · exact absurd h (by decide)
  · exact h.2 rfl

end SwiftDecl.Heading

theorem SwiftDecl.Modifier.keyword_feedFree (m : Modifier) : '\n' ∉ m.keyword.toList := by
  cases m <;> decide +kernel
