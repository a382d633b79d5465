import SwiftDecl.Layout.Writer
import Mathlib.Tactic.Common

/-!
# What an operation adds

Every operation of a writer adds to the text and changes level and scopes in a
fixed way. `Becomes` records both, so that later proofs about runs do not open
the operations again. The text is only described up to characters that the
writer supplies itself: indentation, spaces and line feeds.
-/

set_option autoImplicit false

namespace SwiftDecl.Layout

@[elab_as_elim]
theorem Op.induct {motive : List Op → Prop}
    (step : ∀ ops, (∀ inner, Op.nested inner ∈ ops → motive inner) → motive ops)
    (ops : List Op) : motive ops := by
  have h : ∀ inner, Op.nested inner ∈ ops → motive inner :=
    @Op.rec_1 (fun op => ∀ inner, op = .nested inner → motive inner)
      (fun l => ∀ inner, Op.nested inner ∈ l → motive inner)
      (by simp) (by simp) (by simp) (by simp) (by simp) (by simp) (by simp) (by simp) (by simp)
      (by rintro l hl _ h; cases h; exact step l hl) (by simp) (by simp)
      (by
        intro op l ho hl inner hm
        rcases List.mem_cons.1 hm with h | h
        · exact ho inner h.symm
        · exact hl inner h)
      ops
  exact step ops h

/-- One operation after the other, where a property of what is nested is at hand
as it is for the operations that follow. -/
@[elab_as_elim]
theorem Op.consInduct {motive : List Op → Prop} (nil : motive [])
    (flat : ∀ op rest, (∀ inner, op ≠ .nested inner) → motive rest → motive (op :: rest))
    (nested : ∀ inner rest, motive inner → motive rest → motive (.nested inner :: rest))
    (ops : List Op) : motive ops := by
  induction ops using Op.induct with
  | step ops ih =>
    induction ops with
    | nil => exact nil
    | cons op rest ihr =>
      have hrest := ihr fun inner hm => ih inner (List.mem_cons_of_mem _ hm)
      by_cases ho : ∃ inner, op = .nested inner
      · obtain ⟨inner, rfl⟩ := ho
        exact nested inner rest (ih inner (by simp)) hrest
      · exact flat op rest (fun inner h => ho ⟨inner, h⟩) hrest

def Op.text : Op → List Char
  | .literal text => text.toList
  | .word text => text.toList
  | _ => []

def Op.isPlain : Op → Bool
  | .literal _ | .word _ | .newLine | .endLine | .report _ => true
  | _ => false

namespace Writer

theorem text_toList (w : Writer) : w.text.toList = w.written.reverse :=
  String.toList_ofList

structure Becomes (w : Writer) (added : List Char) (level scopes : Nat) (w' : Writer) : Prop where
  written : w'.written = added.reverse ++ w.written
  level : w'.level = level
  scopes : w'.scopes.length = scopes
  unit : w'.unit = w.unit
  nesting : w'.nesting = w.nesting

theorem Becomes.trans {w w' w'' : Writer} {a b : List Char} {l l' n n' : Nat}
    (h₁ : Becomes w a l n w') (h₂ : Becomes w' b l' n' w'') : Becomes w (a ++ b) l' n' w'' where
  written := by
    rw [h₂.written, h₁.written, List.reverse_append, List.append_assoc]
  level := h₂.level
  scopes := h₂.scopes
  unit := h₂.unit.trans h₁.unit
  nesting := h₂.nesting.trans h₁.nesting

/-- The characters that `keep` selects are none that the writer supplies. -/
structure Ignores (keep : Char → Bool) (w : Writer) : Prop where
  space : keep ' ' = false
  lineFeed : keep '\n' = false
  unit : ∀ c ∈ w.unit, keep c = false

theorem Ignores.nothing (w : Writer) : Ignores (fun _ => false) w :=
  ⟨rfl, rfl, fun _ _ => rfl⟩

theorem Ignores.of_unit {keep : Char → Bool} {w w' : Writer} (h : Ignores keep w)
    (hu : w'.unit = w.unit) : Ignores keep w' :=
  ⟨h.space, h.lineFeed, by rw [hu]; exact h.unit⟩

/-- `w'` comes from `w` by writing, besides what the writer supplies itself, the
characters of `cs`. -/
def Writes (keep : Char → Bool) (w : Writer) (cs : List Char) (level scopes : Nat)
    (w' : Writer) : Prop :=
  ∃ added, added.filter keep = cs.filter keep ∧ Becomes w added level scopes w'

variable {keep : Char → Bool}

theorem Writes.trans {w w' w'' : Writer} {a b : List Char} {l l' n n' : Nat}
    (h₁ : Writes keep w a l n w') (h₂ : Writes keep w' b l' n' w'') :
    Writes keep w (a ++ b) l' n' w'' := by
  obtain ⟨a', ha, h₁⟩ := h₁
  obtain ⟨b', hb, h₂⟩ := h₂
  exact ⟨a' ++ b', by rw [List.filter_append, List.filter_append, ha, hb], h₁.trans h₂⟩

def Adds (keep : Char → Bool) (w : Writer) (cs : List Char) (w' : Writer) : Prop :=
  Writes keep w cs w.level w.scopes.length w'

theorem Writes.ignores {w w' : Writer} {cs : List Char} {l n : Nat} (h : Writes keep w cs l n w')
    (hk : Ignores keep w) : Ignores keep w' := by
  obtain ⟨_, _, h⟩ := h
  exact hk.of_unit h.unit

theorem Writes.nesting {w w' : Writer} {cs : List Char} {l n : Nat}
    (h : Writes keep w cs l n w') : w'.nesting = w.nesting := by
  obtain ⟨_, _, h⟩ := h
  exact h.nesting

theorem Writes.level_eq {w w' : Writer} {cs : List Char} {l n : Nat}
    (h : Writes keep w cs l n w') : w'.level = l := by
  obtain ⟨_, _, h⟩ := h
  exact h.level

theorem Adds.ignores {w w' : Writer} {cs : List Char} (h : Adds keep w cs w')
    (hk : Ignores keep w) : Ignores keep w' :=
  Writes.ignores h hk

theorem Adds.refl (w : Writer) : Adds keep w [] w :=
  ⟨[], rfl, rfl, rfl, rfl, rfl, rfl⟩

theorem Adds.trans {w w' w'' : Writer} {a b : List Char} (h₁ : Adds keep w a w')
    (h₂ : Adds keep w' b w'') : Adds keep w (a ++ b) w'' := by
  have h : w'.level = w.level ∧ w'.scopes.length = w.scopes.length := by
    obtain ⟨_, _, h⟩ := h₁
    exact ⟨h.level, h.scopes⟩
  unfold Adds at h₂ ⊢
  rw [h.1, h.2] at h₂
  exact Writes.trans h₁ h₂

theorem fill_length (scopes : List Bool) : (fill scopes).length = scopes.length := by
  cases scopes <;> rfl

theorem fill_fill (scopes : List Bool) : fill (fill scopes) = fill scopes := by
  cases scopes <;> rfl

theorem margin_ignored {w : Writer} (h : Ignores keep w) : w.margin.filter keep = [] := by
  rw [List.filter_eq_nil_iff]
  intro c hc
  obtain ⟨u, hu, hc⟩ := List.mem_flatten.1 hc
  rw [List.eq_of_mem_replicate hu] at hc
  simp [h.unit c hc]

theorem lead_ignored {w : Writer} (h : Ignores keep w) (attaches : Bool) :
    (w.lead attaches).filter keep = [] := by
  unfold lead
  split
  · exact margin_ignored h
  · split <;> simp [h.space]

theorem piece_adds {w : Writer} (h : Ignores keep w) (cs : List Char) (attaches : Bool) :
    Adds keep w cs (w.piece cs attaches) := by
  cases cs with
  | nil => exact Adds.refl w
  | cons c rest =>
    refine ⟨w.lead attaches ++ c :: rest, ?_, rfl, rfl, fill_length _, rfl, rfl⟩
    rw [List.filter_append, lead_ignored h, List.nil_append]

theorem newLine_adds {w : Writer} (h : Ignores keep w) : Adds keep w [] w.newLine :=
  ⟨['\n'], by simp [h.lineFeed], rfl, rfl, rfl, rfl, rfl⟩

theorem endLine_adds {w : Writer} (h : Ignores keep w) : Adds keep w [] w.endLine := by
  unfold endLine
  split
  · exact Adds.refl w
  · exact newLine_adds h

theorem separate_adds {w : Writer} (h : Ignores keep w) : Adds keep w [] w.separate := by
  unfold separate
  split
  · exact Adds.refl w
  · exact ⟨['\n'], by simp [h.lineFeed], rfl, rfl, rfl, rfl, rfl⟩

theorem blankLine_adds {w : Writer} (h : Ignores keep w) : Adds keep w [] w.blankLine := by
  have h₁ := endLine_adds h
  exact h₁.trans (separate_adds (h₁.ignores h))

theorem literalParts_adds {w : Writer} (h : Ignores keep w) (parts : List (List Char)) :
    Adds keep w parts.flatten (w.literalParts parts) := by
  induction parts generalizing w with
  | nil => exact Adds.refl w
  | cons part rest ih =>
    have h₁ := newLine_adds h
    have h₂ := h₁.trans (piece_adds (h₁.ignores h) part (attachesLeft part))
    exact h₂.trans (ih (h₂.ignores h))

theorem pieces_filter (h : keep '\n' = false) (cs : List Char) :
    (Text.pieces cs).flatten.filter keep = cs.filter keep := by
  induction cs with
  | nil => rfl
  | cons c rest ih =>
    unfold Text.pieces at ih ⊢
    unfold Text.splitAt
    split
    · rename_i hc
      rw [List.flatten_cons, List.nil_append, ih, hc, List.filter_cons_of_neg (by simp [h])]
    · cases hr : Text.splitAt '\n' rest with
      | nil => exact absurd hr (Text.splitAt_ne_nil _ _)
      | cons part parts =>
        rw [hr] at ih
        simp only [List.flatten_cons, List.cons_append, List.filter_cons]
        rw [← ih, List.flatten_cons]

theorem literal_adds {w : Writer} (h : Ignores keep w) (cs : List Char) :
    Adds keep w cs (w.literal cs) := by
  have hf := pieces_filter h.lineFeed cs
  unfold literal
  cases hp : Text.pieces cs with
  | nil => exact absurd hp (Text.splitAt_ne_nil _ _)
  | cons first rest =>
    have h₁ := piece_adds h first (attachesLeft first)
    obtain ⟨added, ha, hb⟩ := h₁.trans (literalParts_adds (h₁.ignores h) rest)
    exact ⟨added, by rw [ha, ← hf, hp, List.flatten_cons], hb⟩

theorem plain_adds {w : Writer} (h : Ignores keep w) {op : Op} (hp : op.isPlain = true) :
    Adds keep w op.text (w.step op) := by
  cases op with
  | literal text =>
    rw [step]
    exact literal_adds h text.toList
  | word text =>
    rw [step]
    exact piece_adds h text.toList false
  | newLine =>
    rw [step]
    exact newLine_adds h
  | endLine =>
    rw [step]
    exact endLine_adds h
  | report event =>
    rw [step]
    exact ⟨[], rfl, rfl, rfl, rfl, rfl, rfl⟩
  | openScope | closeScope | blankLine | indent | dedent | nested => simp [Op.isPlain] at hp

theorem openScope_writes {w : Writer} (h : Ignores keep w) :
    Writes keep w ['\x7b'] (w.level + 1) (w.scopes.length + 1) w.openScope := by
  have h₁ := piece_adds h ['\x7b'] false
  obtain ⟨added, ha, hb⟩ := h₁.trans (newLine_adds (h₁.ignores h))
  refine ⟨added, by simpa using ha, hb.written, ?_, ?_, hb.unit, hb.nesting⟩
  · rw [← hb.level]
    rfl
  · rw [← hb.scopes]
    rfl

theorem leaveScope_writes {w : Writer} (h : Ignores keep w) :
    Writes keep w [] w.level (w.scopes.length - 1) w.leaveScope := by
  unfold leaveScope
  split
  · rename_i hs
    exact ⟨[], rfl, rfl, rfl, by simp [hs], rfl, rfl⟩
  · rename_i hs
    exact ⟨[], rfl, rfl, rfl, by simp [hs], rfl, rfl⟩
  · rename_i hs
    exact ⟨['\n'], by simp [h.lineFeed], rfl, rfl, by simp [hs], rfl, rfl⟩

theorem closeScope_writes {w : Writer} (h : Ignores keep w) :
    Writes keep w ['\x7d'] (w.level - 1) (w.scopes.length - 1) w.closeScope := by
  have h₁ := endLine_adds h
  obtain ⟨a₁, ha₁, hb₁⟩ := h₁
  have hk₁ := h.of_unit hb₁.unit
  obtain ⟨a₂, ha₂, hb₂⟩ := leaveScope_writes hk₁
  have hk₂ := hk₁.of_unit hb₂.unit
  have hd : Ignores keep w.endLine.leaveScope.dedent := hk₂.of_unit rfl
  have h₃ := piece_adds hd ['\x7d'] false
  obtain ⟨a₃, ha₃, hb₃⟩ := h₃.trans (newLine_adds (h₃.ignores hd))
  have hb : Becomes w (a₁ ++ a₂ ++ a₃) (w.level - 1) (w.scopes.length - 1) w.closeScope := by
    refine ((hb₁.trans hb₂).trans ⟨hb₃.written, ?_, ?_, hb₃.unit, hb₃.nesting⟩)
    · rw [← hb₁.level, ← hb₂.level]
      exact hb₃.level
    · rw [← hb₁.scopes, ← hb₂.scopes]
      exact hb₃.scopes
  refine ⟨a₁ ++ a₂ ++ a₃, ?_, hb⟩
  rw [List.filter_append, List.filter_append, ha₁, ha₂, ha₃]
  rfl

theorem run_nesting (ops : List Op) (w : Writer) : (w.run ops).nesting = w.nesting := by
  induction ops using Op.consInduct generalizing w with
  | nil => rw [run]
  | flat op rest ho ih =>
    rw [run, ih]
    have hw := Ignores.nothing w
    cases op with
    | openScope =>
      rw [step]
      exact Writes.nesting (openScope_writes hw)
    | closeScope =>
      rw [step]
      exact Writes.nesting (closeScope_writes hw)
    | blankLine =>
      rw [step]
      exact Writes.nesting (blankLine_adds hw)
    | indent | dedent =>
      rw [step]
      rfl
    | nested inner => exact absurd rfl (ho inner)
    | literal | word | newLine | endLine | report =>
      exact Writes.nesting (plain_adds hw rfl)
  | nested inner rest ihi ih =>
    rw [run, ih, step]
    split
    · have hr : (w.enter.run inner).nesting = w.nesting + 1 := ihi w.enter
      rw [leave, hr]
      rfl
    · rfl

theorem step_nesting (op : Op) (w : Writer) : (w.step op).nesting = w.nesting := by
  have h := run_nesting [op] w
  rwa [run, run] at h

end Writer

end SwiftDecl.Layout
