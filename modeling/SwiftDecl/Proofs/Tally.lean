import Mathlib.Data.List.Infix

/-!
# Tallies

A list is read from the left while some of its elements open something and
others close it. A tally records how many are open at either end and that
closing never runs ahead of opening on the way. Scopes and indentations of a
block and the braces of a text are counted in this one way.
-/

set_option autoImplicit false

namespace SwiftDecl

variable {α : Type}

structure Tally (opens closes : α → Bool) (start : Nat) (l : List α) (stop : Nat) : Prop where
  never_ahead : ∀ p, p <+: l → p.countP closes ≤ start + p.countP opens
  total : start + l.countP opens = stop + l.countP closes

namespace Tally

variable {opens closes : α → Bool}

instance decidable (start : Nat) (l : List α) (stop : Nat) :
    Decidable (Tally opens closes start l stop) :=
  decidable_of_iff
    ((∀ p ∈ l.inits, p.countP closes ≤ start + p.countP opens) ∧
      start + l.countP opens = stop + l.countP closes)
    ⟨fun h => ⟨fun p hp => h.1 p ((List.mem_inits p l).2 hp), h.2⟩,
      fun h => ⟨fun p hp => h.never_ahead p ((List.mem_inits p l).1 hp), h.total⟩⟩

theorem nil (n : Nat) : Tally opens closes n [] n where
  never_ahead := by
    intro p hp
    rw [List.prefix_nil.1 hp]
    simp
  total := rfl

theorem append {a b : List α} {n m k : Nat} (ha : Tally opens closes n a m)
    (hb : Tally opens closes m b k) : Tally opens closes n (a ++ b) k where
  never_ahead := by
    intro p hp
    rcases List.prefix_or_prefix_of_prefix hp (List.prefix_append a b) with h | ⟨q, rfl⟩
    · exact ha.never_ahead p h
    · have hq := hb.never_ahead q ((List.prefix_append_right_inj a).1 hp)
      have ht := ha.total
      rw [List.countP_append, List.countP_append]
      omega
  total := by
    have h₁ := ha.total
    have h₂ := hb.total
    rw [List.countP_append, List.countP_append]
    omega

theorem shift {l : List α} {n m : Nat} (h : Tally opens closes n l m) (k : Nat) :
    Tally opens closes (n + k) l (m + k) where
  never_ahead := by
    intro p hp
    have := h.never_ahead p hp
    omega
  total := by
    have := h.total
    omega

theorem cons_iff {x : α} {l : List α} {n m : Nat} :
    Tally opens closes n (x :: l) m ↔
      ∃ k, n + (if opens x then 1 else 0) = k + (if closes x then 1 else 0) ∧
        Tally opens closes k l m := by
  constructor
  · intro h
    have hx := h.never_ahead [x] (by simp)
    simp only [List.countP_cons, List.countP_nil] at hx
    refine ⟨n + (if opens x then 1 else 0) - (if closes x then 1 else 0), by omega, ?_, ?_⟩
    · intro p hp
      have := h.never_ahead (x :: p) ((List.prefix_cons_inj x).2 hp)
      simp only [List.countP_cons] at this
      omega
    · have := h.total
      simp only [List.countP_cons] at this
      omega
  · rintro ⟨k, hx, h⟩
    constructor
    · intro p hp
      rcases List.prefix_cons_iff.1 hp with rfl | ⟨q, rfl, hq⟩
      · simp
      · have := h.never_ahead q hq
        simp only [List.countP_cons]
        omega
    · have := h.total
      simp only [List.countP_cons]
      omega

theorem nil_iff {n m : Nat} : Tally opens closes n [] m ↔ n = m :=
  ⟨fun h => h.total, fun h => h ▸ nil n⟩

theorem concat_iff {x : α} {l : List α} {n m : Nat} :
    Tally opens closes n (l ++ [x]) m ↔
      ∃ k, Tally opens closes n l k ∧
        k + (if opens x then 1 else 0) = m + (if closes x then 1 else 0) := by
  induction l generalizing n with
  | nil => simp only [List.nil_append, cons_iff, nil_iff, exists_eq_right, exists_eq_left']
  | cons y l ih =>
    rw [List.cons_append, cons_iff]
    simp only [ih, cons_iff]
    constructor
    · rintro ⟨k, hk, j, hj, hx⟩
      exact ⟨j, ⟨k, hk, hj⟩, hx⟩
    · rintro ⟨j, ⟨k, hk, hj⟩, hx⟩
      exact ⟨k, hk, j, hj, hx⟩

theorem neutral {l : List α} (h : ∀ x ∈ l, opens x = false ∧ closes x = false) (n : Nat) :
    Tally opens closes n l n := by
  induction l with
  | nil => exact nil n
  | cons x l ih =>
    have hx := h x (by simp)
    exact cons_iff.2 ⟨n, by simp [hx], ih fun y hy => h y (by simp [hy])⟩

theorem single_open {x : α} (ho : opens x = true) (hc : closes x = false) (n : Nat) :
    Tally opens closes n [x] (n + 1) :=
  cons_iff.2 ⟨n + 1, by simp [ho, hc], nil _⟩

theorem single_close {x : α} (ho : opens x = false) (hc : closes x = true) (n : Nat) :
    Tally opens closes (n + 1) [x] n :=
  cons_iff.2 ⟨n, by simp [ho, hc], nil _⟩

theorem tail_open {x : α} {l : List α} {n m : Nat} (h : Tally opens closes n (x :: l) m)
    (ho : opens x = true) (hc : closes x = false) : Tally opens closes (n + 1) l m := by
  obtain ⟨k, hk, h⟩ := cons_iff.1 h
  have : k = n + 1 := by simpa [ho, hc] using hk.symm
  exact this ▸ h

theorem tail_neutral {x : α} {l : List α} {n m : Nat} (h : Tally opens closes n (x :: l) m)
    (ho : opens x = false) (hc : closes x = false) : Tally opens closes n l m := by
  obtain ⟨k, hk, h⟩ := cons_iff.1 h
  have : k = n := by simpa [ho, hc] using hk.symm
  exact this ▸ h

theorem tail_close {x : α} {l : List α} {n m : Nat} (h : Tally opens closes n (x :: l) m)
    (ho : opens x = false) (hc : closes x = true) :
    ∃ k, n = k + 1 ∧ Tally opens closes k l m := by
  obtain ⟨k, hk, h⟩ := cons_iff.1 h
  exact ⟨k, by simpa [ho, hc] using hk, h⟩

theorem filter_iff {keep : α → Bool} (hk : ∀ x, keep x = false → opens x = false ∧ closes x = false)
    {l : List α} {n m : Nat} :
    Tally opens closes n (l.filter keep) m ↔ Tally opens closes n l m := by
  induction l generalizing n with
  | nil => rfl
  | cons x l ih =>
    cases hx : keep x with
    | true =>
      rw [List.filter_cons_of_pos hx, cons_iff, cons_iff]
      simp only [ih]
    | false =>
      rw [List.filter_cons_of_neg (by simp [hx]), ih, cons_iff]
      simp [hk x hx]

end Tally

end SwiftDecl
