/-!
# Sorted sets

A finite set over a linear order, kept as its strictly increasing list. The
order is part of the type, so two sets with the same members are the same value
and there is one way to write a set out.
-/

set_option autoImplicit false

namespace SwiftDecl

variable {α : Type} [LT α]

def insertSorted [DecidableLT α] (a : α) : List α → List α
  | [] => [a]
  | b :: rest =>
    if a < b then a :: b :: rest
    else if b < a then b :: insertSorted a rest
    else b :: rest

theorem mem_of_mem_insertSorted [DecidableLT α] {a x : α} {l : List α}
    (h : x ∈ insertSorted a l) : x = a ∨ x ∈ l := by
  induction l with
  | nil => simpa [insertSorted] using h
  | cons b rest ih =>
    simp only [insertSorted] at h
    split at h
    · simpa using h
    · split at h
      · rcases List.mem_cons.1 h with h | h
        · simp [h]
        · rcases ih h with h | h <;> simp [h]
      · exact Or.inr h

theorem mem_insertSorted_of_mem [DecidableLT α] {a x : α} {l : List α}
    (h : x ∈ l) : x ∈ insertSorted a l := by
  induction l with
  | nil => simp at h
  | cons b rest ih =>
    simp only [insertSorted]
    split
    · exact List.mem_cons_of_mem _ h
    · split
      · rcases List.mem_cons.1 h with h | h
        · simp [h]
        · exact List.mem_cons_of_mem _ (ih h)
      · exact h

theorem mem_insertSorted_self [DecidableLT α] [Std.Trichotomous (fun x y : α => x < y)]
    (a : α) (l : List α) : a ∈ insertSorted a l := by
  induction l with
  | nil => simp [insertSorted]
  | cons b rest ih =>
    simp only [insertSorted]
    split
    · simp
    · split
      · exact List.mem_cons_of_mem _ ih
      · rename_i h₁ h₂
        rcases Std.lt_trichotomy a b with h | h | h
        · exact absurd h h₁
        · simp [h]
        · exact absurd h h₂

theorem pairwise_insertSorted [DecidableLT α]
    [Trans (fun x y : α => x < y) (fun x y : α => x < y) (fun x y : α => x < y)]
    {a : α} {l : List α} (h : l.Pairwise (· < ·)) : (insertSorted a l).Pairwise (· < ·) := by
  induction l with
  | nil => simp [insertSorted]
  | cons b rest ih =>
    have hb := List.pairwise_cons.1 h
    simp only [insertSorted]
    split
    · rename_i hab
      refine List.pairwise_cons.2 ⟨fun x hx => ?_, h⟩
      rcases List.mem_cons.1 hx with hx | hx
      · simpa [hx] using hab
      · exact Std.lt_trans hab (hb.1 x hx)
    · split
      · rename_i hba
        refine List.pairwise_cons.2 ⟨fun x hx => ?_, ih hb.2⟩
        rcases mem_of_mem_insertSorted hx with hx | hx
        · simpa [hx] using hba
        · exact hb.1 x hx
      · exact h

structure SortedSet (α : Type) [LT α] where
  toList : List α
  sorted : toList.Pairwise (· < ·)

namespace SortedSet

@[ext] theorem ext_toList {s t : SortedSet α} (h : s.toList = t.toList) : s = t := by
  cases s; cases t; simp_all

instance [DecidableEq α] : DecidableEq (SortedSet α) := fun s t =>
  decidable_of_iff (s.toList = t.toList) ⟨ext_toList, fun h => by rw [h]⟩

def empty : SortedSet α :=
  ⟨[], List.Pairwise.nil⟩

instance : EmptyCollection (SortedSet α) := ⟨empty⟩

instance : Inhabited (SortedSet α) := ⟨empty⟩

instance : Membership α (SortedSet α) := ⟨fun s a => a ∈ s.toList⟩

theorem mem_iff {a : α} {s : SortedSet α} : a ∈ s ↔ a ∈ s.toList := Iff.rfl

def isEmpty (s : SortedSet α) : Bool :=
  s.toList.isEmpty

def size (s : SortedSet α) : Nat :=
  s.toList.length

def contains [BEq α] (s : SortedSet α) (a : α) : Bool :=
  s.toList.contains a

@[simp] theorem not_mem_empty (a : α) : a ∉ (∅ : SortedSet α) :=
  List.not_mem_nil

variable [DecidableLT α]
  [Trans (fun x y : α => x < y) (fun x y : α => x < y) (fun x y : α => x < y)]

def insert (s : SortedSet α) (a : α) : SortedSet α :=
  ⟨insertSorted a s.toList, pairwise_insertSorted s.sorted⟩

def insertAll (s : SortedSet α) (l : List α) : SortedSet α :=
  l.foldl insert s

def union (s t : SortedSet α) : SortedSet α :=
  s.insertAll t.toList

instance : Union (SortedSet α) := ⟨union⟩

def ofList (l : List α) : SortedSet α :=
  insertAll empty l

variable [Std.Trichotomous (fun x y : α => x < y)]

@[simp] theorem mem_insert {a x : α} {s : SortedSet α} : x ∈ s.insert a ↔ x = a ∨ x ∈ s := by
  constructor
  · exact mem_of_mem_insertSorted
  · rintro (rfl | h)
    · exact mem_insertSorted_self _ _
    · exact mem_insertSorted_of_mem h

theorem mem_insertAll {x : α} {l : List α} {s : SortedSet α} :
    x ∈ s.insertAll l ↔ x ∈ s ∨ x ∈ l := by
  induction l generalizing s with
  | nil => simp [insertAll]
  | cons a rest ih =>
    have h : s.insertAll (a :: rest) = (s.insert a).insertAll rest := rfl
    rw [h, ih, mem_insert, List.mem_cons]
    constructor
    · rintro ((h | h) | h) <;> simp [h]
    · rintro (h | h | h) <;> simp [h]

@[simp] theorem mem_union {x : α} {s t : SortedSet α} : x ∈ s ∪ t ↔ x ∈ s ∨ x ∈ t :=
  mem_insertAll

@[simp] theorem mem_ofList {x : α} {l : List α} : x ∈ ofList l ↔ x ∈ l := by
  unfold ofList
  rw [mem_insertAll]
  exact ⟨fun h => h.resolve_left List.not_mem_nil, Or.inr⟩

end SortedSet

end SwiftDecl
