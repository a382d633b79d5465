import SwiftDecl.SortedSet

/-!
# Modifiers

The modifiers of a declaration in the order in which they are written. A
declaration holds a set of them, so neither repetition nor the order of
insertion shows.
-/

set_option autoImplicit false

namespace SwiftDecl

inductive Modifier where
  | openAccess
  | publicAccess
  | internalAccess
  | filePrivateAccess
  | privateAccess
  | overriding
  | required
  | convenience
  | final
  | static
  | classLevel
  | lazy
  | weak
  | unowned
  | mutating
  deriving DecidableEq, Repr

namespace Modifier

def keyword : Modifier → String
  | .openAccess => "open"
  | .publicAccess => "public"
  | .internalAccess => "internal"
  | .filePrivateAccess => "fileprivate"
  | .privateAccess => "private"
  | .overriding => "override"
  | .required => "required"
  | .convenience => "convenience"
  | .final => "final"
  | .static => "static"
  | .classLevel => "class"
  | .lazy => "lazy"
  | .weak => "weak"
  | .unowned => "unowned"
  | .mutating => "mutating"

def all : List Modifier :=
  [.openAccess, .publicAccess, .internalAccess, .filePrivateAccess, .privateAccess, .overriding,
   .required, .convenience, .final, .static, .classLevel, .lazy, .weak, .unowned, .mutating]

def ofKeyword? (word : String) : Option Modifier :=
  all.find? fun m => m.keyword == word

def isAccessLevel : Modifier → Bool
  | .openAccess | .publicAccess | .internalAccess | .filePrivateAccess | .privateAccess => true
  | _ => false

def rank : Modifier → Nat
  | .openAccess => 0
  | .publicAccess => 1
  | .internalAccess => 2
  | .filePrivateAccess => 3
  | .privateAccess => 4
  | .overriding => 5
  | .required => 6
  | .convenience => 7
  | .final => 8
  | .static => 9
  | .classLevel => 10
  | .lazy => 11
  | .weak => 12
  | .unowned => 13
  | .mutating => 14

theorem rank_injective {a b : Modifier} (h : a.rank = b.rank) : a = b := by
  cases a <;> cases b <;> simp_all [rank]

instance : LT Modifier := ⟨fun a b => a.rank < b.rank⟩

instance : DecidableLT Modifier := fun a b => inferInstanceAs (Decidable (a.rank < b.rank))

instance : Trans (fun a b : Modifier => a < b) (fun a b : Modifier => a < b)
    (fun a b : Modifier => a < b) := ⟨fun h₁ h₂ => Nat.lt_trans h₁ h₂⟩

instance : Std.Trichotomous (fun a b : Modifier => a < b) :=
  ⟨fun _ _ h₁ h₂ => rank_injective (Nat.le_antisymm (Nat.not_lt.1 h₂) (Nat.not_lt.1 h₁))⟩

end Modifier

abbrev Modifiers := SortedSet Modifier

end SwiftDecl
