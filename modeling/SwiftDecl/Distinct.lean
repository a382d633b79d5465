/-!
# Lists without repeats

Entries are kept in the order of their first insertion. An entry that repeats a
kept one is not listed again; the kept one takes over what the repeat carries.
-/

set_option autoImplicit false

namespace SwiftDecl.Distinct

variable {α : Type}

/-- Adds `new` at the end, or merges it into the first entry that it repeats. -/
def add (same : α → α → Bool) (absorb : α → α → α) (new : α) : List α → List α
  | [] => [new]
  | kept :: rest =>
    if same kept new then absorb kept new :: rest else kept :: add same absorb new rest

def addAll (same : α → α → Bool) (absorb : α → α → α) (entries new : List α) : List α :=
  new.foldl (fun kept entry => add same absorb entry kept) entries

end SwiftDecl.Distinct
