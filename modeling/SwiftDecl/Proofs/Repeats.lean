import SwiftDecl.Proofs.Clauses
import SwiftDecl.Proofs.Dependencies
import SwiftDecl.Proofs.Sameness

/-!
# Repeats

Type variables, parameters and protocols are listed once. Whether an entry
repeats another is a matter of its key, and modules are no part of the key; an
entry that is dropped hands its modules to the one that it repeats. So a list is
what is left of the entries when each later one with a key that was there is
struck out, and all of their modules are still in it.
-/

set_option autoImplicit false

namespace SwiftDecl

namespace Distinct

variable {α κ : Type}

theorem add_cases (same : α → α → Bool) (absorb : α → α → α) (new : α) (entries : List α) :
    (∃ before kept after, entries = before ++ kept :: after ∧
      (∀ entry ∈ before, same entry new = false) ∧ same kept new = true ∧
      add same absorb new entries = before ++ absorb kept new :: after) ∨
    ((∀ entry ∈ entries, same entry new = false) ∧
      add same absorb new entries = entries ++ [new]) := by
  induction entries with
  | nil => exact Or.inr ⟨by simp, rfl⟩
  | cons first rest ih =>
    by_cases hs : same first new = true
    · exact Or.inl ⟨[], first, rest, rfl, by simp, hs, by rw [add, if_pos hs]; rfl⟩
    · have hadd : add same absorb new (first :: rest) = first :: add same absorb new rest := by
        rw [add, if_neg hs]
      rw [Bool.not_eq_true] at hs
      rcases ih with ⟨before, kept, after, hrest, hbefore, hkept, ih⟩ | ⟨hrest, ih⟩
      · refine Or.inl ⟨first :: before, kept, after, by rw [hrest]; rfl, ?_, hkept, ?_⟩
        · exact List.forall_mem_cons.2 ⟨hs, hbefore⟩
        · rw [hadd, ih]
          rfl
      · refine Or.inr ⟨List.forall_mem_cons.2 ⟨hs, hrest⟩, ?_⟩
        rw [hadd, ih]
        rfl

/-- How entries of one kind are compared and merged: those with the same key are
repeats, and a merged entry is the kept one, bar its modules, with the modules of
both. -/
structure Merges (key : α → κ) (bare : α → α) (imports : α → Modules)
    (same : α → α → Bool) (absorb : α → α → α) : Prop where
  same_iff : ∀ a b, same a b = true ↔ key a = key b
  key_bare : ∀ a, key (bare a) = key a
  bare_absorb : ∀ kept new, bare (absorb kept new) = bare kept
  mem_imports : ∀ kept new module,
    module ∈ imports (absorb kept new) ↔ module ∈ imports kept ∨ module ∈ imports new

namespace Merges

variable {key : α → κ} {bare : α → α} {imports : α → Modules} {same : α → α → Bool}
  {absorb : α → α → α}

theorem key_absorb (h : Merges key bare imports same absorb) (kept new : α) :
    key (absorb kept new) = key kept := by
  rw [← h.key_bare, h.bare_absorb, h.key_bare]

theorem same_congr (h : Merges key bare imports same absorb) {a b : α} (hab : key a = key b)
    (c : α) : same a c = same b c := by
  rw [Bool.eq_iff_iff, h.same_iff, h.same_iff, hab]

theorem same_comm (h : Merges key bare imports same absorb) (a b : α) : same a b = same b a := by
  rw [Bool.eq_iff_iff, h.same_iff, h.same_iff, eq_comm]

theorem any_or_same (h : Merges key bare imports same absorb) {entries : List α} {kept x : α}
    (hm : kept ∈ entries) (hs : same kept x = true) (y : α) :
    (entries.any (same · y) || same x y) = entries.any (same · y) := by
  cases hxy : same x y with
  | false => rw [Bool.or_false]
  | true =>
    have hkept : same kept y = true := by
      rw [h.same_congr ((h.same_iff kept x).1 hs) y, hxy]
    rw [Bool.or_true, eq_comm, List.any_eq_true]
    exact ⟨kept, hm, hkept⟩

theorem any_add (h : Merges key bare imports same absorb) (new : α) (entries : List α) (x : α) :
    (add same absorb new entries).any (same · x) = (entries.any (same · x) || same new x) := by
  rcases add_cases same absorb new entries with
    ⟨before, kept, after, rfl, -, hkept, hadd⟩ | ⟨-, hadd⟩
  · have habsorb : same (absorb kept new) x = same kept x := h.same_congr (h.key_absorb kept new) x
    rw [hadd, h.any_or_same (by simp) hkept]
    simp only [List.any_append, List.any_cons, habsorb]
  · rw [hadd]
    simp

/-- From any entries on, what is added are the first entries of each key that
none of them has. -/
theorem map_bare_addAll (h : Merges key bare imports same absorb) (entries new : List α) :
    (addAll same absorb entries new).map bare = entries.map bare ++
      ((new.filter fun x => !entries.any (same · x)).eraseDupsBy same).map bare := by
  -- From any entries on, so that what was added counts among them for the rest.
  induction new generalizing entries with
  | nil => simp [addAll]
  | cons x rest ih =>
    have hstep : addAll same absorb entries (x :: rest) =
        addAll same absorb (add same absorb x entries) rest := rfl
    rw [hstep, ih]
    simp only [h.any_add]
    rcases add_cases same absorb x entries with
      ⟨before, kept, after, rfl, -, hkept, hadd⟩ | ⟨hnone, hadd⟩
    · have hseen : (before ++ kept :: after).any (same · x) = true := by simp [hkept]
      have hmem : kept ∈ before ++ kept :: after := by simp
      have hrepeat := h.any_or_same hmem hkept
      rw [hadd, List.filter_cons_of_neg (by simp [hseen])]
      simp only [hrepeat, List.map_append, List.map_cons, h.bare_absorb]
    · have hfresh : entries.any (same · x) = false := by
        rw [List.any_eq_false]
        intro entry he
        simp [hnone entry he]
      have hfilter : (rest.filter fun y => !(entries.any (same · y) || same x y)) =
          (rest.filter fun y => !entries.any (same · y)).filter fun y => same y x = false := by
        rw [List.filter_filter]
        apply List.filter_congr
        intro y _
        rw [h.same_comm x y]
        cases same y x <;> simp
      rw [hadd, List.filter_cons_of_pos (by simp [hfresh]), List.eraseDupsBy_cons, hfilter]
      simp

theorem pairwise_add (h : Merges key bare imports same absorb) (new : α) {entries : List α}
    (hp : entries.Pairwise fun a b => same a b = false) :
    (add same absorb new entries).Pairwise fun a b => same a b = false := by
  rcases add_cases same absorb new entries with
    ⟨before, kept, after, rfl, -, -, hadd⟩ | ⟨hnone, hadd⟩
  · rw [hadd]
    have hleft : ∀ c, same (absorb kept new) c = same kept c := h.same_congr (h.key_absorb kept new)
    have hright : ∀ c, same c (absorb kept new) = same c kept := by
      intro c
      rw [h.same_comm, hleft, h.same_comm]
    simpa only [List.pairwise_append, List.pairwise_cons, List.forall_mem_cons, hleft, hright]
      using hp
  · rw [hadd, List.pairwise_append]
    exact ⟨hp, List.pairwise_singleton _ _, by simpa using hnone⟩

theorem pairwise_addAll (h : Merges key bare imports same absorb) (new : List α)
    {entries : List α} (hp : entries.Pairwise fun a b => same a b = false) :
    (addAll same absorb entries new).Pairwise fun a b => same a b = false := by
  induction new generalizing entries with
  | nil => exact hp
  | cons x rest ih => exact ih (h.pairwise_add x hp)

theorem mem_imports_add (h : Merges key bare imports same absorb) (new : α) (entries : List α)
    (module : String) :
    (∃ entry ∈ add same absorb new entries, module ∈ imports entry) ↔
      (∃ entry ∈ entries, module ∈ imports entry) ∨ module ∈ imports new := by
  rcases add_cases same absorb new entries with
    ⟨before, kept, after, rfl, -, -, hadd⟩ | ⟨-, hadd⟩
  · rw [hadd]
    simp only [List.mem_append, List.mem_cons, or_and_right, exists_or, exists_eq_left,
      h.mem_imports]
    grind
  · rw [hadd]
    simp [or_and_right, exists_or]

theorem mem_imports_addAll (h : Merges key bare imports same absorb) (entries new : List α)
    (module : String) :
    (∃ entry ∈ addAll same absorb entries new, module ∈ imports entry) ↔
      (∃ entry ∈ entries, module ∈ imports entry) ∨ ∃ entry ∈ new, module ∈ imports entry := by
  induction new generalizing entries with
  | nil => simp [addAll]
  | cons x rest ih =>
    have hstep : addAll same absorb entries (x :: rest) =
        addAll same absorb (add same absorb x entries) rest := rfl
    rw [hstep, ih, h.mem_imports_add]
    simp [or_assoc]

end Merges

/-- Each entry of `added` is listed once. Bar modules, it is listed as the first
of those that it is the same as; the modules are those of all of them. -/
structure Lists (same : α → α → Bool) (bare : α → α) (imports : α → Modules)
    (added listed : List α) : Prop where
  firsts : listed.map bare = (added.eraseDupsBy same).map bare
  unequal : listed.Pairwise fun a b => same a b = false
  imports : Modules.unions (listed.map imports) = Modules.unions (added.map imports)

theorem Lists.mem_imports {same : α → α → Bool} {bare : α → α} {imports : α → Modules}
    {added listed : List α} (h : Lists same bare imports added listed) (module : String) :
    (∃ entry ∈ listed, module ∈ imports entry) ↔ ∃ entry ∈ added, module ∈ imports entry := by
  have hall : module ∈ Modules.unions (listed.map imports) ↔
      module ∈ Modules.unions (added.map imports) := by rw [h.imports]
  simpa [Modules.mem_unions] using hall

/-- Adds `new` to a table, under its key or to the entry that is there under it.
-/
def addUnder [DecidableEq κ] (key : α → κ) (absorb : α → α → α) (new : α) :
    List (κ × α) → List (κ × α)
  | [] => [(key new, new)]
  | (k, kept) :: rest =>
    if k = key new then (k, absorb kept new) :: rest
    else (k, kept) :: addUnder key absorb new rest

namespace Merges

variable {key : α → κ} {bare : α → α} {imports : α → Modules} {same : α → α → Bool}
  {absorb : α → α → α}

theorem lists (h : Merges key bare imports same absorb) (new : List α) :
    Lists same bare imports new (addAll same absorb [] new) where
  firsts := by
    rw [h.map_bare_addAll]
    simp
  unequal := h.pairwise_addAll new .nil
  imports := by
    apply SortedSet.ext_mem
    intro module
    have hall := h.mem_imports_addAll [] new module
    simpa [Modules.mem_unions] using hall

theorem addUnder_entries [DecidableEq κ] (h : Merges key bare imports same absorb) (new : α)
    {table : List (κ × α)} (ht : ∀ row ∈ table, row.1 = key row.2) :
    (addUnder key absorb new table).map Prod.snd = add same absorb new (table.map Prod.snd) ∧
      ∀ row ∈ addUnder key absorb new table, row.1 = key row.2 := by
  induction table with
  | nil => simp [addUnder, add]
  | cons row rest ih =>
    obtain ⟨k, kept⟩ := row
    obtain ⟨hk, hrest⟩ := List.forall_mem_cons.1 ht
    obtain ⟨ihentries, ihkeys⟩ := ih hrest
    have hsame : same kept new = true ↔ k = key new := by rw [h.same_iff, ← hk]
    by_cases hnew : k = key new
    · rw [addUnder, if_pos hnew, List.map_cons, List.map_cons, add, if_pos (hsame.2 hnew)]
      -- Taking over modules does not change the key.
      exact ⟨rfl, List.forall_mem_cons.2 ⟨hk.trans (h.key_absorb kept new).symm, hrest⟩⟩
    · rw [addUnder, if_neg hnew, List.map_cons, List.map_cons, add, if_neg (mt hsame.1 hnew),
        ihentries]
      exact ⟨rfl, List.forall_mem_cons.2 ⟨hk, ihkeys⟩⟩

theorem foldl_addUnder [DecidableEq κ] (h : Merges key bare imports same absorb) (new : List α)
    {table : List (κ × α)} (ht : ∀ row ∈ table, row.1 = key row.2) :
    (new.foldl (fun table entry => addUnder key absorb entry table) table).map Prod.snd =
      addAll same absorb (table.map Prod.snd) new := by
  induction new generalizing table with
  | nil => rfl
  | cons x rest ih =>
    obtain ⟨hentries, hkeys⟩ := h.addUnder_entries x ht
    rw [List.foldl_cons, ih hkeys, hentries]
    rfl

end Merges

end Distinct

namespace TypeRef

def bare (r : TypeRef) : TypeRef :=
  r.withImports ∅

theorem merges : Distinct.Merges render bare imports same absorb where
  same_iff a b := by simp [same]
  key_bare r := render_withImports ∅ r
  bare_absorb kept new := by cases kept <;> rfl
  mem_imports kept new module := by
    cases kept <;> simp [absorb, withImports, ownImports, imports] <;> tauto

end TypeRef

namespace Parameter

def bare (p : Parameter) : Parameter :=
  { p with heading := { p.heading with imports := ∅ } }

def declared (p : Parameter) : Parameter :=
  { new p.heading.name p.type.asWritten with
    label := p.label
    defaultValue := p.defaultValue.map Block.asWritten }

theorem declaresSame_iff (a b : Parameter) : a.declaresSame b = true ↔ a.declared = b.declared := by
  simp only [declaresSame, Bool.and_eq_true, beq_iff_eq, TypeRef.beq_iff, Block.sameOption_iff]
  simp [declared, new, Heading.new]
  tauto

theorem merges : Distinct.Merges declared bare imports declaresSame absorb where
  same_iff := declaresSame_iff
  key_bare p := rfl
  bare_absorb kept new := rfl
  mem_imports kept new module := by
    simp only [absorb, imports, SortedSet.mem_union]
    tauto

end Parameter

theorem Method.typeVariables_perform (name : String) (calls : List (List Clause)) :
    (perform add (new name) calls).typeVariables = Distinct.addAll TypeRef.same TypeRef.absorb []
      (calls.flatten.filterMap Clause.typeVariable?) := by
  rw [perform_eq]
  exact view_foldl add Method.typeVariables Clause.typeVariable? _
    (fun _ c => by cases c <;> rfl) calls.flatten (new name)

theorem Method.parameters_perform (name : String) (calls : List (List Clause)) :
    (perform add (new name) calls).parameters = Distinct.addAll Parameter.declaresSame
      Parameter.absorb [] (calls.flatten.filterMap Clause.parameter?) := by
  rw [perform_eq]
  exact view_foldl add Method.parameters Clause.parameter? _
    (fun _ c => by cases c <;> rfl) calls.flatten (new name)

theorem TypeDecl.protocols_perform (kind : TypeKind) (name : String)
    (calls : List (List Clause)) :
    (perform add (new kind name) calls).protocols = Distinct.addAll TypeRef.same TypeRef.absorb []
      (calls.flatten.filterMap Clause.conforms?) := by
  rw [perform_eq]
  exact view_foldl add TypeDecl.protocols Clause.conforms? _
    (fun _ c => by cases c <;> rfl) calls.flatten (new kind name)

/-- Whatever is added to a method or a type and in however many calls, each type
variable, parameter and protocol is listed once, in the order of first insertion,
as it was first added bar the modules declared on it. What is listed depends on
the modules of all that was added, and so does the method or the type. Looking
type variables up under the text that they were first listed with makes no
difference. -/
theorem repeats_keep_modules :
    (∀ (name : String) (calls : List (List Method.Clause)),
      let m := perform Method.add (.new name) calls
      let types := calls.flatten.filterMap Method.Clause.typeVariable?
      let parameters := calls.flatten.filterMap Method.Clause.parameter?
      Distinct.Lists TypeRef.same TypeRef.bare TypeRef.imports types m.typeVariables ∧
      Distinct.Lists Parameter.declaresSame Parameter.bare Parameter.imports parameters
        m.parameters ∧
      m.typeVariables = (types.foldl (fun table type =>
        Distinct.addUnder TypeRef.render TypeRef.absorb type table) []).map Prod.snd ∧
      m.imports = { m with typeVariables := types, parameters := parameters }.imports) ∧
    ∀ (kind : TypeKind) (name : String) (calls : List (List TypeDecl.Clause)),
      let d := perform TypeDecl.add (.new kind name) calls
      let protocols := calls.flatten.filterMap TypeDecl.Clause.conforms?
      Distinct.Lists TypeRef.same TypeRef.bare TypeRef.imports protocols d.protocols ∧
      d.imports = { d with protocols := protocols }.imports := by
  constructor
  · intro name calls m types parameters
    have htypes : m.typeVariables = Distinct.addAll TypeRef.same TypeRef.absorb [] types :=
      Method.typeVariables_perform name calls
    have hvariables : Distinct.Lists TypeRef.same TypeRef.bare TypeRef.imports types
        m.typeVariables := by
      rw [htypes]
      exact TypeRef.merges.lists types
    have hparameters : Distinct.Lists Parameter.declaresSame Parameter.bare Parameter.imports
        parameters m.parameters := by
      rw [show m.parameters = _ from Method.parameters_perform name calls]
      exact Parameter.merges.lists parameters
    refine ⟨hvariables, hparameters, ?_, ?_⟩
    · rw [htypes, TypeRef.merges.foldl_addUnder types (by simp)]
      rfl
    · apply SortedSet.ext_mem
      intro module
      rw [Method.mem_imports, Method.mem_imports, hvariables.mem_imports, hparameters.mem_imports]
  · intro kind name calls d protocols
    have hprotocols : Distinct.Lists TypeRef.same TypeRef.bare TypeRef.imports protocols
        d.protocols := by
      rw [show d.protocols = _ from TypeDecl.protocols_perform kind name calls]
      exact TypeRef.merges.lists protocols
    refine ⟨hprotocols, ?_⟩
    apply SortedSet.ext_mem
    intro module
    rw [TypeDecl.mem_imports, TypeDecl.mem_imports, hprotocols.mem_imports]

/-- A list and a plain name that is written like it are one parameter. The first
is listed with its description, and a module from inside of the second counts. -/
example :
    let m := Method.declare "sum"
      [.parameter (.declare "xs" (.named (.ofList ["Core"]) "[Int]")
        [.heading (.description "What to add.")]),
       .parameter (.declare "xs" (.array ∅ (.named (.ofList ["Base"]) "Int")) [])]
    m.parameters.map (fun p => p.heading.description) = [some "What to add."] ∧
      m.imports.toList = ["Base", "Core"] := by
  decide +kernel

end SwiftDecl
