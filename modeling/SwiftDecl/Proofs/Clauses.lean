import SwiftDecl.Decl.TypeDecl
import SwiftDecl.Proofs.Phrases
import Mathlib.Data.List.Sort

/-!
# Clauses

A declaration is assembled from clauses, and each clause adds to one component.
So what becomes of a component depends on the clauses for it alone: a set on
which of them occur, a setter on the last of them, a flag on whether there is
one, a list on all of them in their order. Two lists of clauses that agree in
this, component by component, make the same declaration, however the clauses for
different components are mixed and however they are grouped into calls.
-/

set_option autoImplicit false

namespace SwiftDecl
open SwiftDecl.Layout

section Folds

variable {σ γ β δ : Type} (add : σ → γ → σ)

theorem kept_foldl (view : σ → β) (h : ∀ s c, view (add s c) = view s) (clauses : List γ)
    (s : σ) : view (clauses.foldl add s) = view s := by
  induction clauses generalizing s with
  | nil => rfl
  | cons c rest ih => rw [List.foldl_cons, ih, h]

theorem view_foldl (view : σ → β) (pick : γ → Option δ) (step : β → δ → β)
    (h : ∀ s c, view (add s c) = (pick c).elim (view s) (step (view s)))
    (clauses : List γ) (s : σ) :
    view (clauses.foldl add s) = (clauses.filterMap pick).foldl step (view s) := by
  induction clauses generalizing s with
  | nil => rfl
  | cons c rest ih =>
    rw [List.foldl_cons, ih, h]
    cases hc : pick c with
    | none => rw [List.filterMap_cons_none hc, Option.elim_none]
    | some y => rw [List.filterMap_cons_some hc, Option.elim_some, List.foldl_cons]

theorem last_foldl (view : σ → Option δ) (pick : γ → Option δ)
    (h : ∀ s c, view (add s c) = (pick c).or (view s)) (clauses : List γ) (s : σ) :
    view (clauses.foldl add s) = (clauses.filterMap pick).getLast?.or (view s) := by
  induction clauses generalizing s with
  | nil => rfl
  | cons c rest ih =>
    rw [List.foldl_cons, ih, h]
    cases hc : pick c with
    | none => rw [List.filterMap_cons_none hc, Option.none_or]
    | some y =>
      rw [List.filterMap_cons_some hc, List.getLast?_cons]
      cases (rest.filterMap pick).getLast? <;> rfl

theorem holds_foldl (P : σ → Prop) (clause : γ) (h : ∀ s c, P (add s c) ↔ c = clause ∨ P s)
    (clauses : List γ) (s : σ) : P (clauses.foldl add s) ↔ clause ∈ clauses ∨ P s := by
  induction clauses generalizing s with
  | nil => simp
  | cons c rest ih =>
    rw [List.foldl_cons, ih, h, List.mem_cons, eq_comm, or_left_comm, or_assoc]

/-- The state after calls, each of which may bring several clauses. -/
def perform (s : σ) (calls : List (List γ)) : σ :=
  calls.foldl (fun s clauses => clauses.foldl add s) s

theorem perform_eq (s : σ) (calls : List (List γ)) :
    perform add s calls = calls.flatten.foldl add s := by
  rw [perform, List.foldl_flatten]

end Folds

theorem SortedSet.ext_mem {α : Type} [LT α] [Std.Asymm fun x y : α => x < y] {s t : SortedSet α}
    (h : ∀ a, a ∈ s ↔ a ∈ t) : s = t :=
  SortedSet.ext_toList (s.sorted.eq_of_mem_iff t.sorted h)

instance : Std.Asymm fun a b : Modifier => a < b :=
  ⟨fun _ _ => Nat.lt_asymm⟩

attribute [ext] Heading Parameter Field Method TypeDecl

namespace Heading

def Clause.description? : Clause → Option String
  | .description text => some text
  | _ => none

structure Agree (a b : List Clause) : Prop where
  modifiers : ∀ m, Clause.modifier m ∈ a ↔ Clause.modifier m ∈ b
  imports : ∀ m, Clause.depends m ∈ a ↔ Clause.depends m ∈ b
  description :
    (a.filterMap Clause.description?).getLast? = (b.filterMap Clause.description?).getLast?

theorem mem_modifiers_foldl (m : Modifier) (clauses : List Clause) (h : Heading) :
    m ∈ (clauses.foldl add h).modifiers ↔ Clause.modifier m ∈ clauses ∨ m ∈ h.modifiers := by
  refine holds_foldl add (fun h => m ∈ h.modifiers) _ ?_ clauses h
  intro h c
  cases c <;> simp [add, eq_comm]

theorem mem_imports_foldl (m : String) (clauses : List Clause) (h : Heading) :
    m ∈ (clauses.foldl add h).imports ↔ Clause.depends m ∈ clauses ∨ m ∈ h.imports := by
  refine holds_foldl add (fun h => m ∈ h.imports) _ ?_ clauses h
  intro h c
  cases c <;> simp [add, eq_comm]

theorem Agree.foldl_eq {a b : List Clause} (hab : Agree a b) (h : Heading) :
    a.foldl add h = b.foldl add h := by
  have hname := kept_foldl add Heading.name fun _ c => by cases c <;> rfl
  have hdescription := last_foldl add Heading.description Clause.description?
    fun _ c => by cases c <;> rfl
  ext1
  · rw [hname, hname]
  · apply SortedSet.ext_mem
    intro m
    rw [mem_modifiers_foldl, mem_modifiers_foldl, hab.modifiers]
  · rw [hdescription, hdescription, hab.description]
  · apply SortedSet.ext_mem
    intro m
    rw [mem_imports_foldl, mem_imports_foldl, hab.imports]

end Heading

namespace Parameter

namespace Clause

def heading? : Clause → Option Heading.Clause
  | .heading clause => some clause
  | _ => none

def label? : Clause → Option String
  | .label text => some text
  | _ => none

def defaultValue? : Clause → Option Block
  | .defaultValue block => some block
  | _ => none

end Clause

theorem heading_foldl (clauses : List Clause) (p : Parameter) :
    (clauses.foldl add p).heading =
      (clauses.filterMap Clause.heading?).foldl Heading.add p.heading :=
  view_foldl add Parameter.heading Clause.heading? Heading.add (fun _ c => by cases c <;> rfl)
    clauses p

structure Agree (a b : List Clause) : Prop where
  heading : Heading.Agree (a.filterMap Clause.heading?) (b.filterMap Clause.heading?)
  label : (a.filterMap Clause.label?).getLast? = (b.filterMap Clause.label?).getLast?
  defaultValue :
    (a.filterMap Clause.defaultValue?).getLast? = (b.filterMap Clause.defaultValue?).getLast?

theorem Agree.foldl_eq {a b : List Clause} (hab : Agree a b) (p : Parameter) :
    a.foldl add p = b.foldl add p := by
  have htype := kept_foldl add Parameter.type fun _ c => by cases c <;> rfl
  have hlabel := last_foldl add Parameter.label Clause.label? fun _ c => by cases c <;> rfl
  have hdefault := last_foldl add Parameter.defaultValue Clause.defaultValue?
    fun _ c => by cases c <;> rfl
  ext1
  · rw [heading_foldl, heading_foldl, hab.heading.foldl_eq]
  · rw [htype, htype]
  · rw [hlabel, hlabel, hab.label]
  · rw [hdefault, hdefault, hab.defaultValue]

end Parameter

namespace Field

namespace Clause

def heading? : Clause → Option Heading.Clause
  | .heading clause => some clause
  | _ => none

def initializer? : Clause → Option Block
  | .initializer block => some block
  | _ => none

def parent? : Clause → Option Construct
  | .parent construct => some construct
  | _ => none

end Clause

theorem heading_foldl (clauses : List Clause) (f : Field) :
    (clauses.foldl add f).heading =
      (clauses.filterMap Clause.heading?).foldl Heading.add f.heading :=
  view_foldl add Field.heading Clause.heading? Heading.add (fun _ c => by cases c <;> rfl) clauses f

structure Agree (a b : List Clause) : Prop where
  heading : Heading.Agree (a.filterMap Clause.heading?) (b.filterMap Clause.heading?)
  mutable : Clause.mutable ∈ a ↔ Clause.mutable ∈ b
  initializer :
    (a.filterMap Clause.initializer?).getLast? = (b.filterMap Clause.initializer?).getLast?
  parent : (a.filterMap Clause.parent?).getLast? = (b.filterMap Clause.parent?).getLast?

theorem Agree.foldl_eq {a b : List Clause} (hab : Agree a b) (f : Field) :
    a.foldl add f = b.foldl add f := by
  have htype := kept_foldl add Field.type fun _ c => by cases c <;> rfl
  have hmutable := holds_foldl add (fun f => f.isMutable = true) .mutable
    fun _ c => by cases c <;> simp [add]
  have hinitializer := last_foldl add Field.initializer Clause.initializer?
    fun _ c => by cases c <;> rfl
  have hparent := last_foldl add Field.parent Clause.parent? fun _ c => by cases c <;> rfl
  ext1
  · rw [heading_foldl, heading_foldl, hab.heading.foldl_eq]
  · rw [htype, htype]
  · rw [Bool.eq_iff_iff, hmutable, hmutable, hab.mutable]
  · rw [hinitializer, hinitializer, hab.initializer]
  · rw [hparent, hparent, hab.parent]

end Field

namespace Method

namespace Clause

def heading? : Clause → Option Heading.Clause
  | .heading clause => some clause
  | _ => none

def typeVariable? : Clause → Option TypeRef
  | .typeVariable type => some type
  | _ => none

def returns? : Clause → Option TypeRef
  | .returns type => some type
  | _ => none

def parameter? : Clause → Option Parameter
  | .parameter p => some p
  | _ => none

def code? : Clause → Option Block
  | .code block => some block
  | _ => none

def parent? : Clause → Option Construct
  | .parent construct => some construct
  | _ => none

end Clause

theorem heading_foldl (clauses : List Clause) (m : Method) :
    (clauses.foldl add m).heading =
      (clauses.filterMap Clause.heading?).foldl Heading.add m.heading :=
  view_foldl add Method.heading Clause.heading? Heading.add (fun _ c => by cases c <;> rfl)
    clauses m

structure Agree (a b : List Clause) : Prop where
  heading : Heading.Agree (a.filterMap Clause.heading?) (b.filterMap Clause.heading?)
  typeVariables : a.filterMap Clause.typeVariable? = b.filterMap Clause.typeVariable?
  throwing : Clause.throwing ∈ a ↔ Clause.throwing ∈ b
  returns : (a.filterMap Clause.returns?).getLast? = (b.filterMap Clause.returns?).getLast?
  parameters : a.filterMap Clause.parameter? = b.filterMap Clause.parameter?
  code : a.filterMap Clause.code? = b.filterMap Clause.code?
  parent : (a.filterMap Clause.parent?).getLast? = (b.filterMap Clause.parent?).getLast?

theorem Agree.foldl_eq {a b : List Clause} (hab : Agree a b) (m : Method) :
    a.foldl add m = b.foldl add m := by
  have hvariables := view_foldl add Method.typeVariables Clause.typeVariable?
    (fun kept type => Distinct.add TypeRef.same TypeRef.absorb type kept)
    fun _ c => by cases c <;> rfl
  have hthrowing := holds_foldl add (fun m => m.canThrow = true) .throwing
    fun _ c => by cases c <;> simp [add]
  have hreturns := last_foldl add Method.returns Clause.returns? fun _ c => by cases c <;> rfl
  have hparameters := view_foldl add Method.parameters Clause.parameter?
    (fun kept p => Distinct.add Parameter.declaresSame Parameter.absorb p kept)
    fun _ c => by cases c <;> rfl
  have hcode := view_foldl add Method.body Clause.code?
    (fun body block => some (body.getD [] ++ block)) fun _ c => by cases c <;> rfl
  have hparent := last_foldl add Method.parent Clause.parent? fun _ c => by cases c <;> rfl
  ext1
  · rw [heading_foldl, heading_foldl, hab.heading.foldl_eq]
  · rw [hvariables, hvariables, hab.typeVariables]
  · rw [Bool.eq_iff_iff, hthrowing, hthrowing, hab.throwing]
  · rw [hreturns, hreturns, hab.returns]
  · rw [hparameters, hparameters, hab.parameters]
  · rw [hcode, hcode, hab.code]
  · rw [hparent, hparent, hab.parent]

end Method

namespace TypeDecl

namespace Clause

def heading? : Clause → Option Heading.Clause
  | .heading clause => some clause
  | _ => none

def superType? : Clause → Option TypeRef
  | .superType type => some type
  | _ => none

def conforms? : Clause → Option TypeRef
  | .conforms type => some type
  | _ => none

def field? : Clause → Option Field
  | .field f => some f
  | _ => none

def method? : Clause → Option Method
  | .method m => some m
  | _ => none

def nested? : Clause → Option TypeDecl
  | .nested decl => some decl
  | _ => none

end Clause

theorem heading_foldl (clauses : List Clause) (d : TypeDecl) :
    (clauses.foldl add d).heading =
      (clauses.filterMap Clause.heading?).foldl Heading.add d.heading :=
  view_foldl add TypeDecl.heading Clause.heading? Heading.add (fun _ c => by cases c <;> rfl)
    clauses d

structure Agree (a b : List Clause) : Prop where
  heading : Heading.Agree (a.filterMap Clause.heading?) (b.filterMap Clause.heading?)
  superType : (a.filterMap Clause.superType?).getLast? = (b.filterMap Clause.superType?).getLast?
  protocols : a.filterMap Clause.conforms? = b.filterMap Clause.conforms?
  fields : a.filterMap Clause.field? = b.filterMap Clause.field?
  methods : a.filterMap Clause.method? = b.filterMap Clause.method?
  nested : a.filterMap Clause.nested? = b.filterMap Clause.nested?

theorem Agree.foldl_eq {a b : List Clause} (hab : Agree a b) (d : TypeDecl) :
    a.foldl add d = b.foldl add d := by
  have hkind := kept_foldl add TypeDecl.kind fun _ c => by cases c <;> rfl
  have hsuper := last_foldl add TypeDecl.superType Clause.superType? fun _ c => by cases c <;> rfl
  have hprotocols := view_foldl add TypeDecl.protocols Clause.conforms?
    (fun kept type => Distinct.add TypeRef.same TypeRef.absorb type kept)
    fun _ c => by cases c <;> rfl
  -- What a member becomes depends on the kind, so the kind goes along with them.
  have hfields := view_foldl add (fun d => (d.kind, d.fields)) Clause.field?
    (fun s f => (s.1, s.2 ++ [f.adopt s.1])) fun _ c => by cases c <;> rfl
  have hmethods := view_foldl add (fun d => (d.kind, d.methods)) Clause.method?
    (fun s m => (s.1, s.2 ++ [m.adopt s.1])) fun _ c => by cases c <;> rfl
  have hnested := view_foldl add TypeDecl.nested Clause.nested?
    (fun kept decl => kept ++ [decl]) fun _ c => by cases c <;> rfl
  ext1
  · rw [hkind, hkind]
  · rw [heading_foldl, heading_foldl, hab.heading.foldl_eq]
  · rw [hsuper, hsuper, hab.superType]
  · rw [hprotocols, hprotocols, hab.protocols]
  · have hsame := (hfields a d).trans (hab.fields ▸ (hfields b d).symm)
    exact congrArg Prod.snd hsame
  · have hsame := (hmethods a d).trans (hab.methods ▸ (hmethods b d).symm)
    exact congrArg Prod.snd hsame
  · rw [hnested, hnested, hab.nested]

end TypeDecl

theorem Modifier.all_sorted : Modifier.all.Pairwise (· < ·) := by
  decide

theorem Modifier.mem_all (m : Modifier) : m ∈ Modifier.all := by
  cases m <;> decide

theorem Modifiers.toList_eq (modifiers : Modifiers) :
    modifiers.toList = Modifier.all.filter (modifiers.contains ·) := by
  apply modifiers.sorted.eq_of_mem_iff (Modifier.all_sorted.filter _)
  intro m
  simp [SortedSet.contains, Modifier.mem_all]

theorem Modifiers.sublist_all (modifiers : Modifiers) : modifiers.toList.Sublist Modifier.all := by
  rw [Modifiers.toList_eq]
  exact List.filter_sublist

theorem Heading.run_modifierOps (h : Heading) {w : Writer} (hw : w.atLineStart = true) :
    (w.run h.modifierOps).text.toList = w.text.toList ++
      (if h.modifiers.toList = [] then [] else w.margin) ++
      (" ".intercalate (h.modifiers.toList.map Modifier.keyword)).toList := by
  by_cases hne : h.modifiers.toList = []
  · simp [Heading.modifierOps, hne, Writer.run]
  · rw [if_neg hne]
    exact (Writer.run_phrase h.modifiers_say (by simpa using hne) hw).2

/-- Calls that agree component by component make the same declaration from the
same start, so they write the same and depend on the same modules. The heading of
what they make is what the calls for the heading make of it, and its modifiers
are written once each and in their order, whatever the order of insertion. -/
theorem calls_commute :
    (∀ (p : Parameter) (a b : List (List Parameter.Clause)),
      Parameter.Agree a.flatten b.flatten →
        perform Parameter.add p a = perform Parameter.add p b) ∧
    (∀ (f : Field) (a b : List (List Field.Clause)), Field.Agree a.flatten b.flatten →
      perform Field.add f a = perform Field.add f b) ∧
    (∀ (m : Method) (a b : List (List Method.Clause)), Method.Agree a.flatten b.flatten →
      perform Method.add m a = perform Method.add m b) ∧
    (∀ (d : TypeDecl) (a b : List (List TypeDecl.Clause)), TypeDecl.Agree a.flatten b.flatten →
      perform TypeDecl.add d a = perform TypeDecl.add d b) ∧
    (∀ (p : Parameter) (calls : List (List Parameter.Clause)),
      (perform Parameter.add p calls).heading =
        perform Heading.add p.heading (calls.map (List.filterMap Parameter.Clause.heading?))) ∧
    (∀ (f : Field) (calls : List (List Field.Clause)),
      (perform Field.add f calls).heading =
        perform Heading.add f.heading (calls.map (List.filterMap Field.Clause.heading?))) ∧
    (∀ (m : Method) (calls : List (List Method.Clause)),
      (perform Method.add m calls).heading =
        perform Heading.add m.heading (calls.map (List.filterMap Method.Clause.heading?))) ∧
    (∀ (d : TypeDecl) (calls : List (List TypeDecl.Clause)),
      (perform TypeDecl.add d calls).heading =
        perform Heading.add d.heading (calls.map (List.filterMap TypeDecl.Clause.heading?))) ∧
    ∀ (h : Heading) (calls : List (List Heading.Clause)), ∃ shown : List Modifier,
      shown.Sublist Modifier.all ∧
      (∀ m, m ∈ shown ↔ .modifier m ∈ calls.flatten ∨ m ∈ h.modifiers) ∧
      ∀ w : Writer, w.atLineStart = true →
        (w.run (perform Heading.add h calls).modifierOps).text.toList =
          w.text.toList ++ (if shown = [] then [] else w.margin) ++
            (" ".intercalate (shown.map Modifier.keyword)).toList := by
  refine ⟨?_, ?_, ?_, ?_, ?_, ?_, ?_, ?_, ?_⟩
  · intro p a b hab
    rw [perform_eq, perform_eq, hab.foldl_eq]
  · intro f a b hab
    rw [perform_eq, perform_eq, hab.foldl_eq]
  · intro m a b hab
    rw [perform_eq, perform_eq, hab.foldl_eq]
  · intro d a b hab
    rw [perform_eq, perform_eq, hab.foldl_eq]
  · intro p calls
    rw [perform_eq, perform_eq, Parameter.heading_foldl, List.filterMap_flatten]
  · intro f calls
    rw [perform_eq, perform_eq, Field.heading_foldl, List.filterMap_flatten]
  · intro m calls
    rw [perform_eq, perform_eq, Method.heading_foldl, List.filterMap_flatten]
  · intro d calls
    rw [perform_eq, perform_eq, TypeDecl.heading_foldl, List.filterMap_flatten]
  · intro h calls
    rw [perform_eq]
    refine ⟨(calls.flatten.foldl Heading.add h).modifiers.toList, Modifiers.sublist_all _, ?_, ?_⟩
    · intro m
      exact Heading.mem_modifiers_foldl m calls.flatten h
    · intro w hw
      exact Heading.run_modifierOps _ hw

section Mixed

def mixedHeading : List Heading.Clause :=
  [.modifier .static, .description "old", .modifier .publicAccess, .depends "Network",
   .modifier .static, .description "new"]

def tidyHeading : List Heading.Clause :=
  [.description "new", .depends "Network", .depends "Network", .modifier .publicAccess,
   .modifier .static]

theorem heading_agree : Heading.Agree mixedHeading tidyHeading where
  modifiers := by
    intro m
    simp [mixedHeading, tidyHeading]
    tauto
  imports := by
    intro m
    simp [mixedHeading, tidyHeading]
  description := rfl

def mixedParameter : List (List Parameter.Clause) :=
  [[.label "of"], mixedHeading.map .heading, [.label "with"]]

def tidyParameter : List (List Parameter.Clause) :=
  [tidyHeading.map .heading, [.label "with"]]

theorem parameter_agree : Parameter.Agree mixedParameter.flatten tidyParameter.flatten :=
  ⟨heading_agree, rfl, rfl⟩

def mixedField : List (List Field.Clause) :=
  [[.mutable, .parent (.type .enumType)], mixedHeading.map .heading,
   [.parent (.type .structType), .mutable]]

def tidyField : List (List Field.Clause) :=
  [tidyHeading.map .heading, [.mutable], [.parent (.type .structType)]]

theorem field_agree : Field.Agree mixedField.flatten tidyField.flatten :=
  ⟨heading_agree, by simp [mixedField, tidyField], rfl, rfl⟩

def mixedMethod : List (List Method.Clause) :=
  [[.code [.literal "first()"]], [.throwing], mixedHeading.map .heading,
   [.parameter (.declare "id" (.named ∅ "Int") [])], [.code [.literal "second()"]]]

def tidyMethod : List (List Method.Clause) :=
  [tidyHeading.map .heading, [.parameter (.declare "id" (.named ∅ "Int") [])],
   [.code [.literal "first()"], .code [.literal "second()"]], [.throwing]]

theorem method_agree : Method.Agree mixedMethod.flatten tidyMethod.flatten :=
  ⟨heading_agree, rfl, by simp [mixedMethod, tidyMethod], rfl, rfl, rfl, rfl⟩

def mixedType : List (List TypeDecl.Clause) :=
  [[.method (.declare "run" [])], mixedHeading.map .heading,
   [.field (.declare "a" none []), .field (.declare "b" none [])],
   [.conforms (.named ∅ "Codable")]]

def tidyType : List (List TypeDecl.Clause) :=
  [tidyHeading.map .heading, [.conforms (.named ∅ "Codable")], [.field (.declare "a" none [])],
   [.field (.declare "b" none [])], [.method (.declare "run" [])]]

theorem type_agree : TypeDecl.Agree mixedType.flatten tidyType.flatten :=
  ⟨heading_agree, rfl, rfl, rfl, rfl, rfl⟩

theorem calls_commute_mixed :
    perform Parameter.add (.new "id" (.named ∅ "Int")) mixedParameter =
      perform Parameter.add (.new "id" (.named ∅ "Int")) tidyParameter ∧
    perform Field.add (.new "count" none) mixedField =
      perform Field.add (.new "count" none) tidyField ∧
    perform Method.add (.new "load") mixedMethod = perform Method.add (.new "load") tidyMethod ∧
    perform TypeDecl.add (.new .structType "User") mixedType =
      perform TypeDecl.add (.new .structType "User") tidyType :=
  ⟨calls_commute.1 _ _ _ parameter_agree, calls_commute.2.1 _ _ _ field_agree,
    calls_commute.2.2.1 _ _ _ method_agree, calls_commute.2.2.2.1 _ _ _ type_agree⟩

end Mixed

end SwiftDecl
