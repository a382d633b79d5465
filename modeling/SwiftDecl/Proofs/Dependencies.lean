import SwiftDecl.Proofs.Parts

/-!
# Dependencies

The modules of a type are those declared somewhere in it. Where that may be is
laid down here position by position, without the unions that gather them: on a
heading, or on a type reference that the declaration names. Neither the kind of
the owner nor the depth of a nested type plays a part, so positions that are
never written count like any other. The bodies of methods are no position.
-/

set_option autoImplicit false

namespace SwiftDecl

namespace TypeRef

@[elab_as_elim]
theorem induct {motive : TypeRef → Prop} (named : ∀ own name, motive (.named own name))
    (optional : ∀ own wrapped, motive wrapped → motive (.optional own wrapped))
    (array : ∀ own element, motive element → motive (.array own element))
    (dictionary : ∀ own key value, motive key → motive value →
      motive (.dictionary own key value))
    (generic : ∀ own base arguments, (∀ a ∈ arguments, motive a) →
      motive (.generic own base arguments)) (r : TypeRef) : motive r :=
  @TypeRef.rec motive (fun l => ∀ a ∈ l, motive a) named optional array dictionary generic
    (by simp) (fun _ _ h hl => List.forall_mem_cons.2 ⟨h, hl⟩) r

/-- `r.Holds s`: the reference `s` is `r` or stands inside it. -/
inductive Holds : TypeRef → TypeRef → Prop
  | self (r : TypeRef) : Holds r r
  | wrapped {own : Modules} {wrapped s : TypeRef} (inside : Holds wrapped s) :
      Holds (.optional own wrapped) s
  | element {own : Modules} {element s : TypeRef} (inside : Holds element s) :
      Holds (.array own element) s
  | key {own : Modules} {key value s : TypeRef} (inside : Holds key s) :
      Holds (.dictionary own key value) s
  | value {own : Modules} {key value s : TypeRef} (inside : Holds value s) :
      Holds (.dictionary own key value) s
  | argument {own : Modules} {base : String} {arguments : List TypeRef} {a s : TypeRef}
      (member : a ∈ arguments) (inside : Holds a s) : Holds (.generic own base arguments) s

theorem mem_importsOfAll {module : String} {refs : List TypeRef} :
    module ∈ importsOfAll refs ↔ ∃ r ∈ refs, module ∈ r.imports := by
  induction refs with
  | nil => simp [importsOfAll]
  | cons r rest ih => simp [importsOfAll, ih]

theorem imports_of_holds {r s : TypeRef} (h : r.Holds s) {module : String}
    (hm : module ∈ s.ownImports) : module ∈ r.imports := by
  induction h with
  | self r => cases r <;> simp_all [imports, ownImports]
  | wrapped _ ih => simp [imports, ih hm]
  | element _ ih => simp [imports, ih hm]
  | key _ ih => simp [imports, ih hm]
  | value _ ih => simp [imports, ih hm]
  | argument member _ ih =>
    rw [imports, SortedSet.mem_union, mem_importsOfAll]
    exact Or.inr ⟨_, member, ih hm⟩

theorem holds_of_imports {r : TypeRef} {module : String} (h : module ∈ r.imports) :
    ∃ s, r.Holds s ∧ module ∈ s.ownImports := by
  induction r using TypeRef.induct with
  | named own name => exact ⟨_, .self _, h⟩
  | optional own wrapped ih =>
    rw [imports, SortedSet.mem_union] at h
    rcases h with h | h
    · exact ⟨_, .self _, h⟩
    · obtain ⟨s, hs, hm⟩ := ih h
      exact ⟨s, .wrapped hs, hm⟩
  | array own element ih =>
    rw [imports, SortedSet.mem_union] at h
    rcases h with h | h
    · exact ⟨_, .self _, h⟩
    · obtain ⟨s, hs, hm⟩ := ih h
      exact ⟨s, .element hs, hm⟩
  | dictionary own key value ihk ihv =>
    rw [imports, SortedSet.mem_union, SortedSet.mem_union] at h
    rcases h with (h | h) | h
    · exact ⟨_, .self _, h⟩
    · obtain ⟨s, hs, hm⟩ := ihk h
      exact ⟨s, .key hs, hm⟩
    · obtain ⟨s, hs, hm⟩ := ihv h
      exact ⟨s, .value hs, hm⟩
  | generic own base arguments ih =>
    rw [imports, SortedSet.mem_union, mem_importsOfAll] at h
    rcases h with h | ⟨a, ha, h⟩
    · exact ⟨_, .self _, h⟩
    · obtain ⟨s, hs, hm⟩ := ih a ha h
      exact ⟨s, .argument ha hs, hm⟩

theorem mem_imports {r : TypeRef} {module : String} :
    module ∈ r.imports ↔ ∃ s, r.Holds s ∧ module ∈ s.ownImports :=
  ⟨holds_of_imports, fun ⟨_, hs, hm⟩ => imports_of_holds hs hm⟩

end TypeRef

namespace Block

/-- `b.Mentions r`: the reference `r` stands in `b` or in a block nested in it,
however deep. -/
inductive Mentions : Block → TypeRef → Prop
  | here {block : Block} {r : TypeRef} (token : Token.type r ∈ block) : Mentions block r
  | inside {block inner : Block} {r : TypeRef} (token : Token.code inner ∈ block)
      (mention : Mentions inner r) : Mentions block r

theorem mem_importsOfAll {module : String} {tokens : List Token} :
    module ∈ Token.importsOfAll tokens ↔ ∃ t ∈ tokens, module ∈ t.imports := by
  induction tokens with
  | nil => simp [Token.importsOfAll]
  | cons t rest ih => simp [Token.importsOfAll, ih]

theorem mem_imports {block : Block} {module : String} :
    module ∈ block.imports ↔ ∃ r, block.Mentions r ∧ module ∈ r.imports := by
  constructor
  · intro h
    induction block using Block.induct with
    | step block ih =>
      obtain ⟨token, ht, hm⟩ := mem_importsOfAll.1 h
      cases token with
      | type r =>
        rw [Token.imports] at hm
        exact ⟨r, .here ht, hm⟩
      | code inner =>
        rw [Token.imports] at hm
        obtain ⟨r, hr, hm⟩ := ih inner ht hm
        exact ⟨r, .inside ht hr, hm⟩
      | _ => simp [Token.imports] at hm
  · rintro ⟨r, hr, hm⟩
    induction hr with
    | here ht => exact mem_importsOfAll.2 ⟨_, ht, by rwa [Token.imports]⟩
    | inside ht _ ih => exact mem_importsOfAll.2 ⟨_, ht, by rw [Token.imports]; exact ih hm⟩

end Block

namespace TypeDecl

/-- `d.Holds t`: the type `t` is `d` or stands inside it, however deep. -/
inductive Holds : TypeDecl → TypeDecl → Prop
  | self (d : TypeDecl) : Holds d d
  | nested {d n t : TypeDecl} (member : n ∈ d.nested) (inside : Holds n t) : Holds d t

/-- The headings of a type and of its members; those of nested types apart. -/
inductive Heads (d : TypeDecl) : Heading → Prop
  | own : Heads d d.heading
  | field {f : Field} (member : f ∈ d.fields) : Heads d f.heading
  | method {m : Method} (member : m ∈ d.methods) : Heads d m.heading
  | parameter {m : Method} {p : Parameter} (member : m ∈ d.methods) (listed : p ∈ m.parameters) :
      Heads d p.heading

/-- The references of a type and of its members on which modules count; those of
nested types apart. -/
inductive Names (d : TypeDecl) : TypeRef → Prop
  | superType {r : TypeRef} (named : d.superType = some r) : Names d r
  | conforms {r : TypeRef} (named : r ∈ d.protocols) : Names d r
  | fieldType {f : Field} {r : TypeRef} (member : f ∈ d.fields) (named : f.type = some r) :
      Names d r
  | initializer {f : Field} {b : Block} {r : TypeRef} (member : f ∈ d.fields)
      (code : f.initializer = some b) (named : b.Mentions r) : Names d r
  | typeVariable {m : Method} {r : TypeRef} (member : m ∈ d.methods)
      (named : r ∈ m.typeVariables) : Names d r
  | parameterType {m : Method} {p : Parameter} (member : m ∈ d.methods)
      (listed : p ∈ m.parameters) : Names d p.type
  | defaultValue {m : Method} {p : Parameter} {b : Block} {r : TypeRef} (member : m ∈ d.methods)
      (listed : p ∈ m.parameters) (code : p.defaultValue = some b) (named : b.Mentions r) :
      Names d r
  | returns {m : Method} {r : TypeRef} (member : m ∈ d.methods) (named : m.returns = some r) :
      Names d r

/-- `module` is declared somewhere in the type: on a heading, or on a reference
that is named or stands inside one that is. -/
inductive Declares (d : TypeDecl) (module : String) : Prop
  | heading {t : TypeDecl} {h : Heading} (inside : d.Holds t) (heads : t.Heads h)
      (declared : module ∈ h.imports) : Declares d module
  | reference {t : TypeDecl} {r s : TypeRef} (inside : d.Holds t) (names : t.Names r)
      (holds : r.Holds s) (declared : module ∈ s.ownImports) : Declares d module

end TypeDecl

theorem mem_imports_option {α : Type} {imports : α → Modules} {o : Option α} {module : String} :
    module ∈ (o.map imports).getD ∅ ↔ ∃ x, o = some x ∧ module ∈ imports x := by
  cases o <;> simp

theorem Parameter.mem_imports {p : Parameter} {module : String} :
    module ∈ p.imports ↔ module ∈ p.heading.imports ∨ module ∈ p.type.imports ∨
      ∃ b, p.defaultValue = some b ∧ ∃ r, b.Mentions r ∧ module ∈ r.imports := by
  simp only [Parameter.imports, SortedSet.mem_union, mem_imports_option, Block.mem_imports,
    or_assoc]

theorem Field.mem_imports {f : Field} {module : String} :
    module ∈ f.imports ↔ module ∈ f.heading.imports ∨
      (∃ r, f.type = some r ∧ module ∈ r.imports) ∨
      ∃ b, f.initializer = some b ∧ ∃ r, b.Mentions r ∧ module ∈ r.imports := by
  simp only [Field.imports, SortedSet.mem_union, mem_imports_option, Block.mem_imports, or_assoc]

theorem Method.mem_imports {m : Method} {module : String} :
    module ∈ m.imports ↔ module ∈ m.heading.imports ∨
      (∃ r ∈ m.typeVariables, module ∈ r.imports) ∨
      (∃ p ∈ m.parameters, module ∈ p.imports) ∨
      ∃ r, m.returns = some r ∧ module ∈ r.imports := by
  simp only [Method.imports, SortedSet.mem_union, mem_imports_option, TypeRef.mem_importsOfAll,
    Modules.mem_unions, List.mem_map, exists_exists_and_eq_and, or_assoc]

namespace TypeDecl

theorem mem_importsOfAll {module : String} {decls : List TypeDecl} :
    module ∈ importsOfAll decls ↔ ∃ d ∈ decls, module ∈ d.imports := by
  induction decls with
  | nil => simp [importsOfAll]
  | cons d rest ih => simp [importsOfAll, ih]

theorem mem_imports {d : TypeDecl} {module : String} :
    module ∈ d.imports ↔ module ∈ d.heading.imports ∨
      (∃ r, d.superType = some r ∧ module ∈ r.imports) ∨
      (∃ r ∈ d.protocols, module ∈ r.imports) ∨
      (∃ f ∈ d.fields, module ∈ f.imports) ∨
      (∃ m ∈ d.methods, module ∈ m.imports) ∨
      ∃ n ∈ d.nested, module ∈ n.imports := by
  cases d
  simp only [imports, SortedSet.mem_union, mem_imports_option, TypeRef.mem_importsOfAll,
    Modules.mem_unions, List.mem_map, exists_exists_and_eq_and, mem_importsOfAll, or_assoc]

theorem imports_of_field {d : TypeDecl} {f : Field} (member : f ∈ d.fields) {module : String}
    (hm : module ∈ f.imports) : module ∈ d.imports := by
  rw [mem_imports]
  exact Or.inr (Or.inr (Or.inr (Or.inl ⟨f, member, hm⟩)))

theorem imports_of_method {d : TypeDecl} {m : Method} (member : m ∈ d.methods) {module : String}
    (hm : module ∈ m.imports) : module ∈ d.imports := by
  rw [mem_imports]
  exact Or.inr (Or.inr (Or.inr (Or.inr (Or.inl ⟨m, member, hm⟩))))

theorem imports_of_parameter {d : TypeDecl} {m : Method} {p : Parameter} (member : m ∈ d.methods)
    (listed : p ∈ m.parameters) {module : String} (hm : module ∈ p.imports) :
    module ∈ d.imports := by
  apply imports_of_method member
  rw [Method.mem_imports]
  exact Or.inr (Or.inr (Or.inl ⟨p, listed, hm⟩))

theorem imports_of_nested {d n : TypeDecl} (member : n ∈ d.nested) {module : String}
    (hm : module ∈ n.imports) : module ∈ d.imports := by
  rw [mem_imports]
  exact Or.inr (Or.inr (Or.inr (Or.inr (Or.inr ⟨n, member, hm⟩))))

theorem imports_of_inside {d t : TypeDecl} (h : d.Holds t) {module : String}
    (hm : module ∈ t.imports) : module ∈ d.imports := by
  induction h with
  | self d => exact hm
  | nested member _ ih => exact imports_of_nested member (ih hm)

theorem imports_of_heads {d : TypeDecl} {h : Heading} (hh : d.Heads h) {module : String}
    (hm : module ∈ h.imports) : module ∈ d.imports := by
  cases hh with
  | own => exact mem_imports.2 (Or.inl hm)
  | field member => exact imports_of_field member (Field.mem_imports.2 (Or.inl hm))
  | method member => exact imports_of_method member (Method.mem_imports.2 (Or.inl hm))
  | parameter member listed =>
    exact imports_of_parameter member listed (Parameter.mem_imports.2 (Or.inl hm))

theorem imports_of_names {d : TypeDecl} {r : TypeRef} (hr : d.Names r) {module : String}
    (hm : module ∈ r.imports) : module ∈ d.imports := by
  cases hr with
  | superType named => exact mem_imports.2 (Or.inr (Or.inl ⟨r, named, hm⟩))
  | conforms named => exact mem_imports.2 (Or.inr (Or.inr (Or.inl ⟨r, named, hm⟩)))
  | fieldType member named =>
    exact imports_of_field member (Field.mem_imports.2 (Or.inr (Or.inl ⟨r, named, hm⟩)))
  | initializer member code named =>
    exact imports_of_field member
      (Field.mem_imports.2 (Or.inr (Or.inr ⟨_, code, r, named, hm⟩)))
  | typeVariable member named =>
    exact imports_of_method member (Method.mem_imports.2 (Or.inr (Or.inl ⟨r, named, hm⟩)))
  | parameterType member listed =>
    exact imports_of_parameter member listed (Parameter.mem_imports.2 (Or.inr (Or.inl hm)))
  | defaultValue member listed code named =>
    exact imports_of_parameter member listed
      (Parameter.mem_imports.2 (Or.inr (Or.inr ⟨_, code, r, named, hm⟩)))
  | returns member named =>
    exact imports_of_method member
      (Method.mem_imports.2 (Or.inr (Or.inr (Or.inr ⟨r, named, hm⟩))))

theorem declares_of_heads {d : TypeDecl} {h : Heading} (hh : d.Heads h) {module : String}
    (hm : module ∈ h.imports) : d.Declares module :=
  .heading (.self d) hh hm

theorem declares_of_names {d : TypeDecl} {r : TypeRef} (hr : d.Names r) {module : String}
    (hm : module ∈ r.imports) : d.Declares module := by
  obtain ⟨s, hs, hm⟩ := TypeRef.mem_imports.1 hm
  exact .reference (.self d) hr hs hm

theorem declares_of_nested {d n : TypeDecl} (member : n ∈ d.nested) {module : String}
    (h : n.Declares module) : d.Declares module := by
  cases h with
  | heading inside heads declared => exact .heading (.nested member inside) heads declared
  | reference inside names holds declared =>
    exact .reference (.nested member inside) names holds declared

theorem declares_of_field {d : TypeDecl} {f : Field} (member : f ∈ d.fields) {module : String}
    (h : module ∈ f.imports) : d.Declares module := by
  rcases Field.mem_imports.1 h with h | ⟨r, hr, h⟩ | ⟨b, hb, r, hr, h⟩
  · exact declares_of_heads (.field member) h
  · exact declares_of_names (.fieldType member hr) h
  · exact declares_of_names (.initializer member hb hr) h

theorem declares_of_parameter {d : TypeDecl} {m : Method} {p : Parameter}
    (member : m ∈ d.methods) (listed : p ∈ m.parameters) {module : String}
    (h : module ∈ p.imports) : d.Declares module := by
  rcases Parameter.mem_imports.1 h with h | h | ⟨b, hb, r, hr, h⟩
  · exact declares_of_heads (.parameter member listed) h
  · exact declares_of_names (.parameterType member listed) h
  · exact declares_of_names (.defaultValue member listed hb hr) h

theorem declares_of_method {d : TypeDecl} {m : Method} (member : m ∈ d.methods)
    {module : String} (h : module ∈ m.imports) : d.Declares module := by
  rcases Method.mem_imports.1 h with h | ⟨r, hr, h⟩ | ⟨p, hp, h⟩ | ⟨r, hr, h⟩
  · exact declares_of_heads (.method member) h
  · exact declares_of_names (.typeVariable member hr) h
  · exact declares_of_parameter member hp h
  · exact declares_of_names (.returns member hr) h

theorem declares_of_imports {d : TypeDecl} {module : String} (h : module ∈ d.imports) :
    d.Declares module := by
  induction d using TypeDecl.induct with
  | step d ih =>
    rcases mem_imports.1 h with h | ⟨r, hr, h⟩ | ⟨r, hr, h⟩ | ⟨f, hf, h⟩ | ⟨m, hm, h⟩ | ⟨n, hn, h⟩
    · exact declares_of_heads .own h
    · exact declares_of_names (.superType hr) h
    · exact declares_of_names (.conforms hr) h
    · exact declares_of_field hf h
    · exact declares_of_method hm h
    · exact declares_of_nested hn (ih n hn h)

mutual

/-- The type with other bodies for its methods and for those of the types inside
it. -/
def withBodies (body : Method → Option Block) : TypeDecl → TypeDecl
  | ⟨kind, heading, superType, protocols, fields, methods, nested⟩ =>
    ⟨kind, heading, superType, protocols, fields, methods.map fun m => { m with body := body m },
      withBodiesInAll body nested⟩

def withBodiesInAll (body : Method → Option Block) : List TypeDecl → List TypeDecl
  | [] => []
  | d :: rest => d.withBodies body :: withBodiesInAll body rest

end

theorem withBodiesInAll_eq (body : Method → Option Block) (decls : List TypeDecl) :
    withBodiesInAll body decls = decls.map (withBodies body) := by
  induction decls with
  | nil => simp [withBodiesInAll]
  | cons d rest ih => simp [withBodiesInAll, ih]

theorem importsOfAll_map {f : TypeDecl → TypeDecl} {decls : List TypeDecl}
    (h : ∀ d ∈ decls, (f d).imports = d.imports) :
    importsOfAll (decls.map f) = importsOfAll decls := by
  induction decls with
  | nil => rfl
  | cons d rest ih =>
    rw [List.map_cons, importsOfAll, importsOfAll, h d (by simp), ih fun n hn => h n (by simp [hn])]

theorem imports_withBodies (body : Method → Option Block) (d : TypeDecl) :
    (d.withBodies body).imports = d.imports := by
  induction d using TypeDecl.induct with
  | step d ih =>
    cases d with
    | mk kind heading superType protocols fields methods nested =>
      rw [withBodies, imports, imports, withBodiesInAll_eq, importsOfAll_map ih, List.map_map]
      rfl

end TypeDecl

/-- A type depends on a module exactly if the module is declared somewhere in
it. What the bodies of its methods mention makes no difference. -/
theorem imports_iff_declares (d : TypeDecl) :
    (∀ module, module ∈ d.imports ↔ d.Declares module) ∧
    ∀ body : Method → Option Block, (d.withBodies body).imports = d.imports := by
  constructor
  · intro module
    constructor
    · exact TypeDecl.declares_of_imports
    · intro h
      cases h with
      | heading inside heads declared =>
        exact TypeDecl.imports_of_inside inside (TypeDecl.imports_of_heads heads declared)
      | reference inside names holds declared =>
        have hr := TypeRef.imports_of_holds holds declared
        exact TypeDecl.imports_of_inside inside (TypeDecl.imports_of_names names hr)
  · exact fun body => TypeDecl.imports_withBodies body d

/-- A case is written without its type and a requirement without its
initializer, and both count. The body counts for nothing. -/
example :
    (TypeDecl.declare .enumType "signal"
      [.field (.declare "on" (some (.named (.ofList ["CaseKit"]) "Lamp")) []),
       .nested (.declare .protocolType "source"
        [.field (.declare "level" none
          [.initializer [.code [.type (.named (.ofList ["StartKit"]) "Zero")]]])]),
       .method (.declare "run"
        [.code [.type (.named (.ofList ["BodyKit"]) "Log")]])]).imports.toList =
      ["CaseKit", "StartKit"] := by
  decide +kernel

end SwiftDecl
