import SwiftDecl.File.SourceFile
import SwiftDecl.Proofs.Clauses
import Mathlib.Data.List.DropRight

/-!
# The import section

Modules come into an import section in two ways: by name, which trims them and
leaves out what is blank, or as the modules of a node, which are taken over as
they were declared. So the two ways agree on a node exactly if its modules were
declared trimmed, and a section holds a module that is not trimmed exactly if it
took over a node with one.
-/

set_option autoImplicit false

namespace SwiftDecl
open SwiftDecl.Text

namespace Text

structure IsTrimmed (text : List Char) : Prop where
  nonempty : text ≠ []
  start : ∀ c ∈ text.head?, isBlank c = false
  stop : ∀ c ∈ text.getLast?, isBlank c = false

-- The characters at the ends are looked up in the text, not among all characters.
instance (text : List Char) : Decidable (IsTrimmed text) :=
  have := Option.decidableForallMem (p := fun c => isBlank c = false) text.head?
  have := Option.decidableForallMem (p := fun c => isBlank c = false) text.getLast?
  decidable_of_iff (text ≠ [] ∧ _ ∧ _)
    ⟨fun h => ⟨h.1, h.2.1, h.2.2⟩, fun h => ⟨h.nonempty, h.start, h.stop⟩⟩

theorem trimEnd_prefix (text : List Char) : trimEnd text <+: text :=
  List.rdropWhile_prefix isBlank text

theorem trim_isTrimmed {text : List Char} (h : trim text ≠ []) : IsTrimmed (trim text) where
  nonempty := h
  start := by
    intro c hc
    obtain ⟨first, rest, ht⟩ := List.exists_cons_of_ne_nil h
    obtain ⟨tail, hp⟩ := trimEnd_prefix (trimStart text)
    have hstart : (text.dropWhile isBlank).head? = some c := by
      rw [← trimStart, ← hp, ← trim, ht, List.cons_append, List.head?_cons]
      rwa [ht] at hc
    have hblank := List.head?_dropWhile_not isBlank text
    rwa [hstart] at hblank
  stop := by
    intro c hc
    have hlast := List.rdropWhile_last_not isBlank (trimStart text) h
    rw [Option.mem_def, List.getLast?_eq_some_getLast h, Option.some.injEq] at hc
    rw [← hc]
    exact Bool.eq_false_iff.2 hlast

theorem IsTrimmed.trim_eq {text : List Char} (h : IsTrimmed text) : trim text = text := by
  have hstart : trimStart text = text := by
    obtain ⟨first, rest, rfl⟩ := List.exists_cons_of_ne_nil h.nonempty
    exact List.dropWhile_cons_of_neg (by simp [h.start first rfl])
  rw [trim, hstart]
  refine (List.rdropWhile_eq_self_iff (p := isBlank)).2 fun hne => ?_
  simp [h.stop _ (List.getLast?_eq_some_getLast hne)]

end Text

namespace Modules

def IsName (name : String) : Prop :=
  IsTrimmed name.toList

instance (name : String) : Decidable (IsName name) :=
  inferInstanceAs (Decidable (IsTrimmed name.toList))

theorem trimmed_isName {name : String} (h : trimmed name ≠ "") : IsName (trimmed name) := by
  rw [IsName, trimmed, String.toList_ofList]
  apply trim_isTrimmed
  simpa [trimmed] using h

theorem IsName.ne_empty {name : String} (h : IsName name) : name ≠ "" :=
  fun he => h.nonempty (by rw [he]; rfl)

theorem IsName.trimmed_eq {name : String} (h : IsName name) : trimmed name = name := by
  rw [trimmed, IsTrimmed.trim_eq h, String.ofList_toList]

theorem mem_add {modules : Modules} {name module : String} :
    module ∈ modules.add name ↔ module ∈ modules ∨ module = trimmed name ∧ module ≠ "" := by
  unfold add
  by_cases h : trimmed name = ""
  · rw [if_pos h, h]
    simp
  · rw [if_neg h, SortedSet.mem_insert]
    constructor
    · rintro (rfl | hm)
      · exact Or.inr ⟨rfl, h⟩
      · exact Or.inl hm
    · rintro (hm | ⟨rfl, -⟩)
      · exact Or.inr hm
      · exact Or.inl rfl

theorem mem_foldl_add {names : List String} {modules : Modules} {module : String} :
    module ∈ names.foldl add modules ↔
      module ∈ modules ∨ (∃ name ∈ names, module = trimmed name) ∧ module ≠ "" := by
  induction names generalizing modules with
  | nil => simp
  | cons name rest ih =>
    rw [List.foldl_cons, ih, mem_add]
    simp only [List.mem_cons, exists_eq_or_imp]
    rw [or_assoc, or_and_right]

theorem mem_addAll {modules more : Modules} {module : String} :
    module ∈ modules.addAll more ↔
      module ∈ modules ∨ (∃ name ∈ more, module = trimmed name) ∧ module ≠ "" :=
  mem_foldl_add

theorem forall_add {modules : Modules} {name : String} :
    (∀ m ∈ modules.add name, IsName m) ↔ ∀ m ∈ modules, IsName m := by
  constructor
  · exact fun h m hm => h m (mem_add.2 (Or.inl hm))
  · intro h m hm
    rcases mem_add.1 hm with hm | ⟨rfl, hne⟩
    · exact h m hm
    · exact trimmed_isName hne

theorem forall_addAll {modules more : Modules} :
    (∀ m ∈ modules.addAll more, IsName m) ↔ ∀ m ∈ modules, IsName m := by
  constructor
  · exact fun h m hm => h m (mem_addAll.2 (Or.inl hm))
  · intro h m hm
    rcases mem_addAll.1 hm with hm | ⟨⟨name, -, rfl⟩, hne⟩
    · exact h m hm
    · exact trimmed_isName hne

theorem eq_addAll_empty_iff (modules : Modules) :
    modules = addAll ∅ modules ↔ ∀ m ∈ modules, IsName m := by
  constructor
  · intro h
    rw [h, forall_addAll]
    simp
  · intro h
    apply SortedSet.ext_mem
    intro m
    rw [mem_addAll]
    constructor
    · intro hm
      exact Or.inr ⟨⟨m, hm, (h m hm).trimmed_eq.symm⟩, (h m hm).ne_empty⟩
    · rintro (hm | ⟨⟨name, hname, rfl⟩, -⟩)
      · exact absurd hm (SortedSet.not_mem_empty m)
      · rwa [(h name hname).trimmed_eq]

theorem nodup (modules : Modules) : modules.toList.Nodup := by
  refine modules.sorted.imp ?_
  rintro a _ h rfl
  exact String.lt_irrefl a h

structure Imports (names : List String) (text : String) : Prop where
  distinct : names.Nodup
  named : ∀ m ∈ names, IsName m
  written : text.toList = names.flatMap fun m => "import ".toList ++ m.toList ++ ['\n']
  lines : (∀ m ∈ names, '\n' ∉ m.toList) →
    pieces text.toList = names.map (fun m => "import ".toList ++ m.toList) ++ [[]]

theorem render_toList (modules : Modules) :
    modules.render.toList =
      modules.toList.flatMap fun m => "import ".toList ++ m.toList ++ ['\n'] := by
  simp [render, importLine, List.flatMap_map]

theorem render_imports {modules : Modules} (h : ∀ m ∈ modules, IsName m) :
    Imports modules.toList modules.render where
  distinct := modules.nodup
  named := h
  written := modules.render_toList
  lines := by
    intro hfeed
    have hlines : modules.render.toList =
        (modules.toList.map fun m => "import ".toList ++ m.toList).flatMap
          (fun line => line ++ ['\n']) ++ [] := by
      rw [render_toList, List.flatMap_map, List.append_nil]
    rw [hlines, pieces_lines _ (by simp)]
    intro line hl
    obtain ⟨m, hm, rfl⟩ := List.mem_map.1 hl
    simp [hfeed m hm]

end Modules

/-- How the modules of an import section are gathered. -/
inductive Gathering where
  | nothing
  | ofNode (node : Node)
  | add (before : Gathering) (name : String)
  | extend (before : Gathering) (node : Node)
  | merge (before other : Gathering)

namespace Gathering

def modules : Gathering → Modules
  | .nothing => ∅
  | .ofNode node => node.imports
  | .add before name => before.modules.add name
  | .extend before node => before.modules.addAll node.imports
  | .merge before other => before.modules ∪ other.modules

/-- The nodes whose modules were taken over as they were declared. -/
def copied : Gathering → List Node
  | .nothing => []
  | .ofNode node => [node]
  | .add before _ => before.copied
  | .extend before _ => before.copied
  | .merge before other => before.copied ++ other.copied

theorem isName_iff (g : Gathering) :
    (∀ m ∈ g.modules, Modules.IsName m) ↔
      ∀ node ∈ g.copied, ∀ m ∈ node.imports, Modules.IsName m := by
  induction g with
  | nothing => simp [modules, copied]
  | ofNode node => simp [modules, copied]
  | add before name ih => rw [modules, Modules.forall_add, ih, copied]
  | extend before node ih => rw [modules, Modules.forall_addAll, ih, copied]
  | merge before other ihb iho =>
    rw [copied, List.forall_mem_append, ← ihb, ← iho, modules]
    simp only [SortedSet.mem_union, or_imp, forall_and]

end Gathering

/-- The modules of a node are the same by both ways exactly if they were declared
trimmed, and a gathering holds trimmed modules only exactly if that goes for the
nodes that it took over. Then each of its modules is imported once. A file takes
over the modules of its declaration. -/
theorem gathered_trimmed_iff (node : Node) (g : Gathering) (file : SourceFile) (today : Date) :
    ((Gathering.ofNode node).modules = (Gathering.extend .nothing node).modules ↔
      ∀ m ∈ node.imports, Modules.IsName m) ∧
    ((∀ m ∈ g.modules, Modules.IsName m) ↔
      ∀ node ∈ g.copied, ∀ m ∈ node.imports, Modules.IsName m) ∧
    ((∀ node ∈ g.copied, ∀ m ∈ node.imports, Modules.IsName m) →
      Modules.Imports g.modules.toList g.modules.render) ∧
    ((∀ m ∈ file.decl.imports, Modules.IsName m) →
      file.decl.imports = ∅ ∧
          file.contents today = file.header today ++ "\n" ++ file.writer.text ∨
        ∃ list, Modules.Imports file.decl.imports.toList list ∧
          file.contents today =
            file.header today ++ "\n" ++ (list ++ "\n") ++ file.writer.text) := by
  refine ⟨Modules.eq_addAll_empty_iff node.imports, g.isName_iff, ?_, ?_⟩
  · exact fun hc => Modules.render_imports (g.isName_iff.2 hc)
  · intro h
    rw [SourceFile.contents, SourceFile.importSection, SourceFile.imports]
    by_cases he : file.decl.imports.isEmpty = true
    · have hnone : file.decl.imports = ∅ := SortedSet.ext_toList (List.isEmpty_iff.1 he)
      rw [if_pos he, String.append_empty]
      exact Or.inl ⟨hnone, rfl⟩
    · rw [if_neg he]
      exact Or.inr ⟨_, Modules.render_imports h, rfl⟩

def kits : Gathering :=
  .merge
    (.add (.extend .nothing (.block [.type (.named (.ofList [" UIKit", "\t"]) "View")])) "UIKit ")
    (.ofNode (.ref (.array ∅ (.named (.ofList ["Foundation"]) "Date"))))

def dated : SourceFile :=
  ⟨.declare .structType "Event"
    [.field (.declare "at" (some (.named (.ofList ["Foundation"]) "Date")) [])], .standard, none⟩

theorem gathered_trimmed_iff_kits :
    (∀ node ∈ kits.copied, ∀ m ∈ node.imports.toList, Modules.IsName m) ∧
    (∀ m ∈ dated.decl.imports.toList, Modules.IsName m) ∧
    Modules.Imports kits.modules.toList kits.modules.render ∧
    kits.modules.render = "import Foundation\nimport UIKit\n" ∧
    ∃ list, Modules.Imports ["Foundation"] list ∧ dated.contents ⟨2018, 4, 24⟩ =
      dated.header ⟨2018, 4, 24⟩ ++ "\n" ++ (list ++ "\n") ++ dated.writer.text := by
  have hcopied : ∀ node ∈ kits.copied, ∀ m ∈ node.imports.toList, Modules.IsName m := by
    decide +kernel
  have hdated : ∀ m ∈ dated.decl.imports.toList, Modules.IsName m := by
    decide +kernel
  obtain ⟨-, -, hkits, hfile⟩ :=
    gathered_trimmed_iff (.ref (.named ∅ "Int")) kits dated ⟨2018, 4, 24⟩
  refine ⟨hcopied, hdated, hkits hcopied, by decide +kernel, ?_⟩
  rcases hfile hdated with ⟨hnone, -⟩ | hlist
  · exact absurd (congrArg SortedSet.toList hnone) (by decide +kernel)
  · exact hlist

def stamped : TypeRef :=
  .named (.ofList ["Foundation", " Foundation", ""]) "Date"

def stampedFile : SourceFile :=
  ⟨.declare .structType "Event" [.field (.declare "at" (some stamped) [])],
    { Options.standard with addGenerationDate := false }, none⟩

/-- Taken over, the modules are one import of nothing and two of the same module,
and so they are in a file. By name there is one. -/
theorem copied_untrimmed :
    (Gathering.ofNode (.ref stamped)).modules ≠
      (Gathering.extend .nothing (.ref stamped)).modules ∧
    (Gathering.ofNode (.ref stamped)).modules.render =
      "import \nimport  Foundation\nimport Foundation\n" ∧
    (Gathering.extend .nothing (.ref stamped)).modules.render = "import Foundation\n" ∧
    stampedFile.contents ⟨2018, 4, 24⟩ = stampedFile.header ⟨2018, 4, 24⟩ ++
      "\nimport \nimport  Foundation\nimport Foundation\n\n" ++
      "struct Event \x7b\n    let at: Date\n\x7d\n" := by
  decide +kernel

end SwiftDecl
