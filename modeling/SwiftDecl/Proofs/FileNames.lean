import SwiftDecl.File.Generate
import SwiftDecl.Proofs.Components
import SwiftDecl.Proofs.SafeNames

/-!
# File names

The name of a source file is made from the name of the type in it, and that may
be any text. Cleaning leaves no separator and no blank, so the file is an entry
of the directory it is written to, whatever the type is called. The name of an
extension keeps its dots, but a cleaned segment is never empty, and the ending
comes behind it: no name is a dot or two.
-/

set_option autoImplicit false

namespace SwiftDecl
open SwiftDecl.Text

theorem Name.typeName_dotFree (raw : String) : '.' ∉ (Name.typeName raw).toList := by
  intro h
  exact absurd (Name.typeName_nameChar raw '.' h) (by decide)

namespace TypeDecl

theorem typeName_segments {d : TypeDecl} (h : d.kind = .extensionType) :
    splitAt '.' d.typeName.toList = (splitAt '.' d.heading.name.toList).map
      fun segment => (Name.typeName (String.ofList segment)).toList := by
  rw [splitAt_eq_splitOn, typeName, h, String.toList_intercalate, List.map_map]
  exact List.splitOn_intercalate '.' (by simp [Name.typeName_dotFree]) (by simp [splitAt_ne_nil])

theorem typeName_dots {d : TypeDecl} (h : d.kind = .extensionType) :
    d.typeName.toList.count '.' = d.heading.name.toList.count '.' := by
  have hlength := congrArg List.length (typeName_segments h)
  rw [List.length_map, splitAt_length, splitAt_length] at hlength
  exact Nat.succ.inj hlength

theorem typeName_of_kind {d : TypeDecl} (h : d.kind ≠ .extensionType) :
    d.typeName = Name.typeName d.heading.name := by
  unfold typeName
  split
  · rename_i hk
    exact absurd hk h
  · rfl

end TypeDecl

theorem SourceFile.name_chars (file : SourceFile) :
    ∀ c ∈ file.name.toList, Name.isNameChar c = true ∨ c = '.' := by
  intro c hc
  rw [name, String.toList_append] at hc
  rcases List.mem_append.1 hc with hc | hc
  · exact declaredName_nameChar file.decl c hc
  · have hending : (".swift".toList.all fun c => Name.isNameChar c || c == '.') = true := by decide
    simpa using List.all_eq_true.1 hending c hc

theorem SourceFile.name_isEntry (file : SourceFile) : Path.IsEntry file.name := by
  have hmark : ∀ c, Name.isNameChar c = false ∧ c ≠ '.' → c ∉ file.name.toList := by
    rintro c ⟨hname, hdot⟩ hc
    rcases file.name_chars c hc with h | h
    · rw [h] at hname
      exact absurd hname (by simp)
    · exact hdot h
  have hlong : 6 ≤ file.name.toList.length := by
    have hending : ".swift".toList.length = 6 := rfl
    rw [name, String.toList_append, List.length_append, hending]
    omega
  have hshort : ∀ other : String, other.toList.length < 6 → file.name ≠ other := by
    rintro other ho rfl
    omega
  constructor
  · exact hshort "" (by decide)
  · exact hmark '/' (by decide)
  · exact hmark '\\' (by decide)
  · exact hmark '\x00' (by decide)
  · intro c hc
    rcases file.name_chars c hc with h | rfl
    · exact Name.nameChar_not_blank h
    · decide
  · exact hshort "." (by decide)
  · exact hshort ".." (by decide)

/-- Whatever the type is called, its file has a name that a directory can hold,
and the path of the file is that of the base directory with this name as one
component more. Where the path leads on a disk, the file is directly in the
directory that the base leads to. Before the ending, the name of an extension
has the dots of the raw name with the cleaned segments between them; any other
name has no dot there. -/
theorem source_in_directory (file : SourceFile) (base : String) :
    Path.IsEntry file.name ∧
    Path.components (file.pathUnder base) = Path.components base ++ [file.name] ∧
    (∃ parent, Path.parent? (file.pathUnder base) = some parent ∧
      Path.components parent = Path.components base) ∧
    (∀ (disk : Disk) (location : Location), disk.locate (file.pathUnder base) = some location →
      ∃ folder, disk.walk [] (Path.segments base) = some folder ∧
        disk.isDirectory folder = true ∧ location = folder ++ [file.name]) ∧
    ∃ stem : String, file.name = stem ++ ".swift" ∧
      (file.decl.kind = .extensionType →
        stem.toList.count '.' = file.decl.heading.name.toList.count '.' ∧
        splitAt '.' stem.toList = (splitAt '.' file.decl.heading.name.toList).map
          fun segment => (Name.typeName (String.ofList segment)).toList) ∧
      (file.decl.kind ≠ .extensionType →
        stem = Name.typeName file.decl.heading.name ∧ '.' ∉ stem.toList) := by
  have hentry := file.name_isEntry
  refine ⟨hentry, Path.components_join base hentry, Path.parent?_join base hentry,
    fun disk location => Disk.locate_join hentry, file.decl.typeName, rfl, ?_, ?_⟩
  · exact fun hk => ⟨TypeDecl.typeName_dots hk, TypeDecl.typeName_segments hk⟩
  · intro hk
    rw [TypeDecl.typeName_of_kind hk]
    exact ⟨rfl, Name.typeName_dotFree _⟩

def detour : SourceFile :=
  ⟨.declare .extensionType "Outer../Inner" [], .standard, none⟩

def shelf : Disk :=
  ⟨[(["Sources"], .directory)]⟩

theorem source_in_directory_detour :
    shelf.locate (detour.pathUnder "Sources/./") =
      some ["Sources", "Outer.unnamed.Inner.swift"] ∧
    Path.components (detour.pathUnder "Sources/./") =
      ["Sources", "Outer.unnamed.Inner.swift"] ∧
    ∃ folder, shelf.walk [] (Path.segments "Sources/./") = some folder ∧
      ["Sources", "Outer.unnamed.Inner.swift"] = folder ++ [detour.name] := by
  have hlocate : shelf.locate (detour.pathUnder "Sources/./") =
      some ["Sources", "Outer.unnamed.Inner.swift"] := by decide +kernel
  obtain ⟨-, hcomponents, -, hin, -⟩ := source_in_directory detour "Sources/./"
  obtain ⟨folder, hwalk, -, hlocation⟩ := hin shelf _ hlocate
  refine ⟨hlocate, ?_, folder, hwalk, hlocation⟩
  rw [hcomponents]
  decide +kernel

end SwiftDecl
