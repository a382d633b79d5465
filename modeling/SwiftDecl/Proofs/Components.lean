import SwiftDecl.Proofs.Resolution
import SwiftDecl.Proofs.TextLines

/-!
# Components of paths

A path is written in more than one way: slashes may be doubled, and a dot counts
for nothing unless the path starts with it. Its components are what is left of
that, so two paths with the same components are the same path. A name joined to
a base is one component more than the base has, as long as the name is an entry:
something that a directory can hold under this very name.
-/

set_option autoImplicit false

namespace SwiftDecl.Path
open SwiftDecl.Text

def start : List String → List String
  | [] => []
  | first :: rest =>
    if first = "" ∧ rest ≠ [] then ["/"] else if first = "." then ["."] else []

def names (segments : List String) : List String :=
  segments.filter fun segment => !isFiller segment

def componentsOf (segments : List String) : List String :=
  start segments ++ names segments

def components (path : String) : List String :=
  componentsOf (segments path)

/-- What a directory can hold under its own name: no separator of any system and
no blank is in it, and it does not stand for the directory or the one above. -/
structure IsEntry (name : String) : Prop where
  nonempty : name ≠ ""
  slash : '/' ∉ name.toList
  backslash : '\\' ∉ name.toList
  nul : '\x00' ∉ name.toList
  unblank : ∀ c ∈ name.toList, isBlank c = false
  notHere : name ≠ "."
  notAbove : name ≠ ".."

theorem IsEntry.notFiller {name : String} (h : IsEntry name) : isFiller name = false := by
  simp [isFiller, h.nonempty, h.notHere]

theorem segments_append (front rest : List Char) :
    segments (String.ofList (front ++ '/' :: rest)) =
      segments (String.ofList front) ++ segments (String.ofList rest) := by
  simp only [segments, splitAt_eq_splitOn, String.toList_ofList, List.splitOn_append_cons_self,
    List.map_append]

theorem segments_single {name : String} (h : '/' ∉ name.toList) : segments name = [name] := by
  simp [segments, splitAt_eq_splitOn, List.splitOn_eq_singleton h]

theorem segments_ne_nil (path : String) : segments path ≠ [] := by
  simp [segments, splitAt_ne_nil]

theorem segments_slashFree {path segment : String} (h : segment ∈ segments path) :
    '/' ∉ segment.toList := by
  obtain ⟨part, hp, rfl⟩ := List.mem_map.1 h
  rw [String.toList_ofList]
  exact fun hm => (splitAt_chars hp hm).2 rfl

theorem segments_intercalate {parts : List String} (hne : parts ≠ [])
    (h : ∀ part ∈ parts, '/' ∉ part.toList) : segments ("/".intercalate parts) = parts := by
  have hsplit : (['/'].intercalate (parts.map String.toList)).splitOn '/' =
      parts.map String.toList :=
    List.splitOn_intercalate '/' (by simpa using h) (by simpa using hne)
  rw [segments, splitAt_eq_splitOn, String.toList_intercalate]
  rw [show "/".toList = ['/'] from rfl, hsplit]
  simp [List.map_map, Function.comp_def]

theorem intercalate_segments (path : String) : "/".intercalate (segments path) = path := by
  have hjoin : ['/'].intercalate (path.toList.splitOn '/') = path.toList :=
    List.intercalate_splitOn '/'
  rw [← String.toList_inj, String.toList_intercalate, segments, splitAt_eq_splitOn]
  simp [List.map_map, Function.comp_def, hjoin]

theorem names_append (a b : List String) : names (a ++ b) = names a ++ names b :=
  List.filter_append ..

theorem start_concat {front : List String} (hne : front ≠ []) (last other : String) :
    start (front ++ [last]) = start (front ++ [other]) := by
  cases front with
  | nil => exact absurd rfl hne
  | cons first rest => simp [start]

theorem start_concat_of_ne {front : List String} (hne : front ≠ []) (hroot : front ≠ [""])
    (last : String) : start (front ++ [last]) = start front := by
  cases front with
  | nil => exact absurd rfl hne
  | cons first rest =>
    cases rest with
    | nil =>
      have hfirst : first ≠ "" := fun h => hroot (by rw [h])
      simp [start, hfirst]
    | cons second more => simp [start]

theorem join_segments (base : String) {name : String} (h : IsEntry name) :
    ∃ front, segments (join base name) = front ++ [name] ∧
      (segments base = front ++ [""] ∨ segments base = front ∧ front ≠ [""]) := by
  have hrelative : name.toList.head? ≠ some '/' := by
    intro hc
    exact h.slash (List.mem_of_head? hc)
  have hname := segments_single h.slash
  rw [join, if_neg hrelative]
  by_cases hempty : base = ""
  · rw [if_pos hempty, hempty, hname]
    exact ⟨[], rfl, Or.inl rfl⟩
  rw [if_neg hempty]
  by_cases hslash : base.toList.getLast? = some '/'
  · obtain ⟨front, hfront⟩ := List.getLast?_eq_some_iff.1 hslash
    have hbase : base = String.ofList (front ++ ['/']) := by
      rw [← hfront, String.ofList_toList]
    have hjoin : base ++ name = String.ofList (front ++ '/' :: name.toList) := by
      rw [← String.toList_inj, String.toList_append, hfront]
      simp
    rw [if_pos hslash, hjoin, segments_append, String.ofList_toList, hname, hbase, segments_append]
    exact ⟨_, rfl, Or.inl rfl⟩
  · have hjoin : base ++ "/" ++ name = String.ofList (base.toList ++ '/' :: name.toList) := by
      rw [← String.toList_inj, String.toList_append, String.toList_append]
      simp
    have hroot : segments base ≠ [""] := by
      intro hs
      have hbase := intercalate_segments base
      rw [hs] at hbase
      exact hempty (hbase.symm.trans (by simp))
    rw [if_neg hslash, hjoin, segments_append, String.ofList_toList, String.ofList_toList, hname]
    exact ⟨_, rfl, Or.inr ⟨rfl, hroot⟩⟩

theorem componentsOf_front {base name : String} {front : List String} (h : IsEntry name)
    (hf : segments base = front ++ [""] ∨ segments base = front ∧ front ≠ [""]) :
    start (front ++ [name]) ++ names front = components base := by
  rw [components, componentsOf]
  rcases hf with hf | ⟨hf, hroot⟩
  · have hnames : names (front ++ [""]) = names front := by
      rw [names_append]
      exact List.append_nil _
    have hstart : start (front ++ [name]) = start (front ++ [""]) := by
      by_cases hne : front = []
      · simp [hne, start, h.notHere]
      · exact start_concat hne name ""
    rw [hf, hnames, hstart]
  · have hne : front ≠ [] := hf ▸ segments_ne_nil base
    rw [hf, start_concat_of_ne hne hroot]

theorem components_join (base : String) {name : String} (h : IsEntry name) :
    components (join base name) = components base ++ [name] := by
  obtain ⟨front, hs, hf⟩ := join_segments base h
  have hlast : names [name] = [name] := by simp [names, h.notFiller]
  rw [← componentsOf_front h hf, components, hs, componentsOf, names_append, hlast,
    List.append_assoc]

theorem names_dropTrailing (segments : List String) :
    names (dropTrailing segments) = names segments := by
  have hdrop : ∀ l : List String, names (l.dropWhile isFiller) = names l := by
    intro l
    induction l with
    | nil => rfl
    | cons segment rest ih =>
      by_cases hf : isFiller segment = true
      · rw [List.dropWhile_cons_of_pos hf, ih]
        simp [names, hf]
      · rw [List.dropWhile_cons_of_neg hf]
  rw [dropTrailing, names, List.filter_reverse, ← names, hdrop, names, List.filter_reverse,
    List.reverse_reverse, ← names]

theorem dropTrailing_subset (segments : List String) : dropTrailing segments ⊆ segments := by
  intro segment h
  have hm := (List.dropWhile_sublist isFiller).subset (List.mem_reverse.1 h)
  simpa using hm

theorem parentOf_concat {name : String} (hn : isFiller name = false) (head : String)
    (body : List String) (whenEmpty : Option String) (rebuild : List String → String) :
    parentOf head (body ++ [name]) whenEmpty rebuild =
      some (if dropTrailing body = [] then head else rebuild (dropTrailing body)) := by
  have hkept : dropTrailing (body ++ [name]) = body ++ [name] := by
    simp [dropTrailing, hn]
  unfold parentOf
  rw [hkept]
  cases hb : body ++ [name] with
  | nil => simp at hb
  | cons first rest =>
    have hlast : (first :: rest).dropLast = body := by rw [← hb, List.dropLast_concat]
    simp only [hlast]
    cases dropTrailing body <;> simp

theorem dropTrailing_cons (first : String) (h : isFiller first = false) (rest : List String) :
    dropTrailing (first :: rest) = first :: dropTrailing rest := by
  rw [dropTrailing, dropTrailing, List.reverse_cons, List.dropWhile_append]
  split
  · rename_i hr
    simp [List.isEmpty_iff.1 hr, h]
  · simp

theorem intercalate_cons (first : String) {rest : List String} (h : rest ≠ []) :
    "/".intercalate (first :: rest) = first ++ "/" ++ "/".intercalate rest := by
  cases rest with
  | nil => exact absurd rfl h
  | cons second more => simp

section Parent

variable {first : String} {rest : List String}

theorem names_cons_of_filler (h : isFiller first = true) : names (first :: rest) = names rest := by
  simp [names, h]

theorem components_anchored (h : isFiller first = true)
    (hfree : ∀ segment ∈ first :: rest, '/' ∉ segment.toList) (hrest : dropTrailing rest ≠ [])
    (name : String) :
    components (first ++ "/" ++ "/".intercalate (dropTrailing rest)) =
      start (first :: rest ++ [name]) ++ names (first :: rest) := by
  have hsegments : segments ("/".intercalate (first :: dropTrailing rest)) =
      first :: dropTrailing rest := by
    apply segments_intercalate (by simp)
    intro segment hm
    rcases List.mem_cons.1 hm with rfl | hm
    · exact hfree _ (by simp)
    · exact hfree segment (List.mem_cons_of_mem _ (dropTrailing_subset rest hm))
  rw [← intercalate_cons first hrest, components, hsegments, componentsOf,
    names_cons_of_filler h, names_cons_of_filler h, names_dropTrailing]
  simp [start, hrest]

theorem names_bare (h : isFiller first = true) (hrest : dropTrailing rest = []) :
    names (first :: rest) = [] := by
  rw [names_cons_of_filler h, ← names_dropTrailing, hrest]
  rfl

theorem parent?_of_segments {path name : String} {front : List String}
    (hs : segments path = front ++ [name]) (hn : isFiller name = false) :
    ∃ parent, parent? path = some parent ∧
      components parent = start (front ++ [name]) ++ names front := by
  have hfree : ∀ segment ∈ front, '/' ∉ segment.toList := by
    intro segment hm
    have hmem : segment ∈ segments path := by simp [hs, hm]
    exact segments_slashFree hmem
  unfold parent?
  rw [hs]
  -- A path from the root and one from a dot have their first segment put back in
  -- front of what is left of the others; any other path is cut as a whole.
  cases front with
  | nil =>
    split
    · simp_all
    · simp_all [isFiller]
    · have hne : name ≠ "." := fun h => by simp [h, isFiller] at hn
      refine ⟨_, parentOf_concat hn "" [] _ _, ?_⟩
      simp [dropTrailing, components, componentsOf, names, start, hne, segments, splitAt, isFiller]
  | cons first rest =>
    split
    · rename_i body next more heq
      obtain ⟨rfl, hbody⟩ := List.cons.inj heq
      rw [← hbody]
      refine ⟨_, parentOf_concat hn "/" rest _ _, ?_⟩
      by_cases hrest : dropTrailing rest = []
      · rw [if_pos hrest, names_bare rfl hrest]
        simp [components, componentsOf, start, names, segments, splitAt, isFiller]
      · rw [if_neg hrest, ← components_anchored rfl hfree hrest]
        simp
    · rename_i body heq
      obtain ⟨rfl, hbody⟩ := List.cons.inj heq
      rw [← hbody]
      refine ⟨_, parentOf_concat hn "." rest _ _, ?_⟩
      by_cases hrest : dropTrailing rest = []
      · rw [if_pos hrest, names_bare rfl hrest]
        simp [components, componentsOf, start, names, segments, splitAt, isFiller]
      · rw [if_neg hrest, ← components_anchored rfl hfree hrest]
        simp
    · rename_i hroot hdot
      have hfirst : first ≠ "" ∧ first ≠ "." := by
        constructor
        · rintro rfl
          obtain ⟨next, more, heq⟩ := List.exists_cons_of_ne_nil
            (show rest ++ [name] ≠ [] by simp)
          exact hroot next more (by simp [← heq])
        · rintro rfl
          exact hdot _ rfl
      have hdrop := dropTrailing_cons first (by simp [isFiller, hfirst]) rest
      have hsegments : segments ("/".intercalate (dropTrailing (first :: rest))) =
          dropTrailing (first :: rest) :=
        segments_intercalate (by simp [hdrop]) fun segment hm =>
          hfree segment (dropTrailing_subset _ hm)
      refine ⟨_, parentOf_concat hn "" (first :: rest) _ _, ?_⟩
      rw [if_neg (by simp [hdrop]), components, hsegments, componentsOf, names_dropTrailing, hdrop]
      simp [start, hfirst]

theorem parent?_join (base : String) {name : String} (h : IsEntry name) :
    ∃ parent, parent? (join base name) = some parent ∧ components parent = components base := by
  obtain ⟨front, hs, hf⟩ := join_segments base h
  obtain ⟨parent, hp, hc⟩ := parent?_of_segments hs h.notFiller
  exact ⟨parent, hp, hc.trans (componentsOf_front h hf)⟩

end Parent

end SwiftDecl.Path

namespace SwiftDecl.Disk

theorem walk_append {disk : Disk} {here location : Location} {a b : List String} :
    disk.walk here (a ++ b) = some location ↔
      ∃ middle, disk.walk here a = some middle ∧ disk.walk middle b = some location := by
  induction a generalizing here with
  | nil => simp [walk]
  | cons segment rest ih =>
    simp only [List.cons_append, walk]
    split_ifs <;> simp [ih]

/-- Wherever a joined path leads to, it is the entry of this name in the
directory that the base leads to. -/
theorem locate_join {disk : Disk} {base name : String} (h : Path.IsEntry name)
    {location : Location} (hl : disk.locate (Path.join base name) = some location) :
    ∃ folder, disk.walk [] (Path.segments base) = some folder ∧
      disk.isDirectory folder = true ∧ location = folder ++ [name] := by
  obtain ⟨front, hs, hf⟩ := Path.join_segments base h
  unfold locate at hl
  split at hl
  · rw [hs, walk_append] at hl
    obtain ⟨folder, hfolder, hname⟩ := hl
    obtain ⟨hdirectory, next, hnext, hend⟩ := walk_cons hname
    have hlast : next = folder ++ [name] := by
      cases hnext with
      | stay filler => rw [h.notFiller] at filler; exact absurd filler (by simp)
      | up => exact absurd rfl h.notAbove
      | down => rfl
    refine ⟨folder, ?_, hdirectory, ?_⟩
    · rcases hf with hf | ⟨hf, _⟩
      · rw [hf, walk_append]
        exact ⟨folder, hfolder, by simp [walk, hdirectory, Path.isFiller]⟩
      · rw [hf]
        exact hfolder
    · rw [walk, Option.some.injEq] at hend
      rw [← hend, hlast]
  · exact absurd hl (by simp)

end SwiftDecl.Disk
