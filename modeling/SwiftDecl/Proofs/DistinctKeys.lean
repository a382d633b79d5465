import SwiftDecl.Toml.Document
import SwiftDecl.Toml.Reader
import Mathlib.Tactic.Common
import Mathlib.Data.List.Nodup

/-!
# Distinct keys

A document never has a key twice. Statements fill the root table in order, and
each of them adds an entry under a key that was not there, or changes what
stands under a key that was.
-/

set_option autoImplicit false

namespace SwiftDecl.Toml

namespace Table

theorem get?_eq_none_iff {table : Table} {name : String} :
    table.get? name = none ↔ ∀ entry ∈ table, entry.1.name ≠ name := by
  simp [get?, List.find?_eq_none]

theorem mem_of_get? {table : Table} {name : String} {value : Value}
    (h : table.get? name = some value) :
    ∃ entry ∈ table, entry.1.name = name ∧ entry.2.2 = value := by
  obtain ⟨entry, he, rfl⟩ := Option.map_eq_some_iff.1 h
  exact ⟨entry, List.mem_of_find?_eq_some he, by simpa using List.find?_some he, rfl⟩

theorem get?_cons (key : Key) (span : Text.Span) (value : Value) (rest : Table) (name : String) :
    Table.get? ((key, span, value) :: rest) name =
      if key.name = name then some value else Table.get? rest name := by
  by_cases h : key.name = name <;> simp [get?, h]

theorem replace_keys (name : String) (value : Value) (table : Table) :
    (table.replace name value).map (fun entry => entry.1.name) =
      table.map fun entry => entry.1.name := by
  induction table with
  | nil => rfl
  | cons entry rest ih =>
    obtain ⟨key, span, old⟩ := entry
    unfold replace
    split
    · rfl
    · rw [List.map_cons, List.map_cons, ih]

namespace Distinct

variable {table changed : Table} {key : Key} {span : Text.Span}

theorem get?_eq_some_iff {name : String} {value : Value} (hd : table.Distinct) :
    table.get? name = some value ↔ ∃ entry ∈ table, entry.1.name = name ∧ entry.2.2 = value := by
  refine ⟨mem_of_get?, ?_⟩
  rintro ⟨entry, he, rfl, rfl⟩
  cases h : table.get? entry.1.name with
  | none => exact absurd rfl (get?_eq_none_iff.1 h entry he)
  | some found =>
    obtain ⟨first, hf, hname, rfl⟩ := mem_of_get? h
    rw [List.inj_on_of_nodup_map hd hf he hname]

theorem perm {other : Table} (hd : table.Distinct) (hp : other.Perm table) : other.Distinct :=
  (hp.map _).nodup_iff.2 hd

theorem get?_perm {other : Table} (hd : table.Distinct) (hp : other.Perm table) (name : String) :
    other.get? name = table.get? name := by
  refine Option.ext fun value => ?_
  rw [hd.get?_eq_some_iff, (hd.perm hp).get?_eq_some_iff]
  simp only [hp.mem_iff]

theorem append (hd : table.Distinct) (value : Value)
    (hnew : ∀ entry ∈ table, entry.1.name ≠ key.name) :
    Distinct (table ++ [(key, span, value)]) := by
  rw [Distinct, List.map_append, List.map_singleton, List.nodup_append]
  refine ⟨hd, List.nodup_singleton _, ?_⟩
  intro name hname other hother
  obtain ⟨entry, he, rfl⟩ := List.mem_map.1 hname
  rw [List.mem_singleton.1 hother]
  exact hnew entry he

theorem insert {value : Value} (hd : table.Distinct)
    (h : table.insert? key span value = some changed) : changed.Distinct := by
  unfold insert? at h
  split at h
  · exact absurd h (by simp)
  · rename_i hnone
    rw [← Option.some.inj h]
    exact hd.append value (get?_eq_none_iff.1 hnone)

theorem replace (hd : table.Distinct) (name : String) (value : Value) :
    (table.replace name value).Distinct := by
  rw [Distinct, replace_keys]
  exact hd

theorem replaced {α : Type} {inner : Option α} {name : String} {value : α → Value}
    (hd : table.Distinct)
    (h : (do let a ← inner; return table.replace name (value a)) = some changed) :
    changed.Distinct := by
  obtain ⟨a, -, ha⟩ := Option.bind_eq_some_iff.1 h
  rw [← Option.some.inj ha]
  exact hd.replace _ _

theorem inserted {α : Type} {inner : Option α} {value : α → Value} (hd : table.Distinct)
    (h : (do let a ← inner; table.insert? key span (value a)) = some changed) :
    changed.Distinct := by
  obtain ⟨a, -, ha⟩ := Option.bind_eq_some_iff.1 h
  exact hd.insert ha

theorem erase (hd : table.Distinct) (name : String) : (table.erase name).Distinct :=
  List.Nodup.sublist (List.filter_sublist.map _) hd

theorem openTable (hd : table.Distinct) (h : table.openTable span key = some changed) :
    changed.Distinct := by
  unfold Table.openTable at h
  split at h
  · exact hd.insert h
  · rw [← Option.some.inj h]
    refine (hd.erase key.name).append _ fun entry he => ?_
    simpa using (List.mem_filter.1 he).2
  · exact absurd h (by simp)

theorem openItem (hd : table.Distinct) (h : table.openItem span key = some changed) :
    changed.Distinct := by
  unfold Table.openItem at h
  split at h
  · exact hd.insert h
  · rw [← Option.some.inj h]
    exact hd.replace _ _
  · exact absurd h (by simp)

theorem assign {value : Value} {keys : List Key} (hd : table.Distinct)
    (h : table.assign span value keys = some changed) : changed.Distinct := by
  unfold Table.assign at h
  split at h
  · exact absurd h (by simp)
  · exact hd.insert h
  · split at h
    · exact hd.inserted h
    · exact hd.replaced h
    · split at h
      · exact absurd h (by simp)
      · exact hd.replaced h
    · split at h
      · exact absurd h (by simp)
      · exact hd.replaced h
    · exact absurd h (by simp)

theorem within {change : Table → Option Table} {keys : List Key}
    (hchange : ∀ changed, change table = some changed → changed.Distinct) (hd : table.Distinct)
    (h : table.within change keys = some changed) : changed.Distinct := by
  unfold Table.within at h
  split at h
  · exact hchange changed h
  · split at h
    · split at h
      · exact absurd h (by simp)
      · exact hd.replaced h
    · exact hd.replaced h
    · exact absurd h (by simp)

theorem descend {finish : Key → Table → Option Table} {keys : List Key}
    (hfinish : ∀ key changed, finish key table = some changed → changed.Distinct)
    (hd : table.Distinct) (h : table.descend finish keys = some changed) : changed.Distinct := by
  unfold Table.descend at h
  split at h
  · exact absurd h (by simp)
  · exact hfinish _ changed h
  · split at h
    · exact hd.inserted h
    · split at h
      · exact absurd h (by simp)
      · exact hd.replaced h
    · exact hd.replaced h
    · exact absurd h (by simp)

end Distinct

end Table

theorem fill_distinct {statements : List Statement} {header : List Key} {root table : Table}
    (hd : root.Distinct) (h : fill header root statements = some table) : table.Distinct := by
  induction statements generalizing header root with
  | nil =>
    rw [fill] at h
    rw [← Option.some.inj h]
    exact hd
  | cons statement rest ih =>
    cases statement with
    | pair keys span value =>
      obtain ⟨next, hn, hrest⟩ := Option.bind_eq_some_iff.1 h
      exact ih (hd.within (fun _ hc => hd.assign hc) hn) hrest
    | table keys span =>
      obtain ⟨next, hn, hrest⟩ := Option.bind_eq_some_iff.1 h
      exact ih (hd.descend (fun _ _ hc => hd.openTable hc) hn) hrest
    | item keys span =>
      obtain ⟨next, hn, hrest⟩ := Option.bind_eq_some_iff.1 h
      exact ih (hd.descend (fun _ _ hc => hd.openItem hc) hn) hrest

theorem document_distinctKeys : DistinctKeys document? := by
  intro text table h
  obtain ⟨statements, -, hfill⟩ := Option.bind_eq_some_iff.1 h
  have hempty : Table.Distinct [] := List.nodup_nil
  exact fill_distinct hempty hfill

end SwiftDecl.Toml
