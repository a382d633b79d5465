import SwiftDecl.Proofs.Remainders
import SwiftDecl.Toml.Reader

/-!
# Placement

Where the entries of a document stand. A key carries the span that the reader
noted for it, and that is where it is spelled. Statements only add to the root
table, so an entry of it that holds no others goes back to one pair of the
document, with its key as it is read there.
-/

set_option autoImplicit false

namespace SwiftDecl.Toml
open SwiftDecl.Text

theorem readRaw_written {text content rest : List Char} (h : readRaw text = some (content, rest)) :
    text = content ++ '\'' :: rest := by
  unfold readRaw at h
  induction text generalizing content with
  | nil => exact absurd h (by simp [scan])
  | cons c tail ih =>
    simp only [scan, rawMove] at h
    split_ifs at h with hquote htext
    · cases h
      rw [hquote]
      rfl
    · obtain ⟨⟨more, left⟩, hmore, he⟩ := Option.map_eq_some_iff.1 h
      cases he
      rw [ih hmore]
      rfl

def Move.ends {σ : Type} : Move σ → Bool
  | .stop _ | .stopBefore _ => true
  | _ => false

theorem afterBackslash_ends (c : Char) : (afterBackslash c).ends = false := by
  unfold afterBackslash
  split
  · rfl
  · split <;> rfl

theorem afterCode_ends (left value : Nat) (c : Char) : (afterCode left value c).ends = false := by
  unfold afterCode
  split
  · rfl
  · split
    · split <;> rfl
    · rfl

theorem basicMove_ends {state : BasicState} {c : Char} (h : (basicMove state c).ends = true) :
    c = '"' ∧ basicMove state c = .stop [] := by
  cases state with
  | escaped => exact absurd h (by simp [basicMove, afterBackslash_ends])
  | code left value => exact absurd h (by simp [basicMove, afterCode_ends])
  | plain | gap | gapReturn | carriage | quotes =>
    simp only [basicMove] at h ⊢
    split_ifs at h ⊢ <;> simp_all [Move.ends]

theorem scan_basic_written {state : BasicState} {text content rest : List Char}
    (h : scan basicMove (fun _ => none) state text = some (content, rest)) :
    ∃ body, text = body ++ '"' :: rest := by
  induction text generalizing state content with
  | nil => exact absurd h (by simp [scan])
  | cons c tail ih =>
    unfold scan at h
    split at h
    · exact absurd h (by simp)
    · rename_i hmove
      cases h
      have hends : (basicMove state c).ends = true := by rw [hmove]; rfl
      rw [(basicMove_ends hends).1]
      exact ⟨[], rfl⟩
    · rename_i hmove
      have hends : (basicMove state c).ends = true := by rw [hmove]; rfl
      exact absurd (hmove.symm.trans (basicMove_ends hends).2) (by simp)
    · obtain ⟨⟨more, left⟩, hmore, he⟩ := Option.map_eq_some_iff.1 h
      cases he
      obtain ⟨body, rfl⟩ := ih hmore
      exact ⟨c :: body, rfl⟩

theorem readBasic_written {text content rest : List Char}
    (h : readBasic text = some (content, rest)) :
    ∃ body, text = body ++ '"' :: rest ∧ ('\\' ∉ body → body = content) := by
  unfold readBasic at h
  induction text generalizing content with
  | nil => exact absurd h (by simp [scan])
  | cons c tail ih =>
    simp only [scan, basicMove] at h
    split_ifs at h with hquote hescape htext
    · cases h
      exact ⟨[], by rw [hquote]; rfl, fun _ => rfl⟩
    · obtain ⟨⟨more, left⟩, hmore, he⟩ := Option.map_eq_some_iff.1 h
      cases he
      obtain ⟨body, rfl⟩ := scan_basic_written hmore
      exact ⟨c :: body, rfl, fun hplain => absurd List.mem_cons_self (hescape ▸ hplain)⟩
    · obtain ⟨⟨more, left⟩, hmore, he⟩ := Option.map_eq_some_iff.1 h
      cases he
      obtain ⟨body, rfl, hcontent⟩ := ih hmore
      refine ⟨c :: body, rfl, fun hplain => ?_⟩
      rw [hcontent fun hm => hplain (List.mem_cons_of_mem _ hm)]
      rfl

theorem readKeyText_spelling {text name rest : List Char}
    (h : readKeyText text = some (name, rest)) :
    ∃ written, text = written ++ rest ∧ IsSpelling name written := by
  unfold readKeyText at h
  split at h
  · obtain ⟨body, rfl, hplain⟩ := readBasic_written h
    exact ⟨_, by simp, .basic body hplain⟩
  · rw [readRaw_written h]
    exact ⟨_, by simp, .literal⟩
  · split at h
    · exact absurd h (by simp)
    · cases h
      exact ⟨_, List.takeWhile_append_dropWhile.symm, .bare⟩

theorem readKey_stands {whole text rest : List Char} {key : Key} (ht : text <:+ whole)
    (h : readKey (utf8Length whole) text = some (key, rest)) :
    ∃ before written, key.Stands whole before written rest := by
  obtain ⟨⟨name, left⟩, hname, he⟩ := Option.map_eq_some_iff.1 h
  cases he
  obtain ⟨before, rfl⟩ := ht
  obtain ⟨written, rfl, hspelling⟩ := readKeyText_spelling hname
  refine ⟨before, written, (List.append_assoc _ _ _).symm, ?_, ?_⟩
  · simp only [spanBetween, utf8Length_append, Span.mk.injEq]
    omega
  · rwa [String.toList_ofList]

theorem readPath_head {total most : Nat} {text rest : List Char} {key : Key} {keys : List Key}
    (h : readPath total most text = some (key :: keys, rest)) :
    ∃ left, readKey total (skipSpaces text) = some (key, left) := by
  cases most with
  | zero => exact absurd h (by simp [readPath])
  | succ most =>
    obtain ⟨⟨first, left⟩, hfirst, h⟩ := Option.bind_eq_some_iff.1 h
    dsimp only at h
    split at h
    · obtain ⟨⟨more, after⟩, -, he⟩ := Option.bind_eq_some_iff.1 h
      cases he
      exact ⟨left, hfirst⟩
    · cases h
      exact ⟨left, hfirst⟩

theorem skipSpaces_skipTrivia (inComment : Bool) (text : List Char) :
    skipSpaces (skipTrivia inComment text) = skipTrivia inComment text := by
  fun_induction skipTrivia inComment text with
  | case1 => rfl
  | case2 _ rest ih => exact ih
  | case3 | case4 | case6 | case7 =>
    rename_i ih
    exact ih
  | case5 c rest _ _ htext =>
    have hspace : isSpace c = false := by
      cases hc : isSpace c with
      | false => rfl
      | true =>
        have hwhich : c = ' ' ∨ c = '\t' := by simpa [isSpace] using hc
        exact absurd (by rcases hwhich with rfl | rfl <;> decide) htext
    exact List.dropWhile_cons_of_neg (by simp [hspace])
  | case8 _ c rest _ _ _ hspace => exact List.dropWhile_cons_of_neg hspace

theorem pair_stands {whole start rest : List Char} {key : Key} {span : Span} {value : Value}
    (hs : start <:+ whole) (hskip : skipSpaces start = start)
    (h : readStatement (utf8Length whole) start = some (.pair [key] span value, rest)) :
    ∃ before written after, key.Stands whole before written after := by
  unfold readStatement at h
  split at h
  · obtain ⟨⟨keys, left⟩, -, h⟩ := Option.bind_eq_some_iff.1 h
    split at h <;> exact absurd h (by simp)
  · obtain ⟨⟨keys, left⟩, -, h⟩ := Option.bind_eq_some_iff.1 h
    split at h <;> exact absurd h (by simp)
  · obtain ⟨⟨⟨keys, span', value'⟩, left⟩, hpair, he⟩ := Option.bind_eq_some_iff.1 h
    cases he
    obtain ⟨⟨keys, behind⟩, hkeys, h⟩ := Option.bind_eq_some_iff.1 hpair
    have hsame : keys = [key] := by
      dsimp only at h
      split at h
      · obtain ⟨_, -, he⟩ := Option.bind_eq_some_iff.1 h
        cases he
        rfl
      · exact absurd h (by simp)
    rw [hsame] at hkeys
    obtain ⟨after, hkey⟩ := readPath_head hkeys
    rw [hskip] at hkey
    obtain ⟨before, written, hstands⟩ := readKey_stands hs hkey
    exact ⟨before, written, after, hstands⟩

theorem readStatements_starts {total fuel : Nat} {text : List Char} {statements : List Statement}
    (h : readStatements total fuel text = some statements) :
    ∀ statement ∈ statements, ∃ start rest, start <:+ text ∧ skipSpaces start = start ∧
      readStatement total start = some (statement, rest) := by
  induction fuel generalizing text statements with
  | zero => exact absurd h (by simp [readStatements])
  | succ fuel ih =>
    have hstart := skipTrivia_suffix false text
    have hskip := skipSpaces_skipTrivia false text
    unfold readStatements at h
    split at h
    · cases h
      simp
    · obtain ⟨⟨first, left⟩, hfirst, h⟩ := Option.bind_eq_some_iff.1 h
      obtain ⟨behind, hline, h⟩ := Option.bind_eq_some_iff.1 h
      obtain ⟨more, hmore, he⟩ := Option.bind_eq_some_iff.1 h
      cases he
      have hpassed := (readStatement_leaves total hfirst).trans hstart
      have hbehind := (afterLine_suffix hline).trans hpassed
      refine List.forall_mem_cons.2 ⟨⟨_, left, hstart, hskip, hfirst⟩, fun statement hm => ?_⟩
      obtain ⟨start, rest, hs, hsk, hr⟩ := ih hmore statement hm
      exact ⟨start, rest, hs.trans hbehind, hsk, hr⟩

namespace Table

/-- Entries of the table that hold no others were there before. -/
def Grows (table changed : Table) : Prop :=
  ∀ entry ∈ changed, entry.2.2.isTabular = false → entry ∈ table

variable {table changed : Table} {key : Key} {span : Span}

theorem insert_entries {value : Value} (h : table.insert? key span value = some changed) :
    ∀ entry ∈ changed, entry ∈ table ∨ entry = (key, span, value) := by
  unfold insert? at h
  split at h
  · exact absurd h (by simp)
  · cases h
    intro entry he
    exact (List.mem_append.1 he).imp_right List.mem_singleton.1

namespace Grows

theorem insert {value : Value} (hv : value.isTabular = true)
    (h : table.insert? key span value = some changed) : Grows table changed := by
  intro entry he hplain
  rcases insert_entries h entry he with he | rfl
  · exact he
  · exact absurd hplain (by simp [hv])

theorem replace (name : String) {value : Value} (hv : value.isTabular = true) (table : Table) :
    Grows table (table.replace name value) := by
  induction table with
  | nil => exact fun entry he _ => he
  | cons first rest ih =>
    obtain ⟨key, span, old⟩ := first
    intro entry he hplain
    unfold Table.replace at he
    split at he
    · rcases List.mem_cons.1 he with rfl | he
      · exact absurd hplain (by simp [hv])
      · exact List.mem_cons_of_mem _ he
    · rcases List.mem_cons.1 he with rfl | he
      · exact List.mem_cons_self
      · exact List.mem_cons_of_mem _ (ih entry he hplain)

theorem replaced {α : Type} {inner : Option α} {name : String} {value : α → Value}
    (hv : ∀ a, (value a).isTabular = true)
    (h : (do let a ← inner; return table.replace name (value a)) = some changed) :
    Grows table changed := by
  obtain ⟨a, -, ha⟩ := Option.bind_eq_some_iff.1 h
  cases ha
  exact replace name (hv a) table

theorem inserted {α : Type} {inner : Option α} {value : α → Value}
    (hv : ∀ a, (value a).isTabular = true)
    (h : (do let a ← inner; table.insert? key span (value a)) = some changed) :
    Grows table changed := by
  obtain ⟨a, -, ha⟩ := Option.bind_eq_some_iff.1 h
  exact insert (hv a) ha

theorem openTable (h : table.openTable span key = some changed) : Grows table changed := by
  unfold Table.openTable at h
  split at h
  · exact insert rfl h
  · cases h
    intro entry he hplain
    rcases List.mem_append.1 he with he | he
    · exact (List.mem_filter.1 he).1
    · rw [List.mem_singleton.1 he] at hplain
      exact absurd hplain (by simp [Value.isTabular])
  · exact absurd h (by simp)

theorem openItem (h : table.openItem span key = some changed) : Grows table changed := by
  unfold Table.openItem at h
  split at h
  · exact insert rfl h
  · cases h
    exact replace key.name rfl table
  · exact absurd h (by simp)

theorem descend {finish : Key → Table → Option Table} {keys : List Key}
    (hfinish : ∀ key changed, finish key table = some changed → Grows table changed)
    (h : table.descend finish keys = some changed) : Grows table changed := by
  unfold Table.descend at h
  split at h
  · exact absurd h (by simp)
  · exact hfinish _ changed h
  · split at h
    · exact inserted (fun _ => rfl) h
    · split at h
      · exact absurd h (by simp)
      · exact replaced (fun _ => rfl) h
    · exact replaced (fun _ => rfl) h
    · exact absurd h (by simp)

theorem within {change : Table → Option Table} {key : Key} {keys : List Key}
    (h : table.within change (key :: keys) = some changed) : Grows table changed := by
  unfold Table.within at h
  split at h
  · split at h
    · exact absurd h (by simp)
    · exact replaced (fun _ => rfl) h
  · exact replaced (fun _ => rfl) h
  · exact absurd h (by simp)

end Grows

theorem assign_entries {value : Value} {keys : List Key}
    (h : table.assign span value keys = some changed) :
    ∀ entry ∈ changed, entry.2.2.isTabular = false →
      entry ∈ table ∨ .pair [entry.1] entry.2.1 entry.2.2 = Statement.pair keys span value := by
  unfold assign at h
  split at h
  · exact absurd h (by simp)
  · intro entry he _
    exact (insert_entries h entry he).imp_right fun hentry => by rw [hentry]
  · refine fun entry he hplain => .inl ?_
    have hgrows : Grows table changed := by
      split at h
      · exact Grows.inserted (fun _ => rfl) h
      · exact Grows.replaced (fun _ => rfl) h
      · split at h
        · exact absurd h (by simp)
        · exact Grows.replaced (fun _ => rfl) h
      · split at h
        · exact absurd h (by simp)
        · exact Grows.replaced (fun _ => rfl) h
      · exact absurd h (by simp)
    exact hgrows entry he hplain

theorem pair_entries {value : Value} {keys header : List Key}
    (h : table.within (assign span value keys) header = some changed) :
    ∀ entry ∈ changed, entry.2.2.isTabular = false →
      entry ∈ table ∨ .pair [entry.1] entry.2.1 entry.2.2 = Statement.pair keys span value := by
  cases header with
  | nil => exact assign_entries h
  | cons key rest => exact fun entry he hplain => .inl (Grows.within h entry he hplain)

end Table

/-- What stands in the root table was there before, or is a pair of its own. -/
theorem fill_entries {statements : List Statement} {header : List Key} {root table : Table}
    (h : fill header root statements = some table) :
    ∀ entry ∈ table, entry.2.2.isTabular = false →
      entry ∈ root ∨ .pair [entry.1] entry.2.1 entry.2.2 ∈ statements := by
  induction statements generalizing header root with
  | nil =>
    rw [fill, Option.some.injEq] at h
    exact fun entry he _ => .inl (h ▸ he)
  | cons statement rest ih =>
    intro entry he hplain
    cases statement with
    | pair keys span value =>
      obtain ⟨next, hnext, hrest⟩ := Option.bind_eq_some_iff.1 h
      rcases ih hrest entry he hplain with hroot | hstatement
      · refine (Table.pair_entries hnext entry hroot hplain).imp_right fun hpair => ?_
        rw [hpair]
        exact List.mem_cons_self
      · exact .inr (List.mem_cons_of_mem _ hstatement)
    | table keys span =>
      obtain ⟨next, hnext, hrest⟩ := Option.bind_eq_some_iff.1 h
      refine (ih hrest entry he hplain).imp (fun hroot => ?_) (List.mem_cons_of_mem _)
      exact Table.Grows.descend (fun _ _ => Table.Grows.openTable) hnext entry hroot hplain
    | item keys span =>
      obtain ⟨next, hnext, hrest⟩ := Option.bind_eq_some_iff.1 h
      refine (ih hrest entry he hplain).imp (fun hroot => ?_) (List.mem_cons_of_mem _)
      exact Table.Grows.descend (fun _ _ => Table.Grows.openItem) hnext entry hroot hplain

theorem dropMark_suffix (text : List Char) : dropMark text <:+ text := by
  unfold dropMark
  split
  · exact List.suffix_cons _ _
  · exact List.suffix_refl _

theorem document_placesKeys : PlacesKeys document? := by
  intro text table h entry he hplain
  obtain ⟨statements, hread, hfill⟩ := Option.bind_eq_some_iff.1 h
  rcases fill_entries hfill entry he hplain with hroot | hpair
  · exact absurd hroot (by simp)
  · obtain ⟨start, rest, hstart, hskip, hstatement⟩ := readStatements_starts hread _ hpair
    exact pair_stands (hstart.trans (dropMark_suffix text)) hskip hstatement

end SwiftDecl.Toml
