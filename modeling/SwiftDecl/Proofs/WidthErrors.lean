import SwiftDecl.Proofs.Acceptance
import SwiftDecl.Proofs.Occurrences
import SwiftDecl.Proofs.Placement

/-!
# Errors about the width

Options that a document gives are refused for one reason: the document sets a
width of the indentation that is not supported. The error marks the first place
where the name of that option is found, and the search does not know what the
document means there. So the key of the pair is marked if it is spelled without
escapes and its name is nowhere before it, not even in a comment or a text.
-/

set_option autoImplicit false

namespace SwiftDecl
open SwiftDecl.Text SwiftDecl.Toml

namespace Toml

theorem IsSpelling.contains {name written : List Char} (h : IsSpelling name written)
    (hplain : '\\' ∉ written) : name <:+: written := by
  cases h with
  | bare => exact List.infix_refl _
  | literal => exact ⟨['\''], ['\''], rfl⟩
  | basic body plain =>
    have hbody : '\\' ∉ body := fun hm =>
      hplain (List.mem_cons_of_mem _ (List.mem_append_left _ hm))
    rw [plain hbody]
    exact ⟨['"'], ['"'], rfl⟩

end Toml

namespace Options

def widthName : List Char :=
  "indent_width".toList

theorem startsApart_width {written : List Char} (h : IsSpelling widthName written) :
    StartsApart widthName written := by
  cases h with
  | bare => decide
  | literal => exact startsApart_of_head (by decide) _
  | basic body _ => exact startsApart_of_head (by decide) _

def SetsWidth (entry : Entry) (width : UInt8) : Prop :=
  entry.1.name = "indent_width" ∧ entry.2.2 = .integer (some width.toNat)

theorem set_width {options changed : Options} {entry : Entry}
    (h : options.set entry = .ok changed) :
    SetsWidth entry changed.indentWidth ∨ changed.indentWidth = options.indentWidth := by
  obtain ⟨key, span, value⟩ := entry
  simp only [set] at h
  split_ifs at h with hname
  · obtain ⟨width, hread, he⟩ := bind_eq_ok_iff.1 h
    cases he
    exact .inl ⟨hname, readWidth_eq_ok_iff.1 (located_eq_ok_iff.1 hread)⟩
  all_goals
    obtain ⟨_, -, he⟩ := bind_eq_ok_iff.1 h
    cases he
    exact .inr rfl

theorem setAll_width {entries : List Entry} {options changed : Options}
    (h : options.setAll entries = .ok changed) :
    (∃ entry ∈ entries, SetsWidth entry changed.indentWidth) ∨
      changed.indentWidth = options.indentWidth := by
  induction entries generalizing options with
  | nil =>
    rw [setAll, Except.ok.injEq] at h
    exact .inr (h ▸ rfl)
  | cons entry rest ih =>
    obtain ⟨next, hset, hrest⟩ := bind_eq_ok_iff.1 h
    rcases ih hrest with ⟨other, hm, hother⟩ | hsame
    · exact .inl ⟨other, List.mem_cons_of_mem _ hm, hother⟩
    · rw [hsame]
      exact (set_width hset).imp_left fun hentry => ⟨entry, List.mem_cons_self, hentry⟩

section Refused

variable {reader : Reader} {source reported : Source} {span : Option Span} {message : String}

/-- Only a width is refused once a document gives options, and the standard one is
supported. -/
theorem invalid_width
    (h : ofSourceWith reader source = .error (.invalid reported span message)) :
    ∃ table entry width, reader source.text.toList = some table ∧ entry ∈ table ∧
      SetsWidth entry width ∧ message = unsupportedWidth width ∧ reported = source ∧
      span = findSpan widthName source.text.toList := by
  unfold ofSourceWith at h
  split at h
  · exact absurd h (by simp)
  rename_i table hr
  split at h
  · exact absurd h (by simp)
  rename_i options hoptions
  unfold validate at h
  split_ifs at h with hvalid
  cases h
  rcases setAll_width hoptions with ⟨entry, hm, hentry⟩ | hstandard
  · exact ⟨table, entry, options.indentWidth, hr, (byKey_perm table).mem_iff.1 hm, hentry,
      rfl, rfl, rfl⟩
  · refine absurd ?_ hvalid
    rw [isValid, hstandard]
    exact Bool.or_true _

/-- The document sets the width by this pair and no other, and its key stands
there. -/
structure IsWidthPair (reader : Reader) (source : Source) (entry : Entry) (width : UInt8)
    (before written after : List Char) : Prop where
  listed : ∃ table, reader source.text.toList = some table ∧ entry ∈ table ∧
    ∀ other ∈ table, other.1.name = "indent_width" → other = entry
  sets : SetsWidth entry width
  stands : entry.1.Stands source.text.toList before written after

theorem invalid_pair (distinct : DistinctKeys reader) (places : PlacesKeys reader)
    (h : ofSourceWith reader source = .error (.invalid reported span message)) :
    ∃ entry width before written after,
      IsWidthPair reader source entry width before written after ∧
      message = unsupportedWidth width ∧ reported = source ∧
      span = findSpan widthName source.text.toList := by
  obtain ⟨table, entry, width, hr, hm, hsets, hrest⟩ := invalid_width h
  have hplain : entry.2.2.isTabular = false := by rw [hsets.2]; rfl
  obtain ⟨before, written, after, hstands⟩ := places _ _ hr entry hm hplain
  refine ⟨entry, width, before, written, after, ⟨⟨table, hr, hm, ?_⟩, hsets, hstands⟩, hrest⟩
  intro other hother hname
  exact List.inj_on_of_nodup_map (distinct _ _ hr) hother hm (hname.trans hsets.1.symm)

/-- Whatever reader a document is read with, the error is about the width that one
pair of it sets. It has a span exactly if the name of the option is anywhere in the
text, and the span covers the name in that pair exactly if the key contains it as
it is spelled and nothing before the key does. Without escapes the key always
contains it. -/
theorem invalid_covers_iff (distinct : DistinctKeys reader) (places : PlacesKeys reader)
    (h : ofSourceWith reader source = .error (.invalid reported span message)) :
    ∃ entry width before written after,
      IsWidthPair reader source entry width before written after ∧
      message = unsupportedWidth width ∧ reported = source ∧
      (span.isSome = true ↔ widthName <:+: source.text.toList) ∧
      (Covers widthName before written span ↔
        widthName <:+: written ∧ ¬ widthName <:+: before) ∧
      ('\\' ∉ written → widthName <:+: written) := by
  obtain ⟨entry, width, before, written, after, hpair, hmessage, hreported, rfl⟩ :=
    invalid_pair distinct places h
  have hspelling : IsSpelling widthName written := by
    have hname := hpair.stands.spelling
    rwa [hpair.sets.1] at hname
  refine ⟨entry, width, before, written, after, hpair, hmessage, hreported,
    findSpan_isSome_iff, ?_, hspelling.contains⟩
  rw [hpair.stands.whole]
  exact findSpan_covers_iff (startsApart_width hspelling) (by decide)

end Refused

theorem ofSourceWith_width {reader : Reader} {source : Source} {place span : Span} {width : UInt8}
    (hr : reader source.text.toList =
      some [(⟨"indent_width", place⟩, span, .integer (some width.toNat))]) :
    ofSourceWith reader source = validate source { standard with indentWidth := width } := by
  have hset : standard.set (⟨"indent_width", place⟩, span, .integer (some width.toNat)) =
      .ok { standard with indentWidth := width } := by
    simp only [set, ↓reduceIte, readWidth_eq_ok_iff.2 rfl]
    rfl
  have hread : ofTable [(⟨"indent_width", place⟩, span, .integer (some width.toNat))] =
      .ok { standard with indentWidth := width } := by
    rw [ofTable, byKey, List.mergeSort_singleton, setAll, hset]
    rfl
  simp only [ofSourceWith, hr, hread]

def quotedKey : Source where
  name := defaultName
  text := "# width\n\"indent_width\" = 17 # not an indent_width of ours\n"

def quotedKeyEntry : Entry :=
  (⟨"indent_width", ⟨8, 14⟩⟩, ⟨25, 2⟩, .integer (some (17 : UInt8).toNat))

theorem invalid_covers_iff_quotedKey :
    DistinctKeys document? ∧ PlacesKeys document? ∧
      ofSource quotedKey = .error (.invalid quotedKey (some ⟨9, 12⟩) (unsupportedWidth 17)) ∧
      ∃ before written after,
        IsWidthPair document? quotedKey quotedKeyEntry 17 before written after ∧
        Covers widthName before written (some ⟨9, 12⟩) := by
  have hr : document? quotedKey.text.toList = some [quotedKeyEntry] := rfl
  have hsource : ofSource quotedKey =
      .error (.invalid quotedKey (some ⟨9, 12⟩) (unsupportedWidth 17)) :=
    (ofSourceWith_width hr).trans rfl
  obtain ⟨entry, width, before, written, after, hpair, -, -, -, hcovers, hspelled⟩ :=
    invalid_covers_iff document_distinctKeys document_placesKeys hsource
  obtain ⟨table, htable, hm, -⟩ := hpair.listed
  obtain rfl : table = [quotedKeyEntry] := Option.some.inj (htable.symm.trans hr)
  obtain rfl : entry = quotedKeyEntry := List.mem_singleton.1 hm
  obtain rfl : width = 17 := by
    have hvalue := hpair.sets.2
    simp only [quotedKeyEntry, Value.integer.injEq, Option.some.injEq] at hvalue
    exact UInt8.toNat_inj.1 (Int.natCast_inj.1 hvalue.symm)
  have hwhole := hpair.stands.whole
  have hbegins : before <+: quotedKey.text.toList :=
    ⟨written ++ after, by rw [hwhole, List.append_assoc]⟩
  have hbefore : before = "# width\n".toList :=
    eq_of_utf8Length hbegins (by decide) (congrArg Span.offset hpair.stands.span).symm
  have hwritten : '\\' ∉ written := fun hm => by
    have htext : '\\' ∈ quotedKey.text.toList := by
      rw [hwhole]
      exact List.mem_append_left _ (List.mem_append_right _ hm)
    exact absurd htext (by decide)
  refine ⟨document_distinctKeys, document_placesKeys, hsource, before, written, after, hpair,
    hcovers.2 ⟨hspelled hwritten, ?_⟩⟩
  rw [hbefore]
  decide

def remarked : Source where
  name := defaultName
  text := "# indent_width\nindent_width = 0\n"

def remarkedEntry : Entry :=
  (⟨"indent_width", ⟨15, 12⟩⟩, ⟨30, 1⟩, .integer (some (0 : UInt8).toNat))

/-- However the document is read, as long as the pair is found in it: the comment
is marked, and not the key behind it. -/
theorem remark_marked :
    document? remarked.text.toList = some [remarkedEntry] ∧
      ∀ reader : Reader, reader remarked.text.toList = some [remarkedEntry] →
        ofSourceWith reader remarked =
          .error (.invalid remarked (some ⟨2, 12⟩) (unsupportedWidth 0)) ∧
        IsWidthPair reader remarked remarkedEntry 0 "# indent_width\n".toList widthName
          " = 0\n".toList ∧
        ¬ Covers widthName "# indent_width\n".toList widthName (some ⟨2, 12⟩) := by
  refine ⟨rfl, fun reader hr => ⟨(ofSourceWith_width hr).trans rfl, ?_, ?_⟩⟩
  · exact ⟨⟨_, hr, List.mem_singleton_self _, fun _ hm _ => List.mem_singleton.1 hm⟩, ⟨rfl, rfl⟩,
      ⟨rfl, rfl, .bare⟩⟩
  · rintro ⟨front, back, -, hspan⟩
    have hplace : 2 = utf8Length ("# indent_width\n".toList ++ front) :=
      congrArg Span.offset (Option.some.inj hspan)
    have hcomment : utf8Length "# indent_width\n".toList = 15 := by decide
    rw [utf8Length_append, hcomment] at hplace
    omega

end Options

end SwiftDecl
