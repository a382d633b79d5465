import SwiftDecl.Options.Text
import SwiftDecl.Proofs.DistinctKeys

/-!
# Accepted options

A table of texts, integers and flags is accepted as file options if every key
names an option, every value is one that its option takes, and the indentation
is supported. The first two are decided before the third is looked at, and tell
the two kinds of errors apart. No key is there twice, so the order in which keys
are read makes no difference to what is accepted.
-/

set_option autoImplicit false

namespace SwiftDecl
open SwiftDecl.Text SwiftDecl.Toml

def Toml.Value.isPlain : Value → Bool
  | .text _ | .integer _ | .boolean _ => true
  | _ => false

def Overwrite.name : Overwrite → String
  | .always => "always"
  | .ifChanged => "if-changed"
  | .ifMissing => "if-missing"

theorem Overwrite.name_injective {policy other : Overwrite} (h : policy.name = other.name) :
    policy = other := by
  cases policy <;> cases other <;> first | rfl | exact absurd h (by decide)

namespace Options

/-- The values that an option takes. -/
inductive Takes : String → Value → Prop
  | indentWidth (n : Nat) (h : n ≤ 255) : Takes "indent_width" (.integer (some n))
  | useTabs (b : Bool) : Takes "use_tabs" (.boolean b)
  | generatorInfo (text : String) : Takes "generator_info" (.text text)
  | addGenerationDate (b : Bool) : Takes "add_generation_date" (.boolean b)
  | overwrite (policy : Overwrite) : Takes "overwrite" (.text policy.name)

theorem Takes.known {name : String} {value : Value} (h : Takes name value) :
    name ∈ fieldNames := by
  cases h <;> decide

/-- Every key names an option that takes the value. -/
def Fits (table : Table) : Prop :=
  ∀ entry ∈ table, entry.1.name ∈ fieldNames ∧ Takes entry.1.name entry.2.2

/-- The indentation is by tabs, or by 1 to 16 spaces; it has 4 if nothing is said. -/
def IsSupported (table : Table) : Prop :=
  table.get? "use_tabs" = some (.boolean true) ∨
    ∃ width : Nat, 1 ≤ width ∧ width ≤ 16 ∧
      (table.get? "indent_width").getD (.integer (some 4)) = .integer (some width)

/-- The value of an option, as a document gives it. -/
def value? (options : Options) (name : String) : Option Value :=
  if name = "indent_width" then some (.integer (some options.indentWidth.toNat))
  else if name = "use_tabs" then some (.boolean options.useTabs)
  else if name = "generator_info" then options.generatorInfo.map .text
  else if name = "add_generation_date" then some (.boolean options.addGenerationDate)
  else if name = "overwrite" then some (.text options.overwrite.name)
  else none

theorem eq_of_values {a b : Options} (h : ∀ name, a.value? name = b.value? name) : a = b := by
  obtain ⟨width, tabs, info, date, policy⟩ := a
  obtain ⟨width', tabs', info', date', policy'⟩ := b
  have hwidth : width = width' := by
    have hint : (width.toNat : Int) = width'.toNat := by simpa [value?] using h "indent_width"
    exact UInt8.toNat_inj.1 (Int.natCast_inj.1 hint)
  have htabs : tabs = tabs' := by simpa [value?] using h "use_tabs"
  have hinfo : info = info' := by
    have hmap := h "generator_info"
    exact Option.map_injective (fun _ _ => Value.text.inj) (by simpa [value?] using hmap)
  have hdate : date = date' := by simpa [value?] using h "add_generation_date"
  have hpolicy : policy = policy' :=
    Overwrite.name_injective (by simpa [value?] using h "overwrite")
  rw [hwidth, htabs, hinfo, hdate, hpolicy]

theorem bind_eq_ok_iff {ε α β : Type} {result : Except ε α} {f : α → Except ε β} {b : β} :
    (result >>= f) = .ok b ↔ ∃ a, result = .ok a ∧ f a = .ok b := by
  cases result <;> simp [bind, Except.bind]

theorem readWidth_eq_ok_iff {value : Value} {width : UInt8} :
    readWidth value = .ok width ↔ value = .integer (some width.toNat) := by
  constructor
  · intro h
    unfold readWidth at h
    split at h
    · split at h
      · rename_i n hn
        have hwidth : (UInt8.ofNat n.toNat).toNat = n.toNat :=
          UInt8.toNat_ofNat_of_lt ((Int.toNat_lt hn.1).2 hn.2)
        rw [← Except.ok.inj h, hwidth, Int.toNat_of_nonneg hn.1]
      · split at h <;> exact absurd h (by simp)
    · exact absurd h (by simp)
  · rintro rfl
    have hlt := width.toNat_lt
    rw [readWidth, if_pos (by omega), Int.toNat_natCast, UInt8.ofNat_toNat]

theorem readFlag_eq_ok_iff {value : Value} {b : Bool} :
    readFlag value = .ok b ↔ value = .boolean b := by
  cases value <;> simp [readFlag]

theorem readText_eq_ok_iff {value : Value} {text : String} :
    readText value = .ok text ↔ value = .text text := by
  cases value <;> simp [readText]

theorem located_eq_ok_iff {α : Type} {span : Span} {result : Except String α} {a : α} :
    located span result = .ok a ↔ result = .ok a := by
  cases result <;> simp [located]

theorem policies_lookup_eq_some_iff {name : String} {policy : Overwrite} :
    policies.lookup name = some policy ↔ name = policy.name := by
  constructor
  · intro h
    unfold policies at h
    simp only [List.lookup_cons, List.lookup_nil] at h
    grind [Overwrite.name]
  · rintro rfl
    cases policy <;> decide

theorem readPolicy_text_eq_ok_iff {span : Span} {name : String} {policy : Overwrite} :
    readPolicy span (.text name) = .ok policy ↔ name = policy.name := by
  rw [readPolicy, located_eq_ok_iff, ← policies_lookup_eq_some_iff]
  cases h : policies.lookup name <;> simp [readPolicyName, h]

theorem readPolicy_eq_ok_iff {span : Span} {value : Value} {policy : Overwrite}
    (hp : value.isPlain = true) :
    readPolicy span value = .ok policy ↔ value = .text policy.name := by
  cases value with
  | text name => rw [readPolicy_text_eq_ok_iff, Value.text.injEq]
  | _ => simp_all [readPolicy, Value.isPlain]

theorem set_takes {key : Key} {value : Value} (options : Options) (span : Span)
    (h : Takes key.name value) :
    ∃ changed, options.set (key, span, value) = .ok changed ∧
      ∀ name, changed.value? name =
        if name = key.name then some value else options.value? name := by
  obtain ⟨keyName, keySpan⟩ := key
  cases h with
  | indentWidth n hn =>
    have hwidth : (UInt8.ofNat n).toNat = n := UInt8.toNat_ofNat_of_lt (Nat.lt_succ_of_le hn)
    rw [← hwidth]
    refine ⟨{ options with indentWidth := UInt8.ofNat n }, ?_, fun name => ?_⟩
    · simp only [set, ↓reduceIte, readWidth_eq_ok_iff.2 rfl]
      rfl
    · simp only [value?]
      grind
  | useTabs b =>
    refine ⟨{ options with useTabs := b }, rfl, fun name => ?_⟩
    simp only [value?]
    grind
  | generatorInfo text =>
    refine ⟨{ options with generatorInfo := some text }, rfl, fun name => ?_⟩
    simp only [value?]
    grind
  | addGenerationDate b =>
    refine ⟨{ options with addGenerationDate := b }, rfl, fun name => ?_⟩
    simp only [value?]
    grind
  | overwrite policy =>
    refine ⟨{ options with overwrite := policy }, ?_, fun name => ?_⟩
    · cases policy <;> rfl
    · simp only [value?]
      grind

theorem takes_of_set {options changed : Options} {key : Key} {span : Span} {value : Value}
    (hp : value.isPlain = true) (h : options.set (key, span, value) = .ok changed) :
    Takes key.name value := by
  simp only [set] at h
  split at h
  · rename_i hname
    obtain ⟨width, hread, -⟩ := bind_eq_ok_iff.1 h
    rw [hname, readWidth_eq_ok_iff.1 (located_eq_ok_iff.1 hread)]
    exact .indentWidth width.toNat (Nat.le_of_lt_succ width.toNat_lt)
  split at h
  · rename_i hname
    obtain ⟨b, hread, -⟩ := bind_eq_ok_iff.1 h
    rw [hname, readFlag_eq_ok_iff.1 (located_eq_ok_iff.1 hread)]
    exact .useTabs b
  split at h
  · rename_i hname
    obtain ⟨text, hread, -⟩ := bind_eq_ok_iff.1 h
    rw [hname, readText_eq_ok_iff.1 (located_eq_ok_iff.1 hread)]
    exact .generatorInfo text
  split at h
  · rename_i hname
    obtain ⟨b, hread, -⟩ := bind_eq_ok_iff.1 h
    rw [hname, readFlag_eq_ok_iff.1 (located_eq_ok_iff.1 hread)]
    exact .addGenerationDate b
  split at h
  · rename_i hname
    obtain ⟨policy, hread, -⟩ := bind_eq_ok_iff.1 h
    rw [hname, (readPolicy_eq_ok_iff hp).1 hread]
    exact .overwrite policy
  · exact absurd h (by simp)

theorem set_eq_ok_iff {options changed : Options} {key : Key} {span : Span} {value : Value}
    (hp : value.isPlain = true) :
    options.set (key, span, value) = .ok changed ↔
      Takes key.name value ∧
        ∀ name, changed.value? name =
          if name = key.name then some value else options.value? name := by
  constructor
  · intro h
    have ht := takes_of_set hp h
    obtain ⟨other, hset, hvalues⟩ := set_takes options span ht
    rw [h, Except.ok.injEq] at hset
    exact ⟨ht, hset ▸ hvalues⟩
  · rintro ⟨ht, hchanged⟩
    obtain ⟨other, hset, hvalues⟩ := set_takes options span ht
    rw [hset, eq_of_values fun name => (hvalues name).trans (hchanged name).symm]

theorem setAll_eq_ok_iff {entries : Table} {options changed : Options}
    (hp : ∀ entry ∈ entries, entry.2.2.isPlain = true) (hd : entries.Distinct) :
    options.setAll entries = .ok changed ↔
      (∀ entry ∈ entries, Takes entry.1.name entry.2.2) ∧
        ∀ name, changed.value? name = (entries.get? name).or (options.value? name) := by
  induction entries generalizing options with
  | nil =>
    constructor
    · intro h
      rw [setAll, Except.ok.injEq] at h
      simp [h, Table.get?]
    · rintro ⟨-, hvalues⟩
      rw [setAll, eq_of_values fun name => (hvalues name).symm]
  | cons entry rest ih =>
    obtain ⟨key, span, value⟩ := entry
    obtain ⟨hfirst, hrest⟩ := List.forall_mem_cons.1 hp
    obtain ⟨hnew, hd⟩ := List.nodup_cons.1 hd
    have hkey : Table.get? rest key.name = none :=
      Table.get?_eq_none_iff.2 fun entry he hname =>
        hnew (List.mem_map.2 ⟨entry, he, hname⟩)
    -- What the rest leaves alone is what the first entry made of it.
    have hvalue : ∀ (next : Options),
        (∀ name, next.value? name = if name = key.name then some value else options.value? name) →
        ∀ name, (Table.get? rest name).or (next.value? name) =
          (Table.get? ((key, span, value) :: rest) name).or (options.value? name) := by
      intro next hnext name
      rw [hnext, Table.get?_cons]
      by_cases hname : name = key.name
      · simp [hname, hkey]
      · simp [hname, Ne.symm hname]
    rw [setAll, bind_eq_ok_iff, List.forall_mem_cons]
    constructor
    · rintro ⟨next, hset, h⟩
      obtain ⟨ht, hnext⟩ := (set_eq_ok_iff hfirst).1 hset
      obtain ⟨htakes, hchanged⟩ := (ih hrest hd).1 h
      exact ⟨⟨ht, htakes⟩, fun name => (hchanged name).trans (hvalue next hnext name)⟩
    · rintro ⟨⟨ht, htakes⟩, hchanged⟩
      obtain ⟨next, hset, hnext⟩ := set_takes options span ht
      exact ⟨next, hset, (ih hrest hd).2
        ⟨htakes, fun name => (hchanged name).trans (hvalue next hnext name).symm⟩⟩

theorem setAll_takes {entries : List Entry}
    (ht : ∀ entry ∈ entries, Takes entry.1.name entry.2.2) (options : Options) :
    ∃ changed, options.setAll entries = .ok changed := by
  induction entries generalizing options with
  | nil => exact ⟨options, rfl⟩
  | cons entry rest ih =>
    obtain ⟨hfirst, hrest⟩ := List.forall_mem_cons.1 ht
    obtain ⟨next, hnext, -⟩ := set_takes options entry.2.1 hfirst
    obtain ⟨changed, hchanged⟩ := ih hrest next
    exact ⟨changed, bind_eq_ok_iff.2 ⟨next, hnext, hchanged⟩⟩

variable {table : Table} {options : Options}

theorem byKey_perm (table : Table) : (byKey table).Perm table :=
  List.mergeSort_perm table _

theorem ofTable_eq_ok_iff (hp : ∀ entry ∈ table, entry.2.2.isPlain = true)
    (hd : table.Distinct) :
    ofTable table = .ok options ↔
      (∀ entry ∈ table, Takes entry.1.name entry.2.2) ∧
        ∀ name, options.value? name = (table.get? name).or (standard.value? name) := by
  have hperm := byKey_perm table
  rw [ofTable, setAll_eq_ok_iff (fun entry he => hp entry (hperm.mem_iff.1 he)) (hd.perm hperm)]
  simp only [hd.get?_perm hperm, hperm.mem_iff]

theorem isValid_iff_isSupported
    (h : ∀ name, options.value? name = (table.get? name).or (standard.value? name)) :
    options.isValid = true ↔ IsSupported table := by
  have htabs : some (.boolean options.useTabs) =
      (table.get? "use_tabs").or (some (.boolean false)) := h "use_tabs"
  have hwidth : some (.integer (some options.indentWidth.toNat)) =
      (table.get? "indent_width").or (some (.integer (some 4))) := h "indent_width"
  rw [Option.or_some, Option.some.injEq] at htabs hwidth
  have htabs_iff : options.useTabs = true ↔ table.get? "use_tabs" = some (.boolean true) := by
    cases hget : table.get? "use_tabs" with
    | none =>
      rw [hget, Option.getD_none, Value.boolean.injEq] at htabs
      simp [htabs]
    | some value =>
      rw [hget, Option.getD_some] at htabs
      simp [← htabs]
  have hwidth_iff : 1 ≤ options.indentWidth ∧ options.indentWidth ≤ Indent.maxSpaces ↔
      ∃ width : Nat, 1 ≤ width ∧ width ≤ 16 ∧
        (table.get? "indent_width").getD (.integer (some 4)) = .integer (some width) := by
    rw [← hwidth, UInt8.le_iff_toNat_le, UInt8.le_iff_toNat_le]
    constructor
    · rintro ⟨hlow, hhigh⟩
      exact ⟨options.indentWidth.toNat, hlow, hhigh, rfl⟩
    · rintro ⟨width, hlow, hhigh, heq⟩
      simp only [Value.integer.injEq, Option.some.injEq, Int.natCast_inj] at heq
      rw [heq]
      exact ⟨hlow, hhigh⟩
  rw [isValid, Bool.or_eq_true, Bool.and_eq_true, decide_eq_true_iff, decide_eq_true_iff,
    htabs_iff, hwidth_iff, IsSupported]

theorem ofSourceWith_cases {reader : Reader} {source : Source}
    (hr : reader source.text.toList = some table) (hd : table.Distinct)
    (hp : ∀ entry ∈ table, entry.2.2.isPlain = true) :
    (¬ Fits table ∧
      ∃ misfit, ofSourceWith reader source = .error (.malformed source (some misfit))) ∨
    (Fits table ∧ ∃ options, ofSourceWith reader source = validate source options ∧
      ∀ name, options.value? name = (table.get? name).or (standard.value? name)) := by
  cases hread : ofTable table with
  | error misfit =>
    refine .inl ⟨fun hfits => ?_, misfit, by simp only [ofSourceWith, hr, hread]⟩
    obtain ⟨options, hoptions⟩ := setAll_takes
      (fun entry he => (hfits entry ((byKey_perm table).mem_iff.1 he)).2) standard
    exact absurd (hread.symm.trans hoptions) (by simp)
  | ok options =>
    obtain ⟨htakes, hvalues⟩ := (ofTable_eq_ok_iff hp hd).1 hread
    exact .inr ⟨fun entry he => ⟨(htakes entry he).known, htakes entry he⟩, options,
      by simp only [ofSourceWith, hr, hread], hvalues⟩

/-- Whatever reader a document is read with, a table that fits and asks for a
supported indentation is accepted: each option has its value in the table, or else
the standard one. A table that does not fit is malformed, whatever indentation it
asks for; one that fits is invalid if its indentation is not supported. -/
theorem accepted_iff {reader : Reader} (distinct : DistinctKeys reader) {source : Source}
    {table : Table} (hr : reader source.text.toList = some table)
    (hp : ∀ entry ∈ table, entry.2.2.isPlain = true) :
    ((∃ options, ofSourceWith reader source = .ok options) ↔ Fits table ∧ IsSupported table) ∧
    (∀ options, ofSourceWith reader source = .ok options →
      ∀ name, options.value? name = (table.get? name).or (standard.value? name)) ∧
    ((∃ misfit, ofSourceWith reader source = .error (.malformed source (some misfit))) ↔
      ∃ entry ∈ table, entry.1.name ∉ fieldNames ∨ ¬ Takes entry.1.name entry.2.2) ∧
    ((∃ span message, ofSourceWith reader source = .error (.invalid source span message)) ↔
      Fits table ∧ ¬ IsSupported table) := by
  have hmisfit : (∃ entry ∈ table, entry.1.name ∉ fieldNames ∨ ¬ Takes entry.1.name entry.2.2) ↔
      ¬ Fits table := by
    simp only [Fits, not_forall, exists_prop, not_and_or]
  rw [hmisfit]
  obtain ⟨hfits, misfit, hsource⟩ | ⟨hfits, options, hsource, hvalues⟩ :=
    ofSourceWith_cases hr (distinct _ _ hr) hp
  · simp [hsource, hfits]
  · have hvalid := isValid_iff_isSupported hvalues
    rw [hsource, validate]
    by_cases hs : IsSupported table
    · rw [if_pos (hvalid.2 hs)]
      refine ⟨iff_of_true ⟨options, rfl⟩ ⟨hfits, hs⟩, fun accepted ha => ?_,
        iff_of_false (by simp) (not_not.2 hfits), iff_of_false (by simp) fun h => h.2 hs⟩
      rw [← Except.ok.inj ha]
      exact hvalues
    · rw [if_neg (hvalid.not.2 hs)]
      exact ⟨iff_of_false (by simp) fun h => hs h.2, fun _ ha => absurd ha (by simp),
        iff_of_false (by simp [Source.invalidAt]) (not_not.2 hfits),
        iff_of_true ⟨_, _, rfl⟩ ⟨hfits, hs⟩⟩

def wideTabs : Source where
  name := defaultName
  text := "use_tabs = true\nindent_width = 200\n"

def wideTabsTable : Table :=
  [(⟨"use_tabs", ⟨0, 8⟩⟩, ⟨11, 4⟩, .boolean true),
    (⟨"indent_width", ⟨16, 12⟩⟩, ⟨31, 3⟩, .integer (some 200))]

theorem accepted_iff_wideTabs :
    DistinctKeys document? ∧ document? wideTabs.text.toList = some wideTabsTable ∧
      (∀ entry ∈ wideTabsTable, entry.2.2.isPlain = true) ∧
      ∃ options, ofSource wideTabs = .ok options ∧
        options.value? "indent_width" = some (.integer (some 200)) ∧
        options.value? "add_generation_date" = some (.boolean true) := by
  have hr : document? wideTabs.text.toList = some wideTabsTable := rfl
  have hp : ∀ entry ∈ wideTabsTable, entry.2.2.isPlain = true := by decide
  obtain ⟨haccepted, hvalues, -, -⟩ := accepted_iff document_distinctKeys hr hp
  have hfits : Fits wideTabsTable :=
    List.forall_mem_cons.2 ⟨⟨by decide, .useTabs true⟩,
      List.forall_mem_singleton.2 ⟨by decide, .indentWidth 200 (by decide)⟩⟩
  obtain ⟨options, hoptions⟩ := haccepted.2 ⟨hfits, .inl rfl⟩
  exact ⟨document_distinctKeys, hr, hp, options, hoptions,
    hvalues options hoptions "indent_width", hvalues options hoptions "add_generation_date"⟩

end Options

end SwiftDecl
