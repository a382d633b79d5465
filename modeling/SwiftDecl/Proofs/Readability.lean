import SwiftDecl.Proofs.Repeats

/-!
# Readability

What a type reference is written as can be read back. Its names hold none of the
marks that it is put together with, so a name ends at the first mark, each
bracket is closed by its own partner, and the text of a part ends where the next
mark belongs to the whole. Only question marks pile up without a bracket around
them; they are read off behind the reference that they are put on. So references
that are written alike are built alike, and a list that drops repeats by their
text loses none but true repeats.
-/

set_option autoImplicit false

namespace SwiftDecl

def isMark (c : Char) : Bool :=
  "?[]:<>,".toList.contains c

structure IsLabel (name : String) : Prop where
  nonempty : name ≠ ""
  unmarked : ∀ c ∈ name.toList, isMark c = false

theorem isLabel_iff (name : String) :
    IsLabel name ↔ name ≠ "" ∧ name.toList.all (fun c => !isMark c) = true := by
  simp only [List.all_eq_true, Bool.not_eq_true']
  exact ⟨fun h => ⟨h.nonempty, h.unmarked⟩, fun h => ⟨h.1, h.2⟩⟩

instance (name : String) : Decidable (IsLabel name) :=
  decidable_of_iff _ (isLabel_iff name).symm

def Stops (marks : List Char) (rest : List Char) : Prop :=
  ∀ c ∈ rest.head?, c ∈ marks

theorem Stops.nil (marks : List Char) : Stops marks [] := by
  simp [Stops]

theorem Stops.cons {marks : List Char} {c : Char} (h : c ∈ marks) (rest : List Char) :
    Stops marks (c :: rest) := by
  simpa [Stops] using h

theorem Stops.mono {a b : List Char} (h : a ⊆ b) {rest : List Char} (hs : Stops a rest) :
    Stops b rest :=
  fun c hc => h (hs c hc)

/-- What may follow a reference inside another one, bar a question mark. -/
def closers : List Char :=
  [']', ':', ',', '>']

theorem append_label_inj {x y s t : List Char} (hx : ∀ c ∈ x, isMark c = false)
    (hy : ∀ c ∈ y, isMark c = false) (hs : ∀ c ∈ s.head?, isMark c = true)
    (ht : ∀ c ∈ t.head?, isMark c = true) (h : x ++ s = y ++ t) : x = y ∧ s = t := by
  induction x generalizing y with
  | nil =>
    cases y with
    | nil => exact ⟨rfl, h⟩
    | cons d y =>
      have hd := hs d (by simp [show s = d :: y ++ t from h])
      rw [hy d (by simp)] at hd
      exact absurd hd (by simp)
  | cons c x ih =>
    cases y with
    | nil =>
      have hc := ht c (by simp [← show c :: x ++ s = t from h])
      rw [hx c (by simp)] at hc
      exact absurd hc (by simp)
    | cons d y =>
      obtain ⟨rfl, htail⟩ := List.cons.inj h
      obtain ⟨rfl, hst⟩ := ih (fun e he => hx e (List.mem_cons_of_mem _ he))
        (fun e he => hy e (List.mem_cons_of_mem _ he)) htail
      exact ⟨rfl, hst⟩

theorem IsLabel.append_ne {name : String} (h : IsLabel name) {mark : Char}
    (hm : isMark mark = true) (s t : List Char) : name.toList ++ s ≠ mark :: t := by
  cases hn : name.toList with
  | nil => exact absurd (String.toList_eq_nil_iff.1 hn) h.nonempty
  | cons c rest =>
    intro heq
    obtain ⟨rfl, -⟩ := List.cons.inj heq
    rw [h.unmarked c (by simp [hn])] at hm
    exact absurd hm (by simp)

theorem replicate_append_inj {c : Char} {m n : Nat} {s t : List Char} (hs : s.head? ≠ some c)
    (ht : t.head? ≠ some c) (h : List.replicate m c ++ s = List.replicate n c ++ t) :
    m = n ∧ s = t := by
  induction m generalizing n with
  | zero =>
    cases n with
    | zero => exact ⟨rfl, h⟩
    | succ n => exact absurd (by simp [show s = List.replicate (n + 1) c ++ t from h,
        List.replicate_succ]) hs
  | succ m ih =>
    cases n with
    | zero => exact absurd (by simp [← show List.replicate (m + 1) c ++ s = t from h,
        List.replicate_succ]) ht
    | succ n =>
      rw [List.replicate_succ, List.replicate_succ, List.cons_append, List.cons_append] at h
      obtain ⟨rfl, hst⟩ := ih (List.cons.inj h).2
      exact ⟨rfl, hst⟩

namespace TypeRef

inductive Proper : TypeRef → Prop
  | named {own : Modules} {name : String} (label : IsLabel name) : Proper (.named own name)
  | optional {own : Modules} {wrapped : TypeRef} (inside : Proper wrapped) :
      Proper (.optional own wrapped)
  | array {own : Modules} {element : TypeRef} (inside : Proper element) :
      Proper (.array own element)
  | dictionary {own : Modules} {key value : TypeRef} (first : Proper key)
      (second : Proper value) : Proper (.dictionary own key value)
  | generic {own : Modules} {base : String} {arguments : List TypeRef} (label : IsLabel base)
      (inside : ∀ a ∈ arguments, Proper a) : Proper (.generic own base arguments)

mutual

/-- How the reference is built: all of it but the modules. -/
def shape : TypeRef → TypeRef
  | .named _ name => .named ∅ name
  | .optional _ wrapped => .optional ∅ wrapped.shape
  | .array _ element => .array ∅ element.shape
  | .dictionary _ key value => .dictionary ∅ key.shape value.shape
  | .generic _ base arguments => .generic ∅ base (shapeOfAll arguments)

def shapeOfAll : List TypeRef → List TypeRef
  | [] => []
  | first :: rest => first.shape :: shapeOfAll rest

end

def core : TypeRef → TypeRef
  | .optional _ wrapped => wrapped.core
  | r => r

def optionals : TypeRef → Nat
  | .optional _ wrapped => wrapped.optionals + 1
  | _ => 0

theorem core_proper {r : TypeRef} (h : r.Proper) : r.core.Proper := by
  induction h with
  | optional _ ih => exact ih
  | named label => exact .named label
  | array inside => exact .array inside
  | dictionary first second => exact .dictionary first second
  | generic label inside => exact .generic label inside

theorem core_of_optionals {r : TypeRef} (h : r.optionals = 0) : r.core = r := by
  cases r with
  | optional => simp [optionals] at h
  | _ => rfl

theorem optionals_core (r : TypeRef) : r.core.optionals = 0 := by
  induction r using TypeRef.induct with
  | optional own wrapped ih => exact ih
  | _ => rfl

theorem render_core (r : TypeRef) :
    r.render.toList = r.core.render.toList ++ List.replicate r.optionals '?' := by
  induction r using TypeRef.induct with
  | optional own wrapped ih =>
    rw [render, String.toList_append, ih, optionals, List.replicate_succ', core,
      List.append_assoc]
    rfl
  | _ => simp [core, optionals]

theorem shape_of_core {a b : TypeRef} (hc : a.core.shape = b.core.shape)
    (ho : a.optionals = b.optionals) : a.shape = b.shape := by
  induction a using TypeRef.induct generalizing b with
  | optional own wrapped ih =>
    cases b with
    | optional _ other =>
      rw [optionals, optionals, Nat.add_right_cancel_iff] at ho
      rw [shape, shape, ih (b := other) hc ho]
    | _ => simp [optionals] at ho
  | _ =>
    cases b with
    | optional _ other => simp [optionals] at ho
    | _ => exact hc

def argumentsTail : List TypeRef → List Char
  | [] => []
  | rest => ',' :: ' ' :: (renderArguments rest).toList

theorem renderArguments_cons (first : TypeRef) (rest : List TypeRef) :
    (renderArguments (first :: rest)).toList = first.render.toList ++ argumentsTail rest := by
  cases rest with
  | nil => simp [renderArguments, argumentsTail]
  | cons second more =>
    simp [renderArguments, argumentsTail]

theorem Proper.start {r : TypeRef} (h : r.Proper) :
    ∃ c rest, r.render.toList = c :: rest ∧ (c = '[' ∨ isMark c = false) := by
  have hlabel : ∀ {name : String}, IsLabel name → ∀ text : List Char,
      ∃ c rest, name.toList ++ text = c :: rest ∧ (c = '[' ∨ isMark c = false) := by
    intro name hn text
    cases hc : name.toList with
    | nil => exact absurd (String.toList_eq_nil_iff.1 hc) hn.nonempty
    | cons c rest => exact ⟨c, rest ++ text, rfl, Or.inr (hn.unmarked c (by simp [hc]))⟩
  induction h with
  | named label => simpa [render] using hlabel label []
  | optional _ ih =>
    obtain ⟨c, rest, hr, hc⟩ := ih
    exact ⟨c, rest ++ ['?'], by simp [render, hr], hc⟩
  | array => exact ⟨'[', _, by simp [render]; rfl, Or.inl rfl⟩
  | dictionary => exact ⟨'[', _, by simp [render]; rfl, Or.inl rfl⟩
  | generic label =>
    simp only [render, String.toList_append, List.append_assoc]
    exact hlabel label _

/-- Up to the question marks behind it, the reference can be told from what it is
written as, whatever follows. -/
def ReadsBack (a : TypeRef) : Prop :=
  ∀ b : TypeRef, b.Proper → b.optionals = 0 → ∀ s t : List Char,
    Stops ('?' :: closers) s → Stops ('?' :: closers) t →
      a.core.render.toList ++ s = b.render.toList ++ t → a.core.shape = b.shape ∧ s = t

theorem ReadsBack.whole {a b : TypeRef} (h : a.ReadsBack) (hb : b.Proper) {s t : List Char}
    (hs : Stops closers s) (ht : Stops closers t)
    (heq : a.render.toList ++ s = b.render.toList ++ t) : a.shape = b.shape ∧ s = t := by
  have hmarks : ∀ (n : Nat) (rest : List Char), Stops closers rest →
      Stops ('?' :: closers) (List.replicate n '?' ++ rest) := by
    intro n rest hr
    cases n with
    | zero => exact hr.mono (List.subset_cons_self _ _)
    | succ n => exact .cons (by simp) _
  have hquestion : ∀ rest : List Char, Stops closers rest → rest.head? ≠ some '?' := by
    intro rest hr hc
    exact absurd (hr '?' hc) (by decide)
  rw [render_core a, render_core b, List.append_assoc, List.append_assoc] at heq
  obtain ⟨hshape, hrest⟩ := h b.core (core_proper hb) b.optionals_core _ _
    (hmarks _ s hs) (hmarks _ t ht) heq
  obtain ⟨hcount, hst⟩ := replicate_append_inj (hquestion s hs) (hquestion t ht) hrest
  exact ⟨shape_of_core hshape hcount, hst⟩

theorem arguments_readBack {as bs : List TypeRef} (ha : ∀ a ∈ as, a.ReadsBack)
    (hap : ∀ a ∈ as, a.Proper) (hb : ∀ b ∈ bs, b.Proper) {s t : List Char}
    (h : (renderArguments as).toList ++ '>' :: s = (renderArguments bs).toList ++ '>' :: t) :
    shapeOfAll as = shapeOfAll bs ∧ s = t := by
  have hclosed : ∀ (rest : List TypeRef) (u : List Char),
      Stops closers (argumentsTail rest ++ '>' :: u) := by
    intro rest u
    cases rest with
    | nil => exact .cons (by decide) _
    | cons first more => exact .cons (by decide) _
  have hstart : ∀ {r : TypeRef} {u v : List Char}, r.Proper →
      r.render.toList ++ u ≠ '>' :: v := by
    intro r u v hr heq
    obtain ⟨c, rest, hc, hmark⟩ := hr.start
    rw [hc] at heq
    obtain ⟨rfl, -⟩ := List.cons.inj heq
    exact absurd hmark (by decide)
  -- Arguments are read one by one, each up to a comma, and the last one up to the
  -- closing bracket.
  induction as generalizing bs with
  | nil =>
    cases bs with
    | nil => exact ⟨rfl, (List.cons.inj h).2⟩
    | cons b bs =>
      rw [renderArguments_cons, List.append_assoc] at h
      exact absurd h.symm (hstart (hb b (by simp)))
  | cons a as ih =>
    cases bs with
    | nil =>
      rw [renderArguments_cons, List.append_assoc] at h
      exact absurd h (hstart (hap a (by simp)))
    | cons b bs =>
      rw [renderArguments_cons, renderArguments_cons, List.append_assoc, List.append_assoc] at h
      obtain ⟨hshape, htail⟩ := (ha a (by simp)).whole (hb b (by simp)) (hclosed as s)
        (hclosed bs t) h
      rw [shapeOfAll, shapeOfAll, hshape]
      cases as with
      | nil =>
        cases bs with
        | nil => exact ⟨rfl, (List.cons.inj htail).2⟩
        | cons c bs => exact absurd (List.cons.inj htail).1 (by decide)
      | cons c as =>
        cases bs with
        | nil => exact absurd (List.cons.inj htail).1 (by decide)
        | cons d bs =>
          have hrest := (List.cons.inj (List.cons.inj htail).2).2
          obtain ⟨hshapes, hst⟩ := ih (fun e he => ha e (List.mem_cons_of_mem _ he))
            (fun e he => hap e (List.mem_cons_of_mem _ he))
            (fun e he => hb e (List.mem_cons_of_mem _ he)) hrest
          exact ⟨by rw [hshapes], hst⟩

section Forms

variable {own : Modules} (rest : List Char)

theorem array_append (element : TypeRef) :
    (TypeRef.array own element).render.toList ++ rest =
      '[' :: (element.render.toList ++ ']' :: rest) := by
  simp [render]

theorem dictionary_append (key value : TypeRef) :
    (TypeRef.dictionary own key value).render.toList ++ rest =
      '[' :: (key.render.toList ++ ':' :: ' ' :: (value.render.toList ++ ']' :: rest)) := by
  simp [render]

theorem generic_append (base : String) (arguments : List TypeRef) :
    (TypeRef.generic own base arguments).render.toList ++ rest =
      base.toList ++ '<' :: ((renderArguments arguments).toList ++ '>' :: rest) := by
  simp [render]

end Forms

theorem stops_isMark {s : List Char} (hs : Stops ('?' :: closers) s) :
    ∀ c ∈ s.head?, isMark c = true := by
  have hall : ∀ d ∈ '?' :: closers, isMark d = true := by simp [closers, isMark]
  exact fun c hc => hall c (hs c hc)

theorem angle_isMark (s : List Char) : ∀ c ∈ ('<' :: s).head?, isMark c = true := by
  intro c hc
  rw [List.head?_cons, Option.mem_some] at hc
  exact hc ▸ by decide

theorem stops_ne_angle {s t : List Char} (hs : Stops ('?' :: closers) s) : s ≠ '<' :: t := by
  rintro rfl
  exact absurd (hs '<' (by simp)) (by decide)

section ReadingForms

variable {own : Modules}

theorem named_readsBack {name : String} (label : IsLabel name) :
    (TypeRef.named own name).ReadsBack := by
  intro b hb hcore s t hs ht h
  rw [core_of_optionals rfl] at h ⊢
  cases hb with
  | optional => simp [optionals] at hcore
  | named other =>
    obtain ⟨hname, hst⟩ := append_label_inj label.unmarked other.unmarked (stops_isMark hs)
      (stops_isMark ht) h
    rw [String.toList_inj] at hname
    exact ⟨by rw [shape, shape, hname], hst⟩
  | array =>
    rw [array_append] at h
    exact absurd h (label.append_ne (by decide) _ _)
  | dictionary =>
    rw [dictionary_append] at h
    exact absurd h (label.append_ne (by decide) _ _)
  | generic other =>
    rw [generic_append] at h
    -- A plain name is over where a name with arguments has its angle bracket.
    have hangle := (append_label_inj label.unmarked other.unmarked (stops_isMark hs)
      (angle_isMark _) h).2
    exact absurd hangle (stops_ne_angle hs)

theorem array_readsBack {element : TypeRef} (ih : element.ReadsBack) :
    (TypeRef.array own element).ReadsBack := by
  intro b hb hcore s t hs ht h
  rw [core_of_optionals rfl] at h ⊢
  rw [array_append] at h
  cases hb with
  | optional => simp [optionals] at hcore
  | named label => exact absurd h.symm (label.append_ne (by decide) _ _)
  | array other =>
    rw [array_append] at h
    obtain ⟨hshape, hrest⟩ := ih.whole other (.cons (by decide) _) (.cons (by decide) _)
      (List.cons.inj h).2
    exact ⟨by rw [shape, shape, hshape], (List.cons.inj hrest).2⟩
  | dictionary key =>
    rw [dictionary_append] at h
    have hrest := (ih.whole key (.cons (by decide) _) (.cons (by decide) _) (List.cons.inj h).2).2
    exact absurd (List.cons.inj hrest).1 (by decide)
  | generic label =>
    rw [generic_append] at h
    exact absurd h.symm (label.append_ne (by decide) _ _)

theorem dictionary_readsBack {key value : TypeRef} (ihk : key.ReadsBack) (ihv : value.ReadsBack) :
    (TypeRef.dictionary own key value).ReadsBack := by
  intro b hb hcore s t hs ht h
  rw [core_of_optionals rfl] at h ⊢
  rw [dictionary_append] at h
  cases hb with
  | optional => simp [optionals] at hcore
  | named label => exact absurd h.symm (label.append_ne (by decide) _ _)
  | array other =>
    rw [array_append] at h
    have hrest := (ihk.whole other (.cons (by decide) _) (.cons (by decide) _)
      (List.cons.inj h).2).2
    exact absurd (List.cons.inj hrest).1 (by decide)
  | dictionary first second =>
    rw [dictionary_append] at h
    obtain ⟨hkey, hrest⟩ := ihk.whole first (.cons (by decide) _) (.cons (by decide) _)
      (List.cons.inj h).2
    obtain ⟨hvalue, hend⟩ := ihv.whole second (.cons (by decide) _) (.cons (by decide) _)
      (List.cons.inj (List.cons.inj hrest).2).2
    exact ⟨by rw [shape, shape, hkey, hvalue], (List.cons.inj hend).2⟩
  | generic label =>
    rw [generic_append] at h
    exact absurd h.symm (label.append_ne (by decide) _ _)

theorem generic_readsBack {base : String} {arguments : List TypeRef} (label : IsLabel base)
    (inside : ∀ a ∈ arguments, a.Proper) (ih : ∀ a ∈ arguments, a.ReadsBack) :
    (TypeRef.generic own base arguments).ReadsBack := by
  intro b hb hcore s t hs ht h
  rw [core_of_optionals rfl] at h ⊢
  rw [generic_append] at h
  cases hb with
  | optional => simp [optionals] at hcore
  | named other =>
    have hangle := (append_label_inj label.unmarked other.unmarked (angle_isMark _)
      (stops_isMark ht) h).2
    exact absurd hangle.symm (stops_ne_angle ht)
  | array =>
    rw [array_append] at h
    exact absurd h (label.append_ne (by decide) _ _)
  | dictionary =>
    rw [dictionary_append] at h
    exact absurd h (label.append_ne (by decide) _ _)
  | generic other others =>
    rw [generic_append] at h
    obtain ⟨hbase, hrest⟩ := append_label_inj label.unmarked other.unmarked (angle_isMark _)
      (angle_isMark _) h
    rw [String.toList_inj] at hbase
    obtain ⟨hshapes, hst⟩ := arguments_readBack ih inside others (List.cons.inj hrest).2
    exact ⟨by rw [shape, shape, hbase, hshapes], hst⟩

end ReadingForms

theorem Proper.readsBack {a : TypeRef} (h : a.Proper) : a.ReadsBack := by
  induction h with
  | named label => exact named_readsBack label
  | optional _ ih => exact ih
  | array _ ih => exact array_readsBack ih
  | dictionary _ _ ihk ihv => exact dictionary_readsBack ihk ihv
  | generic label inside ih => exact generic_readsBack label inside ih

theorem render_shape (r : TypeRef) : r.shape.render = r.render := by
  induction r using TypeRef.induct with
  | named => rfl
  | optional _ _ ih => rw [shape, render, render, ih]
  | array _ _ ih => rw [shape, render, render, ih]
  | dictionary _ _ _ ihk ihv => rw [shape, render, render, ihk, ihv]
  | generic own base arguments ih =>
    have harguments : renderArguments (shapeOfAll arguments) = renderArguments arguments := by
      induction arguments with
      | nil => rfl
      | cons first rest ihr =>
        have hfirst := ih first (by simp)
        have hrest := ihr fun a ha => ih a (List.mem_cons_of_mem _ ha)
        rw [shapeOfAll]
        cases rest with
        | nil => simpa [shapeOfAll, renderArguments] using hfirst
        | cons second more =>
          rw [shapeOfAll] at hrest ⊢
          simp [renderArguments, hfirst, hrest]
    rw [shape, render, render, harguments]

theorem render_eq_iff {a b : TypeRef} (ha : a.Proper) (hb : b.Proper) :
    a.render = b.render ↔ a.shape = b.shape := by
  constructor
  · intro h
    exact (ha.readsBack.whole hb (s := []) (t := []) (.nil _) (.nil _) (by rw [h])).1
  · intro h
    rw [← render_shape a, h, render_shape]

theorem same_iff_shape {a b : TypeRef} (ha : a.Proper) (hb : b.Proper) :
    a.same b = true ↔ a.shape = b.shape := by
  rw [← render_eq_iff ha hb, same, beq_iff_eq]

/-- Each reference that is added is listed as it is built, and no two that are
listed are built alike. -/
structure Tells (added listed : List TypeRef) : Prop where
  kept : ∀ r ∈ added, ∃ l ∈ listed, l.shape = r.shape
  apart : listed.Pairwise fun a b => a.shape ≠ b.shape

end TypeRef

namespace Distinct

variable {α κ : Type} {same : α → α → Bool} {absorb : α → α → α}

theorem forall_add (same : α → α → Bool) {P : α → Prop}
    (habsorb : ∀ kept new, P kept → P (absorb kept new))
    {entries : List α} {new : α} (he : ∀ entry ∈ entries, P entry) (hn : P new) :
    ∀ entry ∈ add same absorb new entries, P entry := by
  rcases add_cases same absorb new entries with
    ⟨before, kept, after, rfl, -, -, hadd⟩ | ⟨-, hadd⟩
  · rw [hadd]
    simp only [List.forall_mem_append, List.forall_mem_cons] at he ⊢
    exact ⟨he.1, habsorb kept new he.2.1, he.2.2⟩
  · rw [hadd]
    simp only [List.forall_mem_append, List.forall_mem_singleton]
    exact ⟨he, hn⟩

theorem forall_addAll (same : α → α → Bool) {P : α → Prop}
    (habsorb : ∀ kept new, P kept → P (absorb kept new))
    {entries new : List α} (he : ∀ entry ∈ entries, P entry) (hn : ∀ entry ∈ new, P entry) :
    ∀ entry ∈ addAll same absorb entries new, P entry := by
  induction new generalizing entries with
  | nil => exact he
  | cons x rest ih =>
    have hx := forall_add same habsorb he (hn x (by simp))
    exact ih hx fun entry hm => hn entry (List.mem_cons_of_mem _ hm)

theorem Merges.mem_addAll {key : α → κ} {bare : α → α} {imports : α → Modules}
    (h : Merges key bare imports same absorb) (entries : List α) {new : List α} {x : α}
    (hx : x ∈ new) : ∃ listed ∈ addAll same absorb entries new, same listed x = true := by
  have hall : ∀ (new entries : List α), (addAll same absorb entries new).any (same · x) =
      (entries.any (same · x) || new.any (same · x)) := by
    intro new
    induction new with
    | nil => simp [addAll]
    | cons y rest ih =>
      intro entries
      have hstep : addAll same absorb entries (y :: rest) =
          addAll same absorb (add same absorb y entries) rest := rfl
      rw [hstep, ih, h.any_add, List.any_cons, Bool.or_assoc]
  have hself : new.any (same · x) = true :=
    List.any_eq_true.2 ⟨x, hx, (h.same_iff x x).2 rfl⟩
  rw [← List.any_eq_true, hall, hself, Bool.or_true]

end Distinct

theorem TypeRef.Proper.absorb {kept dropped : TypeRef} (h : kept.Proper) :
    (kept.absorb dropped).Proper := by
  cases h with
  | named label => exact .named label
  | optional inside => exact .optional inside
  | array inside => exact .array inside
  | dictionary first second => exact .dictionary first second
  | generic label inside => exact .generic label inside

theorem TypeRef.tells_addAll {types : List TypeRef} (h : ∀ type ∈ types, type.Proper) :
    Tells types (Distinct.addAll same TypeRef.absorb [] types) where
  kept := by
    intro r hr
    have hproper : ∀ listed ∈ Distinct.addAll same TypeRef.absorb [] types, listed.Proper :=
      Distinct.forall_addAll same (fun _ _ hk => hk.absorb) (by simp) h
    obtain ⟨listed, hm, hs⟩ := merges.mem_addAll [] hr
    exact ⟨listed, hm, (same_iff_shape (hproper listed hm) (h r hr)).1 hs⟩
  apart := by
    refine (merges.lists types).unequal.imp ?_
    intro a b hab heq
    rw [same, ← render_shape a, heq, render_shape, beq_self_eq_true] at hab
    exact absurd hab (by simp)

theorem Parameter.shape_of_declaresSame {p q : Parameter} (hp : p.type.Proper)
    (hq : q.type.Proper) (h : p.declaresSame q = true) : p.type.shape = q.type.shape := by
  have htype : p.type.asWritten = q.type.asWritten :=
    congrArg Parameter.type ((declaresSame_iff p q).1 h)
  rw [← TypeRef.beq_iff] at htype
  exact (TypeRef.same_iff_shape hp hq).1 htype

/-- As long as no name in them has one of the marks that references are put
together with, two references are written alike, and compared as the same,
exactly if they are built alike, whatever modules they depend on; two parameters
that are compared as the same have types that are built alike. So when type
variables, protocols and parameters are listed once, each type that was added is
still listed as it is built. -/
theorem written_alike_iff_built_alike :
    (∀ a b : TypeRef, a.Proper → b.Proper →
      (a.render = b.render ↔ a.shape = b.shape) ∧ (a.same b = true ↔ a.shape = b.shape)) ∧
    (∀ p q : Parameter, p.type.Proper → q.type.Proper → p.declaresSame q = true →
      p.type.shape = q.type.shape) ∧
    (∀ (name : String) (calls : List (List Method.Clause)),
      let m := perform Method.add (.new name) calls
      let types := calls.flatten.filterMap Method.Clause.typeVariable?
      let parameters := calls.flatten.filterMap Method.Clause.parameter?
      ((∀ type ∈ types, type.Proper) → TypeRef.Tells types m.typeVariables) ∧
      ((∀ p ∈ parameters, p.type.Proper) → ∀ p ∈ parameters, ∃ listed ∈ m.parameters,
        listed.declaresSame p = true ∧ listed.type.shape = p.type.shape)) ∧
    ∀ (kind : TypeKind) (name : String) (calls : List (List TypeDecl.Clause)),
      let d := perform TypeDecl.add (.new kind name) calls
      let protocols := calls.flatten.filterMap TypeDecl.Clause.conforms?
      (∀ type ∈ protocols, type.Proper) → TypeRef.Tells protocols d.protocols := by
  refine ⟨?_, fun _ _ => Parameter.shape_of_declaresSame, ?_, ?_⟩
  · intro a b ha hb
    exact ⟨TypeRef.render_eq_iff ha hb, TypeRef.same_iff_shape ha hb⟩
  · intro name calls m types parameters
    have htypes : m.typeVariables = Distinct.addAll TypeRef.same TypeRef.absorb [] types :=
      Method.typeVariables_perform name calls
    have hparameters : m.parameters =
        Distinct.addAll Parameter.declaresSame Parameter.absorb [] parameters :=
      Method.parameters_perform name calls
    refine ⟨?_, ?_⟩
    · intro h
      rw [htypes]
      exact TypeRef.tells_addAll h
    · intro h p hp
      have hproper : ∀ listed ∈ Distinct.addAll Parameter.declaresSame Parameter.absorb []
          parameters, listed.type.Proper := by
        refine Distinct.forall_addAll Parameter.declaresSame ?_ (by simp) h
        exact fun kept dropped hk => hk
      obtain ⟨listed, hm, hs⟩ := Parameter.merges.mem_addAll [] hp
      rw [hparameters]
      exact ⟨listed, hm, hs, Parameter.shape_of_declaresSame (hproper listed hm) (h p hp) hs⟩
  · intro kind name calls d protocols h
    have hprotocols : d.protocols = Distinct.addAll TypeRef.same TypeRef.absorb [] protocols :=
      TypeDecl.protocols_perform kind name calls
    rw [hprotocols]
    exact TypeRef.tells_addAll h

def outcome (imports : Modules) : TypeRef :=
  .generic imports "Result" [.optional ∅ (.array ∅ (.named ∅ "Int")), .named ∅ "Error"]

def gappyOutcome : TypeRef :=
  .generic ∅ "Result" [.array ∅ (.optional ∅ (.named ∅ "Int")), .named ∅ "Error"]

theorem outcome_proper (imports : Modules) : (outcome imports).Proper := by
  apply TypeRef.Proper.generic (by decide)
  simp only [List.forall_mem_cons, List.not_mem_nil, false_implies, implies_true, and_true]
  exact ⟨.optional (.array (.named (by decide))), .named (by decide)⟩

theorem gappyOutcome_proper : gappyOutcome.Proper := by
  apply TypeRef.Proper.generic (by decide)
  simp only [List.forall_mem_cons, List.not_mem_nil, false_implies, implies_true, and_true]
  exact ⟨.array (.optional (.named (by decide))), .named (by decide)⟩

theorem written_alike_iff_built_alike_outcome :
    let types := [outcome (.ofList ["Core"]), gappyOutcome, outcome ∅]
    let m := perform Method.add (.new "load") [types.map .typeVariable]
    (∀ type ∈ types, type.Proper) ∧
    (outcome (.ofList ["Core"])).shape = (outcome ∅).shape ∧
    (outcome ∅).shape ≠ gappyOutcome.shape ∧
    TypeRef.Tells types m.typeVariables ∧
    m.typeVariables.length = 2 := by
  intro types m
  obtain ⟨halike, -, hmethods, -⟩ := written_alike_iff_built_alike
  have hproper : ∀ type ∈ types, type.Proper := by
    simp only [types, List.forall_mem_cons, List.not_mem_nil, false_implies, implies_true,
      and_true]
    exact ⟨outcome_proper _, gappyOutcome_proper, outcome_proper _⟩
  have hsame := halike _ _ (outcome_proper (.ofList ["Core"])) (outcome_proper ∅)
  have hother := halike _ _ (outcome_proper ∅) gappyOutcome_proper
  refine ⟨hproper, hsame.1.1 rfl, ?_, (hmethods "load" [types.map .typeVariable]).1 hproper, ?_⟩
  · rw [Ne, ← hother.1]
    decide +kernel
  · decide +kernel

end SwiftDecl
