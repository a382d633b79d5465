import SwiftDecl.Proofs.Calls
import SwiftDecl.Proofs.Flattening

/-!
# The history of a writer

What a writer has carried out when it is somewhere on its way, also inside of
nested operations. The history is a flat list: nested operations stand in their
place, those that the nesting limit leaves out and reports do not stand in it.
A writer is what its history makes of the writer it started as, up to nesting
and log, so a fact about every writer on the way may be proved along flat lists.
-/

set_option autoImplicit false

namespace SwiftDecl.Layout

namespace Op

mutual

/-- The operations that are carried out in place of `op`, when it is run `nesting`
levels down. -/
def performed (nesting : Nat) : Op → List Op
  | .nested ops => if nesting < maxNesting then performedAll (nesting + 1) ops else []
  | .report _ => []
  | op => [op]

def performedAll (nesting : Nat) : List Op → List Op
  | [] => []
  | op :: rest => op.performed nesting ++ performedAll nesting rest

end

def IsFlat (ops : List Op) : Prop :=
  ∀ op ∈ ops, outline [op] = []

theorem performedAll_flat (nesting : Nat) (ops : List Op) : IsFlat (performedAll nesting ops) := by
  induction ops using Op.consInduct generalizing nesting with
  | nil => simp [IsFlat, performedAll]
  | flat op rest ho ih =>
    rw [performedAll]
    refine List.forall_mem_append.2 ⟨?_, ih nesting⟩
    cases op with
    | nested inner => exact absurd rfl (ho inner)
    | _ => simp [performed]
  | nested inner rest ihi ih =>
    rw [performedAll, performed]
    refine List.forall_mem_append.2 ⟨?_, ih nesting⟩
    split
    · exact ihi _
    · simp

theorem performed_eq (nesting : Nat) (op : Op) :
    op.performed nesting = performedAll nesting [op] := by
  rw [performedAll, performedAll, List.append_nil]

theorem performed_flat (nesting : Nat) (op : Op) : IsFlat (op.performed nesting) := by
  rw [performed_eq]
  exact performedAll_flat nesting [op]

theorem performedAll_words {nesting : Nat} {ops : List Op} {text : String}
    (h : .word text ∈ performedAll nesting ops) : text ∈ wordsOfAll ops := by
  induction ops using Op.consInduct generalizing nesting with
  | nil => simp [performedAll] at h
  | flat op rest ho ih =>
    rw [performedAll] at h
    rw [wordsOfAll]
    refine (List.mem_append.1 h).elim (fun hop => List.mem_append_left _ ?_)
      fun hrest => List.mem_append_right _ (ih hrest)
    cases op with
    | nested inner => exact absurd rfl (ho inner)
    | _ => simp_all [performed, words]
  | nested inner rest ihi ih =>
    rw [performedAll, performed] at h
    rw [wordsOfAll, words]
    refine (List.mem_append.1 h).elim (fun hop => List.mem_append_left _ ?_)
      fun hrest => List.mem_append_right _ (ih hrest)
    split at hop
    · exact ihi hop
    · simp at hop

theorem performed_words {nesting : Nat} {op : Op} {text : String}
    (h : .word text ∈ op.performed nesting) : text ∈ op.words := by
  rw [performed_eq] at h
  have hwords := performedAll_words h
  rwa [wordsOfAll, wordsOfAll, List.append_nil] at hwords

end Op

namespace Writer

/-- `v` is what the history makes of `w`, up to nesting and log. -/
def Follows (w : Writer) (history : List Op) (v : Writer) : Prop :=
  ∃ nesting log, v = (w.run history).aside nesting log

namespace Follows

variable {w v u : Writer} {a b : List Op}

theorem refl (w : Writer) : Follows w [] w :=
  ⟨w.nesting, w.log, by rw [run]; rfl⟩

theorem trans (hb : Op.IsFlat b) (h₁ : Follows w a v) (h₂ : Follows v b u) :
    Follows w (a ++ b) u := by
  obtain ⟨n, log, rfl⟩ := h₁
  obtain ⟨m, log', rfl⟩ := h₂
  refine ⟨m, log', ?_⟩
  rw [run_aside _ _ _ hb, run_append]
  rfl

theorem moved (h : Follows w a v) (n : Nat) (log : List Event) : Follows w a (v.aside n log) := by
  obtain ⟨m, log', rfl⟩ := h
  exact ⟨n, log, rfl⟩

theorem step (op : Op) (w : Writer) (hinner : ∀ inner, op = .nested inner → ∀ v : Writer,
      Follows v (Op.performedAll v.nesting inner) (v.run inner)) :
    Follows w (op.performed w.nesting) (w.step op) := by
  have hsame : Follows w [op] (w.step op) := by
    have h := refl (w.step op)
    rw [Follows, run] at h
    rwa [Follows, run, run]
  cases op with
  | nested inner =>
    rw [Writer.step, Op.performed]
    split
    · have henter : Follows w [] w.enter := (refl w).moved (w.nesting + 1) w.log
      have hrun := henter.trans (Op.performedAll_flat _ inner) (hinner inner rfl w.enter)
      exact hrun.moved _ _
    · exact (refl w).moved w.nesting _
  | report event =>
    rw [Writer.step, Op.performed]
    exact (refl w).moved w.nesting _
  | _ => exact hsame

theorem run (w : Writer) (ops : List Op) :
    Follows w (Op.performedAll w.nesting ops) (w.run ops) := by
  induction ops using Op.consInduct generalizing w with
  | nil => exact refl w
  | flat op rest ho ih =>
    have hstep := step op w fun inner he => absurd he (ho inner)
    have hrest := ih (w.step op)
    rw [step_nesting] at hrest
    rw [Writer.run, Op.performedAll]
    exact hstep.trans (Op.performedAll_flat _ rest) hrest
  | nested inner rest ihi ih =>
    have hstep := step (.nested inner) w fun _ he v => by
      cases he
      exact ihi v
    have hrest := ih (w.step (.nested inner))
    rw [step_nesting] at hrest
    rw [Writer.run, Op.performedAll]
    exact hstep.trans (Op.performedAll_flat _ rest) hrest

end Follows

/-- On its way through the operations `w` comes by `v`, and `history` is what it
has carried out until then. -/
inductive Traces : Writer → List Op → List Op → Writer → Prop
  | here (w : Writer) (ops : List Op) : Traces w ops [] w
  | later {w v : Writer} {op : Op} {ops history : List Op}
      (rest : Traces (w.step op) ops history v) :
      Traces w (op :: ops) (op.performed w.nesting ++ history) v
  | inside {w v : Writer} {inner ops history : List Op} (below : w.nesting < maxNesting)
      (deeper : Traces w.enter inner history v) : Traces w (.nested inner :: ops) history v

theorem Traces.visited {w v : Writer} {ops history : List Op} (h : Traces w ops history v) :
    v ∈ (w.runVisiting ops).2 := by
  induction h with
  | here w ops => cases ops <;> simp [runVisiting]
  | later _ ih =>
    rw [runVisiting, stepVisiting_fst]
    exact List.mem_append_right _ ih
  | inside below _ ih =>
    rw [runVisiting, stepVisiting, if_pos below]
    exact List.mem_append_left _ (List.mem_cons_of_mem _ ih)

/-- Whatever writer a run visits has a history, and no other has. -/
theorem mem_visited_iff_traces {w v : Writer} {ops : List Op} :
    v ∈ (w.runVisiting ops).2 ↔ ∃ history, Traces w ops history v := by
  refine ⟨fun h => ?_, fun ⟨_, h⟩ => h.visited⟩
  induction ops using Op.consInduct generalizing w with
  | nil =>
    rw [runVisiting, List.mem_singleton] at h
    exact ⟨[], h ▸ .here v []⟩
  | flat op rest ho ih =>
    rw [runVisiting, stepVisiting_flat ho] at h
    rcases List.mem_cons.1 h with rfl | hafter
    · exact ⟨[], .here v _⟩
    · obtain ⟨history, htraces⟩ := ih hafter
      exact ⟨_, .later htraces⟩
  | nested inner rest ihi ih =>
    rw [runVisiting, stepVisiting_fst] at h
    rcases List.mem_append.1 h with hbefore | hafter
    · rcases List.mem_cons.1 hbefore with rfl | hinside
      · exact ⟨[], .here v _⟩
      · rw [stepVisiting] at hinside
        split at hinside
        · rename_i below
          obtain ⟨history, htraces⟩ := ihi hinside
          exact ⟨history, .inside below htraces⟩
        · exact absurd hinside List.not_mem_nil
    · obtain ⟨history, htraces⟩ := ih hafter
      exact ⟨_, .later htraces⟩

namespace Traces

variable {w v : Writer} {ops history : List Op}

theorem flat (h : Traces w ops history v) : Op.IsFlat history := by
  induction h with
  | here => simp [Op.IsFlat]
  | later _ ih => exact List.forall_mem_append.2 ⟨Op.performed_flat _ _, ih⟩
  | inside _ _ ih => exact ih

theorem follows (h : Traces w ops history v) : Follows w history v := by
  induction h with
  | here w => exact .refl w
  | later rest ih =>
    exact (Follows.step _ _ fun inner _ v => Follows.run v inner).trans rest.flat ih
  | @inside w v _ _ _ _ deeper ih =>
    have henter : Follows w [] w.enter := (Follows.refl w).moved (w.nesting + 1) w.log
    exact henter.trans deeper.flat ih

theorem words (h : Traces w ops history v) {text : String} (ht : .word text ∈ history) :
    text ∈ Op.wordsOfAll ops := by
  induction h with
  | here => simp at ht
  | @later w _ op _ _ _ ih =>
    rw [Op.wordsOfAll]
    refine (List.mem_append.1 ht).elim (fun hop => List.mem_append_left _ ?_)
      fun hrest => List.mem_append_right _ (ih hrest)
    exact Op.performed_words hop
  | inside _ _ ih =>
    rw [Op.wordsOfAll, Op.words]
    exact List.mem_append_left _ (ih ht)

end Traces

/-- A fact about a writer and its history holds on the whole way if it holds at the
start, if operations that only write keep it, and if it asks neither for nesting
nor for log. -/
theorem Traces.keeps {P : List Op → Writer → Prop} {w v : Writer} {ops history : List Op}
    (h : Traces w ops history v) (start : P [] w)
    (step : ∀ past u op, Op.outline [op] = [] → P past u → P (past ++ [op]) (u.step op))
    (aside : ∀ past u nesting log, P past u → P past (u.aside nesting log)) : P history v := by
  have hrun : ∀ past, Op.IsFlat past → P past (w.run past) := by
    intro past
    induction past using List.reverseRecOn with
    | nil =>
      rw [run]
      exact fun _ => start
    | append_singleton past op ih =>
      intro hflat
      obtain ⟨hpast, hop⟩ := List.forall_mem_append.1 hflat
      rw [run_append, run, run]
      exact step past _ op (hop op (List.mem_singleton_self op)) (ih hpast)
  obtain ⟨nesting, log, rfl⟩ := h.follows
  exact aside history _ nesting log (hrun history h.flat)

theorem traces_run (w : Writer) (ops : List Op) :
    Traces w ops (Op.performedAll w.nesting ops) (w.run ops) := by
  induction ops generalizing w with
  | nil =>
    rw [run, Op.performedAll]
    exact .here w []
  | cons op rest ih =>
    have hrest := ih (w.step op)
    rw [step_nesting] at hrest
    rw [run, Op.performedAll]
    exact .later hrest

end Writer

end SwiftDecl.Layout
