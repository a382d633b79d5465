import SwiftDecl.Proofs.Assembly
import SwiftDecl.Proofs.Writes
import SwiftDecl.Proofs.TextLines

/-!
# Calls

What can be asked of a writer from outside, in any order. Words are written as
they are, so a word with a line feed in it would break a line in two. The only
words that come from an author unchecked are type references: calls whose type
references stay on one line have no word that does not.
-/

set_option autoImplicit false

namespace SwiftDecl
open SwiftDecl.Layout

namespace Layout.Op

mutual

def words : Op → List String
  | .word text => [text]
  | .nested ops => wordsOfAll ops
  | _ => []

def wordsOfAll : List Op → List String
  | [] => []
  | op :: rest => op.words ++ wordsOfAll rest

end

def WordsAre (P : String → Prop) (ops : List Op) : Prop :=
  ∀ text ∈ wordsOfAll ops, P text

def OnOneLine (ops : List Op) : Prop :=
  ∀ text ∈ wordsOfAll ops, '\n' ∉ text.toList

section Words

variable {P : String → Prop}

theorem WordsAre.nil : WordsAre P [] := by
  simp [WordsAre, wordsOfAll]

theorem wordsAre_cons {op : Op} {rest : List Op} :
    WordsAre P (op :: rest) ↔ (∀ text ∈ op.words, P text) ∧ WordsAre P rest := by
  rw [WordsAre, wordsOfAll, List.forall_mem_append, WordsAre]

theorem WordsAre.append {a b : List Op} (ha : WordsAre P a) (hb : WordsAre P b) :
    WordsAre P (a ++ b) := by
  induction a with
  | nil => exact hb
  | cons op rest ih =>
    obtain ⟨ho, hr⟩ := wordsAre_cons.1 ha
    exact wordsAre_cons.2 ⟨ho, ih hr⟩

theorem WordsAre.single (op : Op) (h : op.words = []) : WordsAre P [op] :=
  wordsAre_cons.2 ⟨by simp [h], .nil⟩

theorem WordsAre.word {text : String} (h : P text) : WordsAre P [.word text] :=
  wordsAre_cons.2 ⟨by simpa [words] using h, .nil⟩

theorem WordsAre.nested {ops : List Op} (h : WordsAre P ops) : WordsAre P [.nested ops] :=
  wordsAre_cons.2 ⟨by rwa [words], .nil⟩

end Words

theorem onOneLine_cons {op : Op} {rest : List Op} :
    OnOneLine (op :: rest) ↔ (∀ text ∈ op.words, '\n' ∉ text.toList) ∧ OnOneLine rest :=
  wordsAre_cons

end Layout.Op

open Layout.Op

theorem block_words (b : Block) : wordsOfAll b.ops = b.refs.map TypeRef.render := by
  induction b using Block.induct with
  | step b ih =>
    induction b with
    | nil => simp [wordsOfAll, Block.refs, Token.refsOfAll]
    | cons token rest ihr =>
      have hrest := ihr fun inner hm => ih inner (List.mem_cons_of_mem _ hm)
      rw [Block.ops_cons, wordsOfAll, hrest, Block.refs_cons, List.map_append]
      cases token with
      | code inner =>
        have hinner := ih inner (by simp)
        rw [Block.ops, Block.refs] at hinner
        rw [Token.op, words, Token.refs, hinner]
      | _ => simp [Token.op, words, Token.refs]

theorem separated_wordsAre {P : String → Prop} (follows : Bool) (members : List (List Op))
    (h : ∀ member ∈ members, WordsAre P member) :
    WordsAre P (TypeDecl.separatedOps follows members) := by
  induction members generalizing follows with
  | nil => exact .nil
  | cons member rest ih =>
    have hrest := (h member (by simp)).append (ih true fun m hm => h m (by simp [hm]))
    cases follows with
    | false => exact hrest
    | true => exact (WordsAre.single .blankLine rfl).append hrest

section Words

variable {P : String → Prop} (hfree : ∀ text : String, '\n' ∉ text.toList → P text)
include hfree

theorem modifier_wordsAre (m : Modifier) : WordsAre P [.word m.keyword] :=
  .word (hfree _ m.keyword_feedFree)

theorem assembles_wordsAre : Assembles (WordsAre P) where
  nil := .nil
  append := .append
  braced := fun h =>
    ((WordsAre.single _ rfl).append h).append (WordsAre.single _ rfl)
  endLine := .single _ rfl
  report := fun _ => .single _ rfl
  fixed := fun _ _ => .single _ rfl
  modifier := modifier_wordsAre hfree
  typeName := fun _ => .single _ rfl
  memberName := fun _ => .single _ rfl
  declaredName := fun _ => .single _ rfl

theorem provides_wordsAre {blocks : List Block} {refs : List TypeRef}
    (hb : ∀ b ∈ blocks, ∀ r ∈ b.refs, r ∈ refs) (hr : ∀ r ∈ refs, P r.render)
    (descriptions : List String) :
    Provides (WordsAre P) blocks refs descriptions where
  block := by
    intro b hm text ht
    rw [block_words] at ht
    obtain ⟨r, hr', rfl⟩ := List.mem_map.1 ht
    exact hr r (hb b hm r hr')
  ref := fun r hm => .word (hr r hm)
  description := fun _ _ _ hl =>
    (WordsAre.word (hfree _ (Heading.commentLine_feedFree hl))).append (.single _ rfl)

theorem type_wordsAre (d : TypeDecl)
    (h : Provides (WordsAre P) d.blocks d.refs d.descriptions) : WordsAre P d.ops := by
  induction d using TypeDecl.induct with
  | step d ih =>
    have ha := assembles_wordsAre hfree
    have hd := type_provides h
    have hmembers : WordsAre P d.memberOps := by
      refine (ha.flatMap fun f hf => ha.field f (hd.field f hf)).append (separated_wordsAre _ _ ?_)
      intro member hm
      rcases List.mem_append.1 hm with hm | hm
      · obtain ⟨m, hm', rfl⟩ := List.mem_map.1 hm
        exact ha.method m (hd.method m hm')
      · obtain ⟨n, hn, rfl⟩ := List.mem_map.1 hm
        exact (ih n hn (hd.nested n hn)).nested
    have hheader := ha.header d hd.header
    rw [d.ops_eq]
    exact ((((WordsAre.single (.report _) rfl).append hheader).append
      (.single _ rfl)).append hmembers).append (.single _ rfl)

theorem node_wordsAre (node : Node) (h : ∀ r ∈ node.refs, P r.render) :
    WordsAre P node.ops := by
  have ha := assembles_wordsAre hfree
  have hp := provides_wordsAre hfree (fun b hb r hr => node.refs_of_block hb hr) h node.descriptions
  cases node with
  | parameter p => exact ha.parameter p hp
  | field f => exact ha.field f hp
  | method m => exact ha.method m hp
  | type d => exact type_wordsAre hfree d hp
  | block b => exact hp.block b (by simp [Node.blocks])
  | ref t => exact hp.ref t (by simp [Node.refs])

end Words

namespace Layout

/-- A request to a writer. A type is written as a node, a block too, and a token
of a block as a block of its own. -/
inductive Call where
  | literal (text : String)
  | emit (node : Node)
  | modifiers (set : Modifiers)
  | documentation (heading : Heading)
  | openScope
  | closeScope
  | newLine
  | endLine
  | blankLine
  | indent
  | dedent
  | nested (calls : List Call)

namespace Call

mutual

def ops : Call → List Op
  | .literal text => [.literal text]
  | .emit node => node.ops
  | .modifiers set => set.toList.map fun m => .word m.keyword
  | .documentation heading => heading.documentationOps
  | .openScope => [.openScope]
  | .closeScope => [.closeScope]
  | .newLine => [.newLine]
  | .endLine => [.endLine]
  | .blankLine => [.blankLine]
  | .indent => [.indent]
  | .dedent => [.dedent]
  | .nested calls => [.nested (opsOfAll calls)]

def opsOfAll : List Call → List Op
  | [] => []
  | call :: rest => call.ops ++ opsOfAll rest

end

mutual

def refs : Call → List TypeRef
  | .emit node => node.refs
  | .nested calls => refsOfAll calls
  | _ => []

def refsOfAll : List Call → List TypeRef
  | [] => []
  | call :: rest => call.refs ++ refsOfAll rest

end

section Words

variable {P : String → Prop}

mutual

theorem ops_wordsAre (hfree : ∀ text : String, '\n' ∉ text.toList → P text) : (call : Call) →
    (∀ r ∈ call.refs, P r.render) → WordsAre P call.ops
  | .literal _, _ | .openScope, _ | .closeScope, _ | .newLine, _ | .endLine, _ | .blankLine, _
  | .indent, _ | .dedent, _ => by
    rw [ops]
    exact .single _ rfl
  | .emit node, h => by
    rw [ops]
    exact node_wordsAre hfree node (by simpa only [refs] using h)
  | .modifiers set, _ => by
    rw [ops, List.map_eq_flatMap]
    exact (assembles_wordsAre hfree).flatMap fun m _ => modifier_wordsAre hfree m
  | .documentation heading, _ => by
    rw [ops]
    exact (assembles_wordsAre hfree).documentation heading
      (provides_wordsAre hfree (by simp) (by simp) _)
  | .nested calls, h => by
    rw [ops]
    exact (opsOfAll_wordsAre hfree calls (by simpa only [refs] using h)).nested

theorem opsOfAll_wordsAre (hfree : ∀ text : String, '\n' ∉ text.toList → P text) :
    (calls : List Call) → (∀ r ∈ refsOfAll calls, P r.render) → WordsAre P (opsOfAll calls)
  | [], _ => by
    rw [opsOfAll]
    exact .nil
  | call :: rest, h => by
    rw [refsOfAll, List.forall_mem_append] at h
    rw [opsOfAll]
    exact (ops_wordsAre hfree call h.1).append (opsOfAll_wordsAre hfree rest h.2)

end

end Words

theorem opsOfAll_onOneLine (calls : List Call)
    (h : ∀ r ∈ refsOfAll calls, '\n' ∉ r.render.toList) : OnOneLine (opsOfAll calls) :=
  opsOfAll_wordsAre (fun _ hfree => hfree) calls h

theorem opsOfAll_words (calls : List Call) :
    WordsAre (fun text => '\n' ∉ text.toList ∨ ∃ r ∈ refsOfAll calls, text = r.render)
      (opsOfAll calls) :=
  opsOfAll_wordsAre (fun _ => .inl) calls fun r hr => .inr ⟨r, hr, rfl⟩

end Call

end Layout

end SwiftDecl
