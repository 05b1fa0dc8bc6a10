import TableAsm.Proofs.Grammar.Prediction
import TableAsm.Grammar.Parse

/-! Derivation trees. A forest is a row of trees over tokens; its roots are the symbols it derives
from, and its events tell the trees in the order of a leftmost derivation. A forest whose roots are
a sentential form can be cut where the form is cut. -/
namespace TableAsm

/-- What a parse expanded, in order. -/
@[simp] def expansions : List ParseEvent → List Rule
  | [] => []
  | .expand r :: events => r :: expansions events
  | .accept _ :: events => expansions events

/-- What a parse matched, in order. -/
@[simp] def accepted : List ParseEvent → List Token
  | [] => []
  | .expand _ :: events => accepted events
  | .accept t :: events => t :: accepted events

@[simp] theorem expansions_append (before after : List ParseEvent) :
    expansions (before ++ after) = expansions before ++ expansions after := by
  induction before using expansions.induct <;> simp_all

@[simp] theorem accepted_append (before after : List ParseEvent) :
    accepted (before ++ after) = accepted before ++ accepted after := by
  induction before using accepted.induct <;> simp_all

/-- A row of derivation trees, by its first tree and the rest. -/
inductive Forest where
  | nil
  | empty (rest : Forest)
  | token (t : Token) (rest : Forest)
  | node (r : Rule) (children rest : Forest)

namespace Forest

/-- The symbols that the trees derive from. -/
@[simp] def roots : Forest → List String
  | nil => []
  | empty rest => Symbol.empty :: rest.roots
  | token t rest => t.kind :: rest.roots
  | node r _ rest => r.lhs :: rest.roots

@[simp] def tokens : Forest → List Token
  | nil => []
  | empty rest => rest.tokens
  | token t rest => t :: rest.tokens
  | node _ children rest => children.tokens ++ rest.tokens

/-- The rules of the nodes, each before those below it. -/
@[simp] def rules : Forest → List Rule
  | nil => []
  | empty rest => rest.rules
  | token _ rest => rest.rules
  | node r children rest => r :: (children.rules ++ rest.rules)

/-- What a parser reports that derives the forest. -/
@[simp] def events : Forest → List ParseEvent
  | nil => []
  | empty rest => rest.events
  | token t rest => .accept t :: rest.events
  | node r children rest => .expand r :: (children.events ++ rest.events)

@[simp] def append : Forest → Forest → Forest
  | nil, other => other
  | empty rest, other => .empty (rest.append other)
  | token t rest, other => .token t (rest.append other)
  | node r children rest, other => .node r children (rest.append other)

/-- Every node stands for one of the rules, and every token for a terminal. -/
@[simp] def Valid (given : List Rule) : Forest → Prop
  | nil => True
  | empty rest => rest.Valid given
  | token t rest =>
    t.kind ≠ Symbol.empty ∧ t.kind ∉ nonterminalsOf given ∧ rest.Valid given
  | node r children rest =>
    r ∈ given ∧ children.roots = r.rhs ∧ children.Valid given ∧ rest.Valid given

section Rows

variable (f h : Forest)

@[simp] theorem roots_append : (f.append h).roots = f.roots ++ h.roots := by
  induction f <;> simp_all

@[simp] theorem tokens_append : (f.append h).tokens = f.tokens ++ h.tokens := by
  induction f <;> simp_all

@[simp] theorem events_append : (f.append h).events = f.events ++ h.events := by
  induction f <;> simp_all

@[simp] theorem rules_append : (f.append h).rules = f.rules ++ h.rules := by
  induction f <;> simp_all

@[simp] theorem valid_append (given : List Rule) :
    (f.append h).Valid given ↔ f.Valid given ∧ h.Valid given := by
  induction f <;> simp_all [and_assoc]

theorem expansions_events : expansions f.events = f.rules := by
  induction f <;> simp_all

theorem accepted_events : accepted f.events = f.tokens := by
  induction f <;> simp_all

end Rows

/-- A forest over two sentential forms in a row is two forests in a row. -/
theorem split_append {before after : List String} {f : Forest} (h : f.roots = before ++ after) :
    ∃ left right : Forest, f = left.append right ∧ left.roots = before ∧ right.roots = after := by
  induction before generalizing f with
  | nil => exact ⟨nil, f, rfl, rfl, h⟩
  | cons s before ih =>
    cases f with
    | nil => cases h
    | empty rest =>
      obtain ⟨rfl, tail⟩ := List.cons.inj h
      obtain ⟨left, right, rfl, rfl, same⟩ := ih tail
      exact ⟨.empty left, right, rfl, rfl, same⟩
    | token t rest =>
      obtain ⟨rfl, tail⟩ := List.cons.inj h
      obtain ⟨left, right, rfl, rfl, same⟩ := ih tail
      exact ⟨.token t left, right, rfl, rfl, same⟩
    | node r children rest =>
      obtain ⟨rfl, tail⟩ := List.cons.inj h
      obtain ⟨left, right, rfl, rfl, same⟩ := ih tail
      exact ⟨.node r children left, right, rfl, rfl, same⟩

section Meaning

variable {given : List Rule}

theorem Valid.tokens_terminal {f : Forest} (valid : f.Valid given) :
    ∀ t ∈ f.tokens, t.kind ≠ Symbol.empty ∧ t.kind ∉ nonterminalsOf given := by
  induction f with
  | nil => exact fun t mem => absurd mem List.not_mem_nil
  | empty rest ih => exact ih valid
  | token t rest ih =>
    obtain ⟨ne, terminal, tail⟩ := valid
    intro x mem
    rcases List.mem_cons.mp mem with rfl | mem
    · exact ⟨ne, terminal⟩
    · exact ih tail x mem
  | node r children rest ihc ih =>
    obtain ⟨_, _, below, tail⟩ := valid
    intro x mem
    rcases List.mem_append.mp mem with mem | mem
    · exact ihc below x mem
    · exact ih tail x mem

/-- The roots of a forest without tokens vanish. -/
theorem Valid.vanish {f : Forest} (valid : f.Valid given) (none : f.tokens = []) :
    ∀ s ∈ f.roots, Vanishes given s := by
  induction f with
  | nil => exact fun s mem => absurd mem List.not_mem_nil
  | empty rest ih =>
    intro s mem
    rcases List.mem_cons.mp mem with rfl | mem
    · exact vanishes_empty
    · exact ih valid none s mem
  | token t rest ih => cases none
  | node r children rest ihc ih =>
    obtain ⟨known, rhs, below, tail⟩ := valid
    obtain ⟨noneBelow, noneAfter⟩ := List.append_eq_nil_iff.mp none
    intro s mem
    rcases List.mem_cons.mp mem with rfl | mem
    · exact vanishes_of_rule known (rhs ▸ ihc below noneBelow)
    · exact ih tail noneAfter s mem

/-- The roots of a forest open with its first token. -/
theorem Valid.opens {f : Forest} (valid : f.Valid given) {t : Token} {later : List Token}
    (first : f.tokens = t :: later) : OpensSequence given t.kind f.roots := by
  induction f generalizing later with
  | nil => cases first
  | empty rest ih => exact opensSequence_cons.mpr (Or.inr ⟨vanishes_empty, ih valid first⟩)
  | token x rest ih =>
    obtain ⟨rfl, _⟩ := List.cons.inj first
    exact opensSequence_cons.mpr (Or.inl (opens_self valid.2.1 valid.1))
  | node r children rest ihc ih =>
    obtain ⟨known, rhs, below, tail⟩ := valid
    refine opensSequence_cons.mpr ?_
    rcases List.append_eq_cons_iff.mp first with ⟨noneBelow, after⟩ | ⟨later', inside, _⟩
    · exact Or.inr ⟨vanishes_of_rule known (rhs ▸ below.vanish noneBelow), ih tail after⟩
    · exact Or.inl (opens_of_rule known (rhs ▸ ihc below inside))

end Meaning

end Forest

end TableAsm
