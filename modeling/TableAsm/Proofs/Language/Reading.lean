import TableAsm.Proofs.Grammar.Forest
import TableAsm.Proofs.Language.Syntax

/-! Reading derivation trees of the built-in language. What hangs below a node of each nonterminal
is read as a piece of syntax, which the tokens of the tree spell; every valid tree can be read. -/
namespace TableAsm

namespace Language

/-- What hangs below a node of `more_operands`. -/
inductive ReadsFurther : Forest → List Token → Prop where
  | none : ReadsFurther (.empty .nil) []
  | value {comma v : Token} {vs : List Token} {below : Forest} {kind rhs : List String} :
      comma.kind = "," → v.kind ∈ valueKinds → ReadsFurther below vs →
      ReadsFurther (.token comma (.node ⟨"anyval", kind⟩ (.token v .nil)
        (.node ⟨"more_operands", rhs⟩ below .nil))) (v :: vs)

/-- What hangs below a node of `operands`. -/
inductive ReadsValues : Forest → List Token → Prop where
  | none : ReadsValues (.empty .nil) []
  | value {v : Token} {vs : List Token} {below : Forest} {kind rhs : List String} :
      v.kind ∈ valueKinds → ReadsFurther below vs →
      ReadsValues (.node ⟨"anyval", kind⟩ (.token v .nil)
        (.node ⟨"more_operands", rhs⟩ below .nil)) (v :: vs)

/-- What hangs below a node of `modifier`. -/
inductive ReadsModifier : Forest → Mark → Prop where
  | annotation {k n : Token} : k.kind = "KW_annotation" → n.kind = "IDENTIFIER" →
      ReadsModifier (.token k (.token n .nil)) (Mark.annotation n)
  | property {k n v : Token} {kind : List String} : k.kind = "KW_property" →
      n.kind = "IDENTIFIER" → v.kind ∈ valueKinds →
      ReadsModifier (.token k (.token n (.node ⟨"anyval", kind⟩ (.token v .nil) .nil)))
        (.property n v)

/-- What hangs below a node of `line`. -/
inductive ReadsLine : Forest → Statement → Prop where
  | instruction {name : Token} {vs : List Token} {below : Forest} {rhs inner : List String} :
      name.kind = "IDENTIFIER" → ReadsValues below vs →
      ReadsLine (.node ⟨"instruction", inner⟩ (.token name (.node ⟨"operands", rhs⟩ below .nil))
        .nil) ⟨[], name, vs⟩
  | label {l name : Token} {marks : List Mark} {vs : List Token} {below : Forest}
      {rhs : List String} : l.kind = "LABEL" → ReadsLine below ⟨marks, name, vs⟩ →
      ReadsLine (.token l (.node ⟨"line", rhs⟩ below .nil)) ⟨.label l :: marks, name, vs⟩
  | modified {a name : Token} {m : Mark} {marks : List Mark} {vs : List Token}
      {inside below : Forest} {inner rhs : List String} : a.kind = "@" → ReadsModifier inside m →
      ReadsLine below ⟨marks, name, vs⟩ →
      ReadsLine (.token a (.node ⟨"modifier", inner⟩ inside (.node ⟨"line", rhs⟩ below .nil)))
        ⟨m :: marks, name, vs⟩

/-- What hangs below a node of `start`. -/
inductive ReadsBlock : Forest → Block → Prop where
  | done : ReadsBlock (.empty .nil) .done
  | statement {s : Statement} {stop : Token} {b : Block} {line below : Forest}
      {inner rhs : List String} : ReadsLine line s → stop.kind = ";" → ReadsBlock below b →
      ReadsBlock (.node ⟨"line", inner⟩ line (.token stop (.node ⟨"start", rhs⟩ below .nil)))
        (.statement s b)
  | loop {key opens count closes left right : Token} {body rest : Block} {inside below : Forest}
      {inner rhs : List String} :
      key.kind = "KW_repeat" → opens.kind = "(" → count.kind = "I_LITERAL" → closes.kind = ")" →
      left.kind = "\x7b" → ReadsBlock inside body → right.kind = "\x7d" → ReadsBlock below rest →
      ReadsBlock (.token key (.token opens (.token count (.token closes (.token left
        (.node ⟨"start", inner⟩ inside (.token right (.node ⟨"start", rhs⟩ below .nil))))))))
        (.loop count body rest)

section Spelling

theorem ReadsFurther.spells {f : Forest} {vs : List Token} (h : ReadsFurther f vs) :
    SpellsFurther vs f.tokens := by
  induction h with
  | none => exact .none
  | value comma kind _ ih => exact .value comma kind (by simpa using ih)

theorem ReadsValues.spells {f : Forest} {vs : List Token} (h : ReadsValues f vs) :
    SpellsValues vs f.tokens := by
  cases h with
  | none => exact .none
  | value kind further => exact .value kind (by simpa using further.spells)

theorem ReadsLine.spells {f : Forest} {s : Statement} (h : ReadsLine f s) :
    s.Spells f.tokens := by
  induction h with
  | instruction kind values => exact .instruction kind (by simpa using values.spells)
  | label kind _ ih => exact .marked (.label kind) (by simpa using ih)
  | modified at_sign modifier _ ih =>
    cases modifier with
    | annotation keyword kind =>
      exact .marked (Mark.Spells.annotation at_sign keyword kind) (by simpa using ih)
    | property keyword kind value =>
      exact .marked (.property at_sign keyword kind value) (by simpa using ih)

theorem ReadsBlock.spells {f : Forest} {b : Block} (h : ReadsBlock f b) : b.Spells f.tokens := by
  induction h with
  | done => exact .done
  | statement line stop _ ih => exact .statement line.spells stop (by simpa using ih)
  | loop key opens count closes left _ right _ inside below =>
    have spelled := Block.Spells.loop key opens count closes left inside right below
    simpa using spelled

end Spelling

/-- What the children of a node can be read as, by the nonterminal that it stands for. -/
structure Readable (lhs : String) (children : Forest) : Prop where
  block : lhs = "start" → ∃ b, ReadsBlock children b
  line : lhs = "line" → ∃ s, ReadsLine children s
  instruction : lhs = "instruction" → ∃ name rhs below vs, name.kind = "IDENTIFIER" ∧
    ReadsValues below vs ∧ children = .token name (.node ⟨"operands", rhs⟩ below .nil)
  modifier : lhs = "modifier" → ∃ m, ReadsModifier children m
  values : lhs = "operands" → ∃ vs, ReadsValues children vs
  further : lhs = "more_operands" → ∃ vs, ReadsFurther children vs
  value : lhs = "anyval" → ∃ v, v.kind ∈ valueKinds ∧ children = .token v .nil

/-- The trees of a row can all be read. -/
@[simp] def Legible : Forest → Prop
  | .nil => True
  | .empty rest => Legible rest
  | .token _ rest => Legible rest
  | .node r children rest => Readable r.lhs children ∧ Legible rest

section Openings

variable {f : Forest} {s : String} {w : List String}

theorem eq_nil_of_roots (roots : f.roots = []) : f = .nil := by
  cases f with
  | nil => rfl
  | _ => cases roots

/-- A valid row over a terminal begins with a token of its kind. -/
theorem begins_token (valid : f.Valid rules) (legible : Legible f) (roots : f.roots = s :: w)
    (terminal : s ∉ nonterminalsOf rules) (ne : s ≠ Symbol.empty) :
    ∃ t rest, f = .token t rest ∧ t.kind = s ∧ rest.roots = w ∧ rest.Valid rules ∧
      Legible rest := by
  cases f with
  | nil => cases roots
  | empty rest => exact absurd (List.cons.inj roots).1.symm ne
  | token t rest =>
    obtain ⟨kind, tail⟩ := List.cons.inj roots
    exact ⟨t, rest, rfl, kind, tail, valid.2.2, legible⟩
  | node r children rest =>
    obtain ⟨lhs, _⟩ := List.cons.inj roots
    exact absurd (lhs ▸ lhs_mem_nonterminalsOf valid.1) terminal

/-- A valid row over a nonterminal begins with a node for it. -/
theorem begins_node (valid : f.Valid rules) (legible : Legible f) (roots : f.roots = s :: w)
    (named : s ∈ nonterminalsOf rules) (ne : s ≠ Symbol.empty) :
    ∃ rhs children rest, f = .node ⟨s, rhs⟩ children rest ∧ Readable s children ∧
      rest.roots = w ∧ rest.Valid rules ∧ Legible rest := by
  cases f with
  | nil => cases roots
  | empty rest => exact absurd (List.cons.inj roots).1.symm ne
  | token t rest =>
    obtain ⟨kind, _⟩ := List.cons.inj roots
    exact absurd (kind ▸ named) valid.2.1
  | node r children rest =>
    obtain ⟨rfl, tail⟩ := List.cons.inj roots
    exact ⟨r.rhs, children, rest, rfl, legible.1, tail, valid.2.2.2, legible.2⟩

theorem eq_empty (valid : f.Valid rules) (roots : f.roots = [Symbol.empty]) :
    f = .empty .nil := by
  cases f with
  | nil => cases roots
  | empty rest => rw [eq_nil_of_roots (List.cons.inj roots).2]
  | token t rest => exact absurd (List.cons.inj roots).1 valid.1
  | node r children rest =>
    obtain ⟨lhs, _⟩ := List.cons.inj roots
    have reserved : Symbol.empty ∉ nonterminalsOf rules := by decide
    exact absurd (lhs ▸ lhs_mem_nonterminalsOf valid.1) reserved

end Openings

section Nonterminals

variable {rhs : List String} {f : Forest}

theorem exists_value (known : ⟨"anyval", rhs⟩ ∈ rules) (roots : f.roots = rhs)
    (valid : f.Valid rules) (legible : Legible f) :
    ∃ v, v.kind ∈ valueKinds ∧ f = .token v .nil := by
  have single : ∃ kind ∈ valueKinds, rhs = [kind] := by
    simpa [rules, valueKinds] using known
  have plain : ∀ kind ∈ valueKinds, kind ∉ nonterminalsOf rules ∧ kind ≠ Symbol.empty := by
    decide
  obtain ⟨kind, mem, rfl⟩ := single
  obtain ⟨v, rest, rfl, rfl, tail, _⟩ :=
    begins_token valid legible roots (plain kind mem).1 (plain kind mem).2
  exact ⟨v, mem, by rw [eq_nil_of_roots tail]⟩

theorem exists_further (known : ⟨"more_operands", rhs⟩ ∈ rules) (roots : f.roots = rhs)
    (valid : f.Valid rules) (legible : Legible f) : ∃ vs, ReadsFurther f vs := by
  have two : rhs = [",", "anyval", "more_operands"] ∨ rhs = [Symbol.empty] := by
    simpa [rules, Symbol.empty] using known
  rcases two with rfl | rfl
  · obtain ⟨comma, f₁, rfl, kind, roots₁, valid₁, legible₁⟩ :=
      begins_token valid legible roots (by decide) (by decide)
    obtain ⟨_, inner, f₂, rfl, value, roots₂, valid₂, legible₂⟩ :=
      begins_node valid₁ legible₁ roots₁ (by decide) (by decide)
    obtain ⟨_, below, f₃, rfl, further, roots₃, _⟩ :=
      begins_node valid₂ legible₂ roots₂ (by decide) (by decide)
    obtain ⟨v, mem, rfl⟩ := value.value rfl
    obtain ⟨vs, reads⟩ := further.further rfl
    rw [eq_nil_of_roots roots₃]
    exact ⟨v :: vs, .value kind mem reads⟩
  · rw [eq_empty valid roots]
    exact ⟨[], .none⟩

theorem exists_values (known : ⟨"operands", rhs⟩ ∈ rules) (roots : f.roots = rhs)
    (valid : f.Valid rules) (legible : Legible f) : ∃ vs, ReadsValues f vs := by
  have two : rhs = ["anyval", "more_operands"] ∨ rhs = [Symbol.empty] := by
    simpa [rules, Symbol.empty] using known
  rcases two with rfl | rfl
  · obtain ⟨_, inner, f₁, rfl, value, roots₁, valid₁, legible₁⟩ :=
      begins_node valid legible roots (by decide) (by decide)
    obtain ⟨_, below, f₂, rfl, further, roots₂, _⟩ :=
      begins_node valid₁ legible₁ roots₁ (by decide) (by decide)
    obtain ⟨v, mem, rfl⟩ := value.value rfl
    obtain ⟨vs, reads⟩ := further.further rfl
    rw [eq_nil_of_roots roots₂]
    exact ⟨v :: vs, .value mem reads⟩
  · rw [eq_empty valid roots]
    exact ⟨[], .none⟩

theorem exists_modifier (known : ⟨"modifier", rhs⟩ ∈ rules) (roots : f.roots = rhs)
    (valid : f.Valid rules) (legible : Legible f) : ∃ m, ReadsModifier f m := by
  have two : rhs = ["KW_annotation", "IDENTIFIER"] ∨
      rhs = ["KW_property", "IDENTIFIER", "anyval"] := by
    simpa [rules] using known
  rcases two with rfl | rfl
  · obtain ⟨k, f₁, rfl, keyword, roots₁, valid₁, legible₁⟩ :=
      begins_token valid legible roots (by decide) (by decide)
    obtain ⟨n, f₂, rfl, kind, roots₂, _⟩ :=
      begins_token valid₁ legible₁ roots₁ (by decide) (by decide)
    rw [eq_nil_of_roots roots₂]
    exact ⟨Mark.annotation n, ReadsModifier.annotation keyword kind⟩
  · obtain ⟨k, f₁, rfl, keyword, roots₁, valid₁, legible₁⟩ :=
      begins_token valid legible roots (by decide) (by decide)
    obtain ⟨n, f₂, rfl, kind, roots₂, valid₂, legible₂⟩ :=
      begins_token valid₁ legible₁ roots₁ (by decide) (by decide)
    obtain ⟨_, inner, f₃, rfl, value, roots₃, _⟩ :=
      begins_node valid₂ legible₂ roots₂ (by decide) (by decide)
    obtain ⟨v, mem, rfl⟩ := value.value rfl
    rw [eq_nil_of_roots roots₃]
    exact ⟨.property n v, .property keyword kind mem⟩

theorem exists_instruction (known : ⟨"instruction", rhs⟩ ∈ rules) (roots : f.roots = rhs)
    (valid : f.Valid rules) (legible : Legible f) :
    ∃ name rhs below vs, name.kind = "IDENTIFIER" ∧ ReadsValues below vs ∧
      f = .token name (.node ⟨"operands", rhs⟩ below .nil) := by
  obtain rfl : rhs = ["IDENTIFIER", "operands"] := by
    simpa [rules] using known
  obtain ⟨name, f₁, rfl, kind, roots₁, valid₁, legible₁⟩ :=
    begins_token valid legible roots (by decide) (by decide)
  obtain ⟨rhs, below, f₂, rfl, values, roots₂, _⟩ :=
    begins_node valid₁ legible₁ roots₁ (by decide) (by decide)
  obtain ⟨vs, reads⟩ := values.values rfl
  rw [eq_nil_of_roots roots₂]
  exact ⟨name, rhs, below, vs, kind, reads, rfl⟩

theorem exists_line (known : ⟨"line", rhs⟩ ∈ rules) (roots : f.roots = rhs)
    (valid : f.Valid rules) (legible : Legible f) : ∃ s, ReadsLine f s := by
  have three : rhs = ["@", "modifier", "line"] ∨ rhs = ["LABEL", "line"] ∨
      rhs = ["instruction"] := by
    simpa [rules] using known
  rcases three with rfl | rfl | rfl
  · obtain ⟨a, f₁, rfl, kind, roots₁, valid₁, legible₁⟩ :=
      begins_token valid legible roots (by decide) (by decide)
    obtain ⟨_, inside, f₂, rfl, modifier, roots₂, valid₂, legible₂⟩ :=
      begins_node valid₁ legible₁ roots₁ (by decide) (by decide)
    obtain ⟨_, below, f₃, rfl, line, roots₃, _⟩ :=
      begins_node valid₂ legible₂ roots₂ (by decide) (by decide)
    obtain ⟨m, reads⟩ := modifier.modifier rfl
    obtain ⟨⟨marks, name, vs⟩, behind⟩ := line.line rfl
    rw [eq_nil_of_roots roots₃]
    exact ⟨⟨m :: marks, name, vs⟩, .modified kind reads behind⟩
  · obtain ⟨l, f₁, rfl, kind, roots₁, valid₁, legible₁⟩ :=
      begins_token valid legible roots (by decide) (by decide)
    obtain ⟨_, below, f₂, rfl, line, roots₂, _⟩ :=
      begins_node valid₁ legible₁ roots₁ (by decide) (by decide)
    obtain ⟨⟨marks, name, vs⟩, behind⟩ := line.line rfl
    rw [eq_nil_of_roots roots₂]
    exact ⟨⟨.label l :: marks, name, vs⟩, .label kind behind⟩
  · obtain ⟨_, below, f₁, rfl, instruction, roots₁, _⟩ :=
      begins_node valid legible roots (by decide) (by decide)
    obtain ⟨name, _, below, vs, kind, reads, rfl⟩ := instruction.instruction rfl
    rw [eq_nil_of_roots roots₁]
    exact ⟨⟨[], name, vs⟩, .instruction kind reads⟩

theorem exists_block (known : ⟨"start", rhs⟩ ∈ rules) (roots : f.roots = rhs)
    (valid : f.Valid rules) (legible : Legible f) : ∃ b, ReadsBlock f b := by
  have three : rhs = ["line", ";", "start"] ∨
      rhs = ["KW_repeat", "(", "I_LITERAL", ")", "\x7b", "start", "\x7d", "start"] ∨
      rhs = [Symbol.empty] := by
    simpa [rules, Symbol.empty] using known
  rcases three with rfl | rfl | rfl
  · obtain ⟨_, below, f₁, rfl, line, roots₁, valid₁, legible₁⟩ :=
      begins_node valid legible roots (by decide) (by decide)
    obtain ⟨stop, f₂, rfl, kind, roots₂, valid₂, legible₂⟩ :=
      begins_token valid₁ legible₁ roots₁ (by decide) (by decide)
    obtain ⟨_, behind, f₃, rfl, rest, roots₃, _⟩ :=
      begins_node valid₂ legible₂ roots₂ (by decide) (by decide)
    obtain ⟨s, reads⟩ := line.line rfl
    obtain ⟨b, others⟩ := rest.block rfl
    rw [eq_nil_of_roots roots₃]
    exact ⟨.statement s b, .statement reads kind others⟩
  · obtain ⟨key, f₁, rfl, isKey, roots₁, valid₁, legible₁⟩ :=
      begins_token valid legible roots (by decide) (by decide)
    obtain ⟨opens, f₂, rfl, isOpen, roots₂, valid₂, legible₂⟩ :=
      begins_token valid₁ legible₁ roots₁ (by decide) (by decide)
    obtain ⟨count, f₃, rfl, isCount, roots₃, valid₃, legible₃⟩ :=
      begins_token valid₂ legible₂ roots₂ (by decide) (by decide)
    obtain ⟨closes, f₄, rfl, isClose, roots₄, valid₄, legible₄⟩ :=
      begins_token valid₃ legible₃ roots₃ (by decide) (by decide)
    obtain ⟨left, f₅, rfl, isLeft, roots₅, valid₅, legible₅⟩ :=
      begins_token valid₄ legible₄ roots₄ (by decide) (by decide)
    obtain ⟨_, inside, f₆, rfl, body, roots₆, valid₆, legible₆⟩ :=
      begins_node valid₅ legible₅ roots₅ (by decide) (by decide)
    obtain ⟨right, f₇, rfl, isRight, roots₇, valid₇, legible₇⟩ :=
      begins_token valid₆ legible₆ roots₆ (by decide) (by decide)
    obtain ⟨_, below, f₈, rfl, rest, roots₈, _⟩ :=
      begins_node valid₇ legible₇ roots₇ (by decide) (by decide)
    obtain ⟨b, reads⟩ := body.block rfl
    obtain ⟨others, behind⟩ := rest.block rfl
    rw [eq_nil_of_roots roots₈]
    exact ⟨.loop count b others, .loop isKey isOpen isCount isClose isLeft reads isRight behind⟩
  · rw [eq_empty valid roots]
    exact ⟨.done, .done⟩

theorem legible_of_valid (valid : f.Valid rules) : Legible f := by
  induction f with
  | nil => trivial
  | empty rest ih => exact ih valid
  | token t rest ih => exact ih valid.2.2
  | node r children rest ihc ih =>
    obtain ⟨known, roots, inside, tail⟩ := valid
    have legible := ihc inside
    obtain ⟨lhs, rhs⟩ := r
    refine ⟨⟨?_, ?_, ?_, ?_, ?_, ?_, ?_⟩, ih tail⟩ <;> rintro rfl
    · exact exists_block known roots inside legible
    · exact exists_line known roots inside legible
    · exact exists_instruction known roots inside legible
    · exact exists_modifier known roots inside legible
    · exact exists_values known roots inside legible
    · exact exists_further known roots inside legible
    · exact exists_value known roots inside legible

/-- Every derivation tree of the language can be read as a block. -/
theorem exists_block_of_valid (valid : f.Valid rules) (roots : f.roots = [Symbol.start]) :
    ∃ rhs children b, f = .node ⟨"start", rhs⟩ children .nil ∧ ReadsBlock children b := by
  obtain ⟨rhs, children, rest, rfl, readable, tail, _⟩ :=
    begins_node valid (legible_of_valid valid) roots (by decide) (by decide)
  obtain ⟨b, reads⟩ := readable.block rfl
  rw [eq_nil_of_roots tail]
  exact ⟨rhs, children, b, rfl, reads⟩

end Nonterminals

end Language

end TableAsm
