import TableAsm.Proofs.Grammar.Prefixes
import TableAsm.Proofs.Language.Reading

/-! The blocks are the language. Tokens that spell a block have a derivation tree, one rule for
each way to spell a piece of syntax; with the reading of trees, the words of the language are the
kinds of what can be spelled. -/
namespace TableAsm.Language

/-- Some valid row of trees over the symbols derives the tokens. -/
def Derived (w : List String) (ts : List Token) : Prop :=
  ∃ f : Forest, f.Valid rules ∧ f.roots = w ∧ f.tokens = ts

namespace Derived

variable {s : String} {v w : List String} {t : Token} {front ts : List Token}

theorem nil : Derived [] [] := ⟨.nil, trivial, rfl, rfl⟩

theorem empty : Derived [Symbol.empty] [] := ⟨.empty .nil, trivial, rfl, rfl⟩

theorem token (kind : t.kind = s) (terminal : s ≠ Symbol.empty ∧ s ∉ nonterminalsOf rules)
    (rest : Derived w ts) : Derived (s :: w) (t :: ts) := by
  obtain ⟨f, valid, rfl, rfl⟩ := rest
  subst kind
  exact ⟨.token t f, ⟨terminal.1, terminal.2, valid⟩, rfl, rfl⟩

theorem append (first : Derived v front) (rest : Derived w ts) :
    Derived (v ++ w) (front ++ ts) := by
  obtain ⟨f, valid, rfl, rfl⟩ := first
  obtain ⟨h, valid', rfl, rfl⟩ := rest
  exact ⟨f.append h, (f.valid_append h rules).mpr ⟨valid, valid'⟩, f.roots_append h,
    f.tokens_append h⟩

theorem rule (known : ⟨s, w⟩ ∈ rules) (below : Derived w ts) : Derived [s] ts := by
  obtain ⟨f, valid, roots, rfl⟩ := below
  exact ⟨.node ⟨s, w⟩ f .nil, ⟨known, roots, valid, trivial⟩, rfl, List.append_nil _⟩

theorem value (kind : t.kind ∈ valueKinds) : Derived ["anyval"] [t] := by
  have plain : ∀ k ∈ valueKinds, ⟨"anyval", [k]⟩ ∈ rules ∧ k ≠ Symbol.empty ∧
      k ∉ nonterminalsOf rules := by decide
  obtain ⟨known, terminal⟩ := plain t.kind kind
  exact rule known (token rfl terminal nil)

end Derived

section Spelling

variable {ts : List Token}

theorem SpellsFurther.derived {vs : List Token} (h : SpellsFurther vs ts) :
    Derived ["more_operands"] ts := by
  induction h with
  | none => exact .rule (by decide) .empty
  | value comma kind _ ih =>
    have row : Derived [",", "anyval", "more_operands"] _ :=
      .token comma (by decide) ((Derived.value kind).append ih)
    exact row.rule (by decide)

theorem SpellsValues.derived {vs : List Token} (h : SpellsValues vs ts) :
    Derived ["operands"] ts := by
  cases h with
  | none => exact .rule (by decide) .empty
  | value kind further =>
    have row : Derived ["anyval", "more_operands"] _ := (Derived.value kind).append further.derived
    exact row.rule (by decide)

/-- A mark makes a line of a line. -/
theorem Mark.Spells.derived {m : Mark} {front : List Token} (h : m.Spells front)
    (line : Derived ["line"] ts) : Derived ["line"] (front ++ ts) := by
  have modified {a : Token} {inside : List Token} (sign : a.kind = "@")
      (modifier : Derived ["modifier"] inside) : Derived ["line"] (a :: inside ++ ts) := by
    have row : Derived ["@", "modifier", "line"] _ :=
      .token sign (by decide) (modifier.append line)
    exact row.rule (by decide)
  cases h with
  | label kind =>
    have row : Derived ["LABEL", "line"] _ := .token kind (by decide) line
    exact row.rule (by decide)
  | annotation sign keyword name =>
    have row : Derived ["KW_annotation", "IDENTIFIER"] _ :=
      .token keyword (by decide) (.token name (by decide) .nil)
    exact modified sign (row.rule (by decide))
  | property sign keyword name value =>
    have row : Derived ["KW_property", "IDENTIFIER", "anyval"] _ :=
      .token keyword (by decide) (.token name (by decide) (.value value))
    exact modified sign (row.rule (by decide))

theorem Statement.Spells.derived {s : Statement} (h : s.Spells ts) : Derived ["line"] ts := by
  induction h with
  | instruction kind values =>
    have row : Derived ["IDENTIFIER", "operands"] _ := .token kind (by decide) values.derived
    have instruction : Derived ["instruction"] _ := row.rule (by decide)
    exact instruction.rule (by decide)
  | marked mark _ ih => exact mark.derived ih

theorem Block.Spells.derived {b : Block} (h : b.Spells ts) : Derived ["start"] ts := by
  induction h with
  | done => exact .rule (by decide) .empty
  | statement line stop _ ih =>
    have row : Derived ["line", ";", "start"] _ :=
      line.derived.append (.token stop (by decide) ih)
    exact row.rule (by decide)
  | loop key opens count closes left _ right _ inside below =>
    have row : Derived ["KW_repeat", "(", "I_LITERAL", ")", "\x7b", "start", "\x7d", "start"] _ :=
      .token key (by decide) (.token opens (by decide) (.token count (by decide)
        (.token closes (by decide) (.token left (by decide)
          (inside.append (.token right (by decide) below))))))
    exact row.rule (by decide)

end Spelling

/-- The words of the language are what blocks are spelled with. -/
theorem mem_language_iff_spells (tokens : List Token) :
    tokens.map (·.kind) ∈ (contextFree rules).language ↔ ∃ b : Block, b.Spells tokens := by
  rw [mem_language_iff_forest (by decide) (by decide)]
  constructor
  · rintro ⟨f, valid, roots, rfl⟩
    obtain ⟨rhs, children, b, rfl, reads⟩ := exists_block_of_valid valid roots
    exact ⟨b, by simpa using reads.spells⟩
  · rintro ⟨b, spells⟩
    exact spells.derived

theorem Block.Spells.parsed {b : Block} {tokens : List Token} (h : b.Spells tokens) {g : Grammar}
    (accepted : Grammar.ofRules rules = .ok g) : (g.parse tokens).error = none :=
  Grammar.parse_of_mem_language accepted (by decide)
    ((mem_language_iff_spells tokens).mpr ⟨b, h⟩)

end TableAsm.Language
