import Mathlib.Data.Set.Basic
import TableAsm.Proofs.Grammar.Exactness
import TableAsm.Proofs.Grammar.Parsing

/-! Which rules are predictive: those where one token decides between all rules for a nonterminal.
The table is made for these and no others, and it predicts what derivations show. -/
namespace TableAsm

theorem Follows.ne_empty {rules : List Rule} {t x : String} (h : Follows rules t x) :
    t ≠ Symbol.empty := by
  induction h with
  | start eq => simp [eq, Symbol.endOfInput, Symbol.empty]
  | opening _ _ _ opens => exact opens.ne_empty
  | inherited _ _ _ _ _ ih => exact ih

namespace Grammar

variable {rules : List Rule} {r : Rule} {t : String}

/-- The terminals that can begin what the right-hand side of a rule derives and, if it derives the
empty text, those that can follow the left-hand side. -/
def predictionSet (rules : List Rule) (r : Rule) : Set String :=
  {t | (∃ rest, Derives rules (form rules r.rhs) (.terminal t :: rest)) ∨
    Derives rules (form rules r.rhs) [] ∧ CanFollow rules t r.lhs}

theorem mem_predictionSet (reserved : Symbol.empty ∉ nonterminalsOf rules)
    (started : Symbol.start ∈ nonterminalsOf rules) (known : r ∈ rules) :
    t ∈ predictionSet rules r ↔ Predicts rules r t := by
  have follows := @follows_iff_canFollow rules t reserved started _ (lhs_mem_nonterminalsOf known)
  simp only [predictionSet, Set.mem_ofPred_eq, Predicts, ← opensSequence_iff_derives reserved,
    ← vanish_iff_derives reserved, ← follows]
  apply or_congr_right
  apply and_congr_right
  intro _
  exact ⟨fun h => ⟨h.ne_empty, h⟩, And.right⟩

theorem mem_lookaheads_iff (reserved : Symbol.empty ∉ nonterminalsOf rules)
    (started : Symbol.start ∈ nonterminalsOf rules) (known : r ∈ rules) :
    t ∈ Table.lookaheads (nonterminalsOf rules) (Sets.ofRules (nonterminalsOf rules) rules) r ↔
      t ∈ predictionSet rules r := by
  rw [mem_lookaheads reserved, mem_predictionSet reserved started known]

theorem pairwise_lookaheads_iff (reserved : Symbol.empty ∉ nonterminalsOf rules)
    (started : Symbol.start ∈ nonterminalsOf rules) :
    (rules.Pairwise fun r r' => r.lhs = r'.lhs →
      ∀ a ∈ Table.lookaheads (nonterminalsOf rules) (Sets.ofRules (nonterminalsOf rules) rules) r,
        a ∉ Table.lookaheads (nonterminalsOf rules) (Sets.ofRules (nonterminalsOf rules) rules)
          r') ↔
    rules.Pairwise fun r r' => r.lhs = r'.lhs →
      ∀ t ∈ predictionSet rules r, t ∉ predictionSet rules r' := by
  apply List.Pairwise.iff_of_mem
  intro r r' known known'
  simp only [mem_lookaheads_iff reserved started, known, known']

theorem lookahead_ne_empty {g : Grammar} (accepted : ofRules rules = .ok g) :
    ∀ c ∈ g.table, c.lookahead ≠ Symbol.empty := by
  intro c mem
  have reserved := (tableOf_accepted accepted).empty_reserved
  obtain ⟨_, _, table, built, rfl⟩ := (ofRules_eq_ok_iff rules g).mp accepted
  obtain ⟨r, _, _, claimed, _⟩ := ((Table.build_spec built).2 c).mp mem
  obtain opens | ⟨_, ne, _⟩ := (mem_lookaheads reserved r c.lookahead).mp claimed
  · exact opens.ne_empty
  · exact ne

/-- Rules are accepted when they are valid, one is for the start symbol, and the prediction sets of
two rules for one nonterminal have nothing in common. The table then has the rules where they are
predicted, under no empty symbol and at no place behind the rules. -/
theorem ofRules_accepts_predictive (rules : List Rule) :
    ((∃ g, ofRules rules = .ok g) ↔ (∀ r ∈ rules, r.isValid = true) ∧
      (∃ r ∈ rules, r.lhs = Symbol.start) ∧
      rules.Pairwise fun r r' => r.lhs = r'.lhs →
        ∀ t ∈ predictionSet rules r, t ∉ predictionSet rules r') ∧
    ∀ g, ofRules rules = .ok g →
      (∀ x t r, g.ruleFor x t = some r ↔ r ∈ rules ∧ r.lhs = x ∧ t ∈ predictionSet rules r) ∧
      ∀ c ∈ g.table, c.lookahead ≠ Symbol.empty ∧ c.index < g.rules.length := by
  constructor
  · simp only [ofRules_eq_ok_iff, mem_nonterminalsOf]
    constructor
    · rintro ⟨g, valid, started, table, built, rfl⟩
      have apart := Table.exists_build_iff.mp ⟨table, built⟩
      rw [pairwise_lookaheads_iff (empty_reserved_of_valid valid)
        (mem_nonterminalsOf.mpr started)] at apart
      exact ⟨valid, started, apart⟩
    · rintro ⟨valid, started, apart⟩
      rw [← pairwise_lookaheads_iff (empty_reserved_of_valid valid)
        (mem_nonterminalsOf.mpr started)] at apart
      obtain ⟨table, built⟩ := Table.exists_build_iff.mpr apart
      exact ⟨_, valid, started, table, built, rfl⟩
  · intro g accepted
    have tabled := tableOf_accepted accepted
    have reserved := tabled.empty_reserved
    have started := start_named accepted
    constructor
    · intro x t r
      rw [tabled.ruleFor_iff]
      apply and_congr_right
      intro known
      rw [mem_predictionSet reserved started known]
    · intro c mem
      exact ⟨lookahead_ne_empty accepted c mem, tabled.placed c mem⟩

/-- Behind the `x` the empty rule is predicted by what follows. Of left-recursive rules one is
predicted wherever the other is. -/
theorem ofRules_accepts_manyThenOne :
    (∃ g, ofRules manyThenOne = .ok g ∧
      "y" ∈ predictionSet manyThenOne ⟨"many", [Symbol.empty]⟩) ∧
    ¬ leftRecursive.Pairwise fun r r' => r.lhs = r'.lhs →
      ∀ t ∈ predictionSet leftRecursive r, t ∉ predictionSet leftRecursive r' := by
  constructor
  · have run : ((ofRules manyThenOne).toOption.bind (·.ruleFor "many" "y")) =
        some ⟨"many", [Symbol.empty]⟩ := by
      decide +kernel
    cases built : ofRules manyThenOne with
    | error e =>
      rw [built] at run
      cases run
    | ok g =>
      rw [built] at run
      obtain ⟨_, _, mem⟩ := (((ofRules_accepts_predictive manyThenOne).2 g built).1 _ _ _).mp run
      exact ⟨g, rfl, mem⟩
  · intro apart
    obtain ⟨g, built⟩ :=
      (ofRules_accepts_predictive leftRecursive).1.mpr ⟨by decide, by decide, apart⟩
    have refused : (ofRules leftRecursive).toOption.isNone = true := by decide +kernel
    simp [built, Except.toOption] at refused

end Grammar

end TableAsm
