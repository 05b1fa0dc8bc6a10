import Mathlib.Data.List.Sort
import TableAsm.Proofs.Grammar.Parsing

/-! The order of rules does not matter. What vanishes, opens and follows depends on which rules
there are, so the sets of a reordered list are the same, although the passes that compute them meet
the rules in another order. The tables differ in the places of the rules and agree on the rules. -/
namespace TableAsm

theorem NameSet.eq_of_mem_iff {s s' : NameSet} (h : ∀ a, a ∈ s ↔ a ∈ s') : s = s' :=
  NameSet.ext (s.ascending.eq_of_mem_iff s'.ascending h)

section Meaning

variable {rules rules' : List Rule} {s t x : String} {n : Nat}

theorem VanishesWithin.of_subset (sub : rules ⊆ rules') (h : VanishesWithin rules n s) :
    VanishesWithin rules' n s := by
  induction n generalizing s with
  | zero => exact h
  | succ n ih =>
    rcases h with h | ⟨r, mem, lhs, rhs⟩
    · exact Or.inl h
    · exact Or.inr ⟨r, sub mem, lhs, fun x hx => ih (rhs x hx)⟩

theorem Vanishes.of_subset (sub : rules ⊆ rules') (h : Vanishes rules s) : Vanishes rules' s := by
  obtain ⟨n, within⟩ := h
  exact ⟨n, within.of_subset sub⟩

theorem OpensWithin.of_subset (sub : rules ⊆ rules') (h : OpensWithin rules t n s) :
    OpensWithin rules' t n s := by
  induction n generalizing s with
  | zero => exact h
  | succ n ih =>
    rcases h with h | ⟨r, mem, lhs, before, x, after, rhs, vanish, opens⟩
    · exact Or.inl h
    · exact Or.inr ⟨r, sub mem, lhs, before, x, after, rhs,
        fun b hb => (vanish b hb).of_subset sub, ih opens⟩

variable (perm : rules.Perm rules')

include perm

theorem nonterminalsOf_perm : nonterminalsOf rules = nonterminalsOf rules' := by
  apply NameSet.eq_of_mem_iff
  intro a
  simp only [mem_nonterminalsOf, perm.mem_iff]

theorem vanishes_perm : Vanishes rules s ↔ Vanishes rules' s :=
  ⟨.of_subset perm.subset, .of_subset perm.symm.subset⟩

theorem opens_perm : Opens rules t s ↔ Opens rules' t s := by
  simp only [Opens, nonterminalsOf_perm perm]
  apply and_congr_right
  intro _
  apply and_congr_right
  intro _
  exact exists_congr fun n => ⟨.of_subset perm.subset, .of_subset perm.symm.subset⟩

theorem opensSequence_perm {w : List String} :
    OpensSequence rules t w ↔ OpensSequence rules' t w := by
  simp only [OpensSequence, opens_perm perm, vanishes_perm perm]

theorem Follows.of_perm (h : Follows rules t x) : Follows rules' t x := by
  induction h with
  | start eq => exact .start eq
  | opening mem rhs named opens =>
    rw [nonterminalsOf_perm perm] at named
    exact .opening (perm.subset mem) rhs named ((opensSequence_perm perm).mp opens)
  | inherited mem rhs named vanish _ ih =>
    rw [nonterminalsOf_perm perm] at named
    exact .inherited (perm.subset mem) rhs named
      (fun s hs => (vanishes_perm perm).mp (vanish s hs)) ih

theorem follows_perm : Follows rules t x ↔ Follows rules' t x := ⟨.of_perm perm, .of_perm perm.symm⟩

theorem predicts_perm {r : Rule} : Predicts rules r t ↔ Predicts rules' r t := by
  simp only [Predicts, opensSequence_perm perm, vanishes_perm perm, follows_perm perm]

end Meaning

theorem mem_firstOfSequence_singleton {nonterminals : NameSet} {first : SetFamily} {s a : String} :
    a ∈ firstOfSequence nonterminals first [s] ↔ a ∈ firstOf nonterminals first s := by
  rw [mem_firstOfSequence_cons, mem_firstOfSequence_nil]
  by_cases h : a = Symbol.empty <;> simp [h]

namespace Parser

variable {g g' : Grammar} {mark : Token}

/-- The parser asks a grammar for its nonterminals and for the rules in its table only. -/
theorem step_congr (named : ∀ s, g.isNonterminal s = g'.isNonterminal s)
    (rule : ∀ x t, g.ruleFor x t = g'.ruleFor x t) (p : Parser) :
    p.step g mark = p.step g' mark := by
  simp only [step, named, rule]

theorem Reaches.congr (same : ∀ p : Parser, p.step g mark = p.step g' mark) {p q : Parser}
    {events : List ParseEvent} (chain : Reaches g mark p events q) :
    Reaches g' mark p events q := by
  induction chain with
  | refl p => exact .refl p
  | step moved _ ih => exact .step ((same _).symm.trans moved) ih

end Parser

namespace Grammar

variable {rules rules' : List Rule}

theorem parse_congr {g g' : Grammar} (tabled : g.TableOf rules) (tabled' : g'.TableOf rules')
    (named : ∀ s, g.isNonterminal s = g'.isNonterminal s)
    (rule : ∀ x t, g.ruleFor x t = g'.ruleFor x t) (tokens : List Token) :
    g.parse tokens = g'.parse tokens := by
  obtain ⟨last, chain, stopped⟩ := parse_run tabled tokens
  have same : ∀ p : Parser, p.step g (endMark tokens) = p.step g' (endMark tokens) :=
    Parser.step_congr named rule
  exact (parse_eq_of_reaches tabled' (chain.congr same) ((same last).symm.trans stopped)).symm

section Reordered

variable (perm : rules.Perm rules')

include perm

theorem lookaheads_perm (reserved : Symbol.empty ∉ nonterminalsOf rules) (r : Rule) :
    Table.lookaheads (nonterminalsOf rules) (Sets.ofRules (nonterminalsOf rules) rules) r =
      Table.lookaheads (nonterminalsOf rules') (Sets.ofRules (nonterminalsOf rules') rules') r := by
  apply NameSet.eq_of_mem_iff
  intro t
  have reserved' : Symbol.empty ∉ nonterminalsOf rules' := nonterminalsOf_perm perm ▸ reserved
  rw [mem_lookaheads reserved, mem_lookaheads reserved', predicts_perm perm]

theorem accepted_of_perm (h : ∃ g, ofRules rules = .ok g) : ∃ g, ofRules rules' = .ok g := by
  obtain ⟨g, accepted⟩ := h
  have reserved := (tableOf_accepted accepted).empty_reserved
  obtain ⟨valid, started, table, built, _⟩ := (ofRules_eq_ok_iff rules g).mp accepted
  have apart := Table.exists_build_iff.mp ⟨table, built⟩
  simp only [lookaheads_perm perm reserved] at apart
  -- of two rules either one may come first now
  have either :=
    (perm.pairwise_iff fun apart same a mem mem' => apart same.symm a mem' mem).mp apart
  obtain ⟨table', built'⟩ := Table.exists_build_iff.mpr either
  refine ⟨_, (ofRules_eq_ok_iff rules' _).mpr ⟨?_, ?_, table', built', rfl⟩⟩
  · exact fun r mem => valid r (perm.mem_iff.mpr mem)
  · rwa [← nonterminalsOf_perm perm]

end Reordered

/-- A list of rules is accepted in every order or in none. The grammars have the same nonterminals,
the same FIRST and FOLLOW sets and the same rules in their tables, and they parse alike. -/
theorem ofRules_perm (rules rules' : List Rule) (perm : rules.Perm rules') :
    ((∃ g, ofRules rules = .ok g) ↔ ∃ g', ofRules rules' = .ok g') ∧
    ∀ g g', ofRules rules = .ok g → ofRules rules' = .ok g' →
      g.nonterminals = g'.nonterminals ∧
      (∀ s, g.first s = g'.first s ∧ g.follow s = g'.follow s) ∧
      (∀ x t, g.ruleFor x t = g'.ruleFor x t) ∧
      ∀ tokens, g.parse tokens = g'.parse tokens := by
  refine ⟨⟨accepted_of_perm perm, accepted_of_perm perm.symm⟩, ?_⟩
  intro g g' accepted accepted'
  have tabled := tableOf_accepted accepted
  have tabled' := tableOf_accepted accepted'
  have reserved := tabled.empty_reserved
  have reserved' := tabled'.empty_reserved
  have names : g.nonterminals = g'.nonterminals := by
    apply NameSet.eq_of_mem_iff
    intro s
    have named := isNonterminal_iff accepted s
    have named' := isNonterminal_iff accepted' s
    rw [isNonterminal, decide_eq_true_iff] at named named'
    rw [named, named', nonterminalsOf_perm perm]
  have rule : ∀ x t, g.ruleFor x t = g'.ruleFor x t := by
    intro x t
    apply Option.ext
    intro r
    rw [tabled.ruleFor_iff, tabled'.ruleFor_iff, predicts_perm perm, perm.mem_iff]
  refine ⟨names, fun s => ⟨?_, ?_⟩, rule, ?_⟩
  · obtain ⟨_, _, _, _, rfl⟩ := (ofRules_eq_ok_iff rules g).mp accepted
    obtain ⟨_, _, _, _, rfl⟩ := (ofRules_eq_ok_iff rules' g').mp accepted'
    apply NameSet.eq_of_mem_iff
    intro a
    simp only [first]
    rw [← mem_firstOfSequence_singleton, ← mem_firstOfSequence_singleton,
      mem_firstOfSequence_computed reserved, mem_firstOfSequence_computed reserved']
    simp only [vanishes_perm perm, opensSequence_perm perm]
  · obtain ⟨_, _, _, _, rfl⟩ := (ofRules_eq_ok_iff rules g).mp accepted
    obtain ⟨_, _, _, _, rfl⟩ := (ofRules_eq_ok_iff rules' g').mp accepted'
    apply NameSet.eq_of_mem_iff
    intro a
    simp only [follow]
    rw [mem_follow_computed reserved, mem_follow_computed reserved', follows_perm perm]
  · apply parse_congr tabled tabled' _ rule
    intro s
    simp only [isNonterminal, names]

/-- In the reverse order the rules have other places in the table. -/
theorem ofRules_perm_reversed :
    manyThenOne.Perm manyThenOne.reverse ∧
      ∃ g g', ofRules manyThenOne = .ok g ∧ ofRules manyThenOne.reverse = .ok g' ∧
        g.table ≠ g'.table ∧ (∀ s, g.first s = g'.first s ∧ g.follow s = g'.follow s) ∧
        ∀ tokens, g.parse tokens = g'.parse tokens := by
  have perm : manyThenOne.Perm manyThenOne.reverse := manyThenOne.reverse_perm.symm
  obtain ⟨both, alike⟩ := ofRules_perm manyThenOne manyThenOne.reverse perm
  have accepted : (ofRules manyThenOne).toOption.isSome = true := by decide +kernel
  have tables : (ofRules manyThenOne).toOption.map (·.table) ≠
      (ofRules manyThenOne.reverse).toOption.map (·.table) := by
    decide +kernel
  cases built : ofRules manyThenOne with
  | error e =>
    rw [built] at accepted
    cases accepted
  | ok g =>
    obtain ⟨g', built'⟩ := both.mp ⟨g, built⟩
    obtain ⟨_, sets, _, parses⟩ := alike g g' built built'
    rw [built, built'] at tables
    refine ⟨perm, g, g', rfl, built', ?_, sets, parses⟩
    intro same
    exact tables (congrArg some same)

end Grammar

end TableAsm
