import TableAsm.Proofs.Grammar.Follow

/-! What parse tables mean. A rule is predicted by the terminals that its right-hand side opens
with and, if that vanishes, by those that follow its left-hand side. The table of an accepted list
of rules has a rule in a cell exactly when the symbol of the cell predicts it. -/
namespace TableAsm

/-- A rule applies to its left-hand side when a symbol comes next. -/
def Predicts (rules : List Rule) (r : Rule) (t : String) : Prop :=
  OpensSequence rules t r.rhs ∨
    ((∀ s ∈ r.rhs, Vanishes rules s) ∧ t ≠ Symbol.empty ∧ Follows rules t r.lhs)

theorem OpensSequence.ne_empty {rules : List Rule} {t : String} {w : List String}
    (h : OpensSequence rules t w) : t ≠ Symbol.empty := by
  obtain ⟨_, _, _, _, _, ne, _⟩ := h
  exact ne

theorem Predicts.ne_empty {rules : List Rule} {r : Rule} {t : String} (h : Predicts rules r t) :
    t ≠ Symbol.empty := by
  rcases h with opens | ⟨_, ne, _⟩
  · exact opens.ne_empty
  · exact ne

theorem mem_lookaheads {rules : List Rule} (reserved : Symbol.empty ∉ nonterminalsOf rules)
    (r : Rule) (t : String) :
    t ∈ Table.lookaheads (nonterminalsOf rules) (Sets.ofRules (nonterminalsOf rules) rules) r ↔
      Predicts rules r t := by
  -- a rule is claimed for what follows a symbol that stands at the end of its right-hand side
  have added := @mem_followAdditions (nonterminalsOf rules)
    (Sets.ofRules (nonterminalsOf rules) rules).first
    (Sets.ofRules (nonterminalsOf rules) rules).follow r.lhs r.rhs t
  have lookahead : t ∈ Table.lookaheads (nonterminalsOf rules)
      (Sets.ofRules (nonterminalsOf rules) rules) r ↔ _ := added
  rw [lookahead, mem_firstOfSequence_computed reserved, mem_firstOfSequence_computed reserved,
    mem_follow_computed reserved, if_pos rfl, Predicts]
  constructor
  · rintro (⟨opens, ne⟩ | up)
    · rw [if_neg ne] at opens
      exact Or.inl opens
    · exact Or.inr up
  · rintro (opens | up)
    · exact Or.inl ⟨by rw [if_neg opens.ne_empty]; exact opens, opens.ne_empty⟩
    · exact Or.inr up

namespace Table

theorem mem_of_indexFor {t : Table} {nonterminal lookahead : String} {i : Nat}
    (found : t.indexFor nonterminal lookahead = some i) : ⟨nonterminal, lookahead, i⟩ ∈ t := by
  obtain ⟨c, first, rfl⟩ := Option.map_eq_some_iff.mp found
  have key := List.find?_some first
  simp only [Bool.and_eq_true, beq_iff_eq] at key
  obtain ⟨rfl, rfl⟩ := key
  exact List.mem_of_find?_eq_some first

theorem indexFor_eq_none {t : Table} {nonterminal lookahead : String} :
    t.indexFor nonterminal lookahead = none ↔ ∀ i, ⟨nonterminal, lookahead, i⟩ ∉ t := by
  simp only [indexFor, Option.map_eq_none_iff, List.find?_eq_none, Bool.and_eq_true, beq_iff_eq]
  constructor
  · intro absent i mem
    exact absent _ mem ⟨rfl, rfl⟩
  · rintro absent c mem ⟨rfl, rfl⟩
    exact absent c.index mem

/-- No two cells are for the same nonterminal and lookahead. -/
def Functional (t : Table) : Prop :=
  ∀ nonterminal lookahead i j, ⟨nonterminal, lookahead, i⟩ ∈ t → ⟨nonterminal, lookahead, j⟩ ∈ t →
    i = j

theorem Functional.indexFor_eq_some {t : Table} (functional : t.Functional)
    {nonterminal lookahead : String} {i : Nat} :
    t.indexFor nonterminal lookahead = some i ↔ ⟨nonterminal, lookahead, i⟩ ∈ t := by
  constructor
  · exact mem_of_indexFor
  · intro mem
    cases found : t.indexFor nonterminal lookahead with
    | none => exact absurd mem (indexFor_eq_none.mp found i)
    | some j => rw [functional _ _ _ _ (mem_of_indexFor found) mem]

/-- Claiming the cells of a rule adds these and no others. -/
theorem claim_spec {rules : List Rule} {rule : Rule} {index : Nat} {t claimed : Table}
    (functional : t.Functional) (lookaheads : List String)
    (ok : claim rules rule index t lookaheads = .ok claimed) :
    claimed.Functional ∧ ∀ c, c ∈ claimed ↔ c ∈ t ∨
      ∃ a ∈ lookaheads, c = ⟨rule.lhs, a, index⟩ := by
  induction lookaheads generalizing t with
  | nil =>
    cases Except.ok.inj ok
    exact ⟨functional, by simp⟩
  | cons a rest ih =>
    simp only [claim] at ok
    split at ok
    · rename_i other found
      split at ok
      · rename_i same
        obtain ⟨functional', cells⟩ := ih functional ok
        have there := mem_of_indexFor (same ▸ found)
        refine ⟨functional', fun c => ?_⟩
        rw [cells]
        simp only [List.exists_mem_cons_iff]
        constructor
        · rintro (old | new)
          · exact Or.inl old
          · exact Or.inr (Or.inr new)
        · rintro (old | rfl | new)
          · exact Or.inl old
          · exact Or.inl there
          · exact Or.inr new
      · cases ok
    · rename_i free
      rw [indexFor_eq_none] at free
      have functional' : Functional (⟨rule.lhs, a, index⟩ :: t) := by
        intro nonterminal lookahead i j first second
        simp only [List.mem_cons, Cell.mk.injEq] at first second
        rcases first with ⟨rfl, rfl, rfl⟩ | first <;> rcases second with ⟨eq, eq', rfl⟩ | second
        · rfl
        · exact absurd second (free j)
        · exact absurd (eq ▸ eq' ▸ first) (free i)
        · exact functional _ _ _ _ first second
      obtain ⟨claims, cells⟩ := ih functional' ok
      refine ⟨claims, fun c => ?_⟩
      rw [cells, List.exists_mem_cons_iff, List.mem_cons, or_assoc, or_left_comm]

/-- A rule can claim cells that no other rule has. -/
theorem exists_claim {rules : List Rule} {rule : Rule} {index : Nat} {t : Table}
    (lookaheads : List String)
    (free : ∀ a ∈ lookaheads, ∀ i, ⟨rule.lhs, a, i⟩ ∈ t → i = index) :
    ∃ claimed, claim rules rule index t lookaheads = .ok claimed := by
  induction lookaheads generalizing t with
  | nil => exact ⟨t, rfl⟩
  | cons a rest ih =>
    simp only [claim]
    split
    · rename_i other found
      rw [if_pos (free a List.mem_cons_self _ (mem_of_indexFor found))]
      exact ih fun b mem => free b (List.mem_cons_of_mem _ mem)
    · apply ih
      intro b mem i there
      simp only [List.mem_cons, Cell.mk.injEq] at there
      rcases there with ⟨-, -, rfl⟩ | there
      · rfl
      · exact free b (List.mem_cons_of_mem _ mem) i there

section Building

variable {nonterminals : NameSet} {sets : Sets} {rules : List Rule}

/-- The cells that a rule claims at a place. -/
def Claims (nonterminals : NameSet) (sets : Sets) (r : Rule) (i : Nat) (c : Cell) : Prop :=
  c.nonterminal = r.lhs ∧ c.lookahead ∈ lookaheads nonterminals sets r ∧ c.index = i

theorem claims_iff {r : Rule} {i : Nat} {c : Cell} : Claims nonterminals sets r i c ↔
    ∃ a ∈ (lookaheads nonterminals sets r).toList, c = ⟨r.lhs, a, i⟩ := by
  constructor
  · rintro ⟨lhs, mem, rfl⟩
    exact ⟨_, mem, by rw [← lhs]⟩
  · rintro ⟨a, mem, rfl⟩
    exact ⟨rfl, mem, rfl⟩

theorem build_from_spec {placed : List (Rule × Nat)} {t built : Table} (functional : t.Functional)
    (ok : placed.foldlM
      (fun t (r, i) => claim rules r i t (lookaheads nonterminals sets r).toList) t = .ok built) :
    built.Functional ∧ ∀ c, c ∈ built ↔ c ∈ t ∨
      ∃ r i, (r, i) ∈ placed ∧ Claims nonterminals sets r i c := by
  induction placed generalizing t with
  | nil =>
    cases Except.ok.inj ok
    exact ⟨functional, by simp⟩
  | cons first rest ih =>
    obtain ⟨r, i⟩ := first
    simp only [List.foldlM_cons] at ok
    cases claims : claim rules r i t (lookaheads nonterminals sets r).toList with
    | error e =>
      rw [claims] at ok
      cases ok
    | ok claimed =>
      rw [claims] at ok
      obtain ⟨functional', cells⟩ := claim_spec functional _ claims
      obtain ⟨functional'', cells'⟩ := ih functional' ok
      refine ⟨functional'', fun c => ?_⟩
      rw [cells', cells, ← claims_iff]
      simp only [List.mem_cons, Prod.mk.injEq]
      constructor
      · rintro ((old | new) | ⟨r', i', mem, later⟩)
        · exact Or.inl old
        · exact Or.inr ⟨r, i, Or.inl ⟨rfl, rfl⟩, new⟩
        · exact Or.inr ⟨r', i', Or.inr mem, later⟩
      · rintro (old | ⟨r', i', ⟨rfl, rfl⟩ | mem, claimed⟩)
        · exact Or.inl (Or.inl old)
        · exact Or.inl (Or.inr claimed)
        · exact Or.inr ⟨r', i', mem, claimed⟩

/-- The table has the cells that the rules claim. -/
theorem build_spec {built : Table} (ok : build nonterminals sets rules = .ok built) :
    built.Functional ∧ ∀ c, c ∈ built ↔
      ∃ r, rules[c.index]? = some r ∧ Claims nonterminals sets r c.index c := by
  obtain ⟨functional, cells⟩ :=
    build_from_spec (fun _ _ _ _ none _ => absurd none List.not_mem_nil) ok
  refine ⟨functional, fun c => ?_⟩
  simp only [cells, List.not_mem_nil, false_or, List.mk_mem_zipIdx_iff_getElem?]
  constructor
  · rintro ⟨r, i, place, claimed⟩
    obtain rfl := claimed.2.2
    exact ⟨r, place, claimed⟩
  · rintro ⟨r, place, claimed⟩
    exact ⟨r, _, place, claimed⟩

theorem ruleFor_build {built : Table} (ok : build nonterminals sets rules = .ok built)
    (nonterminal a : String) (r : Rule) :
    (built.indexFor nonterminal a).bind (rules[·]?) = some r ↔
      r ∈ rules ∧ r.lhs = nonterminal ∧ a ∈ lookaheads nonterminals sets r := by
  obtain ⟨functional, cells⟩ := build_spec ok
  simp only [Option.bind_eq_some_iff, functional.indexFor_eq_some, cells]
  constructor
  · rintro ⟨i, ⟨r', place, lhs, mem, -⟩, same⟩
    obtain rfl := Option.some.inj (place.symm.trans same)
    exact ⟨List.mem_of_getElem? place, lhs.symm, mem⟩
  · rintro ⟨known, rfl, mem⟩
    obtain ⟨i, place⟩ := List.mem_iff_getElem?.mp known
    exact ⟨i, ⟨r, place, rfl, mem, rfl⟩, place⟩

theorem exists_build_from {placed : List (Rule × Nat)} {t : Table} (functional : t.Functional)
    (free : ∀ r i c, (r, i) ∈ placed → Claims nonterminals sets r i c →
      ∀ j, ⟨c.nonterminal, c.lookahead, j⟩ ∉ t)
    (apart : placed.Pairwise fun p q => p.1.lhs = q.1.lhs →
      ∀ a ∈ lookaheads nonterminals sets p.1, a ∉ lookaheads nonterminals sets q.1) :
    ∃ built, placed.foldlM
      (fun t (r, i) => claim rules r i t (lookaheads nonterminals sets r).toList) t =
        .ok built := by
  induction placed generalizing t with
  | nil => exact ⟨t, rfl⟩
  | cons first rest ih =>
    obtain ⟨r, i⟩ := first
    obtain ⟨claimed, claims⟩ : ∃ claimed, claim rules r i t
        (lookaheads nonterminals sets r).toList = .ok claimed := by
      apply exists_claim
      intro a mem j there
      exact absurd there (free r i ⟨r.lhs, a, i⟩ List.mem_cons_self ⟨rfl, mem, rfl⟩ j)
    obtain ⟨functional', cells⟩ := claim_spec functional _ claims
    obtain ⟨different, apart'⟩ := List.pairwise_cons.mp apart
    simp only [List.foldlM_cons, claims]
    refine ih functional' (fun r' i' c mem claimed' j there => ?_) apart'
    rcases (cells _).mp there with old | ⟨a, taken, same⟩
    · exact free r' i' c (List.mem_cons_of_mem _ mem) claimed' j old
    · -- the cell was claimed for the first rule, which has the same left-hand side then
      obtain ⟨lhs, rfl, -⟩ := Cell.mk.inj same
      exact different _ mem (lhs.symm.trans claimed'.1) _ taken claimed'.2.1

/-- There is a table when no two rules for one nonterminal have a lookahead in common. -/
theorem exists_build_iff : (∃ built, build nonterminals sets rules = .ok built) ↔
    rules.Pairwise fun r r' => r.lhs = r'.lhs →
      ∀ a ∈ lookaheads nonterminals sets r, a ∉ lookaheads nonterminals sets r' := by
  constructor
  · rintro ⟨built, ok⟩
    obtain ⟨functional, cells⟩ := build_spec ok
    apply List.pairwise_iff_getElem.mpr
    intro i j short short' less lhs a mem mem'
    have first := (cells ⟨rules[i].lhs, a, i⟩).mpr
      ⟨_, List.getElem?_eq_getElem short, rfl, mem, rfl⟩
    have second := (cells ⟨rules[i].lhs, a, j⟩).mpr
      ⟨_, List.getElem?_eq_getElem short', lhs, mem', rfl⟩
    exact Nat.ne_of_lt less (functional _ _ _ _ first second)
  · intro apart
    rw [← List.zipIdx_map_fst 0 rules, List.pairwise_map] at apart
    exact exists_build_from (fun _ _ _ _ none _ => absurd none List.not_mem_nil)
      (fun _ _ _ _ _ _ => List.not_mem_nil) apart

end Building

end Table

namespace Rule

theorem lhs_ne_empty {r : Rule} (valid : r.isValid = true) : r.lhs ≠ Symbol.empty := by
  simp only [isValid, Bool.and_eq_true, bne_iff_ne] at valid
  exact valid.1.1.2

theorem lhs_ne_endOfInput {r : Rule} (valid : r.isValid = true) :
    r.lhs ≠ Symbol.endOfInput := by
  simp only [isValid, Bool.and_eq_true, bne_iff_ne] at valid
  exact valid.1.2

theorem rhs_ne_nil {r : Rule} (valid : r.isValid = true) : r.rhs ≠ [] := by
  simp only [isValid, Bool.and_eq_true] at valid
  simpa using valid.2

end Rule

namespace Grammar

/-- The table of a grammar is the one that a list of its rules asks for. Its nonterminals may be
more than those of the list. -/
structure TableOf (g : Grammar) (rules : List Rule) : Prop where
  ruleFor_iff : ∀ nonterminal t r, g.ruleFor nonterminal t = some r ↔
    r ∈ rules ∧ r.lhs = nonterminal ∧ Predicts rules r t
  named : ∀ s ∈ nonterminalsOf rules, g.isNonterminal s = true
  known : ∀ r ∈ rules, r ∈ g.rules
  placed : ∀ c ∈ g.table, c.index < g.rules.length
  empty_reserved : Symbol.empty ∉ nonterminalsOf rules
  end_reserved : Symbol.endOfInput ∉ nonterminalsOf rules

/-- What it takes for a list of rules to be accepted, and what the grammar then is. -/
theorem ofRules_eq_ok_iff (rules : List Rule) (g : Grammar) :
    ofRules rules = .ok g ↔ (∀ r ∈ rules, r.isValid = true) ∧
      Symbol.start ∈ nonterminalsOf rules ∧
      ∃ table, Table.build (nonterminalsOf rules) (Sets.ofRules (nonterminalsOf rules) rules)
          rules = .ok table ∧
        g = ⟨rules, nonterminalsOf rules, Sets.ofRules (nonterminalsOf rules) rules, table⟩ := by
  unfold ofRules
  rw [show (unbuilt rules).rebuild = _ from rfl, rebuild]
  cases bad : (unbuilt rules).rules.find? (!·.isValid) with
  | some r =>
    have mem : r ∈ rules := List.mem_of_find?_eq_some bad
    have invalid := List.find?_some bad
    constructor
    · intro h
      cases h
    · rintro ⟨valid, _⟩
      simp [valid r mem] at invalid
  | none =>
    have valid : ∀ r ∈ rules, r.isValid = true := by
      simpa [unbuilt] using List.find?_eq_none.mp bad
    simp only [recompute]
    rw [show NameSet.ofList ((unbuilt rules).rules.map (·.lhs)) = nonterminalsOf rules from rfl,
      show (unbuilt rules).rules = rules from rfl]
    by_cases started : Symbol.start ∈ nonterminalsOf rules
    · rw [if_pos started]
      cases built : Table.build (nonterminalsOf rules)
          (Sets.ofRules (nonterminalsOf rules) rules) rules with
      | ok table =>
        constructor
        · intro h
          exact ⟨valid, started, table, rfl, (Except.ok.inj h).symm⟩
        · rintro ⟨_, _, other, same, rfl⟩
          cases Except.ok.inj same
          rfl
      | error c =>
        constructor
        · intro h
          cases h
        · rintro ⟨_, _, table, impossible, _⟩
          cases impossible
    · rw [if_neg started]
      constructor
      · intro h
        cases h
      · rintro ⟨_, named, _⟩
        exact absurd named started

section Accepted

variable {rules : List Rule} {g : Grammar}

theorem isNonterminal_iff (accepted : ofRules rules = .ok g) (s : String) :
    g.isNonterminal s = true ↔ s ∈ nonterminalsOf rules := by
  obtain ⟨_, _, table, _, rfl⟩ := (ofRules_eq_ok_iff rules g).mp accepted
  simp [isNonterminal]

theorem valid_of_accepted (accepted : ofRules rules = .ok g) :
    ∀ r ∈ rules, r.isValid = true :=
  ((ofRules_eq_ok_iff rules g).mp accepted).1

theorem start_named (accepted : ofRules rules = .ok g) :
    Symbol.start ∈ nonterminalsOf rules :=
  ((ofRules_eq_ok_iff rules g).mp accepted).2.1

theorem tableOf_accepted (accepted : ofRules rules = .ok g) : g.TableOf rules := by
  have named := isNonterminal_iff accepted
  obtain ⟨valid, started, table, built, rfl⟩ := (ofRules_eq_ok_iff rules g).mp accepted
  have reserved : Symbol.empty ∉ nonterminalsOf rules := by
    intro mem
    obtain ⟨r, hr, eq⟩ := mem_nonterminalsOf.mp mem
    exact Rule.lhs_ne_empty (valid r hr) eq
  constructor
  · intro nonterminal t r
    show (Table.indexFor table nonterminal t).bind (rules[·]?) = some r ↔ _
    rw [Table.ruleFor_build built, mem_lookaheads reserved]
  · exact fun s mem => (named s).mpr mem
  · exact fun r mem => mem
  · intro c mem
    obtain ⟨r, place, _⟩ := ((Table.build_spec built).2 c).mp mem
    exact (List.getElem?_eq_some_iff.mp place).1
  · exact reserved
  · intro mem
    obtain ⟨r, hr, eq⟩ := mem_nonterminalsOf.mp mem
    exact Rule.lhs_ne_endOfInput (valid r hr) eq

end Accepted

end Grammar

end TableAsm
