import TableAsm.Proofs.Grammar.Sentential

/-! The computed sets are exact: the passes that compute them come to an end, and then the sets hold
what derivations show and nothing else. This is so for all valid rules with one for the start
symbol, whether or not a table can be made for them. -/
namespace TableAsm.Grammar

variable {g : Grammar}

theorem empty_reserved_of_valid {rules : List Rule} (valid : ∀ r ∈ rules, r.isValid = true) :
    Symbol.empty ∉ nonterminalsOf rules := by
  intro mem
  obtain ⟨r, known, eq⟩ := mem_nonterminalsOf.mp mem
  exact Rule.lhs_ne_empty (valid r known) eq

/-- Valid rules with one for the start symbol get their nonterminals and sets. -/
theorem rebuild_parts (valid : ∀ r ∈ g.rules, r.isValid = true)
    (started : Symbol.start ∈ nonterminalsOf g.rules) :
    ∃ table, g.rebuild.1 = ⟨g.rules, nonterminalsOf g.rules,
      Sets.ofRules (nonterminalsOf g.rules) g.rules, table⟩ := by
  have none : g.rules.find? (!·.isValid) = none := by simpa using valid
  simp only [rebuild, none, recompute]
  rw [show NameSet.ofList (g.rules.map (·.lhs)) = nonterminalsOf g.rules from rfl, if_pos started]
  split
  · exact ⟨_, rfl⟩
  · exact ⟨_, rfl⟩

/-- The passes for FIRST end. After them FIRST of a sequence holds the terminals that begin what the
sequence derives, the empty symbol when it derives the empty text, and nothing else. -/
theorem mem_firstOfSequence_iff_derives (valid : ∀ r ∈ g.rules, r.isValid = true)
    (started : ∃ r ∈ g.rules, r.lhs = Symbol.start) :
    let built := g.rebuild.1
    SetFamily.Stabilizes (firstPass built.nonterminals built.rules) ∅ built.sets.first
        built.sets.firstPasses ∧
      ∀ w, (∀ t, t ≠ Symbol.empty → (t ∈ built.firstOfSequence w ↔
          ∃ rest, Derives g.rules (form g.rules w) (.terminal t :: rest))) ∧
        (Symbol.empty ∈ built.firstOfSequence w ↔ Derives g.rules (form g.rules w) []) ∧
        ∀ t ∈ built.firstOfSequence w, t = Symbol.empty ∨ built.isNonterminal t = false := by
  have reserved := empty_reserved_of_valid valid
  obtain ⟨table, parts⟩ := rebuild_parts valid (mem_nonterminalsOf.mpr started)
  have meaning : ∀ w t, t ∈ g.rebuild.1.firstOfSequence w ↔
      if t = Symbol.empty then ∀ s ∈ w, Vanishes g.rules s else OpensSequence g.rules t w := by
    intro w t
    rw [parts]
    exact mem_firstOfSequence_computed reserved w t
  refine ⟨?_, fun w => ⟨fun t ne => ?_, ?_, fun t mem => ?_⟩⟩
  · rw [parts]
    exact first_stabilizes g.rules
  · rw [meaning, if_neg ne, opensSequence_iff_derives reserved]
  · rw [meaning, if_pos rfl, vanish_iff_derives reserved]
  · by_cases ne : t = Symbol.empty
    · exact Or.inl ne
    · rw [meaning, if_neg ne] at mem
      obtain ⟨_, _, _, _, _, _, terminal, _⟩ := mem
      rw [parts]
      exact Or.inr (decide_eq_false terminal)

/-- Rules that no table can be made for, since the start symbol derives itself first. -/
def leftRecursive : List Rule :=
  [⟨Symbol.start, [Symbol.start, "a"]⟩, ⟨Symbol.start, [Symbol.empty]⟩]

theorem mem_firstOfSequence_leftRecursive :
    (unbuilt leftRecursive).rebuild.2.isSome = true ∧
      (∀ r ∈ leftRecursive, r.isValid = true) ∧ (∃ r ∈ leftRecursive, r.lhs = Symbol.start) ∧
      (∃ rest, Derives leftRecursive (form leftRecursive [Symbol.start, Symbol.empty])
        (.terminal "a" :: rest)) ∧
      Derives leftRecursive (form leftRecursive [Symbol.start, Symbol.empty]) [] := by
  have valid : ∀ r ∈ leftRecursive, r.isValid = true := by decide
  have started : ∃ r ∈ leftRecursive, r.lhs = Symbol.start := by decide
  obtain ⟨_, exact_first⟩ := @mem_firstOfSequence_iff_derives (unbuilt leftRecursive) valid started
  obtain ⟨opens, vanishes, _⟩ := exact_first [Symbol.start, Symbol.empty]
  refine ⟨by decide +kernel, valid, started, ?_, ?_⟩
  · exact (opens "a" (by decide)).mp (by decide +kernel)
  · exact vanishes.mp (by decide +kernel)

/-- The passes for FOLLOW end. After them a terminal follows a nonterminal when it stands directly
behind it in what some nonterminal derives, whether or not that one is of use to the start symbol.
The end of input follows the nonterminals that come last in what the start symbol derives. -/
theorem mem_follow_iff_derives (valid : ∀ r ∈ g.rules, r.isValid = true)
    (started : ∃ r ∈ g.rules, r.lhs = Symbol.start) :
    let built := g.rebuild.1
    SetFamily.Stabilizes (followPass built.nonterminals built.sets.first built.rules)
        (SetFamily.add ∅ Symbol.start (.singleton Symbol.endOfInput)) built.sets.follow
        built.sets.followPasses ∧
      (∀ x, built.isNonterminal x = true →
        (∀ t, t ≠ Symbol.endOfInput → t ≠ Symbol.empty → (t ∈ built.follow x ↔
          ∃ s, built.isNonterminal s = true ∧ ∃ before behind,
            Derives g.rules [.nonterminal s]
              (before ++ .nonterminal x :: .terminal t :: behind))) ∧
        ((∀ r ∈ g.rules, Symbol.endOfInput ∉ r.rhs) → (Symbol.endOfInput ∈ built.follow x ↔
          ∃ before, Derives g.rules [.nonterminal Symbol.start] (before ++ [.nonterminal x])))) ∧
      ∀ x, Symbol.empty ∉ built.follow x := by
  have reserved := empty_reserved_of_valid valid
  have named := mem_nonterminalsOf.mpr started
  obtain ⟨table, parts⟩ := rebuild_parts valid named
  have meaning : ∀ x t, t ∈ g.rebuild.1.follow x ↔ t ≠ Symbol.empty ∧ Follows g.rules t x := by
    intro x t
    rw [parts]
    exact mem_follow_computed reserved x t
  have known : ∀ s, g.rebuild.1.isNonterminal s = true ↔ s ∈ nonterminalsOf g.rules := by
    intro s
    simp [parts, isNonterminal]
  refine ⟨?_, fun x isNamed => ⟨fun t notEnd ne => ?_, fun unmarked => ?_⟩, fun x mem => ?_⟩
  · rw [parts]
    exact follow_stabilizes g.rules
  · have follows := @follows_iff_canFollow g.rules t reserved named x ((known x).mp isNamed)
    simp only [meaning, follows, CanFollow, known, ne, notEnd, ne_eq, not_false_eq_true, true_and,
      false_and, or_false]
  · have ne : Symbol.endOfInput ≠ Symbol.empty := by decide
    have follows := @follows_iff_canFollow g.rules Symbol.endOfInput reserved named x
      ((known x).mp isNamed)
    -- no rule has the mark, so none can stand behind a nonterminal
    have never : ¬ ∃ s ∈ nonterminalsOf g.rules, ∃ before behind, Derives g.rules [.nonterminal s]
        (before ++ .nonterminal x :: .terminal Symbol.endOfInput :: behind) := by
      rintro ⟨s, isNamed, before, behind, derived⟩
      have marked : ∃ r ∈ g.rules, Symbol.endOfInput ∈ r.rhs :=
        exists_rhs_of_derives reserved isNamed derived (by simp)
      obtain ⟨r, mem, stands⟩ := marked
      exact unmarked r mem stands
    simp only [meaning, follows, CanFollow, never, ne, ne_eq, not_false_eq_true, true_and,
      false_or]
  · exact ((meaning x _).mp mem).1 rfl

/-- Rules with a nonterminal that the start symbol does not reach, and with a suffix that derives
nothing. -/
def unreachable : List Rule :=
  [⟨Symbol.start, ["a", "tail"]⟩, ⟨"tail", ["opt", "opt"]⟩, ⟨"opt", [Symbol.empty]⟩,
    ⟨"lost", ["tail", "opt", "b"]⟩]

theorem mem_follow_unreachable :
    (∀ r ∈ unreachable, r.isValid = true) ∧ (∃ r ∈ unreachable, r.lhs = Symbol.start) ∧
      (∀ r ∈ unreachable, Symbol.endOfInput ∉ r.rhs) ∧
      (∃ s before behind, Derives unreachable [.nonterminal s]
        (before ++ .nonterminal "opt" :: .terminal "b" :: behind)) ∧
      ∃ before, Derives unreachable [.nonterminal Symbol.start]
        (before ++ [.nonterminal "opt"]) := by
  have valid : ∀ r ∈ unreachable, r.isValid = true := by decide
  have started : ∃ r ∈ unreachable, r.lhs = Symbol.start := by decide
  have unmarked : ∀ r ∈ unreachable, Symbol.endOfInput ∉ r.rhs := by decide
  obtain ⟨_, exact_follow, _⟩ := @mem_follow_iff_derives (unbuilt unreachable) valid started
  obtain ⟨inside, atEnd⟩ := exact_follow "opt" (by decide +kernel)
  refine ⟨valid, started, unmarked, ?_, (atEnd unmarked).mp (by decide +kernel)⟩
  obtain ⟨s, _, derived⟩ := (inside "b" (by decide) (by decide)).mp (by decide +kernel)
  exact ⟨s, derived⟩

end TableAsm.Grammar
