import TableAsm.Proofs.Grammar.Parsing

/-! Grammars that rules are added to. An addition that fails leaves the new rule behind, and with it
nonterminals or sets that the table was not made for. The table still is the one that some of the
rules ask for, and that is all it takes for a parse to end. -/
namespace TableAsm

theorem head?_append_of_head? {c : Char} {s : String} (h : s.toList.head? = some c) (t : String) :
    (s ++ t).toList.head? = some c := by
  rw [String.toList_append, List.head?_append, h, Option.some_or]

/-- No error at a token reads like that of a parser with nothing left to derive. -/
theorem ParseError.message_ne_of_found {e : ParseError} {t : Token} (h : e.found? = some t) :
    e.message ≠ "parse stack exhausted before end of input" := by
  have first : ∃ c, e.message.toList.head? = some c ∧ c ≠ 'p' := by
    cases e with
    | noRule nonterminal found =>
      have begins : "unexpected ".toList.head? = some 'u' := by decide
      exact ⟨'u', head?_append_of_head? (head?_append_of_head? (head?_append_of_head?
        (head?_append_of_head? begins _) _) _) _, by decide⟩
    | endExpected found =>
      have begins : "expected end of input, found ".toList.head? = some 'e' := by decide
      exact ⟨'e', head?_append_of_head? begins _, by decide⟩
    | kindExpected kind found =>
      have begins : "expected `".toList.head? = some 'e' := by decide
      exact ⟨'e', head?_append_of_head? (head?_append_of_head? (head?_append_of_head? begins _) _) _,
        by decide⟩
    | exhausted position => cases h
    | cutOff position => cases h
  intro same
  obtain ⟨c, head, other⟩ := first
  have exhausted : "parse stack exhausted before end of input".toList.head? = some 'p' := by decide
  rw [same, exhausted] at head
  exact other (Option.some.inj head).symm

namespace Grammar

/-- Grammars that come about from a list of rules by adding rules, with or without success, and
by computing the sets anew. -/
inductive Grown : Grammar → Prop where
  | ofRules {rules : List Rule} {g : Grammar} : Grammar.ofRules rules = .ok g → Grown g
  | addRule {g : Grammar} (rule : Rule) : Grown g → Grown (g.addRule rule).1
  | recompute {g : Grammar} : Grown g → Grown g.recompute

section Tables

variable {g : Grammar} {rules : List Rule}

/-- Other sets, and the nonterminals of all rules, leave the table what it is. -/
theorem TableOf.renamed (tabled : g.TableOf rules) (sets : Sets) :
    TableOf { g with nonterminals := nonterminalsOf g.rules, sets } rules := by
  refine ⟨tabled.ruleFor_iff, fun s named => ?_, tabled.known, tabled.placed,
    tabled.empty_reserved, tabled.end_reserved⟩
  obtain ⟨r, mem, rfl⟩ := mem_nonterminalsOf.mp named
  exact decide_eq_true (lhs_mem_nonterminalsOf (tabled.known r mem))

theorem TableOf.rebuild (tabled : g.TableOf rules) : ∃ rules', g.rebuild.1.TableOf rules' := by
  rw [Grammar.rebuild]
  cases bad : g.rules.find? (!·.isValid) with
  | some r => exact ⟨rules, tabled⟩
  | none =>
    have valid : ∀ r ∈ g.rules, r.isValid = true := by
      simpa using List.find?_eq_none.mp bad
    simp only [Grammar.recompute]
    rw [show NameSet.ofList (g.rules.map (·.lhs)) = nonterminalsOf g.rules from rfl]
    -- the table is made anew only at the very end, where the rules are all accepted
    by_cases started : Symbol.start ∈ nonterminalsOf g.rules
    · rw [if_pos started]
      cases built : Table.build (nonterminalsOf g.rules)
          (Sets.ofRules (nonterminalsOf g.rules) g.rules) g.rules with
      | ok table =>
        have accepted := (ofRules_eq_ok_iff g.rules _).mpr ⟨valid, started, table, built, rfl⟩
        exact ⟨g.rules, tableOf_accepted accepted⟩
      | error c => exact ⟨rules, tabled.renamed _⟩
    · rw [if_neg started]
      exact ⟨rules, tabled.renamed g.sets⟩

/-- A table that does not point behind the rules is not changed by a further one. -/
theorem ruleFor_concat (placed : ∀ c ∈ g.table, c.index < g.rules.length) (rule : Rule)
    (nonterminal lookahead : String) :
    ruleFor { g with rules := g.rules ++ [rule] } nonterminal lookahead =
      g.ruleFor nonterminal lookahead := by
  simp only [ruleFor]
  cases found : g.table.indexFor nonterminal lookahead with
  | none => rfl
  | some i => simp [List.getElem?_append_left (placed _ (Table.mem_of_indexFor found))]

theorem TableOf.addRule (tabled : g.TableOf rules) (rule : Rule) :
    ∃ rules', (g.addRule rule).1.TableOf rules' := by
  have longer : TableOf { g with rules := g.rules ++ [rule] } rules := by
    refine ⟨fun nonterminal t r => ?_, tabled.named,
      fun r mem => List.mem_append_left _ (tabled.known r mem), fun c mem => ?_,
      tabled.empty_reserved, tabled.end_reserved⟩
    · rw [ruleFor_concat tabled.placed]
      exact tabled.ruleFor_iff nonterminal t r
    · simp [Nat.lt_succ_of_lt (tabled.placed c mem)]
  exact longer.rebuild

theorem Grown.tabled (grown : g.Grown) : ∃ rules, g.TableOf rules := by
  induction grown with
  | ofRules accepted => exact ⟨_, tableOf_accepted accepted⟩
  | addRule rule _ ih =>
    obtain ⟨rules, tabled⟩ := ih
    exact tabled.addRule rule
  | recompute _ ih =>
    obtain ⟨rules, tabled⟩ := ih
    exact ⟨rules, tabled.ruleFor_iff, tabled.named, tabled.known, tabled.placed,
      tabled.empty_reserved, tabled.end_reserved⟩

end Tables

/-- With every grammar that comes about, the parser stops after a bounded number of steps; the parse
is what it has done until then, and it never runs out of symbols to derive. -/
theorem parse_ends {g : Grammar} (grown : g.Grown) (tokens : List Token) :
    Parser.HaltsWithin g (endMark tokens) (g.stepBound tokens) (.initial tokens) ∧
      (∃ last, Parser.Reaches g (endMark tokens) (.initial tokens) (g.parse tokens).events last ∧
        last.step g (endMark tokens) = .stop (g.parse tokens).error) ∧
      ∀ e, (g.parse tokens).error = some e →
        e.message ≠ "parse stack exhausted before end of input" := by
  obtain ⟨rules, tabled⟩ := grown.tabled
  refine ⟨parse_halts tabled tokens, parse_run tabled tokens, fun e failed => ?_⟩
  obtain ⟨last, _, _, found⟩ := found_of_parse tabled failed
  exact ParseError.message_ne_of_found found

/-- A left-recursive rule is refused and stays; after that the old table still ends every parse. -/
theorem parse_ends_leftRecursion :
    ∃ g, ofRules manyThenOne = .ok g ∧ (g.addRule ⟨"many", ["many", "x"]⟩).2 ≠ none ∧
      let h := (g.addRule ⟨"many", ["many", "x"]⟩).1.recompute
      let tokens := [⟨"x", "1", .start⟩, ⟨"x", "2", .start⟩]
      Parser.HaltsWithin h (endMark tokens) (h.stepBound tokens) (.initial tokens) ∧
        (∃ last, Parser.Reaches h (endMark tokens) (.initial tokens) (h.parse tokens).events last ∧
          last.step h (endMark tokens) = .stop (h.parse tokens).error) ∧
        ∀ e, (h.parse tokens).error = some e →
          e.message ≠ "parse stack exhausted before end of input" := by
  have refused : ((ofRules manyThenOne).toOption.map fun g =>
      (g.addRule ⟨"many", ["many", "x"]⟩).2.isSome) = some true := by decide +kernel
  cases built : ofRules manyThenOne with
  | error e => rw [built] at refused; cases refused
  | ok g =>
    rw [built] at refused
    refine ⟨g, rfl, ?_, parse_ends (.recompute (.addRule _ (.ofRules built))) _⟩
    exact Option.ne_none_iff_isSome.mpr (Option.some.inj refused)

end Grammar

end TableAsm
