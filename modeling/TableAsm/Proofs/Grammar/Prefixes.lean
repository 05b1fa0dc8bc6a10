import TableAsm.Error
import TableAsm.Proofs.Grammar.Parsing

/-! Where a parse fails. What has been matched and what is on the stack derive from the start
symbol together, so as long as every nonterminal derives some text, what has been matched begins a
word of the language. What follows the next token plays no part in how the parser got there: had
the next token gone on such a word, the parser would have matched it. -/
namespace TableAsm

theorem ParseError.diagnostic_of_found {e : ParseError} {t : Token} (h : e.found? = some t) :
    e.diagnostic = .badProgram (some t.position) t.lexeme e.message := by
  cases e <;> cases h <;> rfl

namespace Parser

variable {g : Grammar} {rules : List Rule} {mark mark' : Token} {p q : Parser}
  {events : List ParseEvent}

/-- The tokens that a chain of steps takes away are those that it matches. -/
theorem Reaches.rest_eq (marked : mark.kind = Symbol.endOfInput)
    (chain : Reaches g mark p events q) : p.rest = accepted events ++ q.rest := by
  induction chain with
  | refl p => rfl
  | step moved _ ih =>
    cases move_of_step marked moved with
    | erase below rest => exact ih
    | expand _ _ _ => exact ih
    | @accept t below rest _ _ _ => exact congrArg (t :: ·) ih

/-- What has been matched, and what is on the stack above the end mark, derive from what was on
the stack at first. -/
theorem Reaches.derives (tabled : g.TableOf rules)
    (exact_names : ∀ s, g.isNonterminal s = true ↔ s ∈ nonterminalsOf rules)
    (marked : mark.kind = Symbol.endOfInput) (chain : Reaches g mark p events q)
    {w : List String} (stack : p.stack = w ++ [Symbol.endOfInput]) :
    ∃ w', q.stack = w' ++ [Symbol.endOfInput] ∧
      (contextFree rules).Derives (form rules w)
        (((accepted events).map (·.kind)).map .terminal ++ form rules w') := by
  -- by induction from the first step, so that what it matches stands in front of all that follows
  induction chain generalizing w with
  | refl p => exact ⟨w, stack, .refl _⟩
  | @step p p' q event events moved _ ih =>
    obtain ⟨v, below, above⟩ := (move_of_step marked moved).above tabled stack
    obtain ⟨w', last, derived⟩ := ih below
    refine ⟨w', last, ?_⟩
    generalize p.rest = rest, p'.rest = rest' at above
    cases above with
    | erase =>
      rw [form_cons_empty]
      exact derived
    | @expand r w rest mem ne =>
      rw [form_cons_nonterminal ne (lhs_mem_nonterminalsOf mem)]
      rw [form_append] at derived
      have produced := (contextFree_produces_iff rules _ _).mpr
        ⟨r, mem, [], form rules w, rfl, rfl⟩
      exact produced.trans_derives derived
    | @accept t w rest ne terminal _ =>
      have plain : t.kind ∉ nonterminalsOf rules := by
        rw [← exact_names, terminal]
        exact Bool.false_ne_true
      rw [form_cons_terminal ne plain]
      exact derived.append_left [.terminal t.kind]

/-- A chain of steps does not depend on what stands behind the token that is next at its end. -/
theorem Reaches.replay (marked : mark.kind = Symbol.endOfInput) (chain : Reaches g mark p events q)
    (rest : List Token)
    (same : (q.lookahead mark).kind = (lookahead ⟨q.stack, rest⟩ mark').kind) :
    Reaches g mark' ⟨p.stack, accepted events ++ rest⟩ events ⟨q.stack, rest⟩ := by
  induction chain with
  | refl p => exact .refl _
  | @step p p' q event events moved tail ih =>
    have later := ih same
    have text := tail.rest_eq marked
    cases move_of_step marked moved with
    | erase below _ => exact .step (step_erase g mark' below _) later
    | @expand s below behind r ne named rule =>
      -- the next token is one that the chain still matches, or the one at its end
      have next : (lookahead ⟨s :: below, behind⟩ mark).kind =
          (lookahead ⟨s :: below, accepted events ++ rest⟩ mark').kind := by
        rw [show behind = accepted events ++ q.rest from text]
        cases accepted events with
        | nil => exact same
        | cons t ts => rfl
      exact .step (step_expand below _ ne named (next ▸ rule)) later
    | accept below _ ne terminal notEnd =>
      exact .step (step_accept g mark' below _ ne terminal notEnd) later

/-- Nor does the failure at that token. -/
theorem stop_replay {stack : List String} {t : Token} {rest rest' : List Token} {e : ParseError}
    (nonempty : stack ≠ []) (stopped : step g mark ⟨stack, t :: rest⟩ = .stop (some e)) :
    step g mark' ⟨stack, t :: rest'⟩ = .stop (some e) := by
  have refused : Refuses g stack t e := (refuses_iff nonempty).mp stopped
  exact (refuses_iff nonempty).mpr refused

theorem Reaches.unmarked (marked : mark.kind = Symbol.endOfInput)
    (chain : Reaches g mark p events q) : ∀ t ∈ accepted events, t.kind ≠ Symbol.endOfInput := by
  induction chain with
  | refl p => exact fun t mem => absurd mem List.not_mem_nil
  | step moved _ ih =>
    cases move_of_step marked moved with
    | erase below rest => exact ih
    | expand _ _ _ => exact ih
    | accept below rest _ _ notEnd =>
      intro x mem
      rcases List.mem_cons.mp mem with rfl | mem
      · exact notEnd
      · exact ih x mem

end Parser

section Words

variable {rules : List Rule}

/-- The end mark is on no token of a forest that has it nowhere else. -/
theorem Forest.Valid.unmarked {f : Forest} (valid : f.Valid rules)
    (unmarked_rules : ∀ r ∈ rules, Symbol.endOfInput ∉ r.rhs)
    (roots : Symbol.endOfInput ∉ f.roots) : ∀ t ∈ f.tokens, t.kind ≠ Symbol.endOfInput := by
  induction f with
  | nil => exact fun t mem => absurd mem List.not_mem_nil
  | empty f ih => exact ih valid fun mem => roots (List.mem_cons_of_mem _ mem)
  | token t f ih =>
    intro x mem
    rcases List.mem_cons.mp mem with rfl | mem
    · exact fun eq => roots (eq ▸ List.mem_cons_self)
    · exact ih valid.2.2 (fun mem => roots (List.mem_cons_of_mem _ mem)) x mem
  | node r children f ihc ih =>
    obtain ⟨known, rhs, inside, tail⟩ := valid
    intro x mem
    rcases List.mem_append.mp mem with mem | mem
    · exact ihc inside (rhs ▸ unmarked_rules r known) x mem
    · exact ih tail (fun mem => roots (List.mem_cons_of_mem _ mem)) x mem

/-- Where every nonterminal derives some text, every row of names does. -/
theorem exists_text (productive : ∀ s ∈ nonterminalsOf rules, ∃ u : List String,
      (contextFree rules).Derives [.nonterminal s] (u.map .terminal)) (w : List String) :
    ∃ u : List String, (contextFree rules).Derives (form rules w) (u.map .terminal) := by
  induction w with
  | nil => exact ⟨[], .refl _⟩
  | cons s w ih =>
    obtain ⟨u, behind⟩ := ih
    by_cases empty : s = Symbol.empty
    · subst empty
      rw [form_cons_empty]
      exact ⟨u, behind⟩
    · by_cases named : s ∈ nonterminalsOf rules
      · obtain ⟨v, first⟩ := productive s named
        rw [form_cons_nonterminal empty named]
        refine ⟨v ++ u, ?_⟩
        rw [List.map_append]
        exact (first.append_right _).trans (behind.append_left _)
      · rw [form_cons_terminal empty named]
        exact ⟨s :: u, behind.append_left [.terminal s]⟩

end Words

namespace Grammar

variable {rules : List Rule} {g : Grammar}

/-- A parse that succeeds ends before the first token that looks like the end mark. -/
theorem exists_front_of_parse (tabled : g.TableOf rules) {tokens : List Token}
    (success : (g.parse tokens).error = none) :
    ∃ front back, tokens = front ++ back ∧ (∀ t ∈ front, t.kind ≠ Symbol.endOfInput) ∧
      g.parse front = ⟨(g.parse tokens).events, none⟩ := by
  obtain ⟨last, chain, stopped⟩ := parse_run tabled tokens
  rw [success] at stopped
  obtain ⟨below, top, terminal, ended⟩ := Parser.success_iff.mp stopped
  have marked := endMark_kind tokens
  let front := TableAsm.accepted (g.parse tokens).events
  have same := endMark_kind front
  have replayed := chain.replay marked [] (ended.trans same.symm)
  rw [List.append_nil] at replayed
  refine ⟨front, last.rest, chain.rest_eq marked, chain.unmarked marked, ?_⟩
  exact parse_eq_of_reaches tabled replayed (Parser.success_iff.mpr ⟨below, top, terminal, same⟩)

theorem mem_language_of_parse (accepted : ofRules rules = .ok g)
    (unmarked_rules : ∀ r ∈ rules, Symbol.endOfInput ∉ r.rhs) {tokens : List Token}
    (unmarked : ∀ t ∈ tokens, t.kind ≠ Symbol.endOfInput)
    (success : (g.parse tokens).error = none) :
    tokens.map (·.kind) ∈ (contextFree rules).language := by
  obtain ⟨f, valid, roots, same, _⟩ := exists_forest_of_parse accepted unmarked_rules unmarked success
  exact (mem_language_iff_forest (tableOf_accepted accepted).empty_reserved (start_named accepted)
    tokens).mpr ⟨f, valid, roots, same⟩

/-- Tokens whose kinds are a word of the language are parsed. -/
theorem parse_of_mem_language (accepted : ofRules rules = .ok g)
    (unmarked_rules : ∀ r ∈ rules, Symbol.endOfInput ∉ r.rhs) {tokens : List Token}
    (word : tokens.map (·.kind) ∈ (contextFree rules).language) :
    (g.parse tokens).error = none := by
  obtain ⟨f, valid, roots, rfl⟩ := (mem_language_iff_forest
    (tableOf_accepted accepted).empty_reserved (start_named accepted) tokens).mp word
  have unmarked := valid.unmarked unmarked_rules (by rw [roots]; decide)
  rw [parse_of_forest accepted valid roots unmarked]

/-- What a parse has matched, wherever it stands, begins a word of the language. -/
theorem exists_word_of_reaches (accepted : ofRules rules = .ok g)
    (productive : ∀ s ∈ nonterminalsOf rules, ∃ u : List String,
      (contextFree rules).Derives [.nonterminal s] (u.map .terminal)) {tokens : List Token}
    {events : List ParseEvent} {q : Parser}
    (chain : Parser.Reaches g (endMark tokens) (.initial tokens) events q) :
    ∃ word ∈ (contextFree rules).language,
      (TableAsm.accepted events).map (·.kind) <+: word := by
  have tabled := tableOf_accepted accepted
  have initial : form rules [Symbol.start] = [.nonterminal Symbol.start] :=
    form_cons_nonterminal (by decide) (start_named accepted) []
  obtain ⟨w, _, derived⟩ := chain.derives tabled (isNonterminal_iff accepted)
    (endMark_kind tokens) (w := [Symbol.start]) rfl
  obtain ⟨u, ended⟩ := exists_text productive w
  refine ⟨(TableAsm.accepted events).map (·.kind) ++ u, ?_, List.prefix_append _ _⟩
  rw [ContextFreeGrammar.mem_language_iff, List.map_append]
  rw [initial] at derived
  exact derived.trans (ended.append_left _)

/-- A token at which a parse fails continues no word of the language. -/
theorem not_prefix_of_failure (accepted : ofRules rules = .ok g)
    (unmarked_rules : ∀ r ∈ rules, Symbol.endOfInput ∉ r.rhs) {tokens : List Token}
    {events : List ParseEvent} {stack : List String} {t : Token} {rest : List Token}
    {e : ParseError}
    (chain : Parser.Reaches g (endMark tokens) (.initial tokens) events ⟨stack, t :: rest⟩)
    (stopped : Parser.step g (endMark tokens) ⟨stack, t :: rest⟩ = .stop (some e)) :
    ∀ word ∈ (contextFree rules).language,
      ¬ (TableAsm.accepted events ++ [t]).map (·.kind) <+: word := by
  rintro word inside ⟨behind, rfl⟩
  have tabled := tableOf_accepted accepted
  -- any tokens will do that have the kinds of the word
  let further : List Token := behind.map fun kind => ⟨kind, "", .start⟩
  let others := TableAsm.accepted events ++ t :: further
  have kinds : others.map (·.kind) =
      (TableAsm.accepted events ++ [t]).map (·.kind) ++ behind := by
    simp [others, further, Function.comp_def]
  have replayed : Parser.Reaches g (endMark others) (.initial others) events
      ⟨stack, t :: further⟩ :=
    chain.replay (endMark_kind tokens) _ rfl
  obtain ⟨w, bottom⟩ :=
    Parser.bottom_of_reaches tabled (endMark_kind tokens) chain (w := [Symbol.start]) rfl
  have nonempty : stack ≠ [] := by
    rw [show stack = w ++ [Symbol.endOfInput] from bottom]
    exact List.append_ne_nil_of_right_ne_nil w (List.cons_ne_nil _ _)
  have failed := parse_eq_of_reaches tabled replayed (Parser.stop_replay nonempty stopped)
  have success := parse_of_mem_language accepted unmarked_rules (kinds ▸ inside)
  rw [failed] at success
  cases success

/-- A parse that fails does so as early as can be. The tokens that it has matched begin a word of
the language; with the token that it reports, if it is not the end of input, they begin none. -/
theorem parse_fails_earliest (accepted : ofRules rules = .ok g)
    (productive : ∀ s ∈ nonterminalsOf rules, ∃ u : List String,
      (contextFree rules).Derives [.nonterminal s] (u.map .terminal))
    (unmarked_rules : ∀ r ∈ rules, Symbol.endOfInput ∉ r.rhs) (tokens : List Token)
    (unmarked : ∀ t ∈ tokens, t.kind ≠ Symbol.endOfInput)
    (foreign : tokens.map (·.kind) ∉ (contextFree rules).language) :
    ∃ (i : Nat) (e : ParseError), (g.parse tokens).error = some e ∧ i ≤ tokens.length ∧
      TableAsm.accepted (g.parse tokens).events = tokens.take i ∧
      (∃ word ∈ (contextFree rules).language, (tokens.take i).map (·.kind) <+: word) ∧
      ((∃ t, tokens[i]? = some t ∧
          (Error.parse e).diagnostic = .badProgram (some t.position) t.lexeme e.message ∧
          ∀ word ∈ (contextFree rules).language,
            ¬ (tokens.take (i + 1)).map (·.kind) <+: word) ∨
        (i = tokens.length ∧ (Error.parse e).diagnostic =
          .badProgram (some (endMark tokens).position) (endMark tokens).lexeme e.message)) := by
  have tabled := tableOf_accepted accepted
  cases outcome : (g.parse tokens).error with
  | none =>
    obtain ⟨f, valid, roots, text, _⟩ :=
      exists_forest_of_parse accepted unmarked_rules unmarked outcome
    exact absurd ((mem_language_iff_forest tabled.empty_reserved (start_named accepted) tokens).mpr
      ⟨f, valid, roots, text⟩) foreign
  | some e =>
    obtain ⟨⟨stack, rest⟩, chain, stopped, found⟩ := found_of_parse tabled outcome
    have text : tokens = TableAsm.accepted (g.parse tokens).events ++ rest :=
      chain.rest_eq (endMark_kind tokens)
    have prefixed := exists_word_of_reaches accepted productive chain
    have failing := fun t later (same : rest = t :: later) =>
      not_prefix_of_failure accepted unmarked_rules (same ▸ chain) (same ▸ stopped)
    have report : (Error.parse e).diagnostic = .badProgram
        (some (Parser.lookahead ⟨stack, rest⟩ (endMark tokens)).position)
        (Parser.lookahead ⟨stack, rest⟩ (endMark tokens)).lexeme e.message :=
      ParseError.diagnostic_of_found found
    generalize TableAsm.accepted (g.parse tokens).events = front at text prefixed failing
    generalize endMark tokens = mark at report
    subst text
    refine ⟨front.length, e, rfl, by simp, by simp, by simpa using prefixed, ?_⟩
    cases rest with
    | nil => exact Or.inr ⟨by simp, report⟩
    | cons t later =>
      have taken : (front ++ t :: later).take (front.length + 1) = front ++ [t] := by
        rw [List.take_length_add_append]
        rfl
      exact Or.inl ⟨t, by simp, report, taken ▸ failing t later rfl⟩

/-- After one `y` the rules allow nothing more; another token is where the parse fails. -/
theorem parse_fails_earliest_afterOne :
    ∃ g, ofRules manyThenOne = .ok g ∧
      let tokens := [⟨"x", "1", .start⟩, ⟨"y", "2", .start⟩, ⟨"x", "3", .start⟩]
      ∃ (i : Nat) (e : ParseError), (g.parse tokens).error = some e ∧ i ≤ tokens.length ∧
        TableAsm.accepted (g.parse tokens).events = tokens.take i ∧
        (∃ word ∈ (contextFree manyThenOne).language, (tokens.take i).map (·.kind) <+: word) ∧
        ((∃ t, tokens[i]? = some t ∧
            (Error.parse e).diagnostic = .badProgram (some t.position) t.lexeme e.message ∧
            ∀ word ∈ (contextFree manyThenOne).language,
              ¬ (tokens.take (i + 1)).map (·.kind) <+: word) ∨
          (i = tokens.length ∧ (Error.parse e).diagnostic =
            .badProgram (some (endMark tokens).position) (endMark tokens).lexeme e.message)) := by
  let tokens : List Token := [⟨"x", "1", .start⟩, ⟨"y", "2", .start⟩, ⟨"x", "3", .start⟩]
  have refused : ((ofRules manyThenOne).toOption.map fun g => (g.parse tokens).error.isSome) =
      some true := by decide +kernel
  have productive : ∀ s ∈ nonterminalsOf manyThenOne, ∃ u : List String,
      (contextFree manyThenOne).Derives [.nonterminal s] (u.map .terminal) := by
    have nothing : form manyThenOne [Symbol.empty] = [] := form_cons_empty []
    have row : form manyThenOne ["many", Symbol.empty, "y"] =
        [.nonterminal "many"] ++ [.terminal "y"] := by
      rw [form_cons_nonterminal (by decide) (by decide), form_cons_empty,
        form_cons_terminal (by decide) (by decide)]
      rfl
    have many : (contextFree manyThenOne).Derives [.nonterminal "many"] [] :=
      ((contextFree_produces_iff _ _ _).mpr
        ⟨⟨"many", [Symbol.empty]⟩, by decide, [], [], rfl, by rw [nothing]; rfl⟩).single
    have start : (contextFree manyThenOne).Produces [.nonterminal Symbol.start]
        ([.nonterminal "many"] ++ [.terminal "y"]) :=
      (contextFree_produces_iff _ _ _).mpr ⟨⟨Symbol.start, ["many", Symbol.empty, "y"]⟩,
        by decide, [], [], rfl, by rw [row]; rfl⟩
    intro s named
    obtain ⟨r, mem, rfl⟩ := mem_nonterminalsOf.mp named
    have two : ∀ r ∈ manyThenOne, r.lhs = Symbol.start ∨ r.lhs = "many" := by decide
    rcases two r mem with eq | eq <;> rw [eq]
    · exact ⟨["y"], start.trans_derives (many.append_right _)⟩
    · exact ⟨[], many⟩
  cases built : ofRules manyThenOne with
  | error e => rw [built] at refused; cases refused
  | ok g =>
    rw [built] at refused
    have failed : (g.parse tokens).error.isSome = true := Option.some.inj refused
    refine ⟨g, rfl, parse_fails_earliest built productive (by decide) tokens (by decide) ?_⟩
    intro word
    rw [parse_of_mem_language built (by decide) word] at failed
    cases failed

end Grammar

end TableAsm
