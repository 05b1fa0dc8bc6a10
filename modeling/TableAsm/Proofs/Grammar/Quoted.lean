import TableAsm.Proofs.Grammar.Coverage
import TableAsm.Proofs.Grammar.Statements

/-! What quotes do in the description of a grammar. A quoted name joins the names without quotes.
It is a terminal unless it has a meaning there: a name that some rule defines is expanded, the
reserved names still stand for nothing and for the end of input. -/
namespace TableAsm

namespace RuleText

variable {t : Token} {ts : List Token}

theorem SpellsSymbols.exists_of_quoted {symbols : List String} (h : SpellsSymbols symbols ts)
    (mem : t ∈ ts) (quoted : t.kind = "LITERAL") :
    ∃ q ∈ symbols, t.lexeme = "\"" ++ q ++ "\"" := by
  induction h with
  | none => cases mem
  | word kind _ ih =>
    obtain rfl | later := List.mem_cons.mp mem
    · exact absurd (kind.symm.trans quoted) (by decide)
    · obtain ⟨q, known, spelled⟩ := ih later
      exact ⟨q, List.mem_cons_of_mem _ known, spelled⟩
  | @quoted _ name _ _ _ spelled _ _ ih =>
    obtain rfl | later := List.mem_cons.mp mem
    · exact ⟨name, List.mem_cons_self, spelled⟩
    · obtain ⟨q, known, spelled⟩ := ih later
      exact ⟨q, List.mem_cons_of_mem _ known, spelled⟩

theorem SpellsAlternatives.exists_of_quoted {alternatives : List (List String)}
    (h : SpellsAlternatives alternatives ts) (mem : t ∈ ts) (quoted : t.kind = "LITERAL") :
    ∃ symbols ∈ alternatives, ∃ q ∈ symbols, t.lexeme = "\"" ++ q ++ "\"" := by
  induction h with
  | last spells isStop =>
    obtain inside | atStop := List.mem_append.mp mem
    · obtain ⟨q, known, spelled⟩ := spells.exists_of_quoted inside quoted
      exact ⟨_, List.mem_cons_self, q, known, spelled⟩
    · obtain rfl := List.mem_singleton.mp atStop
      exact absurd (isStop.symm.trans quoted) (by decide)
  | further spells isBar _ ih =>
    obtain inside | behind := List.mem_append.mp mem
    · obtain ⟨q, known, spelled⟩ := spells.exists_of_quoted inside quoted
      exact ⟨_, List.mem_cons_self, q, known, spelled⟩
    · obtain rfl | later := List.mem_cons.mp behind
      · exact absurd (isBar.symm.trans quoted) (by decide)
      · obtain ⟨symbols, known, found⟩ := ih later
        exact ⟨symbols, List.mem_cons_of_mem _ known, found⟩

/-- Quoted names stand nowhere but in the alternatives, and rules have them without the quotes. -/
theorem Describes.exists_of_quoted {dropped : List Token} {ss : List Statement}
    (h : Describes dropped ss ts) (mem : t ∈ ts) (quoted : t.kind = "LITERAL") :
    ∃ r ∈ ss.flatMap Statement.rules, ∃ q ∈ r.rhs, t.lexeme = "\"" ++ q ++ "\"" := by
  induction h with
  | done => cases mem
  | passed kind _ _ ih =>
    obtain rfl | later := List.mem_cons.mp mem
    · exact absurd (kind.symm.trans quoted) (by decide)
    · exact ih later
  | statement spells _ ih =>
    rw [List.flatMap_cons]
    obtain inside | behind := List.mem_append.mp mem
    · cases spells with
      | @named name _ _ _ kind _ _ isEquals alternatives =>
        obtain rfl | inside := List.mem_cons.mp inside
        · exact absurd (kind.symm.trans quoted) (by decide)
        obtain rfl | inside := List.mem_cons.mp inside
        · exact absurd (isEquals.symm.trans quoted) (by decide)
        obtain ⟨symbols, known, q, named, spelled⟩ := alternatives.exists_of_quoted inside quoted
        refine ⟨.make name.lexeme symbols, ?_, q, ?_, spelled⟩
        · exact List.mem_append_left _ (List.mem_map_of_mem known)
        · simp [Rule.make, List.ne_nil_of_mem named, named]
    · obtain ⟨r, known, found⟩ := ih behind
      exact ⟨r, List.mem_append_right _ known, found⟩

end RuleText

namespace Grammar

/-- A symbol stands for itself: it is in no need of a rule, and where it has to be derived one token
of its kind is matched or the parse fails. -/
structure IsTerminal (g : Grammar) (q : String) : Prop where
  plain : g.isNonterminal q = false
  first_eq : g.first q = .singleton q
  visible : Symbol.empty ∉ g.first q
  matched : ∀ tokens events below rest,
    Parser.Reaches g (endMark tokens) (.initial tokens) events ⟨q :: below, rest⟩ →
      (∃ t later, rest = t :: later ∧ t.kind = q ∧
        Parser.step g (endMark tokens) ⟨q :: below, rest⟩ =
          .next ⟨below, later⟩ (some (.accept t))) ∨
      ∃ e, g.parse tokens = ⟨events, some e⟩

variable {g : Grammar} {rules : List Rule} {q : String} {tokens : List Token}
  {events : List ParseEvent} {below : List String} {rest : List Token}

theorem IsTerminal.ne_empty (h : g.IsTerminal q) : q ≠ Symbol.empty := by
  rintro rfl
  have visible := h.visible
  rw [h.first_eq] at visible
  exact visible (NameSet.mem_singleton.mpr rfl)

theorem isTerminal_of_unreserved (tabled : g.TableOf rules) (plain : g.isNonterminal q = false)
    (visible : q ≠ Symbol.empty) (notEnd : q ≠ Symbol.endOfInput) : g.IsTerminal q := by
  have first_eq : g.first q = .singleton q := by
    have foreign : q ∉ g.nonterminals := of_decide_eq_false plain
    rw [first, firstOf, if_neg foreign]
  refine ⟨plain, first_eq, ?_, ?_⟩
  · rw [first_eq, NameSet.mem_singleton]
    exact visible.symm
  · intro tokens events below rest chain
    cases moved : Parser.step g (endMark tokens) ⟨q :: below, rest⟩ with
    | next p event =>
      cases Parser.move_of_step (endMark_kind tokens) moved with
      | erase _ _ => exact absurd rfl visible
      | expand _ named _ => exact absurd (named.symm.trans plain) (by decide)
      | @accept t _ later _ _ _ => exact .inl ⟨t, later, rfl, rfl, rfl⟩
    | stop failure =>
      cases failure with
      | none =>
        obtain ⟨_, stack, _⟩ := Parser.success_iff.mp moved
        exact absurd (List.cons.inj stack).1 notEnd
      | some e => exact .inr ⟨e, parse_eq_of_reaches tabled chain moved⟩

/-- Where a nonterminal has to be derived, one of its rules is used or the parse fails. -/
theorem expands_or_fails (tabled : g.TableOf rules) (named : g.isNonterminal q = true)
    (visible : q ≠ Symbol.empty)
    (chain : Parser.Reaches g (endMark tokens) (.initial tokens) events ⟨q :: below, rest⟩) :
    (∃ r ∈ rules, r.lhs = q ∧ Parser.step g (endMark tokens) ⟨q :: below, rest⟩ =
      .next ⟨r.rhs ++ below, rest⟩ (some (.expand r))) ∨
    ∃ e, g.parse tokens = ⟨events, some e⟩ := by
  cases rule : g.ruleFor q (Parser.lookahead ⟨q :: below, rest⟩ (endMark tokens)).kind with
  | some r =>
    obtain ⟨known, same, _⟩ := (tabled.ruleFor_iff _ _ _).mp rule
    exact .inl ⟨r, known, same, Parser.step_expand below rest visible named rule⟩
  | none =>
    have refused : Parser.Refuses g (q :: below) _ _ := .noRule visible named rule
    have stopped := (Parser.refuses_iff (p := ⟨q :: below, rest⟩) (List.cons_ne_nil _ _)).mpr refused
    exact .inr ⟨_, parse_eq_of_reaches tabled chain stopped⟩

/-- Where the end of input has to be derived, the parse is over. -/
theorem ends_at_endOfInput (tabled : g.TableOf rules)
    (plain : g.isNonterminal Symbol.endOfInput = false)
    (chain : Parser.Reaches g (endMark tokens) (.initial tokens) events
      ⟨Symbol.endOfInput :: below, rest⟩) :
    ∃ outcome, g.parse tokens = ⟨events, outcome⟩ ∧ (outcome = none ↔
      (Parser.lookahead ⟨Symbol.endOfInput :: below, rest⟩ (endMark tokens)).kind =
        Symbol.endOfInput) := by
  by_cases ended :
    (Parser.lookahead ⟨Symbol.endOfInput :: below, rest⟩ (endMark tokens)).kind = Symbol.endOfInput
  · have success := Parser.success_iff.mpr ⟨below, rfl, plain, ended⟩
    exact ⟨none, parse_eq_of_reaches tabled chain success, iff_of_true rfl ended⟩
  · have refused : Parser.Refuses g (Symbol.endOfInput :: below) _ _ :=
      .endExpected plain (decide_eq_false ended)
    have stopped := (Parser.refuses_iff (p := ⟨_, rest⟩) (List.cons_ne_nil _ _)).mpr refused
    exact ⟨_, parse_eq_of_reaches tabled chain stopped, iff_of_false (Option.some_ne_none _) ended⟩

/-- What a symbol of the rules means: it is defined by rules, reserved, or a terminal. Where the
parser has to derive it, a rule is used, nothing is done, or the parse is over. -/
structure Meaning (g : Grammar) (q : String) : Prop where
  defined_iff : g.isNonterminal q = true ↔ ∃ r ∈ g.rules, r.lhs = q
  terminal : g.isNonterminal q = false → q ≠ Symbol.empty → q ≠ Symbol.endOfInput →
    g.IsTerminal q
  only : g.IsTerminal q → g.isNonterminal q = false ∧ q ≠ Symbol.empty
  expanded : g.isNonterminal q = true → ∀ tokens events below rest,
    Parser.Reaches g (endMark tokens) (.initial tokens) events ⟨q :: below, rest⟩ →
      (∃ r ∈ g.rules, r.lhs = q ∧ Parser.step g (endMark tokens) ⟨q :: below, rest⟩ =
        .next ⟨r.rhs ++ below, rest⟩ (some (.expand r))) ∨
      ∃ e, g.parse tokens = ⟨events, some e⟩
  erased : q = Symbol.empty → ∀ mark below rest,
    Parser.step g mark ⟨q :: below, rest⟩ = .next ⟨below, rest⟩ none
  ended : q = Symbol.endOfInput → ∀ tokens events below rest,
    Parser.Reaches g (endMark tokens) (.initial tokens) events ⟨q :: below, rest⟩ →
      ∃ outcome, g.parse tokens = ⟨events, outcome⟩ ∧ (outcome = none ↔
        (Parser.lookahead ⟨q :: below, rest⟩ (endMark tokens)).kind = Symbol.endOfInput)

theorem meaning_of_accepted (accepted : ofRules g.rules = .ok g) (q : String) : g.Meaning q := by
  have tabled := tableOf_accepted accepted
  have named := isNonterminal_iff accepted
  constructor
  case defined_iff => rw [named, mem_nonterminalsOf]
  case terminal => exact isTerminal_of_unreserved tabled
  case only => exact fun terminal => ⟨terminal.plain, terminal.ne_empty⟩
  case expanded =>
    intro defined _ _ _ _ chain
    have visible : q ≠ Symbol.empty := by
      rintro rfl
      exact tabled.empty_reserved ((named _).mp defined)
    exact expands_or_fails tabled defined visible chain
  case erased =>
    rintro rfl mark below rest
    exact Parser.step_erase g mark below rest
  case ended =>
    rintro rfl _ _ _ _ chain
    have plain : g.isNonterminal Symbol.endOfInput = false :=
      Bool.eq_false_iff.mpr fun defined => tabled.end_reserved ((named _).mp defined)
    exact ends_at_endOfInput tabled plain chain

/-- A name in quotes is held without them, among the symbols of the rules, and has the meaning that
it has there: the quotes make it no terminal. -/
theorem quoted_of_ofText {description : String} {g : Grammar}
    (loaded : ofText description = .ok g) :
    ∃ tokens, RuleText.lexicon.tokenize description = .ok tokens ∧
      ∀ t ∈ tokens, t.kind = "LITERAL" → ∃ q, t.lexeme = "\"" ++ q ++ "\"" ∧
        (∃ r ∈ g.rules, q ∈ r.rhs) ∧ g.Meaning q := by
  obtain ⟨rules, read, built⟩ := exists_rules_of_ofText loaded
  obtain rfl : g.rules = rules := by
    obtain ⟨_, _, _, _, rfl⟩ := (ofRules_eq_ok_iff rules g).mp built
    rfl
  cases cut : RuleText.lexicon.tokenize description with
  | error e =>
    rw [RuleText.rules, cut] at read
    cases read
  | ok tokens =>
    refine ⟨tokens, rfl, fun t mem quoted => ?_⟩
    rw [RuleText.rules, cut] at read
    obtain ⟨dropped, ss, describes, rules_eq⟩ :=
      (RuleText.read_eq_ok_iff (RuleText.wellNamed_of_tokenize cut)).mp read
    obtain ⟨r, known, q, inside, spelled⟩ := describes.exists_of_quoted mem quoted
    rw [← rules_eq] at known
    exact ⟨q, spelled, ⟨r, known, inside⟩, meaning_of_accepted built q⟩

/-- One quoted name that a rule defines, and one that none does. -/
def twoQuoted : String := "start = \"x\" \"y\" ; x = \"z\" | ;"

def twoQuotedTokens : List Token :=
  [⟨"IDENTIFIER", "start", ⟨1, 1⟩⟩, ⟨"=", "=", ⟨1, 7⟩⟩, ⟨"LITERAL", "\"x\"", ⟨1, 9⟩⟩,
    ⟨"LITERAL", "\"y\"", ⟨1, 13⟩⟩, ⟨";", ";", ⟨1, 17⟩⟩, ⟨"IDENTIFIER", "x", ⟨1, 19⟩⟩,
    ⟨"=", "=", ⟨1, 21⟩⟩, ⟨"LITERAL", "\"z\"", ⟨1, 23⟩⟩, ⟨"|", "|", ⟨1, 27⟩⟩, ⟨";", ";", ⟨1, 29⟩⟩]

theorem twoQuoted_loaded : RuleText.lexicon.tokenize twoQuoted = .ok twoQuotedTokens ∧
    ∃ g, ofText twoQuoted = .ok g ∧ g.isNonterminal "x" = true ∧ g.isNonterminal "y" = false := by
  refine ⟨by decide +kernel, ?_⟩
  have read : (ofText twoQuoted).toOption.map
      (fun g => (g.isNonterminal "x", g.isNonterminal "y")) = some (true, false) := by
    decide +kernel
  cases loaded : ofText twoQuoted with
  | error e =>
    rw [loaded] at read
    cases read
  | ok g =>
    rw [loaded] at read
    exact ⟨g, rfl, Prod.mk.inj (Option.some.inj read)⟩

theorem quoted_of_ofText_twoQuoted :
    ∃ g, ofText twoQuoted = .ok g ∧ g.IsTerminal "y" ∧ ¬ g.IsTerminal "x" := by
  obtain ⟨cut, g, loaded, defined, plain⟩ := twoQuoted_loaded
  obtain ⟨tokens, cut', quoted⟩ := quoted_of_ofText loaded
  obtain rfl := Except.ok.inj (cut.symm.trans cut')
  obtain ⟨q, spelled, _, meaning⟩ := quoted ⟨"LITERAL", "\"y\"", ⟨1, 13⟩⟩ (by decide) rfl
  obtain rfl : "y" = q := RuleText.quoted_injective spelled
  refine ⟨g, loaded, meaning.terminal plain (by decide) (by decide), fun terminal => ?_⟩
  exact absurd (defined.symm.trans terminal.plain) (by decide)

/-- A name in quotes is expanded when a rule defines it. -/
theorem exists_quoted_defined :
    ¬ ∀ (description : String) (g : Grammar) (tokens : List Token),
      ofText description = .ok g → RuleText.lexicon.tokenize description = .ok tokens →
        ∀ t ∈ tokens, t.kind = "LITERAL" → ∀ q, t.lexeme = "\"" ++ q ++ "\"" →
          g.IsTerminal q := by
  intro terminals
  obtain ⟨cut, g, loaded, defined, _⟩ := twoQuoted_loaded
  have terminal : g.IsTerminal "x" :=
    terminals twoQuoted g _ loaded cut ⟨"LITERAL", "\"x\"", ⟨1, 9⟩⟩ (by decide) rfl "x" rfl
  exact absurd (defined.symm.trans terminal.plain) (by decide)

end Grammar

end TableAsm
