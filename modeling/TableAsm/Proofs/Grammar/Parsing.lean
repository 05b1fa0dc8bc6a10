import TableAsm.Proofs.Grammar.Derivation
import TableAsm.Proofs.Grammar.Termination

/-! The parser decides the language. A valid forest drives the parser along its own events, since
the table predicts each rule of it; and a parse that succeeds leaves a valid forest behind. The
steps of a parse are determined, so the forest and its leftmost derivation are the only ones. -/
namespace TableAsm

/-- What may come behind each nonterminal of a row of symbols that the symbol `t` comes after. -/
def Placed (rules : List Rule) (t : String) (w : List String) : Prop :=
  ∀ before x after, w = before ++ x :: after → x ∈ nonterminalsOf rules →
    (∀ a, OpensSequence rules a after → Follows rules a x) ∧
      ((∀ s ∈ after, Vanishes rules s) → Follows rules t x)

section Placement

variable {rules : List Rule} {t : String}

theorem Placed.tail {s : String} {w : List String} (h : Placed rules t (s :: w)) :
    Placed rules t w := fun before x after eq named => h (s :: before) x after (by rw [eq]; rfl) named

theorem Placed.of_rule {r : Rule} (mem : r ∈ rules) (behind : Follows rules t r.lhs) :
    Placed rules t r.rhs := by
  intro before x after rhs named
  exact ⟨fun a opens => .opening mem rhs named opens,
    fun vanish => .inherited mem rhs named vanish behind⟩

theorem Placed.start : Placed rules Symbol.endOfInput [Symbol.start] := by
  intro before x after eq _
  have single : before = [] ∧ x = Symbol.start ∧ after = [] := by
    cases before with
    | nil =>
      obtain ⟨same, none⟩ := List.cons.inj eq
      exact ⟨rfl, same.symm, none.symm⟩
    | cons b before => cases before <;> cases (List.cons.inj eq).2
  obtain ⟨_, rfl, rfl⟩ := single
  exact ⟨fun a opens => absurd opens not_opensSequence_nil, fun _ => .start rfl⟩

end Placement

section Runs

variable {g : Grammar} {rules : List Rule} {mark : Token}

open TableAsm.Parser

/-- The next token of a forest's text, or of what comes behind it, predicts the forest's root. -/
theorem Forest.Valid.predicts {f : Forest} (valid : f.Valid rules) {r : Rule}
    (rhs : f.roots = r.rhs) (below : List String) (rest : List Token)
    (ne : (lookahead ⟨below, rest⟩ mark).kind ≠ Symbol.empty)
    (behind : Follows rules (lookahead ⟨below, rest⟩ mark).kind r.lhs) (stack : List String) :
    Predicts rules r (lookahead ⟨stack, f.tokens ++ rest⟩ mark).kind := by
  cases text : f.tokens with
  | nil => exact Or.inr ⟨rhs ▸ valid.vanish text, ne, behind⟩
  | cons t later => exact Or.inl (rhs ▸ valid.opens text)

/-- The next token of a forest's text, or of what comes behind it, may follow what stands before
the forest. -/
theorem Forest.Valid.follows {f : Forest} (valid : f.Valid rules) {x : String}
    (named : x ∈ nonterminalsOf rules) (below : List String) (rest : List Token)
    (placed : Placed rules (lookahead ⟨below, rest⟩ mark).kind (x :: f.roots))
    (stack : List String) :
    Follows rules (lookahead ⟨stack, f.tokens ++ rest⟩ mark).kind x := by
  obtain ⟨opening, vanishing⟩ := placed [] x f.roots rfl named
  cases text : f.tokens with
  | nil => exact vanishing (valid.vanish text)
  | cons t later => exact opening _ (valid.opens text)

theorem Forest.Valid.next_ne_empty {f : Forest} (valid : f.Valid rules) (below : List String)
    (rest : List Token) (ne : (lookahead ⟨below, rest⟩ mark).kind ≠ Symbol.empty)
    (stack : List String) :
    (lookahead ⟨stack, f.tokens ++ rest⟩ mark).kind ≠ Symbol.empty := by
  cases text : f.tokens with
  | nil => exact ne
  | cons t later => exact (valid.tokens_terminal t (by rw [text]; exact List.mem_cons_self)).1

/-- A valid forest on the stack, with its tokens next, is taken off by its own events. -/
theorem Forest.Valid.reaches (tabled : g.TableOf rules)
    (exact_names : ∀ s, g.isNonterminal s = true → s ∈ nonterminalsOf rules) {f : Forest}
    (valid : f.Valid rules) (unmarked : ∀ t ∈ f.tokens, t.kind ≠ Symbol.endOfInput)
    (below : List String) (rest : List Token)
    (ne : (lookahead ⟨below, rest⟩ mark).kind ≠ Symbol.empty)
    (placed : Placed rules (lookahead ⟨below, rest⟩ mark).kind f.roots) :
    Reaches g mark ⟨f.roots ++ below, f.tokens ++ rest⟩ f.events ⟨below, rest⟩ := by
  induction f generalizing below rest with
  | nil => exact .refl _
  | empty f ih =>
    have moved := step_erase g mark (f.roots ++ below) (f.tokens ++ rest)
    exact .step moved (ih valid unmarked below rest ne placed.tail)
  | token t f ih =>
    obtain ⟨notEmpty, terminal, tail⟩ := valid
    have plain : g.isNonterminal t.kind = false := by
      rw [Bool.eq_false_iff]
      exact fun h => terminal (exact_names _ h)
    have moved := step_accept g mark (f.roots ++ below) (f.tokens ++ rest) notEmpty plain
      (unmarked t List.mem_cons_self)
    exact .step moved
      (ih tail (fun x hx => unmarked x (List.mem_cons_of_mem _ hx)) below rest ne placed.tail)
  | node r children f ihc ih =>
    obtain ⟨mem, rhs, inside, tail⟩ := valid
    have named := lhs_mem_nonterminalsOf mem
    have notEmpty : r.lhs ≠ Symbol.empty := fun eq => tabled.empty_reserved (eq ▸ named)
    have next := tail.next_ne_empty below rest ne (f.roots ++ below)
    have behind := tail.follows named below rest placed (f.roots ++ below)
    have predicted := inside.predicts rhs (f.roots ++ below) (f.tokens ++ rest) next behind
      (r.lhs :: (f.roots ++ below))
    have moved := step_expand (f.roots ++ below) (children.tokens ++ (f.tokens ++ rest)) notEmpty
      (tabled.named _ named) ((tabled.ruleFor_iff _ _ _).mpr ⟨mem, rfl, predicted⟩)
    have children_run := ihc inside (fun x hx => unmarked x (List.mem_append_left _ hx))
      (f.roots ++ below) (f.tokens ++ rest) next (rhs ▸ Placed.of_rule mem behind)
    have rest_run := ih tail (fun x hx => unmarked x (List.mem_append_right _ hx)) below rest ne
      placed.tail
    rw [rhs] at children_run
    have run := Reaches.step moved (children_run.trans rest_run)
    simpa using run

/-- A run that ends in success from a stack with the end mark at the bottom leaves a valid forest
over the symbols above the mark. -/
theorem exists_forest_of_reaches (tabled : g.TableOf rules)
    (exact_names : ∀ s, g.isNonterminal s = true ↔ s ∈ nonterminalsOf rules)
    (marked : mark.kind = Symbol.endOfInput)
    (unmarked_rules : ∀ r ∈ rules, Symbol.endOfInput ∉ r.rhs) {p last : Parser}
    {events : List ParseEvent} (chain : Reaches g mark p events last)
    (success : last.step g mark = .stop none) (w : List String)
    (stack : p.stack = w ++ [Symbol.endOfInput]) (unmarked : Symbol.endOfInput ∉ w)
    (unmarked_tokens : ∀ t ∈ p.rest, t.kind ≠ Symbol.endOfInput) :
    ∃ f : Forest, f.Valid rules ∧ f.roots = w ∧ f.tokens = p.rest ∧ f.events = events := by
  induction chain generalizing w with
  | refl p =>
    obtain ⟨symbols, rest⟩ := p
    obtain ⟨below, top, _, ended⟩ := success_iff.mp success
    subst stack
    cases w with
    | nil =>
      cases rest with
      | nil => exact ⟨.nil, trivial, rfl, rfl, rfl⟩
      | cons t rest => exact absurd ended (unmarked_tokens t List.mem_cons_self)
    | cons s w =>
      obtain ⟨same, _⟩ := List.cons.inj top
      exact absurd (same ▸ List.mem_cons_self) unmarked
  | @step p q last event events moved _ ih =>
    obtain ⟨v, below, above⟩ := (move_of_step marked moved).above tabled stack
    have later := ih success v below
    generalize p.rest = rest, q.rest = rest' at above unmarked_tokens later ⊢
    cases above with
    | erase =>
      obtain ⟨f, valid, rfl, text, same⟩ :=
        later (fun mem => unmarked (List.mem_cons_of_mem _ mem)) unmarked_tokens
      exact ⟨.empty f, valid, rfl, text, same⟩
    | @expand r w rest mem =>
      have inside : Symbol.endOfInput ∉ r.rhs ++ w := by
        intro marks
        rcases List.mem_append.mp marks with marks | marks
        · exact unmarked_rules r mem marks
        · exact unmarked (List.mem_cons_of_mem _ marks)
      obtain ⟨f, valid, roots, text, same⟩ := later inside unmarked_tokens
      obtain ⟨children, f, rfl, rhs, rfl⟩ := Forest.split_append roots
      obtain ⟨inner, tail⟩ := (Forest.valid_append _ _ _).mp valid
      exact ⟨.node r children f, ⟨mem, rhs, inner, tail⟩, rfl, by simpa using text,
        by simpa using same⟩
    | @accept t w rest ne terminal _ =>
      obtain ⟨f, valid, rfl, text, same⟩ :=
        later (fun mem => unmarked (List.mem_cons_of_mem _ mem))
          fun x mem => unmarked_tokens x (List.mem_cons_of_mem _ mem)
      have notNamed : t.kind ∉ nonterminalsOf rules := by
        rw [← exact_names, terminal]
        exact Bool.false_ne_true
      exact ⟨.token t f, ⟨ne, notNamed, valid⟩, rfl, congrArg (t :: ·) text,
        congrArg (ParseEvent.accept t :: ·) same⟩

end Runs

namespace Grammar

variable {rules : List Rule} {g : Grammar}

/-- A parse that succeeds has the events of a valid forest over its tokens. -/
theorem exists_forest_of_parse (accepted : ofRules rules = .ok g)
    (unmarked_rules : ∀ r ∈ rules, Symbol.endOfInput ∉ r.rhs) {tokens : List Token}
    (unmarked : ∀ t ∈ tokens, t.kind ≠ Symbol.endOfInput)
    (success : (g.parse tokens).error = none) :
    ∃ f : Forest, f.Valid rules ∧ f.roots = [Symbol.start] ∧ f.tokens = tokens ∧
      (g.parse tokens).events = f.events := by
  have tabled := tableOf_accepted accepted
  obtain ⟨last, chain, stopped⟩ := parse_run tabled tokens
  rw [success] at stopped
  obtain ⟨f, valid, roots, text, same⟩ := exists_forest_of_reaches tabled
    (isNonterminal_iff accepted) (endMark_kind tokens) unmarked_rules chain stopped [Symbol.start]
    rfl (by decide) unmarked
  exact ⟨f, valid, roots, text, same.symm⟩

/-- The tokens of a valid forest over the start symbol are parsed, by the events of the forest. -/
theorem parse_of_forest (accepted : ofRules rules = .ok g) {f : Forest} (valid : f.Valid rules)
    (roots : f.roots = [Symbol.start]) (unmarked : ∀ t ∈ f.tokens, t.kind ≠ Symbol.endOfInput) :
    g.parse f.tokens = ⟨f.events, none⟩ := by
  have tabled := tableOf_accepted accepted
  have marked := endMark_kind f.tokens
  have next : ∀ stack, (Parser.lookahead ⟨stack, []⟩ (endMark f.tokens)).kind =
      Symbol.endOfInput := fun _ => marked
  have chain : Parser.Reaches g (endMark f.tokens) _ f.events ⟨[Symbol.endOfInput], []⟩ :=
    valid.reaches tabled (fun s => (isNonterminal_iff accepted s).mp) unmarked
      [Symbol.endOfInput] [] (by rw [next]; decide) (by rw [next, roots]; exact Placed.start)
  rw [roots, List.append_nil] at chain
  have terminal : g.isNonterminal Symbol.endOfInput = false := by
    rw [Bool.eq_false_iff]
    exact fun h => tabled.end_reserved ((isNonterminal_iff accepted _).mp h)
  exact parse_eq_of_reaches tabled chain (Parser.success_iff.mpr ⟨[], rfl, terminal, marked⟩)

/-- Two valid forests over the start symbol and the same tokens have the same nodes. -/
theorem forest_rules_unique (accepted : ofRules rules = .ok g) {f h : Forest}
    (validF : f.Valid rules) (validH : h.Valid rules) (rootsF : f.roots = [Symbol.start])
    (rootsH : h.roots = [Symbol.start]) (same : f.tokens = h.tokens)
    (unmarked : ∀ t ∈ f.tokens, t.kind ≠ Symbol.endOfInput) : f.rules = h.rules := by
  have parseF := parse_of_forest accepted validF rootsF unmarked
  have parseH := parse_of_forest accepted validH rootsH (same ▸ unmarked)
  rw [same, parseH] at parseF
  rw [← f.expansions_events, ← h.expansions_events, (Parse.mk.inj parseF).1]

/-- A grammar parses the token lists whose kinds derive from the start symbol. A parse that
succeeds reports their one leftmost derivation, and every token once. -/
theorem parse_decides_language (rules : List Rule) (g : Grammar) (accepted : ofRules rules = .ok g)
    (unmarked_rules : ∀ r ∈ rules, Symbol.endOfInput ∉ r.rhs) (tokens : List Token)
    (unmarked : ∀ t ∈ tokens, t.kind ≠ Symbol.endOfInput) :
    ((g.parse tokens).error = none ↔ tokens.map (·.kind) ∈ (contextFree rules).language) ∧
      ((g.parse tokens).error = none →
        TableAsm.accepted (g.parse tokens).events = tokens ∧
        LeftmostDerivation rules [.nonterminal Symbol.start] (expansions (g.parse tokens).events)
          ((tokens.map (·.kind)).map .terminal) ∧
        ∀ applied, LeftmostDerivation rules [.nonterminal Symbol.start] applied
          ((tokens.map (·.kind)).map .terminal) →
            applied = expansions (g.parse tokens).events) := by
  have reserved := (tableOf_accepted accepted).empty_reserved
  have started := start_named accepted
  have initial : form rules [Symbol.start] = [.nonterminal Symbol.start] :=
    form_cons_nonterminal (by decide) started []
  constructor
  · rw [mem_language_iff_forest reserved started]
    constructor
    · intro success
      obtain ⟨f, valid, roots, text, _⟩ :=
        exists_forest_of_parse accepted unmarked_rules unmarked success
      exact ⟨f, valid, roots, text⟩
    · rintro ⟨f, valid, roots, rfl⟩
      rw [parse_of_forest accepted valid roots unmarked]
  · intro success
    obtain ⟨f, valid, roots, rfl, same⟩ :=
      exists_forest_of_parse accepted unmarked_rules unmarked success
    rw [same, f.accepted_events, f.expansions_events]
    refine ⟨rfl, ?_, ?_⟩
    · have leftmost := valid.leftmost reserved
      rwa [roots, initial] at leftmost
    · intro applied derivation
      obtain ⟨h, validH, rootsH, text, rfl⟩ :=
        Forest.exists_of_leftmost reserved derivation f.tokens rfl [Symbol.start] initial
      exact forest_rules_unique accepted validH valid rootsH roots text (text ▸ unmarked)

/-- Any number of `x` and one `y`, with an empty symbol between them. -/
def manyThenOne : List Rule :=
  [⟨Symbol.start, ["many", Symbol.empty, "y"]⟩, ⟨"many", ["x", "many"]⟩,
    ⟨"many", [Symbol.empty]⟩]

/-- Two `x` and a `y` are parsed by their leftmost derivation. -/
theorem parse_decides_manyThenOne :
    ∃ g, ofRules manyThenOne = .ok g ∧
      let tokens := [⟨"x", "1", .start⟩, ⟨"x", "2", .start⟩, ⟨"y", "3", .start⟩]
      (g.parse tokens).error = none ∧ TableAsm.accepted (g.parse tokens).events = tokens ∧
        ["x", "x", "y"] ∈ (contextFree manyThenOne).language := by
  let tokens : List Token := [⟨"x", "1", .start⟩, ⟨"x", "2", .start⟩, ⟨"y", "3", .start⟩]
  have run : ((ofRules manyThenOne).toOption.map fun g => (g.parse tokens).error) = some none := by
    decide +kernel
  cases built : ofRules manyThenOne with
  | error e => rw [built] at run; cases run
  | ok g =>
    rw [built] at run
    have success : (g.parse tokens).error = none := Option.some.inj run
    obtain ⟨decides, reports⟩ := parse_decides_language manyThenOne g built (by decide) tokens
      (by decide)
    exact ⟨g, rfl, success, (reports success).1, decides.mp success⟩

end Grammar

end TableAsm
