import Mathlib.Data.List.TakeWhile
import TableAsm.FrontEnd
import TableAsm.Proofs.Grammar.Prefixes
import TableAsm.Proofs.Lexicon.Stream

/-! How much of a text a parse reads. The parser matches tokens until the end mark is next, and it
tells the end mark by its kind alone. A lexicon names its kinds freely, so a token of the text can
have that kind; the parse ends there, and what stands behind is read by nobody. -/
namespace TableAsm

theorem Grammar.exists_rules_of_ofText {description : String} {g : Grammar}
    (loaded : ofText description = .ok g) :
    ∃ rules, RuleText.rules description = .ok rules ∧ ofRules rules = .ok g := by
  unfold ofText at loaded
  split at loaded
  · cases loaded
  · rename_i rules read
    refine ⟨rules, read, ?_⟩
    cases built : ofRules rules with
    | error e => rw [built] at loaded; cases loaded
    | ok made => rw [built] at loaded; cases loaded; rfl

namespace FrontEnd

variable {f : FrontEnd}

/-- A front end that was loaded has the lexicon of the one text and the rules of the other. -/
theorem parts_of_ofTexts {lexiconText grammarText : String}
    (loaded : ofTexts lexiconText grammarText = .ok f) :
    Lexicon.ofText lexiconText = .ok f.lexicon ∧ ∃ rules, RuleText.rules grammarText = .ok rules ∧
      Grammar.ofRules rules = .ok f.grammar := by
  unfold ofTexts at loaded
  split at loaded
  · cases loaded
  · rename_i lexicon read
    split at loaded
    · cases loaded
    · rename_i grammar made
      cases loaded
      exact ⟨read, Grammar.exists_rules_of_ofText made⟩

theorem tokenize_eq_ok {source : String} {tokens : List Token} :
    f.tokenize source = .ok tokens ↔ f.lexicon.tokenize source = .ok tokens := by
  unfold tokenize
  cases f.lexicon.tokenize source <;> simp [Except.mapError]

/-- The tokens of a source have kinds that the lexicon declares. -/
theorem kind_mem_of_tokenize {source : String} {tokens : List Token}
    (cut : f.tokenize source = .ok tokens) {t : Token} (mem : t ∈ tokens) :
    t.kind ∈ f.lexicon.kinds := by
  obtain ⟨e, known, kind, _⟩ := Lexicon.exists_entry_of_tokenize (tokenize_eq_ok.mp cut) mem
  exact List.mem_map.mpr ⟨e, known, kind⟩

end FrontEnd

namespace Grammar

variable {rules : List Rule} {g : Grammar}

/-- A parse that succeeds has matched all tokens before the first that looks like the end mark, and
no more. -/
theorem accepted_of_parse (tabled : g.TableOf rules) {tokens : List Token}
    (success : (g.parse tokens).error = none) :
    TableAsm.accepted (g.parse tokens).events =
      tokens.takeWhile fun t => t.kind ≠ Symbol.endOfInput := by
  obtain ⟨last, chain, stopped⟩ := parse_run tabled tokens
  rw [success] at stopped
  obtain ⟨_, _, _, ended⟩ := Parser.success_iff.mp stopped
  have text : tokens = TableAsm.accepted (g.parse tokens).events ++ last.rest :=
    chain.rest_eq (endMark_kind tokens)
  have unmarked := chain.unmarked (endMark_kind tokens)
  -- what is next where the parse stops is a token of the end mark's kind, or nothing
  have behind : last.rest.takeWhile (fun t => t.kind ≠ Symbol.endOfInput) = [] := by
    cases rest : last.rest with
    | nil => rfl
    | cons t later =>
      have kind : t.kind = Symbol.endOfInput := by
        rw [Parser.lookahead, rest] at ended
        exact ended
      simp [kind]
  generalize TableAsm.accepted (g.parse tokens).events = front at text unmarked ⊢
  rw [text, List.takeWhile_append_of_pos (by simpa using unmarked), behind, List.append_nil]

end Grammar

namespace FrontEnd

/-- A parse that succeeds has matched, once each and in order, the tokens before the first one that
has the kind of the end mark. It has matched the whole text unless there is such a token, and there
is none unless the lexicon declares that kind. -/
theorem parse_reads_to_mark (lexiconText grammarText : String) (f : FrontEnd)
    (loaded : ofTexts lexiconText grammarText = .ok f) (source : String) (tokens : List Token)
    (cut : f.tokenize source = .ok tokens) (success : (f.grammar.parse tokens).error = none) :
    accepted (f.grammar.parse tokens).events =
        tokens.takeWhile (fun t => t.kind ≠ Symbol.endOfInput) ∧
      (accepted (f.grammar.parse tokens).events = tokens ↔
        ∀ t ∈ tokens, t.kind ≠ Symbol.endOfInput) ∧
      (Symbol.endOfInput ∉ f.lexicon.kinds →
        accepted (f.grammar.parse tokens).events = tokens) := by
  obtain ⟨_, rules, _, built⟩ := parts_of_ofTexts loaded
  have matched := Grammar.accepted_of_parse (Grammar.tableOf_accepted built) success
  have whole : accepted (f.grammar.parse tokens).events = tokens ↔
      ∀ t ∈ tokens, t.kind ≠ Symbol.endOfInput := by
    rw [matched, List.takeWhile_eq_self_iff]
    simp only [decide_eq_true_eq]
  exact ⟨matched, whole, fun undeclared =>
    whole.mpr fun t mem kind => undeclared (kind ▸ kind_mem_of_tokenize cut mem)⟩

/-- One kind for a letter, and one that is named like the end mark. -/
def letterAndMark : String := "a\n$\n"

def letters : String := "start = a start | ;"

/-- The tokens of a source of letters and marks that is parsed, and those that are matched. -/
def coverage (source : String) : Option (List Token × List Token) := do
  let f ← (ofTexts letterAndMark letters).toOption
  let tokens ← (f.tokenize source).toOption
  if (f.grammar.parse tokens).error = none then
    return (tokens, accepted (f.grammar.parse tokens).events)
  else none

theorem exists_of_coverage {source : String} {tokens matched : List Token}
    (h : coverage source = some (tokens, matched)) :
    ∃ f, ofTexts letterAndMark letters = .ok f ∧ f.tokenize source = .ok tokens ∧
      (f.grammar.parse tokens).error = none ∧
      accepted (f.grammar.parse tokens).events = matched := by
  cases loaded : ofTexts letterAndMark letters with
  | error e => rw [coverage, loaded] at h; cases h
  | ok f =>
    cases cut : f.tokenize source with
    | error e => rw [coverage, loaded] at h; simp [cut, Except.toOption] at h
    | ok read =>
      rw [coverage, loaded] at h
      simp only [Except.toOption, Option.bind_eq_bind, Option.bind_some, cut, Option.pure_def,
        Option.ite_none_right_eq_some, Option.some.injEq, Prod.mk.injEq] at h
      obtain ⟨success, rfl, same⟩ := h
      exact ⟨f, rfl, cut, success, same⟩

theorem parse_reads_to_mark_letters :
    ∃ f tokens, ofTexts letterAndMark letters = .ok f ∧ f.tokenize "aa" = .ok tokens ∧
      (f.grammar.parse tokens).error = none ∧ tokens.length = 2 ∧
      accepted (f.grammar.parse tokens).events = tokens := by
  have covered : coverage "aa" =
      some ([⟨"a", "a", ⟨1, 1⟩⟩, ⟨"a", "a", ⟨1, 2⟩⟩], [⟨"a", "a", ⟨1, 1⟩⟩, ⟨"a", "a", ⟨1, 2⟩⟩]) := by
    decide +kernel
  obtain ⟨f, loaded, cut, success, _⟩ := exists_of_coverage covered
  obtain ⟨_, whole, _⟩ := parse_reads_to_mark letterAndMark letters f loaded "aa" _ cut success
  exact ⟨f, _, loaded, cut, success, rfl, whole.mpr (by decide)⟩

/-- A mark between two letters cuts the second off. -/
theorem exists_unread :
    ¬ ∀ (lexiconText grammarText : String) (f : FrontEnd),
      ofTexts lexiconText grammarText = .ok f → ∀ (source : String) (tokens : List Token),
        f.tokenize source = .ok tokens → (f.grammar.parse tokens).error = none →
          accepted (f.grammar.parse tokens).events = tokens := by
  intro whole
  have covered : coverage "a$a" =
      some ([⟨"a", "a", ⟨1, 1⟩⟩, ⟨"$", "$", ⟨1, 2⟩⟩, ⟨"a", "a", ⟨1, 3⟩⟩],
        [⟨"a", "a", ⟨1, 1⟩⟩]) := by decide +kernel
  obtain ⟨f, loaded, cut, success, matched⟩ := exists_of_coverage covered
  have all := whole letterAndMark letters f loaded "a$a" _ cut success
  rw [matched] at all
  exact absurd all (by decide)

end FrontEnd

end TableAsm
