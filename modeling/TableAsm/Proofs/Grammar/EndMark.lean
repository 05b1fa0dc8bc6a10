import TableAsm.Proofs.Grammar.Coverage
import TableAsm.Proofs.Lexicon.Places
import TableAsm.Proofs.Lexicon.Printing

/-! Where the end of input is reported. The parser puts the end mark behind the last token by the
length of its text, the stream of tokens tells places character by character. Both come to the same
place unless the text of the last token goes over a line feed. -/
namespace TableAsm

namespace Position

variable {text more : List Char}

theorem line_behind_append :
    (behind (text ++ more)).line = (behind text).line + more.count '\n' := by
  simp [behind, Nat.add_assoc]

theorem column_behind_append (free : '\n' ∉ more) :
    (behind (text ++ more)).column = (behind text).column + more.length := by
  induction more using List.reverseRecOn with
  | nil => simp
  | append_singleton more c ih =>
    have inside : '\n' ∉ more := fun mem => free (List.mem_append_left _ mem)
    have last : c ≠ '\n' := by
      rintro rfl
      exact free (List.mem_append_right _ List.mem_cons_self)
    rw [← List.append_assoc, behind_concat, next, if_neg last, List.length_append, ih inside]
    rfl

end Position

/-- The column after a token is the place behind its text if that stays on one line. -/
theorem Token.columnAfter_eq_behind_iff {t : Token} {front : List Char}
    (place : t.position = .behind front) :
    t.columnAfter = .behind (front ++ t.lexeme.toList) ↔ '\n' ∉ t.lexeme.toList := by
  constructor
  · intro same inside
    have line := congrArg Position.line same
    have feeds := List.count_pos_iff.mpr inside
    rw [columnAfter, place, Position.line_behind_append] at line
    simp only at line
    omega
  · intro free
    have line : (Position.behind (front ++ _)).line = _ := Position.line_behind free
    have column : (Position.behind (front ++ _)).column = _ := Position.column_behind_append free
    rw [columnAfter, place, ← String.length_toList, ← line, ← column]

theorem ParseError.position_eq {e : ParseError} {t : Token} (found : e.found? = some t) :
    e.position = t.position := by
  cases e <;> cases found <;> rfl

theorem Grammar.position_of_ended {g : Grammar} {rules : List Rule} (tabled : g.TableOf rules)
    {tokens : List Token} {e : ParseError} (failed : (g.parse tokens).error = some e)
    (ended : accepted (g.parse tokens).events = tokens) : e.position = (endMark tokens).position := by
  obtain ⟨stopped, chain, _, found⟩ := found_of_parse tabled failed
  have text : tokens = accepted (g.parse tokens).events ++ stopped.rest :=
    chain.rest_eq (endMark_kind tokens)
  rw [ended, List.self_eq_append_right] at text
  rw [Parser.lookahead, text] at found
  exact ParseError.position_eq found

namespace FrontEnd

/-- A parse that fails at the end of input is reported behind the last token, on the line where that
token starts. This is the place behind its text, as far as the text has no line feed. -/
theorem parse_ends_behind_last {lexiconText grammarText : String} {f : FrontEnd}
    (loaded : ofTexts lexiconText grammarText = .ok f) {source : String} {tokens : List Token}
    (cut : f.tokenize source = .ok tokens) {last : Token} (nonempty : tokens.getLast? = some last)
    {e : ParseError} (failed : (f.grammar.parse tokens).error = some e)
    (ended : accepted (f.grammar.parse tokens).events = tokens) :
    ∃ front back, source.toList = front ++ last.lexeme.toList ++ back ∧
      last.position = .behind front ∧
      e.position = ⟨last.position.line, last.position.column + last.lexeme.length⟩ ∧
      (e.position = .behind (front ++ last.lexeme.toList) ↔ '\n' ∉ last.lexeme.toList) := by
  obtain ⟨_, rules, _, built⟩ := parts_of_ofTexts loaded
  have place : e.position = last.columnAfter := by
    rw [Grammar.position_of_ended (Grammar.tableOf_accepted built) failed ended, endMark, nonempty]
    rfl
  obtain ⟨front, back, text, start⟩ :=
    Lexicon.exists_place_of_tokenize (tokenize_eq_ok.mp cut) (List.mem_of_getLast? nonempty)
  rw [place]
  exact ⟨front, back, text, start, rfl, Token.columnAfter_eq_behind_iff start⟩

/-- One kind for any row of letters and line feeds. -/
def overFeeds : String := "A [a\\n]+\n"

def twoWords : String := "start = A A ;"

/-- The tokens of a source of one word and the error behind them. -/
def shortBy (source : String) : Option (List Token × ParseError) := do
  let f ← (ofTexts overFeeds twoWords).toOption
  let tokens ← (f.tokenize source).toOption
  let e ← (f.grammar.parse tokens).error
  if accepted (f.grammar.parse tokens).events = tokens then return (tokens, e) else none

theorem exists_of_shortBy {source : String} {tokens : List Token} {e : ParseError}
    (h : shortBy source = some (tokens, e)) :
    ∃ f, ofTexts overFeeds twoWords = .ok f ∧ f.tokenize source = .ok tokens ∧
      (f.grammar.parse tokens).error = some e ∧
      accepted (f.grammar.parse tokens).events = tokens := by
  cases loaded : ofTexts overFeeds twoWords with
  | error other => rw [shortBy, loaded] at h; cases h
  | ok f =>
    cases cut : f.tokenize source with
    | error other => rw [shortBy, loaded] at h; simp [cut, Except.toOption] at h
    | ok read =>
      rw [shortBy, loaded] at h
      simp only [Except.toOption, Option.bind_eq_bind, Option.bind_some, cut, Option.pure_def,
        Option.bind_eq_some_iff, Option.ite_none_right_eq_some, Option.some.injEq,
        Prod.mk.injEq] at h
      obtain ⟨_, failed, ended, rfl, rfl⟩ := h
      exact ⟨f, rfl, cut, failed, ended⟩

theorem parse_ends_behind_last_word :
    ∃ f e, ofTexts overFeeds twoWords = .ok f ∧
      f.tokenize "aa" = .ok [⟨"A", "aa", ⟨1, 1⟩⟩] ∧
      (f.grammar.parse [⟨"A", "aa", ⟨1, 1⟩⟩]).error = some e ∧
      accepted (f.grammar.parse [⟨"A", "aa", ⟨1, 1⟩⟩]).events = [⟨"A", "aa", ⟨1, 1⟩⟩] ∧
      e.position = ⟨1, 3⟩ := by
  obtain ⟨f, loaded, cut, failed, ended⟩ := exists_of_shortBy (show shortBy "aa" =
    some ([⟨"A", "aa", ⟨1, 1⟩⟩], .kindExpected "A" (.endOfInput ⟨1, 3⟩)) by decide +kernel)
  obtain ⟨_, _, _, _, place, _⟩ := parse_ends_behind_last loaded cut rfl failed ended
  exact ⟨f, _, loaded, cut, failed, ended, place⟩

/-- A word that goes on to the next line is taken to end on its first one. -/
theorem exists_end_misplaced :
    ¬ ∀ {lexiconText grammarText : String} {f : FrontEnd},
      ofTexts lexiconText grammarText = .ok f → ∀ {source : String} {tokens : List Token},
        f.tokenize source = .ok tokens → ∀ {last : Token}, tokens.getLast? = some last →
          ∀ {e : ParseError}, (f.grammar.parse tokens).error = some e →
            accepted (f.grammar.parse tokens).events = tokens → ∀ {front back : List Char},
              source.toList = front ++ last.lexeme.toList ++ back →
                last.position = .behind front →
                  e.position = .behind (front ++ last.lexeme.toList) := by
  intro placed
  obtain ⟨f, loaded, cut, failed, ended⟩ := exists_of_shortBy (show shortBy "a\na" =
    some ([⟨"A", "a\na", ⟨1, 1⟩⟩], .kindExpected "A" (.endOfInput ⟨1, 4⟩)) by decide +kernel)
  have place := placed loaded cut rfl failed ended (by decide : _ = [] ++ _ ++ []) rfl
  exact absurd place (by decide)

end FrontEnd

end TableAsm
