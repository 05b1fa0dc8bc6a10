import TableAsm.FrontEnd
import TableAsm.Proofs.Language.Assembling
import TableAsm.Proofs.Language.Grammatical
import TableAsm.Proofs.Lexicon.Stream
import TableAsm.Proofs.Pattern.Language

/-! The language that ships with the assembler, as its two texts are loaded: the entries of the
lexicon, and what their patterns say of the tokens that the assembler reads further. -/
namespace TableAsm.Language

section Entries

open RuleText

/-- The end of a pattern that has to match up to the end of the text. -/
def stop : Pattern := .anchor .textEnd

def digit : CharSet := ⟨[⟨0x30, 0x39⟩]⟩

def labelPattern : Pattern :=
  .seq (.chars nameStart) (.seq (many Anchor.asciiWord) (.seq (.text [':']) stop))

def identifierPattern : Pattern := .seq (.chars nameStart) (.seq (many Anchor.asciiWord) stop)

def integerPattern : Pattern := .seq (.times 1 none (.chars digit)) stop

def floatPattern : Pattern :=
  .seq (.times 1 none (.chars digit)) (.seq (.text ['.']) (.seq (many digit) stop))

/-- The closing quote may be missing. -/
def stringPattern : Pattern :=
  .seq (.text ['"']) (.seq (many (CharSet.ofList ['"', '\n']).compl)
    (.seq (.times 0 (some 1) (.text ['"'])) stop))

def spacePattern : Pattern := .seq (.times 1 none (.chars blanks)) stop

def commentPattern : Pattern := .seq (.text ['#']) (.seq (many (CharSet.singleton '\n').compl) stop)

/-- A kind with one text. -/
def fixedEntry (kind text : String) : Entry := ⟨kind, .literal text.toList, false⟩

def patternEntry (kind : String) (q : Pattern) (ignored : Bool) : Entry :=
  ⟨kind, .pattern q.whole, ignored⟩

/-- The token kinds in order of priority. -/
def entries : List Entry :=
  [fixedEntry "KW_repeat" "repeat", fixedEntry "KW_annotation" "annotation",
    fixedEntry "KW_property" "property", patternEntry "LABEL" labelPattern false,
    patternEntry "IDENTIFIER" identifierPattern false, patternEntry "F_LITERAL" floatPattern false,
    patternEntry "I_LITERAL" integerPattern false, patternEntry "S_LITERAL" stringPattern false,
    fixedEntry "," ",", fixedEntry ";" ";", fixedEntry "@" "@", fixedEntry "(" "(",
    fixedEntry ")" ")", fixedEntry "\x7b" "\x7b", fixedEntry "\x7d" "\x7d",
    patternEntry "WHITESPACE" spacePattern true, patternEntry "COMMENT" commentPattern true]

end Entries

section Texts

theorem toList_joinLines (lines : List String) :
    (joinLines lines).toList = lines.flatMap fun line => line.toList ++ ['\n'] := by
  rw [joinLines, String.toList_join, List.flatMap_map]
  simp only [String.toList_append]
  rfl

-- The texts are spelled out as lists of characters: evaluating them as strings takes far longer.

theorem lexicon_loaded : Lexicon.ofText lexiconText = .ok ⟨entries⟩ := by
  rw [Lexicon.ofText, lexiconText, toList_joinLines, lexiconLines]
  simp only [List.flatMap_cons, List.flatMap_nil, String.reduceToList, List.cons_append,
    List.nil_append, List.append_nil]
  decide +kernel

theorem rules_loaded : RuleText.rules grammarText = .ok rules := by
  rw [RuleText.rules, Lexicon.tokenize, Lexicon.tokens, TokenStream.ofText, ← String.length_toList,
    grammarText, toList_joinLines, grammarLines]
  simp only [List.flatMap_cons, List.flatMap_nil, String.reduceToList, List.cons_append,
    List.nil_append, List.append_nil]
  decide +kernel

end Texts

section Rules

theorem exists_grammar : ∃ g, Grammar.ofRules rules = .ok g := by
  have accepted : (Grammar.ofRules rules).toOption.isSome = true := by decide +kernel
  cases made : Grammar.ofRules rules with
  | error e =>
    rw [made] at accepted
    cases accepted
  | ok g => exact ⟨g, rfl⟩

/-- The grammar of the language goes with any lexicon. -/
theorem ofTexts_grammarText {text : String} {lexicon : Lexicon} {g : Grammar}
    (read : Lexicon.ofText text = .ok lexicon)
    (accepted : Grammar.ofRules rules = .ok g) :
    FrontEnd.ofTexts text grammarText = .ok ⟨lexicon, g⟩ := by
  have made : Grammar.ofText grammarText = .ok g := by
    rw [Grammar.ofText, rules_loaded]
    show (Grammar.ofRules rules).mapError _ = _
    rw [accepted]
    rfl
  rw [FrontEnd.ofTexts, read, made]

/-- A front end with some lexicon and the grammar of the language, and what it makes of a source
whose tokens spell a block. -/
theorem exists_loaded (text source : String) (tokens : List Token)
    (cut : ((Lexicon.ofText text).toOption.bind fun lexicon =>
      (lexicon.tokenize source).toOption) = some tokens)
    {b : Block} (spells : b.Spells tokens) :
    ∃ f, FrontEnd.ofTexts text grammarText = .ok f ∧ f.tokenize source = .ok tokens ∧
      (f.grammar.parse tokens).error = none := by
  obtain ⟨g, accepted⟩ := exists_grammar
  cases read : Lexicon.ofText text with
  | error e =>
    rw [read] at cut
    cases cut
  | ok lexicon =>
    refine ⟨⟨lexicon, g⟩, ofTexts_grammarText read accepted, ?_, spells.parsed accepted⟩
    rw [read] at cut
    cases made : lexicon.tokenize source with
    | error e =>
      rw [Except.toOption, Option.bind_some, made] at cut
      cases cut
    | ok ts =>
      rw [Except.toOption, Option.bind_some, made] at cut
      obtain rfl := Option.some.inj cut
      rw [FrontEnd.tokenize, made]
      rfl

/-- The built-in front end has the entries and the rules above. -/
theorem builtin_eq {f : FrontEnd} (loaded : FrontEnd.builtin = .ok f) :
    f.lexicon = ⟨entries⟩ ∧ Grammar.ofRules rules = .ok f.grammar := by
  obtain ⟨g, accepted⟩ := exists_grammar
  have made : FrontEnd.builtin = .ok ⟨⟨entries⟩, g⟩ :=
    ofTexts_grammarText lexicon_loaded accepted
  rw [made] at loaded
  cases loaded
  exact ⟨rfl, accepted⟩

/-- The built-in front end, and what it makes of a source whose tokens spell a block. -/
theorem exists_builtin (source : String) (tokens : List Token)
    (cut : Lexicon.tokenize ⟨entries⟩ source = .ok tokens)
    {b : Block} (spells : b.Spells tokens) :
    ∃ f, FrontEnd.builtin = .ok f ∧ f.tokenize source = .ok tokens ∧
      (f.grammar.parse tokens).error = none := by
  refine exists_loaded lexiconText source tokens ?_ spells
  rw [lexicon_loaded, Except.toOption, Option.bind_some, cut]
  rfl

end Rules

section Tokens

variable {t : Token}

/-- A token of the built-in lexicon. -/
def IsToken (t : Token) : Prop :=
  ∃ e ∈ entries, e.kind = t.kind ∧ e.matcher.accepts t.lexeme.toList = true

theorem IsToken.unmarked (h : IsToken t) : t.kind ≠ Symbol.endOfInput := by
  obtain ⟨e, mem, kind, _⟩ := h
  have other : ∀ e ∈ entries, e.kind ≠ Symbol.endOfInput := by decide
  exact kind ▸ other e mem

/-- The pattern of a kind that has one matches the text of its tokens. -/
theorem IsToken.matches (h : IsToken t) {kind : String} {q : Pattern} (same : t.kind = kind)
    (only : ∀ e ∈ entries, e.kind = kind → e.matcher = .pattern q.whole)
    (closed : q.isSealed = true) : q.Matches t.lexeme.toList := by
  obtain ⟨e, mem, isKind, accepted⟩ := h
  rw [only e mem (isKind.trans same), Matcher.accepts_pattern] at accepted
  exact (Pattern.foundIn_whole closed _).mp accepted

theorem isDigit_of_contains {c : Char} (h : digit.contains c = true) :
    Decimal.isDigit c = true := by
  simp only [CharSet.contains, digit, List.any_cons, List.any_nil, Bool.or_false, Span.covers,
    Bool.and_eq_true, decide_eq_true_eq] at h
  simp only [Decimal.isDigit, Bool.and_eq_true, decide_eq_true_eq]
  exact h

theorem digits_of_matches {least : Nat} {w : List Char}
    (h : (Pattern.times least none (.chars digit)).Matches w) :
    w.all Decimal.isDigit = true ∧ (0 < least → w ≠ []) := by
  obtain ⟨ws, rfl, each, enough, _⟩ := h
  refine ⟨List.all_eq_true.mpr fun c mem => ?_, fun pos => ?_⟩
  · obtain ⟨x, inside, mem⟩ := List.mem_flatten.mp mem
    obtain ⟨d, rfl, isDigit⟩ := each x inside
    obtain rfl := List.mem_singleton.mp mem
    exact isDigit_of_contains isDigit
  · rcases enough with enough | ⟨c, none, _⟩
    · obtain _ | ⟨x, ws⟩ := ws
      · exact absurd pos (Nat.not_lt.mpr enough)
      · obtain ⟨d, rfl, _⟩ := each x List.mem_cons_self
        exact List.cons_ne_nil _ _
    · cases none

theorem IsToken.digits (h : IsToken t) (kind : t.kind = "I_LITERAL") :
    t.lexeme.toList.all Decimal.isDigit = true ∧ t.lexeme.toList ≠ [] := by
  obtain ⟨_, _, eq, digits, _, rfl⟩ := h.matches (q := integerPattern) kind (by decide) rfl
  rw [eq, List.append_nil]
  obtain ⟨all, some⟩ := digits_of_matches digits
  exact ⟨all, some Nat.one_pos⟩

/-- A float literal has digits before its point, and only digits behind. -/
theorem IsToken.point (h : IsToken t) (kind : t.kind = "F_LITERAL") :
    ∃ us vs, t.lexeme.toList = us ++ '.' :: vs ∧ us.all Decimal.isDigit = true ∧ us ≠ [] ∧
      vs.all Decimal.isDigit = true := by
  obtain ⟨us, _, eq, before, _, _, rfl, rfl, vs, _, rfl, behind, _, rfl⟩ :=
    h.matches (q := floatPattern) kind (by decide) rfl
  obtain ⟨all, some⟩ := digits_of_matches before
  refine ⟨us, vs, ?_, all, some Nat.one_pos, (digits_of_matches behind).1⟩
  rw [eq, List.append_nil]
  rfl

theorem IsToken.colon (h : IsToken t) (kind : t.kind = "LABEL") :
    t.lexeme.toList.getLast? = some ':' := by
  obtain ⟨_, _, eq, _, _, _, rfl, _, _, _, rfl, rfl, _, rfl⟩ :=
    h.matches (q := labelPattern) kind (by decide) rfl
  rw [eq]
  simp

/-- The tokens of the built-in lexicon, as the assembler relies on them. -/
theorem lexed_of_tokens {tokens : List Token} (h : ∀ t ∈ tokens, IsToken t) : Lexed tokens :=
  ⟨fun t mem kind => ((h t mem).digits kind).1, fun t mem => (h t mem).colon⟩

end Tokens

end TableAsm.Language
