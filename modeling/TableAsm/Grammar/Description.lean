import TableAsm.Grammar.Basic
import TableAsm.Lexicon.Tokens
import TableAsm.Text.Blank

/-!
Reading a grammar from its description: statements that each name a nonterminal and list its
alternatives, between bars and up to a semicolon. Names in quotes stand for themselves; an empty
alternative derives nothing; comments run from a number sign to the end of the line.
-/
namespace TableAsm

namespace RuleText

def nameStart : CharSet := ⟨[⟨0x41, 0x5A⟩, ⟨0x5F, 0x5F⟩, ⟨0x61, 0x7A⟩]⟩

/-- Characters of a set, any number of them. -/
def many (s : CharSet) : Pattern := .times 0 none (.chars s)

/-- A pattern that has to match from end to end. -/
def whole (p : Pattern) : Matcher :=
  .pattern (.seq (.anchor .textStart) (.seq p (.anchor .textEnd)))

def identifier : Matcher := whole (.seq (.chars nameStart) (many Anchor.asciiWord))

/-- A quoted name; the closing quote may be missing. -/
def literal : Matcher :=
  whole (.seq (.text ['"'])
    (.seq (many (CharSet.ofList ['"', '\n']).compl) (.times 0 (some 1) (.text ['"']))))

def whitespace : Matcher := whole (.seq (.chars blanks) (many blanks))

def comment : Matcher := whole (.seq (.text ['#']) (many (CharSet.singleton '\n').compl))

/-- The token kinds of grammar descriptions. -/
def lexicon : Lexicon :=
  ⟨[⟨"IDENTIFIER", identifier, false⟩, ⟨"LITERAL", literal, false⟩, ⟨"=", .literal ['='], false⟩,
    ⟨"|", .literal ['|'], false⟩, ⟨";", .literal [';'], false⟩, ⟨"WHITESPACE", whitespace, true⟩,
    ⟨"COMMENT", comment, true⟩]⟩

end RuleText

/-- Why a text describes no list of rules. -/
inductive RuleTextError where
  | lex (e : LexError)
  /-- A token stands where it cannot, in a rule for a nonterminal or between rules. -/
  | misplaced (token : Token) (within : Option String)
  | unterminated (lhs : String)
  | malformedLiteral (token : Token)
  | invalidRule (rule : Rule)
deriving DecidableEq, Repr

namespace RuleText

/-- How far the statement being read has come. -/
inductive Stage where
  | nameExpected
  | equalsExpected (lhs : String)
  /-- In an alternative, whose symbols are held last first. -/
  | alternative (lhs : String) (reversed : List String)
deriving DecidableEq, Repr

/-- The name between the quotes of a literal, if both are there and something is between. -/
def unquote? (lexeme : List Char) : Option (List Char) :=
  match lexeme with
  | '"' :: rest =>
    if rest.getLast? = some '"' && 1 < rest.length then some rest.dropLast else none
  | _ => none

/-- Takes one token; gives the next stage and the rule that the token completes, if any. The
reserved word for no symbol names nothing: the statement still lacks its name after it. -/
def take (stage : Stage) (token : Token) : Except RuleTextError (Stage × Option Rule) :=
  match stage with
  | .nameExpected =>
    if token.kind = "IDENTIFIER" then
      if token.lexeme = Symbol.undefined then .ok (.nameExpected, none)
      else .ok (.equalsExpected token.lexeme, none)
    else .error (.misplaced token none)
  | .equalsExpected lhs =>
    if token.kind = "=" then .ok (.alternative lhs [], none)
    else .error (.misplaced token none)
  | .alternative lhs reversed =>
    if token.kind = "IDENTIFIER" then .ok (.alternative lhs (token.lexeme :: reversed), none)
    else if token.kind = "LITERAL" then
      match unquote? token.lexeme.toList with
      | some name => .ok (.alternative lhs (String.ofList name :: reversed), none)
      | none => .error (.malformedLiteral token)
    else if token.kind = "|" || token.kind = ";" then
      let rule := Rule.make lhs reversed.reverse
      if !rule.isValid then .error (.invalidRule rule)
      else if token.kind = ";" then .ok (.nameExpected, some rule)
      else .ok (.alternative lhs [], some rule)
    else .error (.misplaced token (some lhs))

/-- The rules that a list of tokens describes. -/
def read (stage : Stage) : List Token → Except RuleTextError (List Rule)
  | [] =>
    match stage with
    | .nameExpected => .ok []
    | .equalsExpected lhs | .alternative lhs _ => .error (.unterminated lhs)
  | token :: rest =>
    match take stage token with
    | .error e => .error e
    | .ok (next, rule) => (read next rest).map (rule.toList ++ ·)

def rules (description : String) : Except RuleTextError (List Rule) :=
  match lexicon.tokenize description with
  | .error e => .error (.lex e)
  | .ok tokens => read .nameExpected tokens

end RuleText

/-- Why a text describes no grammar. -/
inductive GrammarError where
  | text (e : RuleTextError)
  | rules (e : RuleSetError)
deriving DecidableEq, Repr

def Grammar.ofText (description : String) : Except GrammarError Grammar :=
  match RuleText.rules description with
  | .error e => .error (.text e)
  | .ok rules => (Grammar.ofRules rules).mapError .rules

end TableAsm
