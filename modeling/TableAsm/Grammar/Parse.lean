import TableAsm.Grammar.Basic
import TableAsm.Token

/-!
Predictive parsing. The parser holds a stack of symbols that the rest of the input has to derive
from. A nonterminal on top is replaced by the right-hand side that the table gives for the next
token; a terminal on top has to be that token's kind. What the parser does is reported as a list
of events in the order of a leftmost derivation.
-/
namespace TableAsm

inductive ParseEvent where
  /-- The leftmost nonterminal was expanded. -/
  | expand (rule : Rule)
  /-- A token was matched. -/
  | accept (token : Token)
deriving DecidableEq, Repr

/-- Why a list of tokens does not follow a grammar. -/
inductive ParseError where
  | noRule (nonterminal : String) (found : Token)
  | endExpected (found : Token)
  | kindExpected (kind : String) (found : Token)
  | exhausted (position : Position)
  /-- The parse was cut off before it ended. -/
  | cutOff (position : Position)
deriving DecidableEq, Repr

namespace ParseError

def position : ParseError → Position
  | noRule _ found | endExpected found | kindExpected _ found => found.position
  | exhausted position | cutOff position => position

/-- The text of the token where the parse failed. -/
def near : ParseError → String
  | noRule _ found | endExpected found | kindExpected _ found => found.lexeme
  | exhausted _ | cutOff _ => ""

def message : ParseError → String
  | noRule nonterminal found =>
    "unexpected " ++ found.describe ++ " while reading `" ++ nonterminal ++ "`"
  | endExpected found => "expected end of input, found " ++ found.describe
  | kindExpected kind found => "expected `" ++ kind ++ "`, found " ++ found.describe
  | exhausted _ => "parse stack exhausted before end of input"
  | cutOff _ => "parse cut off before end of input"

end ParseError

/-- The events of a parse, and the error that ended it unless the tokens were accepted. -/
structure Parse where
  events : List ParseEvent
  error : Option ParseError
deriving DecidableEq, Repr

/-- A parser at work: what has to be derived, next symbol first, and the tokens left. -/
structure Parser where
  stack : List String
  rest : List Token
deriving DecidableEq, Repr

/-- The mark behind a list of tokens. It stands where the text of the last token ends, on the
line where that token starts. -/
def endMark (tokens : List Token) : Token :=
  match tokens.getLast? with
  | some t => .endOfInput t.columnAfter
  | none => .endOfInput .start

namespace Parser

/-- What one step leads to. -/
inductive Step where
  | next (p : Parser) (event : Option ParseEvent)
  | stop (error : Option ParseError)

def initial (tokens : List Token) : Parser := ⟨[Symbol.start, Symbol.endOfInput], tokens⟩

/-- The next token, or the end mark behind the last one. -/
def lookahead (p : Parser) (mark : Token) : Token := p.rest.head?.getD mark

/-- Takes the top off the stack. The empty symbol derives nothing, a nonterminal is expanded,
the end symbol ends the parse, and any other symbol has to match the next token. -/
def step (g : Grammar) (mark : Token) (p : Parser) : Step :=
  let found := p.lookahead mark
  match p.stack with
  | [] => .stop (some (.exhausted mark.position))
  | top :: below =>
    if top = Symbol.empty then .next ⟨below, p.rest⟩ none
    else if g.isNonterminal top then
      match g.ruleFor top found.kind with
      | some rule => .next ⟨rule.rhs ++ below, p.rest⟩ (some (.expand rule))
      | none => .stop (some (.noRule top found))
    else if top = Symbol.endOfInput then
      if found.isEndOfInput then .stop none
      else .stop (some (.endExpected found))
    else if top = found.kind then .next ⟨below, p.rest.drop 1⟩ (some (.accept found))
    else .stop (some (.kindExpected top found))

/-- Steps until the parse ends or `fuel` runs out; `reversed` holds the events so far, last
first. -/
def run (g : Grammar) (mark : Token) (reversed : List ParseEvent) (p : Parser) : Nat → Parse
  | 0 => ⟨reversed.reverse, some (.cutOff mark.position)⟩
  | fuel + 1 =>
    match p.step g mark with
    | .stop error => ⟨reversed.reverse, error⟩
    | .next q event => run g mark (event.toList ++ reversed) q fuel

end Parser

namespace Grammar

def longestRule (g : Grammar) : Nat := (g.rules.map (·.rhs.length)).foldl max 0

/-- More steps than a parse takes. While one token is next, the symbols put on the stack form
trees in which no nonterminal lies below itself; from one token to the next the stack grows by
the siblings along one path of such a tree. -/
def stepBound (g : Grammar) (tokens : List Token) : Nat :=
  let names := g.nonterminals.size + 1
  let width := g.longestRule + 2
  (tokens.length + 2) * ((tokens.length + 2) * names * width) * Nat.pow width (names + 1)

def parse (g : Grammar) (tokens : List Token) : Parse :=
  Parser.run g (endMark tokens) [] (.initial tokens) (g.stepBound tokens)

end Grammar

end TableAsm
