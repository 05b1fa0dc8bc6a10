import TableAsm.Symbol
import TableAsm.Text.Position
import TableAsm.Text.Quoted

/-!
Tokens: a piece of source text with its kind and the place of its first character.
-/
namespace TableAsm

structure Token where
  kind : String
  lexeme : String
  position : Position
deriving DecidableEq, Repr, Inhabited

namespace Token

/-- The mark behind the last token. -/
def endOfInput (position : Position) : Token := ⟨Symbol.endOfInput, "", position⟩

def isEndOfInput (t : Token) : Bool := t.kind == Symbol.endOfInput

def render (t : Token) : String := "(" ++ t.kind ++ ", " ++ quoted t.lexeme ++ ")"

/-- The column after the token's text, on the line where the token starts. -/
def columnAfter (t : Token) : Position :=
  ⟨t.position.line, t.position.column + t.lexeme.length⟩

/-- How a message refers to a token that was not expected. -/
def describe (t : Token) : String :=
  if t.isEndOfInput then "end of input" else t.kind ++ " `" ++ t.lexeme ++ "`"

end Token

end TableAsm
