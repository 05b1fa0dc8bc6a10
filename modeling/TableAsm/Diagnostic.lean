import TableAsm.Text.Position
import TableAsm.Text.Quoted

/-!
Reports of failure. Every failure ends the run with a report of one of four kinds; each kind
has its own wording and its own exit status.
-/
namespace TableAsm

inductive Diagnostic where
  /-- No token kind matches the text at a place. -/
  | strayText (position : Position) (fragment : String)
  /-- A lexicon or grammar is malformed, or does not fit the language. -/
  | badLanguage (message : String)
  /-- A program does not follow the grammar, or means nothing. -/
  | badProgram (position : Option Position) (near : String) (message : String)
  /-- A file or setting is not there or cannot be read. -/
  | missingResource (resource : String) (reason : String)
deriving DecidableEq, Repr

namespace Diagnostic

/-- The status a run ends with; different for each kind, and never zero. -/
def exitCode : Diagnostic → Nat
  | .strayText .. => 2
  | .badLanguage .. => 3
  | .badProgram .. => 4
  | .missingResource .. => 5

def render : Diagnostic → String
  | .strayText position fragment =>
    "lex error at " ++ position.render ++ ": no token matches " ++ quoted fragment
  | .badLanguage message => "grammar error: " ++ message
  | .badProgram (some position) near message =>
    "syntax error at " ++ position.render ++ " near " ++ quoted near ++ ": " ++ message
  | .badProgram none near message => "syntax error near " ++ quoted near ++ ": " ++ message
  | .missingResource resource reason =>
    "missing configuration `" ++ resource ++ "`: " ++ reason

end Diagnostic

end TableAsm
