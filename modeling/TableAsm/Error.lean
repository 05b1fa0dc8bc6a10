import TableAsm.Assembly
import TableAsm.Diagnostic
import TableAsm.Grammar.Description
import TableAsm.Lexicon.Description

/-!
All causes of failure, from reading a language to assembling a program, and the report that each
of them leads to.
-/
namespace TableAsm

/-- Why the text of a resource cannot be had. -/
inductive ResourceFault where
  | absent
  | directory
  | notText
  | unset
  /-- Reading failed in another way, which the system has described. -/
  | unreadable (description : String)
deriving DecidableEq, Repr

def ResourceFault.reason : ResourceFault → String
  | .absent => "file does not exist"
  | .directory => "Is a directory (os error 21)"
  | .notText => "stream did not contain valid UTF-8"
  | .unset => "environment variable is unset"
  | .unreadable description => description

structure ResourceError where
  /-- The path of a file or the name of a setting. -/
  resource : String
  fault : ResourceFault
deriving DecidableEq, Repr

inductive Error where
  | resource (e : ResourceError)
  | lexicon (e : LexiconError)
  | grammar (e : GrammarError)
  | lex (e : LexError)
  | parse (e : ParseError)
  | assembly (e : AssemblyError)
deriving DecidableEq, Repr

def ResourceError.diagnostic (e : ResourceError) : Diagnostic :=
  .missingResource e.resource e.fault.reason

def LexiconError.diagnostic (e : LexiconError) : Diagnostic := .badLanguage e.message

def LexError.diagnostic (e : LexError) : Diagnostic :=
  .strayText e.position (String.singleton e.character)

def RuleSetError.diagnostic (e : RuleSetError) : Diagnostic := .badLanguage e.message

/-- The report of a malformed grammar description. -/
def RuleTextError.diagnostic : RuleTextError → Diagnostic
  | .lex e => e.diagnostic
  | .misplaced token within =>
    .badLanguage <|
      "unexpected " ++ token.kind ++ " `" ++ token.lexeme ++ "` at " ++ token.position.render ++
        match within with
        | some lhs => " in a rule for `" ++ lhs ++ "`"
        | none => " where a nonterminal was expected"
  | .unterminated lhs => .badLanguage ("rule for `" ++ lhs ++ "` is missing its terminating `;`")
  | .malformedLiteral token =>
    .badLanguage ("malformed literal " ++ token.lexeme ++ " at " ++ token.position.render)
  | .invalidRule rule => .badLanguage (RuleSetError.invalidRule rule).message

def GrammarError.diagnostic : GrammarError → Diagnostic
  | .text e => e.diagnostic
  | .rules e => e.diagnostic

def ParseError.diagnostic (e : ParseError) : Diagnostic :=
  .badProgram (some e.position) e.near e.message

def LabelError.diagnostic (e : LabelError) : Diagnostic :=
  .badProgram e.position e.near e.message

/-- The report of a bad literal; a bad repeat count is reported without its text. -/
def LiteralError.diagnostic (e : LiteralError) : Diagnostic :=
  .badProgram e.position e.text e.fault.message

def AssemblyError.diagnostic : AssemblyError → Diagnostic
  | .shape e => .badLanguage e.message
  | .literal e => e.diagnostic
  | .label e => e.diagnostic

namespace Error

def diagnostic : Error → Diagnostic
  | resource e => e.diagnostic
  | lexicon e => e.diagnostic
  | grammar e => e.diagnostic
  | lex e => e.diagnostic
  | parse e => e.diagnostic
  | assembly e => e.diagnostic

def message (e : Error) : String := e.diagnostic.render

def exitCode (e : Error) : Nat := e.diagnostic.exitCode

end Error

end TableAsm
