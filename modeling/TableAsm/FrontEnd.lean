import TableAsm.Error
import TableAsm.Language

/-!
The front end: a lexicon and a grammar, which read any number of programs. A program is cut into
tokens, parsed into a tree, and assembled; the first failure ends the reading.
-/
namespace TableAsm

structure FrontEnd where
  lexicon : Lexicon
  grammar : Grammar

namespace FrontEnd

/-- Loads a front end from two descriptions, the lexicon first. -/
def ofTexts (lexiconText grammarText : String) : Except Error FrontEnd :=
  match Lexicon.ofText lexiconText with
  | .error e => .error (.lexicon e)
  | .ok lexicon =>
    match Grammar.ofText grammarText with
    | .error e => .error (.grammar e)
    | .ok grammar => .ok ⟨lexicon, grammar⟩

/-- The language that ships with the assembler. -/
def builtin : Except Error FrontEnd := ofTexts Language.lexiconText Language.grammarText

def tokenize (f : FrontEnd) (source : String) : Except Error (List Token) :=
  (f.lexicon.tokenize source).mapError .lex

/-- The tree of a list of tokens that the grammar accepts. -/
def parseTree (f : FrontEnd) (tokens : List Token) : Except Error Tree :=
  let parse := f.grammar.parse tokens
  match parse.error with
  | some e => .error (.parse e)
  | none => .ok (.ofEvents parse.events)

/-- The program that a source text stands for. -/
def readProgram (f : FrontEnd) (source : String) : Except Error Program :=
  match f.tokenize source with
  | .error e => .error e
  | .ok tokens =>
    match f.parseTree tokens with
    | .error e => .error e
    | .ok tree => tree.assemble.result.mapError .assembly

end FrontEnd

end TableAsm
