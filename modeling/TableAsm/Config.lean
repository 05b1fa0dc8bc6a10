import TableAsm.FileStore
import TableAsm.FrontEnd

/-!
Where a front end takes its lexicon and grammar from: the texts that ship with it, or files named
directly or through the environment.
-/
namespace TableAsm

/-- Settings by name; a setting that is not there is unset. -/
abbrev Environment := String → Option String

namespace Environment

def lexiconSetting : String := "QES_LEXER_FILE"
def grammarSetting : String := "QES_LL_GRAMMAR_FILE"

/-- A setting that is there and not empty. -/
def given? (env : Environment) (name : String) : Option String :=
  (env name).filter (· != "")

end Environment

inductive Resource where
  | builtin
  | file (path : String)
deriving DecidableEq, Repr

namespace Resource

def describe : Resource → String
  | builtin => "Builtin"
  | file path => "File(" ++ quoted path ++ ")"

def load (files : Files) (builtinText : String) : Resource → Except ResourceError String
  | builtin => .ok builtinText
  | file path => files path

end Resource

structure Config where
  lexicon : Resource
  grammar : Resource
deriving DecidableEq, Repr

namespace Config

def shipped : Config := ⟨.builtin, .builtin⟩

def withLexiconFile (c : Config) (path : String) : Config := { c with lexicon := .file path }
def withGrammarFile (c : Config) (path : String) : Config := { c with grammar := .file path }

/-- A file named directly wins, then the environment, then the text that ships. -/
def pick (env : Environment) (explicit : Option String) (setting : String) : Resource :=
  match explicit.or (env.given? setting) with
  | some path => .file path
  | none => .builtin

def resolve (env : Environment) (lexicon grammar : Option String) : Config :=
  ⟨pick env lexicon Environment.lexiconSetting, pick env grammar Environment.grammarSetting⟩

/-- The file that a setting has to name. -/
def fileFrom (env : Environment) (setting : String) : Except ResourceError Resource :=
  match env.given? setting with
  | some path => .ok (.file path)
  | none => .error ⟨setting, .unset⟩

/-- Both files have to be named by the environment. -/
def fromEnvironment (env : Environment) : Except ResourceError Config := do
  return ⟨← fileFrom env Environment.lexiconSetting, ← fileFrom env Environment.grammarSetting⟩

def lexiconText (c : Config) (files : Files) : Except ResourceError String :=
  c.lexicon.load files Language.lexiconText

def grammarText (c : Config) (files : Files) : Except ResourceError String :=
  c.grammar.load files Language.grammarText

end Config

def Lexicon.ofFile (files : Files) (path : String) : Except Error Lexicon :=
  match files path with
  | .error e => .error (.resource e)
  | .ok text => (Lexicon.ofText text).mapError .lexicon

def Grammar.ofFile (files : Files) (path : String) : Except Error Grammar :=
  match files path with
  | .error e => .error (.resource e)
  | .ok text => (Grammar.ofText text).mapError .grammar

/-- Loads the front end of a configuration: the lexicon is read and loaded before the grammar. -/
def FrontEnd.load (files : Files) (c : Config) : Except Error FrontEnd :=
  match c.lexiconText files with
  | .error e => .error (.resource e)
  | .ok lexiconText =>
    match Lexicon.ofText lexiconText with
    | .error e => .error (.lexicon e)
    | .ok lexicon =>
      match c.grammarText files with
      | .error e => .error (.resource e)
      | .ok grammarText =>
        match Grammar.ofText grammarText with
        | .error e => .error (.grammar e)
        | .ok grammar => .ok ⟨lexicon, grammar⟩

end TableAsm
