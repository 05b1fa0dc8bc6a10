import TableAsm.Config

/-!
The journal: what loading a front end and reading a program report about their work. The records
of a step that fails stop where it fails.
-/
namespace TableAsm

/-- How much a record matters; later ones matter less. -/
inductive Level where
  | error | warn | info | debug
deriving DecidableEq, Repr

namespace Level

def rank : Level → Nat
  | error => 0
  | warn => 1
  | info => 2
  | debug => 3

def label : Level → String
  | error => "ERROR"
  | warn => "WARN"
  | info => "INFO"
  | debug => "DEBUG"

end Level

/-- The part of the assembler that a record is from. -/
inductive Origin where
  | commandLine | lexicon | grammar | program
deriving DecidableEq, Repr

def Origin.label : Origin → String
  | commandLine => "qes"
  | lexicon => "qes::frontend::lexer"
  | grammar => "qes::frontend::grammar"
  | program => "qes::frontend::program"

structure Record where
  origin : Origin
  level : Level
  message : String
deriving DecidableEq, Repr

def Record.render (r : Record) : String :=
  "[" ++ r.origin.label ++ "][" ++ r.level.label ++ "] " ++ r.message

abbrev Journal := List Record

namespace Journal

def lexiconLoaded (l : Lexicon) : Record :=
  ⟨.lexicon, .debug, "loaded lexicon with " ++ toString l.entries.length ++ " token types"⟩

/-- The passes over the rules, once the sets are computed. -/
def setsComputed (g : Grammar) : Journal :=
  [⟨.grammar, .debug, "FIRST sets stable after " ++ toString g.sets.firstPasses ++ " rounds"⟩,
    ⟨.grammar, .debug, "FOLLOW sets stable after " ++ toString g.sets.followPasses ++ " rounds"⟩]

def grammarLoaded (g : Grammar) : Record :=
  ⟨.grammar, .debug, "loaded grammar with " ++ toString g.rules.length ++ " rules over " ++
    toString g.nonterminals.size ++ " nonterminals"⟩

/-- Loading a grammar from its description. A conflict shows only after the sets. -/
def ofGrammarText (description : String) : Journal :=
  lexiconLoaded RuleText.lexicon ::
    match RuleText.rules description with
    | .error _ => []
    | .ok rules =>
      match (Grammar.unbuilt rules).rebuild with
      | (g, none) => setsComputed g ++ [grammarLoaded g]
      | (g, some (.conflict _)) => setsComputed g
      | (_, some _) => []

def frontEndReady (c : Config) : Record :=
  ⟨.program, .info, "front end ready (lexicon: " ++ c.lexicon.describe ++ ", grammar: " ++
    c.grammar.describe ++ ")"⟩

/-- Loading the front end of a configuration. -/
def ofLoad (files : Files) (c : Config) : Journal :=
  match (c.lexiconText files).toOption.bind (Lexicon.ofText · |>.toOption) with
  | none => []
  | some lexicon =>
    lexiconLoaded lexicon ::
      match c.grammarText files with
      | .error _ => []
      | .ok text =>
        ofGrammarText text ++ if (Grammar.ofText text).isOk then [frontEndReady c] else []

def repetition (r : Repetition) : Record :=
  ⟨.program, .debug, "repeating a block of " ++ toString r.length ++ " instructions " ++
    toString r.count ++ " times"⟩

/-- Reading a program. -/
def ofProgram (f : FrontEnd) (source : String) : Journal :=
  match f.tokenize source with
  | .error _ => []
  | .ok tokens =>
    ⟨.program, .debug, "lexed " ++ toString tokens.length ++ " tokens"⟩ ::
      match f.parseTree tokens with
      | .error _ => []
      | .ok tree =>
        let assembly := tree.assemble
        ⟨.program, .debug, "parse tree has " ++ toString tree.size ++ " nodes"⟩ ::
          assembly.repetitions.map repetition ++
            match assembly.result with
            | .error _ => []
            | .ok p =>
              [⟨.program, .debug, "assembled " ++ toString p.length ++ " instructions"⟩]

end Journal

end TableAsm
