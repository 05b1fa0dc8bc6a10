import TableAsm.Grid
import TableAsm.Journal

/-!
The command line as a function: from arguments, settings and files to a status, the text for
standard output, and the journal for standard error.
-/
namespace TableAsm.CommandLine

/-- What the arguments ask for. -/
structure Options where
  input : Option String
  verbosity : Nat
  lexicon : Option String
  grammar : Option String
  /-- Cut the input into tokens only, and list them. -/
  tokensOnly : Bool
  /-- List the program with addresses. -/
  addresses : Bool
deriving DecidableEq, Repr

def Options.none : Options := ⟨.none, 0, .none, .none, false, false⟩

/-- The options that take a value. -/
inductive Valued where
  | lexicon | grammar
deriving DecidableEq, Repr

/-- Arguments while they are read. -/
structure Reading where
  options : Options
  /-- An option that waits for its value in the next argument. -/
  waiting : Option Valued
  /-- All further arguments are input files. -/
  positionalOnly : Bool
  /-- An option came twice or without its value. -/
  misused : Bool
deriving DecidableEq, Repr

/-- What a list of arguments amounts to. -/
inductive Invocation where
  | run (options : Options)
  | version
  | help
  | misuse
deriving DecidableEq, Repr

namespace Reading

def initial : Reading := ⟨.none, none, false, false⟩

def setValue (r : Reading) (option : Valued) (value : String) : Reading :=
  let o := r.options
  match option with
  | .lexicon =>
    { r with
      options := { o with lexicon := some value }, waiting := none
      misused := r.misused || o.lexicon.isSome }
  | .grammar =>
    { r with
      options := { o with grammar := some value }, waiting := none
      misused := r.misused || o.grammar.isSome }

/-- A new option begins; one that still waits for its value stays without. -/
def settle (r : Reading) : Reading :=
  { r with waiting := none, misused := r.misused || r.waiting.isSome }

/-- What one argument leads to: reading on, or an end. -/
abbrev Outcome := Except Invocation Reading

def positional (r : Reading) (argument : String) : Outcome :=
  match r.options.input with
  | none => .ok { r with options := { r.options with input := some argument } }
  | some _ => .error .misuse

def setTokensOnly (r : Reading) : Reading :=
  { r with
    options := { r.options with tokensOnly := true }
    misused := r.misused || r.options.tokensOnly }

def setAddresses (r : Reading) : Reading :=
  { r with
    options := { r.options with addresses := true }
    misused := r.misused || r.options.addresses }

def setVerbose (r : Reading) : Reading :=
  { r with options := { r.options with verbosity := r.options.verbosity + 1 } }

/-- The value that is written behind the letter of its option, maybe after equals signs. -/
def attach (r : Reading) (option : Valued) (rest : List Char) : Reading :=
  if rest.isEmpty then { r with waiting := some option }
  else r.setValue option (String.ofList (rest.dropWhile (· == '=')))

/-- The letters behind one hyphen. -/
def short (r : Reading) : List Char → Outcome
  | [] => .ok r
  | c :: rest =>
    match c with
    | 'v' => r.setVerbose.short rest
    | 'e' => r.setTokensOnly.short rest
    | 'd' => r.setAddresses.short rest
    | 'l' => .ok (r.attach .lexicon rest)
    | 'g' => .ok (r.attach .grammar rest)
    | 'V' => .error .version
    | 'h' => .error .help
    | _ => .error .misuse

/-- The name behind two hyphens or more, and a value behind an equals sign. -/
def long (r : Reading) (body : List Char) : Outcome :=
  let body := body.dropWhile (· == '-')
  let name := String.ofList (body.takeWhile (· != '='))
  let value := body.dropWhile (· != '=')
  let valued (option : Valued) : Reading := r.attach option value
  match name with
  | "lexicon" => .ok (valued .lexicon)
  | "grammar" => .ok (valued .grammar)
  | "version" => .error .version
  | "help" => .error .help
  | _ => .error .misuse

def argument (r : Reading) (text : String) : Outcome :=
  if r.positionalOnly then r.positional text
  else
    match text.toList with
    | ['-', '-'] => .ok { r.settle with positionalOnly := true }
    | '-' :: '-' :: body => r.settle.long body
    | '-' :: c :: rest => r.settle.short (c :: rest)
    | _ =>
      match r.waiting with
      | some option => .ok (r.setValue option text)
      | none => r.positional text

/-- Reads arguments from left to right; some of them end the reading at once. -/
def arguments (r : Reading) : List String → Invocation
  | [] =>
    if r.misused || r.waiting.isSome || r.options.input.isNone then .misuse else .run r.options
  | text :: rest =>
    match r.argument text with
    | .error i => i
    | .ok r => r.arguments rest

end Reading

def Invocation.ofArguments (arguments : List String) : Invocation :=
  Reading.initial.arguments arguments

/-- The files that a run may read: its input, and the descriptions of its language. -/
def Options.paths (o : Options) (env : Environment) : List String :=
  let config := Config.resolve env o.lexicon o.grammar
  o.input.toList ++ [config.lexicon, config.grammar].filterMap fun
    | .builtin => Option.none
    | .file path => some path

/-- What a run leaves behind. -/
structure Output where
  status : Nat
  stdout : String
  journal : Journal
deriving DecidableEq, Repr

/-- The least important level that is shown. -/
def shownLevel (verbosity : Nat) : Level :=
  match verbosity with
  | 0 => .error
  | 1 => .warn
  | 2 => .info
  | _ => .debug

def argumentsRecord (o : Options) : Record :=
  ⟨.commandLine, .debug,
    "Arguments:\n\tVerbosity: " ++ (shownLevel o.verbosity).label ++
    "\n\tTokens Only: " ++ toString o.tokensOnly ++
    "\n\tLexicon: " ++ o.lexicon.getD "default" ++
    "\n\tGrammar: " ++ o.grammar.getD "default" ++
    "\n\tInfile: " ++ o.input.getD "None"⟩

/-- An address in hexadecimal with at least four digits. -/
def address (index : Nat) : String :=
  let digits := (Nat.toDigits 16 index).map Char.toUpper
  "0x" ++ String.ofList (List.replicate (4 - digits.length) '0' ++ digits) ++ ":"

def tokenRow (t : Token) : List String := [t.position.render, t.kind, quoted t.lexeme]

def tokenGrid (tokens : List Token) : String := Grid.render 3 (tokens.map tokenRow) ++ "\n"

def addressRow (i : Instruction × Nat) : List String := [address i.2, i.1.render]

def addressGrid (p : Program) : String := Grid.render 2 (p.zipIdx.map addressRow) ++ "\n"

def listing (p : Program) : String := String.join (p.map fun i => i.render ++ "\n")

/-- The work of a run: its text, or the error that ends it, and its journal up to there. -/
def work (files : Files) (env : Environment) (o : Options) (input : String) :
    Except Error String × Journal :=
  match files input with
  | .error e => (.error (.resource e), [])
  | .ok source =>
    let config := Config.resolve env o.lexicon o.grammar
    let loading := Journal.ofLoad files config
    match FrontEnd.load files config with
    | .error e => (.error e, loading)
    | .ok f =>
      if o.tokensOnly then ((f.tokenize source).map tokenGrid, loading)
      else
        let reading := loading ++ Journal.ofProgram f source
        match f.readProgram source with
        | .error e => (.error e, reading)
        | .ok p =>
          (.ok (if o.addresses then addressGrid p else listing p),
            reading ++ [⟨.commandLine, .info,
              "read " ++ toString p.length ++ " instructions from `" ++ input ++ "`"⟩])

/-- Runs with options; an error ends the run with the status of its kind. -/
def run (files : Files) (env : Environment) (o : Options) (input : String) : Output :=
  let (result, journal) := work files env o input
  let shown (j : Journal) : Journal :=
    j.filter fun r => r.level.rank ≤ (shownLevel o.verbosity).rank
  let journal := argumentsRecord o :: journal
  match result with
  | .ok text => ⟨0, text, shown journal⟩
  | .error e =>
    ⟨e.exitCode, "", shown (journal ++ [⟨.commandLine, .error, "fatal: " ++ e.message⟩])⟩

def versionText : String := "qes 0.1.0\n"

def usageText : String :=
  "usage: qes [-v]... [-e] [-d] [-l FILE] [-g FILE] INPUT\n"

/-- The status of a run whose arguments make no sense. -/
def misuseStatus : Nat := 1

def invoke (files : Files) (env : Environment) (arguments : List String) : Output :=
  match Invocation.ofArguments arguments with
  | .run o => run files env o (o.input.getD "")
  | .version => ⟨0, versionText, []⟩
  | .help => ⟨0, usageText, []⟩
  | .misuse => ⟨misuseStatus, "", []⟩

end TableAsm.CommandLine
