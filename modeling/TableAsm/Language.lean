/-!
The language that ships with the assembler: a program is a list of instructions with modifiers
and labels, and blocks of them can be repeated.
-/
namespace TableAsm.Language

/-- Lines as a text, each with a line feed at its end. -/
def joinLines (lines : List String) : String := String.join (lines.map (· ++ "\n"))

def lexiconLines : List String :=
  [ "*repeat",
    "*annotation",
    "*property",
    "LABEL       [A-Za-z_][A-Za-z0-9_]*:",
    "IDENTIFIER  [A-Za-z_][A-Za-z0-9_]*",
    "F_LITERAL   [0-9]+\\.[0-9]*",
    "I_LITERAL   [0-9]+",
    "S_LITERAL   \"[^\"\\n]*\"?",
    ",",
    ";",
    "@",
    "(",
    ")",
    "\x7b",
    "\x7d",
    "^WHITESPACE \\s+",
    "^COMMENT    #[^\\n]*" ]

def grammarLines : List String :=
  [ "# Productions of the qes instruction language. Quoted symbols are",
    "# literal terminals, KW_ symbols are keywords from qes.lexicon.",
    "",
    "start           = line \";\" start",
    "                | KW_repeat \"(\" I_LITERAL \")\" \"\x7b\" start \"\x7d\" start",
    "                | ;",
    "",
    "line            = \"@\" modifier line",
    "                | LABEL line",
    "                | instruction ;",
    "",
    "instruction     = IDENTIFIER operands ;",
    "",
    "operands        = anyval more_operands",
    "                | ;",
    "",
    "more_operands   = \",\" anyval more_operands",
    "                | ;",
    "",
    "modifier        = KW_annotation IDENTIFIER",
    "                | KW_property IDENTIFIER anyval ;",
    "",
    "anyval          = IDENTIFIER",
    "                | I_LITERAL",
    "                | F_LITERAL",
    "                | S_LITERAL ;" ]

/-- The token kinds of the language. -/
def lexiconText : String := joinLines lexiconLines

/-- The productions of the language. -/
def grammarText : String := joinLines grammarLines

end TableAsm.Language
