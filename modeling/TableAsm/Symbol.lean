/-!
Reserved names among grammar symbols and token kinds. Kinds are open-ended: a lexicon declares
them and a grammar refers to them by name, in one space with these.
-/
namespace TableAsm.Symbol

/-- Stands for an empty right-hand side. -/
def empty : String := "EMPTY"

/-- The kind of the mark that ends every token list. -/
def endOfInput : String := "$"

/-- No symbol has been given yet. -/
def undefined : String := "UNDEFINED"

/-- Where parsing begins. -/
def start : String := "start"

/-- The node that owns a whole derivation. -/
def root : String := "<root>"

/-- The kind of the keyword with a given name. -/
def keyword (name : String) : String := "KW_" ++ name

end TableAsm.Symbol
