import TableAsm.Grammar.Table

/-!
Grammars: rules with the sets and the parse table computed from them. A rule can be added to a
grammar; when that fails the grammar goes on with the new rule and with those of its parts that
were still computed.
-/
namespace TableAsm

structure Grammar where
  rules : List Rule
  nonterminals : NameSet
  sets : Sets
  table : Table
deriving DecidableEq

/-- Why a list of rules makes no grammar. -/
inductive RuleSetError where
  | invalidRule (rule : Rule)
  | noStart
  | conflict (c : Conflict)
deriving DecidableEq, Repr

def RuleSetError.message : RuleSetError → String
  | .invalidRule rule => "invalid rule `" ++ rule.render ++ "`"
  | .noStart => "no rule for the start symbol `" ++ Symbol.start ++ "`"
  | .conflict c =>
    "not LL(1): `" ++ c.earlier.render ++ "` and `" ++ c.later.render ++ "` both apply on `" ++
      c.lookahead ++ "`"

namespace Grammar

def isNonterminal (g : Grammar) (symbol : String) : Bool := decide (symbol ∈ g.nonterminals)

def first (g : Grammar) (symbol : String) : NameSet := firstOf g.nonterminals g.sets.first symbol

def firstOfSequence (g : Grammar) (symbols : List String) : NameSet :=
  TableAsm.firstOfSequence g.nonterminals g.sets.first symbols

def follow (g : Grammar) (symbol : String) : NameSet := g.sets.follow.row symbol

/-- The rule that expands a nonterminal when a symbol comes next. -/
def ruleFor (g : Grammar) (nonterminal lookahead : String) : Option Rule :=
  (g.table.indexFor nonterminal lookahead).bind (g.rules[·]?)

/-- Computes the sets anew for the rules and nonterminals as they are. -/
def recompute (g : Grammar) : Grammar := { g with sets := .ofRules g.nonterminals g.rules }

/-- Computes everything anew for the rules as they are. An invalid rule leaves all as it was, a
missing start symbol leaves the sets, and a conflict leaves the table. -/
def rebuild (g : Grammar) : Grammar × Option RuleSetError :=
  match g.rules.find? (!·.isValid) with
  | some rule => (g, some (.invalidRule rule))
  | none =>
    let named := { g with nonterminals := .ofList (g.rules.map (·.lhs)) }
    if Symbol.start ∈ named.nonterminals then
      let ready := named.recompute
      match Table.build ready.nonterminals ready.sets ready.rules with
      | .ok table => ({ ready with table }, none)
      | .error c => (ready, some (.conflict c))
    else (named, some .noStart)

/-- A grammar that has rules and nothing computed from them yet. -/
def unbuilt (rules : List Rule) : Grammar := ⟨rules, ∅, .none, []⟩

def ofRules (rules : List Rule) : Except RuleSetError Grammar :=
  match (unbuilt rules).rebuild with
  | (g, none) => .ok g
  | (_, some e) => .error e

/-- Adds a rule. The rule stays when that fails. -/
def addRule (g : Grammar) (rule : Rule) : Grammar × Option RuleSetError :=
  { g with rules := g.rules ++ [rule] }.rebuild

end Grammar

end TableAsm
