import TableAsm.Grammar.Sets

/-!
Parse tables. A cell says which rule expands a nonterminal when a given symbol comes next, by the
place of the rule in the list. A rule claims the symbols it may begin with and, if it can derive
nothing, those that may follow its left-hand side. Two rules that claim one cell make the table
impossible.
-/
namespace TableAsm

structure Cell where
  nonterminal : String
  lookahead : String
  /-- The place of the rule in the list. -/
  index : Nat
deriving DecidableEq, Repr

abbrev Table := List Cell

/-- Two rules both apply to a nonterminal when a symbol comes next. -/
structure Conflict where
  earlier : Rule
  later : Rule
  lookahead : String
deriving DecidableEq, Repr

namespace Table

def indexFor (t : Table) (nonterminal lookahead : String) : Option Nat :=
  (t.find? fun c => c.nonterminal == nonterminal && c.lookahead == lookahead).map (·.index)

/-- Claims cells for the rule at a place, one lookahead after the other. -/
def claim (rules : List Rule) (rule : Rule) (index : Nat) (t : Table) :
    List String → Except Conflict Table
  | [] => .ok t
  | lookahead :: rest =>
    match t.indexFor rule.lhs lookahead with
    | some other =>
      if other = index then claim rules rule index t rest
      else .error ⟨rules.getD other rule, rule, lookahead⟩
    | none => claim rules rule index (⟨rule.lhs, lookahead, index⟩ :: t) rest

/-- The symbols on which a rule applies. -/
def lookaheads (nonterminals : NameSet) (sets : Sets) (rule : Rule) : NameSet :=
  let first := firstOfSequence nonterminals sets.first rule.rhs
  let visible := first.filter (· != Symbol.empty)
  if Symbol.empty ∈ first then visible.union (sets.follow.row rule.lhs) else visible

/-- Claims the cells of all rules in order. -/
def build (nonterminals : NameSet) (sets : Sets) (rules : List Rule) : Except Conflict Table :=
  rules.zipIdx.foldlM
    (fun t (r, i) => claim rules r i t (lookaheads nonterminals sets r).toList) []

end Table

end TableAsm
