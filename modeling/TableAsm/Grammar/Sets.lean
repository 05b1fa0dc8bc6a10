import TableAsm.Names.Set
import TableAsm.Names.Map
import TableAsm.Rule

/-!
FIRST and FOLLOW sets of a list of rules. A symbol is a nonterminal if it is one of a given set
of names; all others are terminals. Both families of sets grow from nothing in passes over the
rules, each of which uses at once what it has added, until a pass adds nothing.
-/
namespace TableAsm

/-- A set of symbols for each name; a name without a row has the empty set. -/
abbrev SetFamily := NameMap NameSet

namespace SetFamily

def row (f : SetFamily) (name : String) : NameSet := (f.get? name).getD ∅

/-- Adds symbols to the set of a name. -/
def add (f : SetFamily) (name : String) (symbols : NameSet) : SetFamily :=
  f.insert name ((f.row name).union symbols)

/-- How many symbols the sets hold, all together. -/
def total (f : SetFamily) : Nat := (f.values.map NameSet.size).foldr (· + ·) 0

/-- Repeats a pass until it adds nothing, and counts the passes. -/
def saturate (pass : SetFamily → SetFamily) : Nat → SetFamily → SetFamily × Nat
  | 0, f => (f, 0)
  | fuel + 1, f =>
    let g := pass f
    if g.total = f.total then (g, 1)
    else
      let (result, passes) := saturate pass fuel g
      (result, passes + 1)

end SetFamily

/-- FIRST of one symbol; a terminal begins with itself. -/
def firstOf (nonterminals : NameSet) (first : SetFamily) (symbol : String) : NameSet :=
  if symbol ∈ nonterminals then first.row symbol else .singleton symbol

/-- FIRST of a sequence. The empty symbol is in it when every symbol can derive nothing. -/
def firstOfSequence (nonterminals : NameSet) (first : SetFamily) : List String → NameSet
  | [] => .singleton Symbol.empty
  | symbol :: rest =>
    let f := firstOf nonterminals first symbol
    if Symbol.empty ∈ f then
      (f.filter (· != Symbol.empty)).union (firstOfSequence nonterminals first rest)
    else f

/-- One pass for FIRST: each rule adds what its right-hand side begins with. -/
def firstPass (nonterminals : NameSet) (rules : List Rule) (first : SetFamily) : SetFamily :=
  rules.foldl (fun f r => f.add r.lhs (firstOfSequence nonterminals f r.rhs)) first

/-- What may follow a symbol of a rule, given the symbols behind it: what they begin with, and
what follows the left-hand side if they can derive nothing. -/
def followAdditions (nonterminals : NameSet) (first follow : SetFamily) (lhs : String)
    (behind : List String) : NameSet :=
  let f := firstOfSequence nonterminals first behind
  let visible := f.filter (· != Symbol.empty)
  if Symbol.empty ∈ f then visible.union (follow.row lhs) else visible

/-- Adds what may follow each nonterminal of a right-hand side. -/
def followAlong (nonterminals : NameSet) (first : SetFamily) (lhs : String) (follow : SetFamily) :
    List String → SetFamily
  | [] => follow
  | symbol :: behind =>
    let grown :=
      if symbol ∈ nonterminals then
        follow.add symbol (followAdditions nonterminals first follow lhs behind)
      else follow
    followAlong nonterminals first lhs grown behind

/-- One pass for FOLLOW. -/
def followPass (nonterminals : NameSet) (first : SetFamily) (rules : List Rule)
    (follow : SetFamily) : SetFamily :=
  rules.foldl (fun f r => followAlong nonterminals first r.lhs f r.rhs) follow

/-- No family over these rules holds more symbols. -/
def growthBound (rules : List Rule) : Nat :=
  (rules.length + 1) * ((rules.map (·.rhs.length)).foldr (· + ·) 0 + 2)

/-- FIRST and FOLLOW of a list of rules, with the number of passes that each took. -/
structure Sets where
  first : SetFamily
  follow : SetFamily
  firstPasses : Nat
  followPasses : Nat
deriving DecidableEq

namespace Sets

def none : Sets := ⟨∅, ∅, 0, 0⟩

/-- The end of input follows the start symbol; all else comes from the rules. -/
def ofRules (nonterminals : NameSet) (rules : List Rule) : Sets :=
  let fuel := growthBound rules + 1
  let (first, firstPasses) := SetFamily.saturate (firstPass nonterminals rules) fuel ∅
  let seed := SetFamily.add ∅ Symbol.start (.singleton Symbol.endOfInput)
  let (follow, followPasses) :=
    SetFamily.saturate (followPass nonterminals first rules) fuel seed
  ⟨first, follow, firstPasses, followPasses⟩

end Sets

end TableAsm
