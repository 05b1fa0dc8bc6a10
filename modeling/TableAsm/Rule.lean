import TableAsm.Symbol

/-!
Productions. A rule that derives nothing is held with the single symbol `Symbol.empty` on its
right-hand side.
-/
namespace TableAsm

structure Rule where
  lhs : String
  rhs : List String
deriving DecidableEq, Repr, Inhabited

namespace Rule

/-- A rule from its two sides; an empty right-hand side becomes the empty symbol. -/
def make (lhs : String) (rhs : List String) : Rule :=
  ⟨lhs, if rhs.isEmpty then [Symbol.empty] else rhs⟩

/-- Whether the left-hand side can name a nonterminal, which no reserved name can, and the
right-hand side holds something. -/
def isValid (r : Rule) : Bool :=
  r.lhs != "" && r.lhs != Symbol.undefined && r.lhs != Symbol.empty &&
    r.lhs != Symbol.endOfInput && !r.rhs.isEmpty

/-- Whether the right-hand side is the empty symbol alone. -/
def isEmpty (r : Rule) : Bool := r.rhs == [Symbol.empty]

def render (r : Rule) : String := r.lhs ++ " ->" ++ String.join (r.rhs.map (" " ++ ·))

end Rule

end TableAsm
