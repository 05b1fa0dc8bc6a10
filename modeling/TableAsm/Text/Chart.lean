import TableAsm.Text.CharSet

/-!
Charts: sets of code points written as text. The rows of a chart are lists of entries with blanks
between them; an entry is one hexadecimal code point, or two with a hyphen between them for a
span.
-/
namespace TableAsm

namespace Chart

/-- The value of a hexadecimal digit; of any other character, nothing. -/
def hexDigit? (c : Char) : Option Nat :=
  if '0' ≤ c ∧ c ≤ '9' then some (c.toNat - '0'.toNat)
  else if 'a' ≤ c ∧ c ≤ 'f' then some (c.toNat - 'a'.toNat + 10)
  else if 'A' ≤ c ∧ c ≤ 'F' then some (c.toNat - 'A'.toNat + 10)
  else none

/-- Groups of hexadecimal numbers, with blanks between groups and any other separator inside
them. `group` holds the numbers read of the current group, last first. -/
def readGroups (number : Nat) (group : List Nat) : List Char → List (List Nat)
  | [] => [(number :: group).reverse]
  | c :: cs =>
    match hexDigit? c with
    | some d => readGroups (number * 16 + d) group cs
    | none =>
      if c = ' ' then (number :: group).reverse :: readGroups 0 [] cs
      else readGroups 0 (number :: group) cs

def groups (rows : List String) : List (List Nat) := rows.flatMap (readGroups 0 [] ·.toList)

/-- The span that a group of one or two numbers stands for. -/
def span? : List Nat → Option Span
  | [n] => some ⟨n, n⟩
  | [first, last] => some ⟨first, last⟩
  | _ => none

end Chart

namespace CharSet

def ofChart (rows : List String) : CharSet := ⟨(Chart.groups rows).filterMap Chart.span?⟩

def unions (sets : List CharSet) : CharSet := sets.foldr union empty

end CharSet

/-- A set of characters with the names it goes by. -/
structure NamedSet where
  names : List String
  members : CharSet

end TableAsm
