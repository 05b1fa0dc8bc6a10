import TableAsm.Pattern.Basic

/-!
Putting patterns together in one form only. Sequences and choices lean to the right and hold none
of their own kind on the left, texts side by side are one text, a choice among single characters
is a set, and what all branches of a choice begin with stands in front of it.
-/
namespace TableAsm.Pattern

/-- The parts of a sequence. -/
def items : Pattern → List Pattern
  | empty => []
  | seq p q => p :: q.items
  | p => [p]

/-- The branches of a choice. -/
def branches : Pattern → List Pattern
  | alt p q => p :: q.branches
  | p => [p]

/-- Puts a part in front of others, as one text if it and the first of them are texts. -/
def join (p : Pattern) (ps : List Pattern) : List Pattern :=
  match p, ps with
  | text a, text b :: rest => text (a ++ b) :: rest
  | p, ps => p :: ps

/-- A sequence of parts as they stand. -/
def chain : List Pattern → Pattern
  | [] => empty
  | [p] => p
  | p :: ps => seq p (chain ps)

def sequence (ps : List Pattern) : Pattern := chain ((ps.flatMap items).foldr join [])

/-- One character of a set; of a set of one character, that text. -/
def oneOf (set : CharSet) : Pattern :=
  let set := set.merge
  match set.spans with
  | [r] => if r.first = r.last then text [Char.ofNat r.first] else chars set
  | _ => chars set

/-- The character that a pattern stands for, if it is a text of one. -/
def singleton? : Pattern → Option Char
  | text [c] => some c
  | _ => none

def set? : Pattern → Option CharSet
  | chars s => some s
  | _ => none

/-- A choice of branches as they stand; of none, a pattern that matches nothing. -/
def alternatives : List Pattern → Pattern
  | [] => chars .empty
  | [p] => p
  | p :: ps => alt p (alternatives ps)

/-- A choice of branches; as a set, if they are single characters or sets of them. -/
def merged (ps : List Pattern) : Pattern :=
  match ps with
  | [] | [_] => alternatives ps
  | _ =>
    match ps.mapM singleton? with
    | some cs => oneOf (.ofList cs)
    | none =>
      match ps.mapM set? with
      | some sets => oneOf (.unions sets)
      | none => alternatives ps

def commonFront : List Pattern → List Pattern → List Pattern
  | p :: ps, q :: qs => if p = q then p :: commonFront ps qs else []
  | _, _ => []

/-- The parts that several branches all begin with. Only sequences share parts. -/
def sharedFront : List (List Pattern) → List Pattern
  | [] | [_] => []
  | parts :: rest =>
    if (parts :: rest).all (2 ≤ ·.length) then rest.foldl commonFront parts else []

/-- One of several patterns. -/
def choice (ps : List Pattern) : Pattern :=
  let ps := ps.flatMap branches
  let parts := ps.map items
  let front := sharedFront parts
  if front.isEmpty then merged ps
  else
    let rests := parts.map fun part => sequence (part.drop front.length)
    sequence (front ++ [merged (rests.flatMap branches)])

/-- A pattern repeated. What matches only the empty text need not do so twice. -/
def repeated (p : Pattern) (least : Nat) (most : Option Nat) : Pattern :=
  let (least, most) :=
    if p.isVoid then (min least 1, some (min (most.getD 1) 1)) else (least, most)
  if most = some 0 then empty
  else if least = 1 && most = some 1 then p
  else times least most p

end TableAsm.Pattern
