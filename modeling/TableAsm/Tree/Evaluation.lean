import TableAsm.Tree.Basic

/-!
Bottom-up evaluation. Every node is visited once, after all of its children, and of two sibling
subtrees the right one is finished first. A node becomes eligible when no child of it is left to
visit; the eligible nodes form a stack that starts with all leaves, the rightmost on top.
-/
namespace TableAsm.Tree

/-- An evaluation at work: the number of unvisited children of each node, and the eligible
nodes, next first. -/
structure Agenda where
  remaining : Array Nat
  eligible : List NodeId

namespace Agenda

def initial (t : Tree) : Agenda := ⟨t.nodes.map (·.children.length), t.leaves.reverse⟩

/-- What is left to do after a node with the given parent has been visited. -/
def finish (parent : Option NodeId) (rest : List NodeId) (remaining : Array Nat) : Agenda :=
  match parent with
  | none => ⟨remaining, rest⟩
  | some p =>
    let left := remaining[p]?.getD 0 - 1
    let remaining := remaining.modify p fun _ => left
    ⟨remaining, if left = 0 then p :: rest else rest⟩

end Agenda

/-- Visits eligible nodes until none is left or an action fails; `fuel` bounds the visits. -/
def visitEligible {σ ε : Type} (t : Tree) (action : σ → NodeId → Except ε σ) :
    Nat → Agenda → σ → Except ε σ
  | 0, _, s => .ok s
  | fuel + 1, ⟨remaining, eligible⟩, s =>
    match eligible with
    | [] => .ok s
    | id :: rest =>
      match action s id with
      | .error e => .error e
      | .ok s => t.visitEligible action fuel (.finish (t.parent id) rest remaining) s

/-- Runs an action on every node, children first and right before left, and stops at the first
failure. -/
def evaluateBottomUp {σ ε : Type} (t : Tree) (action : σ → NodeId → Except ε σ) (s : σ) :
    Except ε σ :=
  t.visitEligible action t.size (.initial t) s

end TableAsm.Tree
