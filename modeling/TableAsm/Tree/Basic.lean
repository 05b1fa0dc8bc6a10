import TableAsm.Grammar.Parse

/-!
Parse trees as they are built from the events of a parse. Nodes are numbered in the order in
which they come into being; node 0 owns the whole derivation. A node keeps its number, symbol
and parent for good. Leaves that still wait for a rule or a token are open.
-/
namespace TableAsm

abbrev NodeId := Nat

structure Node where
  symbol : String
  /-- The text of the token that filled a leaf. -/
  raw : Option String
  position : Option Position
  parent : Option NodeId
  children : List NodeId
deriving DecidableEq, Repr, Inhabited

structure Tree where
  nodes : Array Node
  /-- The open leaves from left to right. -/
  openLeaves : List NodeId
deriving Repr

namespace Tree

/-- The node that owns the whole derivation. -/
def root : NodeId := 0

/-- The tree of the root alone. -/
def new : Tree := ⟨#[⟨Symbol.root, none, none, none, []⟩], []⟩

def size (t : Tree) : Nat := t.nodes.size

/-- Whether nothing hangs off the root yet. -/
def isEmpty (t : Tree) : Bool := decide (t.size ≤ 1)

def ids (t : Tree) : List NodeId := List.range t.size

def symbol (t : Tree) (id : NodeId) : String := (t.nodes[id]?.map (·.symbol)).getD ""
def raw (t : Tree) (id : NodeId) : Option String := t.nodes[id]?.bind (·.raw)
def position (t : Tree) (id : NodeId) : Option Position := t.nodes[id]?.bind (·.position)
def parent (t : Tree) (id : NodeId) : Option NodeId := t.nodes[id]?.bind (·.parent)
def children (t : Tree) (id : NodeId) : List NodeId := (t.nodes[id]?.map (·.children)).getD []

/-- Adds a childless node below a parent, as its last child. -/
def addChild (t : Tree) (parent : NodeId) (symbol : String) : Tree :=
  let id := t.size
  { t with
    nodes := (t.nodes.modify parent fun n => { n with children := n.children ++ [id] }).push
      ⟨symbol, none, none, some parent, []⟩ }

/-- Adds children for the symbols of a right-hand side, and gives the numbers of those that are
open. The empty symbol waits for nothing. -/
def addChildren (t : Tree) (parent : NodeId) : List String → Tree × List NodeId
  | [] => (t, [])
  | symbol :: rest =>
    let id := t.size
    let (grown, fresh) := (t.addChild parent symbol).addChildren parent rest
    (grown, if symbol = Symbol.empty then fresh else id :: fresh)

/-- Splits a list of leaves around the first with a symbol. -/
def splitAtSymbol (t : Tree) (symbol : String) :
    List NodeId → Option (List NodeId × NodeId × List NodeId)
  | [] => none
  | id :: rest =>
    if t.symbol id = symbol then some ([], id, rest)
    else (t.splitAtSymbol symbol rest).map fun (before, found, after) =>
      (id :: before, found, after)

/-- Expands the leftmost open leaf with the rule's left-hand side. If there is none, a new node
below the root is expanded, and what it opens lies right of all that is open. -/
def receiveRule (t : Tree) (rule : Rule) : Tree :=
  match t.splitAtSymbol rule.lhs t.openLeaves with
  | some (before, branch, after) =>
    let (grown, fresh) := t.addChildren branch rule.rhs
    { grown with openLeaves := before ++ fresh ++ after }
  | none =>
    let branch := t.size
    let (grown, fresh) := (t.addChild root rule.lhs).addChildren branch rule.rhs
    { grown with openLeaves := t.openLeaves ++ fresh }

/-- Fills the leftmost open leaf of the token's kind. If there is none, the tree stays. -/
def receiveToken (t : Tree) (token : Token) : Tree :=
  match t.splitAtSymbol token.kind t.openLeaves with
  | some (before, leaf, after) =>
    { nodes := t.nodes.modify leaf fun n =>
        { n with raw := some token.lexeme, position := some token.position }
      openLeaves := before ++ after }
  | none => t

def receive (t : Tree) : ParseEvent → Tree
  | .expand rule => t.receiveRule rule
  | .accept token => t.receiveToken token

def ofEvents (events : List ParseEvent) : Tree := events.foldl receive new

/-- The childless nodes below a list of nodes, from left to right. `fuel` bounds the number of
nodes passed. -/
def leavesBelow (t : Tree) : Nat → List NodeId → List NodeId
  | 0, _ => []
  | _, [] => []
  | fuel + 1, id :: rest =>
    match t.children id with
    | [] => id :: t.leavesBelow fuel rest
    | children => t.leavesBelow fuel (children ++ rest)

/-- The childless nodes from left to right. -/
def leaves (t : Tree) : List NodeId := t.leavesBelow t.size [root]

/-- The texts of the filled leaves from left to right. -/
def frontier (t : Tree) : List String := t.leaves.filterMap t.raw

/-- The number of edges up to the root, counted up to `fuel`. -/
def depthWithin (t : Tree) : Nat → NodeId → Nat
  | 0, _ => 0
  | fuel + 1, id =>
    match t.parent id with
    | some p => t.depthWithin fuel p + 1
    | none => 0

def depth (t : Tree) (id : NodeId) : Nat := t.depthWithin t.size id

end Tree

end TableAsm
