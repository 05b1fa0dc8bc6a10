import TableAsm.Proofs.Tree.Shape

/-! How a tree grows. Expanding an open leaf touches that leaf and adds nodes behind the old ones;
filling one touches it only. Both act on the first open leaf as long as its symbol is the one asked
for. -/
namespace TableAsm.Tree

/-- The open leaves among fresh nodes for the symbols of a right-hand side. -/
@[simp] def waitingOf : List NodeId → List String → List NodeId
  | id :: ids, s :: w => if s = Symbol.empty then waitingOf ids w else id :: waitingOf ids w
  | _, _ => []

theorem waitingOf_sublist (ids : List NodeId) (w : List String) :
    (waitingOf ids w).Sublist ids := by
  induction ids generalizing w with
  | nil => cases w <;> exact List.Sublist.refl []
  | cons id ids ih =>
    cases w with
    | nil => exact List.nil_sublist _
    | cons s w =>
      rw [waitingOf]
      split
      · exact (ih w).cons id
      · exact (ih w).cons_cons id

/-- Nodes that nothing has happened to since they were put below a parent for some symbols. -/
def Fresh (t : Tree) (parent : NodeId) (ids : List NodeId) (w : List String) : Prop :=
  List.Forall₂ (fun id s => t.nodes[id]? = some ⟨s, none, none, some parent, []⟩) ids w

theorem Fresh.exists_node {t : Tree} {parent : NodeId} {ids : List NodeId} {w : List String}
    (fresh : t.Fresh parent ids w) {id : Nat} (mem : id ∈ ids) :
    ∃ s, t.nodes[id]? = some ⟨s, none, none, some parent, []⟩ := by
  induction fresh with
  | nil => cases mem
  | cons node _ ih =>
    rcases List.mem_cons.mp mem with rfl | mem
    · exact ⟨_, node⟩
    · exact ih mem

section Children

variable (t : Tree) (parent : Nat)

theorem size_addChild (s : String) : (t.addChild parent s).size = t.size + 1 := by
  simp [addChild, size]

theorem node_addChild (s : String) {n : Nat} (lt : n < t.size) :
    (t.addChild parent s).nodes[n]? = if parent = n then
      t.nodes[n]?.map fun x => { x with children := x.children ++ [t.size] } else t.nodes[n]? := by
  simp only [addChild]
  have other : n ≠ t.nodes.size := Nat.ne_of_lt lt
  rw [Array.getElem?_push, Array.size_modify, if_neg other, Array.getElem?_modify]

theorem node_addChild_new (s : String) :
    (t.addChild parent s).nodes[t.size]? = some ⟨s, none, none, some parent, []⟩ := by
  simp only [addChild]
  rw [Array.getElem?_push, Array.size_modify]
  exact if_pos rfl

theorem size_addChildren (w : List String) :
    (t.addChildren parent w).1.size = t.size + w.length := by
  induction w generalizing t with
  | nil => rfl
  | cons s w ih =>
    rw [addChildren, ih, size_addChild, List.length_cons]
    omega

theorem node_addChildren (w : List String) {n : Nat} (lt : n < t.size) :
    (t.addChildren parent w).1.nodes[n]? = if parent = n then
      t.nodes[n]?.map fun x => { x with children := x.children ++ List.range' t.size w.length }
      else t.nodes[n]? := by
  induction w generalizing t with
  | nil =>
    rw [addChildren]
    split
    · simp
    · rfl
  | cons s w ih =>
    have later : n < (t.addChild parent s).size := by rw [size_addChild]; omega
    rw [addChildren, ih _ later, node_addChild t parent s lt, size_addChild]
    split
    · rw [Option.map_map, List.length_cons, List.range'_succ]
      congr 1
      funext x
      simp
    · rfl

theorem fresh_addChildren (w : List String) (inside : parent < t.size) :
    (t.addChildren parent w).1.Fresh parent (List.range' t.size w.length) w ∧
      (t.addChildren parent w).2 = waitingOf (List.range' t.size w.length) w := by
  induction w generalizing t with
  | nil => exact ⟨List.Forall₂.nil, rfl⟩
  | cons s w ih =>
    have size := size_addChild t parent s
    obtain ⟨fresh, waiting⟩ := ih (t.addChild parent s) (by rw [size]; omega)
    rw [size] at fresh waiting
    rw [List.length_cons, List.range'_succ]
    constructor
    · refine List.Forall₂.cons ?_ fresh
      have inside : t.size < (t.addChild parent s).size := by rw [size]; omega
      have other : parent ≠ t.size := by omega
      have old := node_addChildren (t.addChild parent s) parent w inside
      rw [if_neg other, node_addChild_new] at old
      exact old
    · rw [waitingOf, ← waiting]
      rfl

/-- What children are added does not depend on what is open. -/
theorem addChildren_congr {t u : Tree} (same : t.nodes = u.nodes) (parent : Nat)
    (w : List String) :
    (t.addChildren parent w).1.nodes = (u.addChildren parent w).1.nodes ∧
      (t.addChildren parent w).2 = (u.addChildren parent w).2 := by
  induction w generalizing t u with
  | nil => exact ⟨same, rfl⟩
  | cons s w ih =>
    have child : (t.addChild parent s).nodes = (u.addChild parent s).nodes := by
      simp only [addChild, size, same]
    obtain ⟨grown, fresh⟩ := ih child
    have next : t.size = u.size := congrArg Array.size same
    simp only [addChildren, fresh, next]
    exact ⟨grown, trivial⟩

end Children

/-- Expands a leaf that the given open leaves lie right of. -/
def expandLeaf (t : Tree) (leaf : NodeId) (right : List NodeId) (rule : Rule) : Tree :=
  let (grown, fresh) := t.addChildren leaf rule.rhs
  { grown with openLeaves := fresh ++ right }

/-- Fills a leaf that the given open leaves lie right of. -/
def fillLeaf (t : Tree) (leaf : NodeId) (right : List NodeId) (token : Token) : Tree :=
  { nodes := t.nodes.modify leaf fun n =>
      { n with raw := some token.lexeme, position := some token.position }
    openLeaves := right }

section Receiving

variable {t : Tree} {leaf : Nat} {right : List NodeId}

theorem splitAtSymbol_first (t : Tree) (leaf : NodeId) (right : List NodeId) :
    t.splitAtSymbol (t.symbol leaf) (leaf :: right) = some ([], leaf, right) := by
  rw [splitAtSymbol, if_pos rfl]

theorem receiveRule_first {rule : Rule} (first : t.openLeaves = leaf :: right)
    (symbol : t.symbol leaf = rule.lhs) : t.receiveRule rule = t.expandLeaf leaf right rule := by
  rw [receiveRule, first, ← symbol, splitAtSymbol_first]
  rfl

theorem receiveToken_first {token : Token} (first : t.openLeaves = leaf :: right)
    (symbol : t.symbol leaf = token.kind) :
    t.receiveToken token = t.fillLeaf leaf right token := by
  rw [receiveToken, first, ← symbol, splitAtSymbol_first]
  rfl

theorem size_expandLeaf (t : Tree) (leaf : Nat) (right : List NodeId) (rule : Rule) :
    (t.expandLeaf leaf right rule).size = t.size + rule.rhs.length :=
  size_addChildren t leaf rule.rhs

theorem node_expandLeaf (t : Tree) (leaf : Nat) (right : List NodeId) (rule : Rule) {n : Nat} (lt : n < t.size) :
    (t.expandLeaf leaf right rule).nodes[n]? = if leaf = n then
      t.nodes[n]?.map fun x =>
        { x with children := x.children ++ List.range' t.size rule.rhs.length }
      else t.nodes[n]? :=
  node_addChildren t leaf rule.rhs lt

theorem fresh_expandLeaf (right : List NodeId) (rule : Rule) (inside : leaf < t.size) :
    (t.expandLeaf leaf right rule).Fresh leaf (List.range' t.size rule.rhs.length) rule.rhs ∧
      (t.expandLeaf leaf right rule).openLeaves =
        waitingOf (List.range' t.size rule.rhs.length) rule.rhs ++ right := by
  obtain ⟨fresh, waiting⟩ := fresh_addChildren t leaf rule.rhs inside
  exact ⟨fresh, congrArg (· ++ right) waiting⟩

theorem size_fillLeaf (t : Tree) (leaf : Nat) (right : List NodeId) (token : Token) :
    (t.fillLeaf leaf right token).size = t.size :=
  Array.size_modify

theorem node_fillLeaf (t : Tree) (leaf : Nat) (right : List NodeId) (token : Token) (n : Nat) :
    (t.fillLeaf leaf right token).nodes[n]? = if leaf = n then
      t.nodes[n]?.map fun x =>
        { x with raw := some token.lexeme, position := some token.position }
      else t.nodes[n]? :=
  Array.getElem?_modify

end Receiving

/-- A tree with one open leaf, which hangs off the root. -/
def planted (symbol : String) : Tree := { new.addChild root symbol with openLeaves := [1] }

theorem fresh_planted (symbol : String) : (planted symbol).Fresh root [1] [symbol] :=
  List.Forall₂.cons rfl List.Forall₂.nil

/-- The first rule hangs off the root as if a leaf for it had been open there. -/
theorem receiveRule_new (rule : Rule) :
    new.receiveRule rule = (planted rule.lhs).expandLeaf 1 [] rule := by
  obtain ⟨grown, fresh⟩ := addChildren_congr (t := new.addChild root rule.lhs)
    (u := planted rule.lhs) rfl 1 rule.rhs
  show Tree.mk _ ([] ++ ((new.addChild root rule.lhs).addChildren 1 rule.rhs).2) =
    Tree.mk _ (((planted rule.lhs).addChildren 1 rule.rhs).2 ++ [])
  rw [fresh, List.append_nil]
  exact congrArg (Tree.mk · _) grown

end TableAsm.Tree
