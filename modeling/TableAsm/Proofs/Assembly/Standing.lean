import TableAsm.Proofs.Assembly.Accounting
import TableAsm.Proofs.Labels.Resolving

/-! What the actions of a subtree place. The instructions that have been numbered are those that the
payloads of its nodes hold; where all of them are held by its top, and lines stand before the blocks
behind them, they are the lines of the subtree in their order. -/
namespace TableAsm

namespace Tree

/-- What a line says: the name of its instruction, and its labels. -/
structure LineText where
  name : String
  labels : List String

/-- What the line at a node says. -/
inductive Tells (t : Tree) : NodeId → LineText → Prop where
  | instruction {id below word : NodeId} : t.child? id "instruction" 0 = some below →
      t.child? below "IDENTIFIER" 0 = some word → t.Tells id ⟨(t.raw word).getD "", []⟩
  | modified {id below : NodeId} {text : LineText} : Action.hasChild t id "instruction" = false →
      Action.hasChild t id "modifier" = true → t.child? id "line" 0 = some below →
      t.Tells below text → t.Tells id text
  | labelled {id label below : NodeId} {text : LineText} :
      Action.hasChild t id "instruction" = false → Action.hasChild t id "modifier" = false →
      t.child? id "LABEL" 0 = some label → t.child? id "line" 0 = some below → t.Tells below text →
      t.Tells id ⟨text.name, Action.labelName ((t.raw label).getD "") :: text.labels⟩

/-- The lines of a block that is repeated: its labels stay on the first copy. -/
def unrolledLines (lines : List LineText) : Nat → List LineText
  | 0 => []
  | further + 1 =>
    lines ++ (List.replicate further (lines.map fun text => ⟨text.name, []⟩)).flatten

/-- The lines of the block at a node, repeated as its counts say. -/
inductive Lists (t : Tree) : NodeId → List LineText → Prop where
  | line {id first rest : NodeId} {text : LineText} {behind : List LineText} :
      t.child? id "line" 0 = some first → t.child? id "start" 0 = some rest → t.Tells first text →
      t.Lists rest behind → t.Lists id (text :: behind)
  | loop {id count body rest : NodeId} {n : Int} {inside behind : List LineText} :
      Action.hasChild t id "line" = false → t.child? id "I_LITERAL" 0 = some count →
      Action.integerOf? ((t.raw count).getD "") = some n → t.child? id "start" 0 = some body →
      t.child? id "start" 1 = some rest → t.Lists body inside → t.Lists rest behind →
      t.Lists id (unrolledLines inside n.toNat ++ behind)
  | done {id : NodeId} : Action.hasChild t id "line" = false →
      Action.hasChild t id "KW_repeat" = false → t.Lists id []

/-- A line stands before the block that is put behind it. -/
def Orderly (t : Tree) : Prop :=
  ∀ id first rest, t.symbol id = "start" → t.child? id "line" 0 = some first →
    t.child? id "start" 0 = some rest →
    ∃ before between after, t.children id = before ++ first :: (between ++ rest :: after)

/-- What the payload of a node can be, where its symbol says it. -/
structure Bears (t : Tree) (id : NodeId) (p : Payload) : Prop where
  word : t.symbol id = "IDENTIFIER" → ∃ n, p = .word ((t.raw id).getD "") n
  label : t.symbol id = "LABEL" → ∃ n, p = .word (Action.labelName ((t.raw id).getD "")) n
  integer : t.symbol id = "I_LITERAL" →
    ∃ n, Action.integerOf? ((t.raw id).getD "") = some n ∧ p = .value (.int n)
  instruction : t.symbol id = "instruction" → ∃ word vs,
    t.child? id "IDENTIFIER" 0 = some word ∧ p = .instruction (.bare ((t.raw word).getD "") vs)

end Tree

namespace Assembler

variable {t : Tree} {s s' : Assembler} {id : NodeId} {below shape a b : Shape}
  {own names : List (List String)} {behind : Nat}

/-- The instructions that a subtree has placed, `behind` others before them: as many as its payloads
hold. A line has the number of one of them. Where the top holds them all, they are its lines. -/
structure Stands (t : Tree) (s : Assembler) (id : NodeId) (below : Shape)
    (own : List (List String)) (behind : Nat) : Prop where
  weight : own.length = s.weight (id :: below.preorder)
  bears : t.Bears id (s.payload id)
  number : t.symbol id = "line" → ∀ i n, s.payload id = .line i n →
    ∃ j : Nat, j < own.length ∧ n + (own.length + behind : Nat) = j
  line : s.weight below.preorder = 0 → t.Orderly → t.symbol id = "line" →
    ∀ i n, s.payload id = .line i n → ∃ text, t.Tells id text ∧ own = [text.labels] ∧
      i.name = text.name
  block : s.weight below.preorder = 0 → t.Orderly → t.symbol id = "start" →
    ∀ is, s.payload id = .block is → ∃ lines, t.Lists id lines ∧ own = lines.map (·.labels) ∧
      List.Forall₂ (fun text (i : Instruction) => i.name = text.name) lines is

/-- The instructions that a row of subtrees has placed, subtree by subtree. -/
inductive Yields (t : Tree) (s : Assembler) : Shape → List (List String) → Nat → Prop where
  | nil (behind : Nat) : Yields t s .nil [] behind
  | node {id : NodeId} {below rest : Shape} {own others : List (List String)} {behind : Nat} :
      Stands t s id below own (others.length + behind) → Yields t s rest others behind →
      Yields t s (.node id below rest) (own ++ others) behind

theorem Stands.congr (h : Stands t s id below own behind)
    (same : ∀ x ∈ id :: below.preorder, s'.payload x = s.payload x) :
    Stands t s' id below own behind := by
  have weights : ∀ nodes, nodes ⊆ id :: below.preorder → s'.weight nodes = s.weight nodes :=
    fun nodes sub => weight_congr fun x mem => by rw [same x (sub mem)]
  have top := same id List.mem_cons_self
  have inner := weights below.preorder fun x mem => List.mem_cons_of_mem _ mem
  refine ⟨?_, ?_, ?_, ?_, ?_⟩
  · rw [weights _ (List.Subset.refl _)]
    exact h.weight
  · rw [top]
    exact h.bears
  · rw [top]
    exact h.number
  · rw [top, inner]
    exact h.line
  · rw [top, inner]
    exact h.block

theorem Yields.congr (h : Yields t s shape own behind)
    (same : ∀ x ∈ shape.preorder, s'.payload x = s.payload x) :
    Yields t s' shape own behind := by
  induction h with
  | nil behind => exact .nil behind
  | node stands _ ih =>
    refine .node (stands.congr fun x mem => same x ?_) (ih fun x mem => same x ?_)
    · rcases List.mem_cons.mp mem with rfl | mem
      · exact List.mem_cons_self
      · exact List.mem_cons_of_mem _ (List.mem_append_left _ mem)
    · exact List.mem_cons_of_mem _ (List.mem_append_right _ mem)

theorem Yields.length (h : Yields t s shape own behind) :
    own.length = s.weight shape.preorder := by
  induction h with
  | nil => rfl
  | node stands _ ih =>
    rw [List.length_append, stands.weight, ih]
    simp [Nat.add_assoc]

theorem Yields.append (h : Yields t s (a.append b) own behind) :
    ∃ left right, own = left ++ right ∧ Yields t s a left (right.length + behind) ∧
      Yields t s b right behind := by
  induction a generalizing own with
  | nil => exact ⟨[], own, rfl, .nil _, h⟩
  | node id below rest _ ih =>
    cases h with
    | @node _ _ _ first others _ stands tail =>
      obtain ⟨left, right, rfl, yieldsA, yieldsB⟩ := ih tail
      refine ⟨first ++ left, right, (List.append_assoc _ _ _).symm, .node ?_ yieldsA, yieldsB⟩
      rwa [List.length_append, Nat.add_assoc] at stands

/-- One subtree of a row, and what the others have placed before and after. -/
theorem Yields.split (h : Yields t s shape own behind) {c : NodeId} {before after : List NodeId}
    (tops : shape.tops = before ++ c :: after) :
    ∃ (inner a b : Shape) (left mid right : List (List String)), shape = a.append (.node c inner b) ∧
      b.tops = after ∧ own = left ++ (mid ++ right) ∧ Yields t s a left (mid.length + right.length + behind) ∧
      Stands t s c inner mid (right.length + behind) ∧ Yields t s b right behind := by
  obtain ⟨a, row, rfl, _, cut⟩ := Shape.exists_append tops
  cases row with
  | nil => cases cut
  | node top inner b =>
    obtain ⟨rfl, same⟩ := List.cons.inj cut
    obtain ⟨left, rest, rfl, yieldsA, yieldsB⟩ := h.append
    cases yieldsB with
    | @node _ _ _ mid right _ stands tail =>
      rw [List.length_append] at yieldsA
      exact ⟨inner, a, b, left, mid, right, rfl, same, rfl, yieldsA, stands, tail⟩

/-- Two subtrees of a row. Where their tops hold all that the row has placed, it is what the one
has placed and then the other. -/
theorem Yields.pair (h : Yields t s shape own behind) {c d : NodeId}
    {before between after : List NodeId}
    (tops : shape.tops = before ++ c :: (between ++ d :: after)) :
    ∃ (inner inner' : Shape) (mid mid' : List (List String)) (n n' : Nat),
      Stands t s c inner mid n ∧ Stands t s d inner' mid' n' ∧
        ((s.payload c).weight + (s.payload d).weight = own.length →
          own = mid ++ mid' ∧ mid.length = (s.payload c).weight ∧
            s.weight inner.preorder = 0 ∧ s.weight inner'.preorder = 0) := by
  obtain ⟨inner, _, b, left, mid, right, -, cut, rfl, _, first, tail⟩ := h.split tops
  obtain ⟨inner', _, _, left', mid', right', -, -, rfl, _, second, _⟩ := tail.split cut
  refine ⟨inner, inner', mid, mid', _, _, first, second, fun all => ?_⟩
  have weight := first.weight
  have weight' := second.weight
  rw [weight_cons] at weight weight'
  simp only [List.length_append] at all
  obtain rfl : left = [] := List.eq_nil_of_length_eq_zero (by omega)
  obtain rfl : left' = [] := List.eq_nil_of_length_eq_zero (by omega)
  obtain rfl : right' = [] := List.eq_nil_of_length_eq_zero (by omega)
  refine ⟨by simp, ?_, ?_, ?_⟩ <;> omega

theorem Yields.stands (h : Yields t s shape own behind) {c : NodeId} (mem : c ∈ shape.tops) :
    ∃ inner mid n, Stands t s c inner mid n := by
  obtain ⟨before, after, tops⟩ := List.append_of_mem mem
  obtain ⟨inner, _, _, _, mid, right, -, -, -, _, stands, _⟩ := h.split tops
  exact ⟨inner, mid, _, stands⟩

/-- A line among the tops has the number of an instruction of the row; if that is the only one, it
is the line's own. -/
theorem Yields.line (h : Yields t s shape own behind) {c : NodeId} (mem : c ∈ shape.tops)
    (symbol : t.symbol c = "line") {i : Instruction} {n : Int} (held : s.payload c = .line i n) :
    ∃ j : Nat, j < own.length ∧ n + (own.length + behind : Nat) = j ∧
      (own.length = 1 → t.Orderly → ∃ text, t.Tells c text ∧ own = [text.labels] ∧
        i.name = text.name) := by
  obtain ⟨before, after, tops⟩ := List.append_of_mem mem
  obtain ⟨inner, _, _, left, mid, right, -, -, rfl, _, stands, _⟩ := h.split tops
  obtain ⟨j, short, number⟩ := stands.number symbol i n held
  refine ⟨left.length + j, ?_, ?_, fun one orderly => ?_⟩
  · simp only [List.length_append]
    omega
  · simp only [List.length_append]
    omega
  · simp only [List.length_append] at one
    have weight := stands.weight
    rw [weight_cons, held, Payload.weight] at weight
    obtain rfl : left = [] := List.eq_nil_of_length_eq_zero (by omega)
    obtain rfl : right = [] := List.eq_nil_of_length_eq_zero (by omega)
    obtain ⟨text, tells, same, name⟩ := stands.line (by omega) orderly symbol i n held
    refine ⟨text, tells, ?_, name⟩
    rw [List.nil_append, List.append_nil, same]

end Assembler

namespace Tree

variable {lines : List LineText} {is : List Instruction}

theorem map_labels_unrolledLines (lines : List LineText) (times : Nat) :
    (unrolledLines lines times).map (·.labels) =
      Labels.unrolledNames (lines.map (·.labels)) times := by
  cases times with
  | zero => rfl
  | succ further =>
    have bare : (lines.map fun text => (⟨text.name, []⟩ : LineText)).map (·.labels) =
        List.replicate lines.length [] := by
      rw [List.map_map, ← List.map_const']
      rfl
    rw [unrolledLines, Labels.unrolledNames, List.map_append, List.map_flatten,
      List.map_replicate, bare, List.flatten_replicate_replicate, List.length_map]

theorem forall₂_unrolledLines (l : Labels)
    (same : List.Forall₂ (fun (text : LineText) (i : Instruction) => i.name = text.name) lines is)
    (times : Nat) : List.Forall₂ (fun (text : LineText) (i : Instruction) => i.name = text.name)
      (unrolledLines lines times) (List.replicate times (l.resolveWithin is)).flatten := by
  have resolved : List.Forall₂ (fun (text : LineText) (i : Instruction) => i.name = text.name)
      lines (l.resolveWithin is) := Labels.forall₂_resolveWithin same fun _ _ _ _ name => name
  cases times with
  | zero => exact .nil
  | succ further =>
    rw [unrolledLines, List.replicate_succ, List.flatten_cons]
    refine List.rel_append resolved (Labels.forall₂_replicate ?_ further)
    rw [List.forall₂_map_left_iff]
    exact resolved

end Tree

end TableAsm
