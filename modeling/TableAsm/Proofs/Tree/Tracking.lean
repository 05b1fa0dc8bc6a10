import TableAsm.Proofs.Grammar.Termination
import TableAsm.Proofs.Tree.Growth

/-! The tree of a parse tracks the parser. Its open leaves, which are the leaves that wait for a
rule or a token, carry the symbols on the stack in their order, without the end mark at the bottom
and the empty symbol. So each event acts on the first open leaf. -/
namespace TableAsm.Tree

/-- A leaf without text that is not the empty symbol waits for a rule or a token. -/
def waits (t : Tree) (id : NodeId) : Bool := (t.raw id).isNone && t.symbol id != Symbol.empty

/-- The open leaves are those that wait, and carry the given symbols but the empty one. -/
structure Tracks (t : Tree) (w : List String) : Prop where
  shaped : ∃ s, t.Shaped s
  order : t.openLeaves = t.leaves.filter t.waits
  symbols : t.openLeaves.map t.symbol = w.filter (· ≠ Symbol.empty)

section Links

variable {t u : Tree} {leaf : Nat}

theorem links_expandLeaf (t : Tree) (leaf : Nat) (right : List NodeId) (rule : Rule) {n : Nat}
    (lt : n < t.size) :
    (t.expandLeaf leaf right rule).symbol n = t.symbol n ∧
      (t.expandLeaf leaf right rule).raw n = t.raw n ∧
      (t.expandLeaf leaf right rule).parent n = t.parent n ∧
      (t.expandLeaf leaf right rule).children n =
        if leaf = n then t.children n ++ List.range' t.size rule.rhs.length else t.children n := by
  have inside : n < t.nodes.size := lt
  simp only [symbol, raw, parent, children, node_expandLeaf t leaf right rule lt,
    Array.getElem?_eq_getElem inside]
  split <;> simp

theorem links_fillLeaf (t : Tree) (leaf : Nat) (right : List NodeId) (token : Token) {n : Nat}
    (lt : n < t.size) :
    (t.fillLeaf leaf right token).symbol n = t.symbol n ∧
      (t.fillLeaf leaf right token).raw n =
        (if leaf = n then some token.lexeme else t.raw n) ∧
      (t.fillLeaf leaf right token).parent n = t.parent n ∧
      (t.fillLeaf leaf right token).children n = t.children n := by
  have inside : n < t.nodes.size := lt
  simp only [symbol, raw, parent, children, node_fillLeaf t leaf right token,
    Array.getElem?_eq_getElem inside]
  split <;> simp

/-- Fresh nodes are leaves of their parent and carry their symbols. -/
theorem Fresh.links {parent : NodeId} {ids : List NodeId} {w : List String}
    (fresh : t.Fresh parent ids w) :
    (∀ id ∈ ids, id < t.size ∧ t.parent id = some parent ∧ t.children id = []) ∧
      ids.filter t.waits = waitingOf ids w ∧
      (waitingOf ids w).map t.symbol = w.filter (· ≠ Symbol.empty) := by
  induction fresh with
  | nil => exact ⟨fun id mem => absurd mem List.not_mem_nil, rfl, rfl⟩
  | @cons id s ids w node _ ih =>
    obtain ⟨links, waiting, symbols⟩ := ih
    have inside : id < t.nodes.size := (Array.getElem?_eq_some_iff.mp node).1
    refine ⟨?_, ?_, ?_⟩
    · intro x mem
      rcases List.mem_cons.mp mem with rfl | mem
      · exact ⟨inside, by simp [Tree.parent, node], by simp [children, node]⟩
      · exact links x mem
    · have here : t.waits id = (s != Symbol.empty) := by simp [waits, raw, symbol, node]
      rw [List.filter_cons, here, waiting, waitingOf]
      by_cases empty : s = Symbol.empty <;> simp [empty]
    · have here : t.symbol id = s := by simp [symbol, node]
      rw [waitingOf, List.filter_cons, ← symbols]
      by_cases empty : s = Symbol.empty <;> simp [empty, here]

theorem Fits.congr {parent : Option NodeId} {s : Shape} (grows : t.size ≤ u.size)
    (kept : ∀ n ∈ s.preorder, u.parent n = t.parent n ∧ u.children n = t.children n)
    (fits : t.Fits parent s) : u.Fits parent s := by
  induction s generalizing parent with
  | nil => trivial
  | node id below rest ihb ih =>
    obtain ⟨lt, up, down, fitsB, fitsR⟩ := fits
    obtain ⟨sameUp, sameDown⟩ := kept id List.mem_cons_self
    simp only [Shape.preorder, List.mem_cons, List.mem_append] at kept
    exact ⟨Nat.lt_of_lt_of_le lt grows, sameUp.trans up, sameDown.trans down,
      ihb (fun n mem => kept n (Or.inr (Or.inl mem))) fitsB,
      ih (fun n mem => kept n (Or.inr (Or.inr mem))) fitsR⟩

theorem fits_row {parent : NodeId} {ids : List NodeId}
    (links : ∀ id ∈ ids, id < t.size ∧ t.parent id = some parent ∧ t.children id = []) :
    t.Fits (some parent) (.row ids) := by
  induction ids with
  | nil => trivial
  | cons id ids ih =>
    obtain ⟨lt, up, down⟩ := links id List.mem_cons_self
    exact ⟨lt, up, down, trivial, ih fun x mem => links x (List.mem_cons_of_mem _ mem)⟩

/-- Where a leaf gets children, the shape that fits is the one grafted there. -/
theorem Fits.graft {parent : Option NodeId} {s : Shape} {fresh : List NodeId}
    (grows : t.size ≤ u.size) (childless : t.children leaf = [])
    (kept : ∀ n < t.size, u.parent n = t.parent n ∧
      u.children n = if leaf = n then fresh else t.children n)
    (links : ∀ id ∈ fresh, id < u.size ∧ u.parent id = some leaf ∧ u.children id = [])
    (fits : t.Fits parent s) : u.Fits parent (s.graft leaf fresh) := by
  induction s generalizing parent with
  | nil => trivial
  | node id below rest ihb ih =>
    obtain ⟨lt, up, down, fitsB, fitsR⟩ := fits
    obtain ⟨sameUp, sameDown⟩ := kept id lt
    have inside : id < u.size := Nat.lt_of_lt_of_le lt grows
    rw [Shape.graft]
    split
    · rename_i here
      subst here
      rw [if_pos rfl] at sameDown
      exact ⟨inside, sameUp.trans up, by rw [sameDown, Shape.tops_row], fits_row links, ih fitsR⟩
    · rename_i other
      rw [if_neg (Ne.symm other)] at sameDown
      exact ⟨inside, sameUp.trans up, by rw [sameDown, down, Shape.tops_graft], ihb fitsB,
        ih fitsR⟩

end Links

namespace Tracks

variable {t : Tree} {w : List String}

theorem skip_empty (h : t.Tracks (Symbol.empty :: w)) : t.Tracks w :=
  ⟨h.shaped, h.order, by simpa using h.symbols⟩

/-- The first open leaf carries the first symbol, and no leaf left of it waits. -/
theorem first {s : String} (h : t.Tracks (s :: w)) (ne : s ≠ Symbol.empty) :
    ∃ leaf right, t.openLeaves = leaf :: right ∧ t.symbol leaf = s ∧
      right.map t.symbol = w.filter (· ≠ Symbol.empty) ∧
      ∃ before after, t.leaves = before ++ leaf :: after ∧ before.filter t.waits = [] ∧
        after.filter t.waits = right := by
  have symbols := h.symbols
  rw [List.filter_cons_of_pos (by simpa using ne)] at symbols
  obtain ⟨leaf, right, opened, symbol, rest⟩ := List.map_eq_cons_iff.mp symbols
  obtain ⟨before, after, leaves, none, _, later⟩ :=
    List.filter_eq_cons_iff.mp (h.order.symm.trans opened)
  exact ⟨leaf, right, opened, symbol, rest, before, after, leaves,
    List.filter_eq_nil_iff.mpr none, later⟩

end Tracks

/-- A leaf stands once among the leaves. -/
theorem Shaped.leaf_once {t : Tree} {s : Shape} (shaped : t.Shaped s) {leaf : NodeId}
    {before after : List NodeId} (leaves : s.leaves = before ++ leaf :: after) :
    leaf ∉ before ∧ leaf ∉ after := by
  have nodup := shaped.nodup.sublist s.leaves_sublist
  rw [leaves, List.nodup_middle] at nodup
  simpa using (List.nodup_cons.mp nodup).1

section Shapes

variable {t : Tree} {s : Shape} (shaped : t.Shaped s) {leaf : Nat} (mem : leaf ∈ s.leaves)

include shaped

theorem Shaped.fillLeaf (right : List NodeId) (token : Token) :
    (t.fillLeaf leaf right token).Shaped s := by
  have size := size_fillLeaf t leaf right token
  have links := fun n (lt : n < t.size) => links_fillLeaf t leaf right token lt
  refine ⟨shaped.fits.congr (by omega) fun n mem => (links n (shaped.lt_size mem)).2.2,
    shaped.top, ?_⟩
  rw [Tree.ids, size]
  exact shaped.all

include mem

/-- A leaf that is expanded gets the symbols of the right-hand side below it. -/
theorem Shaped.expandLeaf (right : List NodeId) (rule : Rule) (some_rhs : rule.rhs ≠ []) :
    (t.expandLeaf leaf right rule).Shaped
      (s.graft leaf (List.range' t.size rule.rhs.length)) := by
  have childless := shaped.fits.childless mem
  have inside := shaped.lt_size (Shape.mem_preorder_of_mem_leaves mem)
  have size := size_expandLeaf t leaf right rule
  have links := fun n (lt : n < t.size) => links_expandLeaf t leaf right rule lt
  obtain ⟨hang, _, _⟩ := (fresh_expandLeaf right rule inside).1.links
  have some_fresh : List.range' t.size rule.rhs.length ≠ [] := by simpa using some_rhs
  obtain ⟨perm, _⟩ := Shape.graft_leaf some_fresh shaped.nodup mem
  constructor
  · refine shaped.fits.graft (by omega) childless ?_ hang
    intro n lt
    obtain ⟨_, _, up, down⟩ := links n lt
    refine ⟨up, down.trans ?_⟩
    split
    · rename_i here
      rw [← here, childless, List.nil_append]
    · rfl
  · rw [Shape.tops_graft, shaped.top]
  · refine (perm.trans (shaped.all.append_right _)).trans ?_
    rw [Tree.ids, Tree.ids, size, List.range_eq_range', List.range_eq_range',
      ← List.range'_append_1, Nat.zero_add]

end Shapes

/-- Where other leaves take the place of one, and the rest keep symbol and text, what waits is what
waits among the new leaves and what waited right of the old one. -/
theorem filter_waits_replaced {t : Tree} (u : Tree) {leaf : NodeId}
    {before after right : List NodeId} (mid : List NodeId)
    (absent : leaf ∉ before ∧ leaf ∉ after) (none : before.filter t.waits = [])
    (later : after.filter t.waits = right)
    (kept : ∀ n, n ∈ before ∨ n ∈ after → n ≠ leaf →
      u.symbol n = t.symbol n ∧ u.raw n = t.raw n) :
    (before ++ (mid ++ after)).filter u.waits = mid.filter u.waits ++ right ∧
      right.map u.symbol = right.map t.symbol := by
  have same : ∀ n, n ∈ before ∨ n ∈ after → u.symbol n = t.symbol n ∧ u.waits n = t.waits n := by
    intro n mem
    have other : n ≠ leaf := by
      rintro rfl
      exact mem.elim absent.1 absent.2
    obtain ⟨symbol, raw⟩ := kept n mem other
    exact ⟨symbol, by simp [waits, symbol, raw]⟩
  constructor
  · have left : before.filter u.waits = [] := by
      rw [← none]
      exact List.filter_congr fun n mem => (same n (Or.inl mem)).2
    have behind : after.filter u.waits = right := by
      rw [← later]
      exact List.filter_congr fun n mem => (same n (Or.inr mem)).2
    rw [List.filter_append, List.filter_append, left, behind, List.nil_append]
  · refine List.map_congr_left fun n mem => ?_
    rw [← later] at mem
    exact (same n (Or.inr (List.mem_filter.mp mem).1)).1

namespace Tracks

variable {t : Tree} {w : List String}

/-- A rule for the first symbol expands the first open leaf. -/
theorem expand {rule : Rule} (h : t.Tracks (rule.lhs :: w)) (ne : rule.lhs ≠ Symbol.empty)
    (some_rhs : rule.rhs ≠ []) :
    ∃ leaf right, t.openLeaves = leaf :: right ∧ t.symbol leaf = rule.lhs ∧
      t.receiveRule rule = t.expandLeaf leaf right rule ∧
      (t.receiveRule rule).Tracks (rule.rhs ++ w) := by
  obtain ⟨leaf, right, opened, symbol, rest, before, after, leaves, none, later⟩ := h.first ne
  obtain ⟨s, shaped⟩ := h.shaped
  have acts := receiveRule_first opened symbol
  refine ⟨leaf, right, opened, symbol, acts, ?_⟩
  rw [acts]
  rw [shaped.leaves_eq] at leaves
  have inside : ∀ n ∈ s.leaves, n < t.size :=
    fun n mem => shaped.lt_size (Shape.mem_preorder_of_mem_leaves mem)
  have inLeaves : leaf ∈ s.leaves := by rw [leaves]; simp
  have links := fun n (lt : n < t.size) => links_expandLeaf t leaf right rule lt
  have shapedU := shaped.expandLeaf inLeaves right rule some_rhs
  obtain ⟨fresh, opens⟩ := fresh_expandLeaf right rule (inside leaf inLeaves)
  generalize t.expandLeaf leaf right rule = u at links shapedU fresh opens ⊢
  have some_fresh : List.range' t.size rule.rhs.length ≠ [] := by simpa using some_rhs
  generalize List.range' t.size rule.rhs.length = ids at shapedU fresh opens some_fresh
  obtain ⟨_, waiting, symbols⟩ := fresh.links
  obtain ⟨_, front, back, split, grown⟩ :=
    Shape.graft_leaf some_fresh shaped.nodup inLeaves
  have once := shaped.leaf_once split
  obtain ⟨rfl, _, rfl⟩ :=
    (List.append_cons_inj_of_notMem once.1 once.2).mp (split.symm.trans leaves)
  obtain ⟨waits, kept⟩ := filter_waits_replaced u ids once none later
    fun n mem _ => by
      have lt := inside n (by rw [split]; rcases mem with mem | mem <;> simp [mem])
      exact ⟨(links n lt).1, (links n lt).2.1⟩
  refine ⟨⟨_, shapedU⟩, ?_, ?_⟩
  · rw [shapedU.leaves_eq, grown, waits, waiting, opens]
  · rw [opens, List.map_append, symbols, kept, rest, List.filter_append]

/-- A token of the first symbol's kind fills the first open leaf. -/
theorem accept {token : Token} (h : t.Tracks (token.kind :: w))
    (ne : token.kind ≠ Symbol.empty) :
    ∃ leaf right, t.openLeaves = leaf :: right ∧ t.symbol leaf = token.kind ∧
      t.receiveToken token = t.fillLeaf leaf right token ∧
      (t.receiveToken token).Tracks w := by
  obtain ⟨leaf, right, opened, symbol, rest, before, after, leaves, none, later⟩ := h.first ne
  obtain ⟨s, shaped⟩ := h.shaped
  have acts := receiveToken_first opened symbol
  refine ⟨leaf, right, opened, symbol, acts, ?_⟩
  rw [acts]
  rw [shaped.leaves_eq] at leaves
  have inside : ∀ n ∈ s.leaves, n < t.size :=
    fun n mem => shaped.lt_size (Shape.mem_preorder_of_mem_leaves mem)
  have links := fun n (lt : n < t.size) => links_fillLeaf t leaf right token lt
  have opens : (t.fillLeaf leaf right token).openLeaves = right := rfl
  have shapedU : (t.fillLeaf leaf right token).Shaped s := shaped.fillLeaf right token
  generalize t.fillLeaf leaf right token = u at links opens shapedU ⊢
  obtain ⟨waits, kept⟩ := filter_waits_replaced u [leaf]
    (shaped.leaf_once leaves) none later fun n mem other => by
      have lt := inside n (by rw [leaves]; rcases mem with mem | mem <;> simp [mem])
      obtain ⟨sameSymbol, sameRaw, _⟩ := links n lt
      exact ⟨sameSymbol, by rw [sameRaw, if_neg (Ne.symm other)]⟩
  have filled : u.waits leaf = false := by
    obtain ⟨_, raw, _⟩ := links leaf (inside leaf (by rw [leaves]; simp))
    rw [if_pos rfl] at raw
    simp [Tree.waits, raw]
  refine ⟨⟨s, shapedU⟩, ?_, ?_⟩
  · rw [shapedU.leaves_eq, leaves, opens]
    simpa [filled] using waits.symm
  · rw [opens, kept, rest]

end Tracks

/-- The one open leaf of the tree that a parse starts to grow from. -/
theorem tracks_planted {symbol : String} (ne : symbol ≠ Symbol.empty) :
    (planted symbol).Tracks [symbol] := by
  have shaped : (planted symbol).Shaped (.node root (.node 1 .nil .nil) .nil) := by
    refine ⟨?_, rfl, List.Perm.refl _⟩
    exact ⟨Nat.zero_lt_succ _, rfl, rfl, ⟨Nat.lt_succ_self _, rfl, rfl, trivial, trivial⟩, trivial⟩
  have here : (planted symbol).symbol 1 = symbol := rfl
  have waits : (planted symbol).waits 1 = true := by
    have none : (planted symbol).raw 1 = none := rfl
    simpa [Tree.waits, here, none] using ne
  refine ⟨⟨_, shaped⟩, ?_, ?_⟩
  · rw [shaped.leaves_eq]
    show [1] = [1].filter (planted symbol).waits
    simp [waits]
  · rw [List.filter_cons_of_pos (by simpa using ne)]
    rfl

section Runs

open TableAsm.Parser

variable {g : Grammar} {rules : List Rule} {mark : Token}

/-- The symbol that an event is about. -/
def eventSymbol : ParseEvent → String
  | .expand rule => rule.lhs
  | .accept token => token.kind

/-- An event acts on the first open leaf, which carries the symbol on top of a stack. -/
def ActsOnFirst (t : Tree) (stack : List String) (event : ParseEvent) : Prop :=
  ∃ leaf right, t.openLeaves = leaf :: right ∧ t.symbol leaf = eventSymbol event ∧
    stack.head? = some (eventSymbol event) ∧
    t.receive event = match event with
      | .expand rule => t.expandLeaf leaf right rule
      | .accept token => t.fillLeaf leaf right token

/-- A step of the parser above the end mark keeps the tree tracking it. -/
theorem tracks_move (accepted : Grammar.ofRules rules = .ok g) {p q : Parser}
    {event : Option ParseEvent} (move : Move g mark p event q) {t : Tree} {w : List String}
    (stack : p.stack = w ++ [Symbol.endOfInput]) (h : t.Tracks w) :
    (∀ e, event = some e → t.ActsOnFirst p.stack e) ∧
      ∃ v, q.stack = v ++ [Symbol.endOfInput] ∧ (event.toList.foldl receive t).Tracks v := by
  obtain ⟨v, below, above⟩ := move.above (Grammar.tableOf_accepted accepted) stack
  rw [stack]
  generalize p.rest = rest, q.rest = rest' at above
  cases above with
  | erase => exact ⟨fun e impossible => (nomatch impossible), v, below, h.skip_empty⟩
  | @expand r _ _ mem ne =>
    obtain ⟨leaf, right, opened, symbol, acts, tracks⟩ :=
      h.expand ne (Rule.rhs_ne_nil (Grammar.valid_of_accepted accepted r mem))
    refine ⟨?_, _, below, tracks⟩
    rintro e same
    obtain rfl := Option.some.inj same
    exact ⟨leaf, right, opened, symbol, rfl, acts⟩
  | accept _ _ ne _ _ =>
    obtain ⟨leaf, right, opened, symbol, acts, tracks⟩ := h.accept ne
    refine ⟨?_, _, below, tracks⟩
    rintro e same
    obtain rfl := Option.some.inj same
    exact ⟨leaf, right, opened, symbol, rfl, acts⟩

theorem tracks_of_reaches (accepted : Grammar.ofRules rules = .ok g)
    (marked : mark.kind = Symbol.endOfInput) {p q : Parser} {events : List ParseEvent}
    (chain : Reaches g mark p events q) {t : Tree} {w : List String}
    (stack : p.stack = w ++ [Symbol.endOfInput]) (h : t.Tracks w) :
    ∃ v, q.stack = v ++ [Symbol.endOfInput] ∧ (events.foldl receive t).Tracks v := by
  induction chain generalizing t w with
  | refl p => exact ⟨w, stack, h⟩
  | step moved _ ih =>
    obtain ⟨_, v, below, tracks⟩ := tracks_move accepted (move_of_step marked moved) stack h
    rw [List.foldl_append]
    exact ih below tracks

/-- The first event of a parse expands the start symbol, as if a leaf for it had been open. -/
theorem ofEvents_eq_planted (accepted : Grammar.ofRules rules = .ok g)
    (marked : mark.kind = Symbol.endOfInput) {tokens : List Token} {p : Parser}
    {events : List ParseEvent} (chain : Reaches g mark (.initial tokens) events p)
    (begun : events ≠ []) : ofEvents events = events.foldl receive (planted Symbol.start) := by
  generalize first : Parser.initial tokens = initial at chain
  cases chain with
  | refl => exact absurd rfl begun
  | @step _ q _ event later moved _ =>
    have tabled := Grammar.tableOf_accepted accepted
    have move := move_of_step marked moved
    cases move with
    | erase below rest => exact absurd (List.cons.inj (Parser.mk.inj first).1).1 (by decide)
    | @expand s below rest r _ _ rule =>
      obtain ⟨_, rfl, _⟩ := (tabled.ruleFor_iff _ _ _).mp rule
      have start := (List.cons.inj (Parser.mk.inj first).1).1
      have same : new.receiveRule r = (planted Symbol.start).receiveRule r := by
        rw [start, receiveRule_new]
        exact (receiveRule_first rfl rfl).symm
      exact congrArg (later.foldl receive ·) same
    | @accept token below rest _ terminal _ =>
      have start := (List.cons.inj (Parser.mk.inj first).1).1
      have named := tabled.named _ (Grammar.start_named accepted)
      rw [start, terminal] at named
      cases named

/-- From the first event of a parse on, the tree tracks the parser. -/
theorem ofEvents_tracks (accepted : Grammar.ofRules rules = .ok g)
    (marked : mark.kind = Symbol.endOfInput) {tokens : List Token} {p : Parser}
    {events : List ParseEvent} (chain : Reaches g mark (.initial tokens) events p)
    (begun : events ≠ []) :
    ∃ w, p.stack = w ++ [Symbol.endOfInput] ∧ (ofEvents events).Tracks w := by
  rw [ofEvents_eq_planted accepted marked chain begun]
  exact tracks_of_reaches accepted marked chain (w := [Symbol.start]) rfl
    (tracks_planted (by decide))

end Runs

end TableAsm.Tree
