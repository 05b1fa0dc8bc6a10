import TableAsm.Proofs.Grammar.Parsing
import TableAsm.Proofs.Tree.Tracking

/-! The tree of a successful parse is the derivation tree of its tokens. The events of a forest,
received where its roots are the first open leaves, build that forest below those leaves and leave
all other nodes as they are. -/
namespace TableAsm.Tree

/-- A row of nodes of the tree is a row of derivation trees: the children of a node are the trees
below it, a leaf for a token has its text and position, and no other node has a text. -/
inductive Shows (t : Tree) : List NodeId → Forest → Prop where
  | nil : t.Shows [] .nil
  | empty {id : NodeId} {ids : List NodeId} {rest : Forest} : t.symbol id = Symbol.empty →
      t.raw id = none → t.children id = [] → t.Shows ids rest → t.Shows (id :: ids) (.empty rest)
  | token {id : NodeId} {ids : List NodeId} {token : Token} {rest : Forest} :
      t.symbol id = token.kind → t.raw id = some token.lexeme →
      t.position id = some token.position → t.children id = [] → t.Shows ids rest →
      t.Shows (id :: ids) (.token token rest)
  | node {id : NodeId} {ids : List NodeId} {r : Rule} {children rest : Forest} :
      t.symbol id = r.lhs → t.raw id = none → t.Shows (t.children id) children →
      t.Shows ids rest → t.Shows (id :: ids) (.node r children rest)

theorem Shows.symbols {t : Tree} {ids : List NodeId} {f : Forest} (h : t.Shows ids f) :
    ids.map t.symbol = f.roots := by
  induction h with
  | nil => rfl
  | empty symbol _ _ _ ih => rw [List.map_cons, symbol, ih, Forest.roots]
  | token symbol _ _ _ _ ih => rw [List.map_cons, symbol, ih, Forest.roots]
  | node symbol _ _ _ _ ih => rw [List.map_cons, symbol, ih, Forest.roots]

/-- From one tree to another a forest grows below some leaves, with the given leaves left open.
The forest stands in any tree that has the leaves and the new nodes as they are then. -/
structure Builds (t u : Tree) (ids : List NodeId) (f : Forest) (right : List NodeId) : Prop where
  opened : u.openLeaves = right
  grows : t.size ≤ u.size
  kept : ∀ n : Nat, n < t.size → n ∉ ids → u.nodes[n]? = t.nodes[n]?
  shown : ∀ v : Tree, (∀ n : Nat, n ∈ ids ∨ t.size ≤ n ∧ n < u.size → v.nodes[n]? = u.nodes[n]?) →
    v.Shows ids f

section Building

variable {t u : Tree} {parent : Nat} {ids right : List NodeId}

theorem links_of_node {id : Nat} {n : Node} (node : t.nodes[id]? = some n) :
    t.symbol id = n.symbol ∧ t.raw id = n.raw ∧ t.position id = n.position ∧
      t.children id = n.children := by
  simp [symbol, raw, position, children, node]

theorem Fresh.cons_inv {s : String} {w : List String} (fresh : t.Fresh parent ids (s :: w)) :
    ∃ (id : Nat) (rest : List NodeId), ids = id :: rest ∧ id < t.size ∧
      t.nodes[id]? = some ⟨s, none, none, some parent, []⟩ ∧ t.Fresh parent rest w := by
  cases fresh with
  | cons node fresh => exact ⟨_, _, rfl, (Array.getElem?_eq_some_iff.mp node).1, node, fresh⟩

theorem Fresh.lt_size {w : List String} (fresh : t.Fresh parent ids w) {id : NodeId}
    (mem : id ∈ ids) : id < t.size :=
  (fresh.links.1 id mem).1

theorem Fresh.congr {w : List String} (fresh : t.Fresh parent ids w)
    (same : ∀ n ∈ ids, u.nodes[n]? = t.nodes[n]?) : u.Fresh parent ids w := by
  induction fresh with
  | nil => exact List.Forall₂.nil
  | cons node _ ih =>
    exact List.Forall₂.cons ((same _ List.mem_cons_self).trans node)
      (ih fun n mem => same n (List.mem_cons_of_mem _ mem))

theorem Builds.nil (opened : t.openLeaves = right) : Builds t t [] .nil right :=
  ⟨opened, Nat.le_refl _, fun _ _ _ => rfl, fun _ _ => .nil⟩

theorem Builds.empty {id : Nat} {f : Forest} (inside : id < t.size) (once : id ∉ ids)
    (node : t.nodes[id]? = some ⟨Symbol.empty, none, none, some parent, []⟩)
    (rest : Builds t u ids f right) : Builds t u (id :: ids) (.empty f) right := by
  refine ⟨rest.opened, rest.grows, ?_, ?_⟩
  · exact fun n lt other => rest.kept n lt fun mem => other (List.mem_cons_of_mem _ mem)
  · intro v same
    have here := (same id (Or.inl List.mem_cons_self)).trans ((rest.kept id inside once).trans node)
    obtain ⟨symbol, raw, _, children⟩ := links_of_node here
    refine .empty symbol raw children (rest.shown v fun n mem => same n ?_)
    exact mem.imp_left (List.mem_cons_of_mem _)

theorem Builds.token {id : Nat} {f : Forest} {token : Token} {between : List NodeId}
    (inside : id < t.size) (once : id ∉ ids)
    (node : t.nodes[id]? = some ⟨token.kind, none, none, some parent, []⟩)
    (rest : Builds (t.fillLeaf id between token) u ids f right) :
    Builds t u (id :: ids) (.token token f) right := by
  have size := size_fillLeaf t id between token
  have filled := node_fillLeaf t id between token
  obtain ⟨opened, grows, kept, shown⟩ := rest
  rw [size] at grows kept shown
  refine ⟨opened, grows, ?_, ?_⟩
  · intro n lt other
    rw [kept n lt fun mem => other (List.mem_cons_of_mem _ mem), filled, if_neg]
    rintro rfl
    exact other List.mem_cons_self
  · intro v same
    have here := (same id (Or.inl List.mem_cons_self)).trans (kept id inside once)
    rw [filled, if_pos rfl, node] at here
    obtain ⟨symbol, raw, position, children⟩ := links_of_node here
    refine .token symbol raw position children (shown v fun n mem => same n ?_)
    exact mem.imp_left (List.mem_cons_of_mem _)

/-- What grows below a node, and then right of it. -/
theorem Builds.node {v : Tree} {id : Nat} {f h : Forest} {r : Rule} {between : List NodeId}
    (inside : id < t.size) (below : ∀ n : Nat, n ∈ ids → n < t.size) (once : id ∉ ids)
    (node : t.nodes[id]? = some ⟨r.lhs, none, none, some parent, []⟩)
    (first : Builds (t.expandLeaf id between r) u (List.range' t.size r.rhs.length) f between)
    (second : Builds u v ids h right) : Builds t v (id :: ids) (.node r f h) right := by
  have size := size_expandLeaf t id between r
  have expanded := fun (n : Nat) (lt : n < t.size) => node_expandLeaf t id between r lt
  obtain ⟨_, growsF, keptF, shownF⟩ := first
  obtain ⟨opened, growsH, keptH, shownH⟩ := second
  rw [size] at growsF keptF shownF
  -- the children are new, so they are none of the old nodes
  have new : ∀ n : Nat, n ∈ List.range' t.size r.rhs.length ↔
      t.size ≤ n ∧ n < t.size + r.rhs.length := fun n => List.mem_range'_1
  have old : ∀ n : Nat, n < t.size → n ∉ ids → v.nodes[n]? = (t.expandLeaf id between r).nodes[n]? := by
    intro n lt other
    rw [keptH n (by omega) other, keptF n (by omega)]
    rw [new]
    omega
  refine ⟨opened, by omega, ?_, ?_⟩
  · intro n lt other
    rw [old n lt fun mem => other (List.mem_cons_of_mem _ mem), expanded n lt, if_neg]
    rintro rfl
    exact other List.mem_cons_self
  · intro x same
    have here := (same id (Or.inl List.mem_cons_self)).trans (old id inside once)
    rw [expanded id inside, if_pos rfl, node] at here
    obtain ⟨symbol, raw, _, children⟩ := links_of_node here
    have kids : x.children id = List.range' t.size r.rhs.length := children
    refine .node symbol raw (kids ▸ shownF x ?_) (shownH x ?_)
    · intro n mem
      have range : t.size ≤ n ∧ n < u.size := by
        rw [new] at mem
        omega
      have absent : n ∉ ids := fun mem => by
        have lt := below n mem
        omega
      rw [same n (Or.inr (by omega)), keptH n range.2 absent]
    · intro n mem
      refine same n ?_
      rcases mem with mem | range
      · exact Or.inl (List.mem_cons_of_mem _ mem)
      · exact Or.inr (by omega)

end Building

/-- The events of a valid forest build it below fresh leaves for its roots. -/
theorem builds_of_forest {rules : List Rule} (reserved : Symbol.empty ∉ nonterminalsOf rules)
    {f : Forest} (valid : f.Valid rules) {t : Tree} {parent : Nat} {ids right : List NodeId}
    (fresh : t.Fresh parent ids f.roots) (nodup : ids.Nodup)
    (opened : t.openLeaves = waitingOf ids f.roots ++ right) :
    Builds t (f.events.foldl receive t) ids f right := by
  induction f generalizing t parent ids right with
  | nil =>
    cases fresh
    exact .nil opened
  | empty f ih =>
    obtain ⟨id, ids, rfl, inside, node, fresh⟩ := fresh.cons_inv
    obtain ⟨once, nodup⟩ := List.nodup_cons.mp nodup
    exact .empty inside once node (ih valid fresh nodup opened)
  | token token f ih =>
    obtain ⟨ne, _, tail⟩ := valid
    obtain ⟨id, ids, rfl, inside, node, fresh⟩ := fresh.cons_inv
    obtain ⟨once, nodup⟩ := List.nodup_cons.mp nodup
    rw [Forest.roots, waitingOf, if_neg ne, List.cons_append] at opened
    have first := receiveToken_first opened (links_of_node node).1
    have stays : (t.receiveToken token).Fresh parent ids f.roots := by
      refine fresh.congr fun n mem => ?_
      rw [first, node_fillLeaf, if_neg]
      rintro rfl
      exact once mem
    have rest := ih tail stays nodup (by rw [first]; rfl)
    rw [first] at rest
    rw [Forest.events, List.foldl_cons, receive, first]
    exact .token inside once node rest
  | node r children f ihc ih =>
    obtain ⟨mem, rhs, below, tail⟩ := valid
    have named := lhs_mem_nonterminalsOf mem
    have ne : r.lhs ≠ Symbol.empty := fun eq => reserved (eq ▸ named)
    obtain ⟨id, ids, rfl, inside, node, fresh⟩ := fresh.cons_inv
    obtain ⟨once, nodup⟩ := List.nodup_cons.mp nodup
    rw [Forest.roots, waitingOf, if_neg ne, List.cons_append] at opened
    have first := receiveRule_first opened (links_of_node node).1
    obtain ⟨kids, opens⟩ :=
      fresh_expandLeaf (waitingOf ids f.roots ++ right) r inside
    rw [← first, ← rhs] at kids opens
    have inner := ihc below kids List.nodup_range' opens
    have stays : (children.events.foldl receive (t.receiveRule r)).Fresh parent ids f.roots := by
      refine fresh.congr fun (n : Nat) mem => ?_
      have lt : n < t.size := fresh.lt_size mem
      have old : n ∉ List.range' t.size children.roots.length := by
        rw [List.mem_range'_1]
        omega
      have still : n < (t.receiveRule r).size := by
        rw [first, size_expandLeaf]
        omega
      rw [inner.kept n still old, first, node_expandLeaf _ _ _ _ lt, if_neg]
      rintro rfl
      exact once mem
    have outer := ih tail stays nodup inner.opened
    rw [rhs] at inner
    rw [first] at inner outer
    have built := Builds.node inside (fun n mem => fresh.lt_size mem) once node inner outer
    rw [Forest.events, List.foldl_cons, List.foldl_append, receive, first]
    exact built

/-- The token that filled a leaf. -/
def matchedToken (t : Tree) (id : NodeId) : Option Token :=
  match t.raw id, t.position id with
  | some lexeme, some position => some ⟨t.symbol id, lexeme, position⟩
  | _, _ => none

theorem matchedToken_of_raw_none {t : Tree} {id : NodeId} (raw : t.raw id = none) :
    t.matchedToken id = none := by
  simp [matchedToken, raw]

/-- The leaves below trees that are shown hold the texts and the tokens of those trees. -/
theorem Shows.leaves {rules : List Rule} (some_rhs : ∀ r ∈ rules, r.rhs ≠ []) {t : Tree}
    {f : Forest} (valid : f.Valid rules) {parent : Option NodeId} {s : Shape}
    (fits : t.Fits parent s) (shows : t.Shows s.tops f) :
    s.leaves.filterMap t.raw = f.tokens.map (·.lexeme) ∧
      s.leaves.filterMap t.matchedToken = f.tokens := by
  generalize tops : s.tops = ids at shows
  induction shows generalizing parent s with
  | nil =>
    rw [Shape.tops_eq_nil tops]
    exact ⟨rfl, rfl⟩
  | empty _ raw childless _ ih =>
    obtain _ | ⟨id, below, rest⟩ := s
    · cases tops
    · obtain ⟨rfl, tail⟩ := List.cons.inj tops
      obtain ⟨_, _, links, _, fitsR⟩ := fits
      obtain rfl := Shape.tops_eq_nil (links.symm.trans childless)
      obtain ⟨texts, tokens⟩ := ih valid fitsR tail
      rw [Shape.leaves, List.filterMap_cons_none raw,
        List.filterMap_cons_none (matchedToken_of_raw_none raw)]
      exact ⟨texts, tokens⟩
  | @token id ids token rest symbol raw position childless _ ih =>
    obtain _ | ⟨id, below, rest⟩ := s
    · cases tops
    · obtain ⟨rfl, tail⟩ := List.cons.inj tops
      obtain ⟨_, _, links, _, fitsR⟩ := fits
      obtain rfl := Shape.tops_eq_nil (links.symm.trans childless)
      obtain ⟨texts, tokens⟩ := ih valid.2.2 fitsR tail
      have filled : t.matchedToken id = some token := by
        rw [matchedToken, raw, position, symbol]
      rw [Shape.leaves, List.filterMap_cons_some raw, List.filterMap_cons_some filled, texts,
        tokens]
      exact ⟨rfl, rfl⟩
  | node _ _ inner _ ihc ih =>
    obtain _ | ⟨id, below, rest⟩ := s
    · cases tops
    · obtain ⟨rfl, tail⟩ := List.cons.inj tops
      obtain ⟨mem, rhs, validC, validR⟩ := valid
      obtain ⟨_, _, links, fitsB, fitsR⟩ := fits
      obtain ⟨textsC, tokensC⟩ := ihc validC fitsB links.symm
      obtain ⟨texts, tokens⟩ := ih validR fitsR tail
      have children : below.tops ≠ [] := by
        intro none
        have symbols := inner.symbols
        rw [links, none, rhs] at symbols
        exact some_rhs _ mem symbols.symm
      rw [Shape.leaves_node, if_neg children, List.filterMap_append, List.filterMap_append,
        textsC, texts, tokensC, tokens]
      simp

/-- Nodes keep their symbols, and those that are not open their children and that they are not
open. -/
structure Settled (t u : Tree) : Prop where
  grows : t.size ≤ u.size
  symbols : ∀ n : Nat, n < t.size → u.symbol n = t.symbol n
  closed : ∀ n : Nat, n < t.size → n ∉ t.openLeaves →
    u.children n = t.children n ∧ n ∉ u.openLeaves

theorem Settled.refl (t : Tree) : Settled t t :=
  ⟨Nat.le_refl _, fun _ _ => rfl, fun _ _ closed => ⟨rfl, closed⟩⟩

theorem Settled.trans {t u v : Tree} (first : Settled t u) (second : Settled u v) :
    Settled t v := by
  refine ⟨Nat.le_trans first.grows second.grows, ?_, ?_⟩
  · exact fun n lt =>
      (second.symbols n (Nat.lt_of_lt_of_le lt first.grows)).trans (first.symbols n lt)
  · intro n lt closed
    obtain ⟨children, still⟩ := first.closed n lt closed
    obtain ⟨later, ended⟩ := second.closed n (Nat.lt_of_lt_of_le lt first.grows) still
    exact ⟨later.trans children, ended⟩

theorem ActsOnFirst.settled {t : Tree} {stack : List String} {event : ParseEvent}
    (acts : t.ActsOnFirst stack event) (inside : ∀ n ∈ t.openLeaves, n < t.size) :
    Settled t (t.receive event) := by
  obtain ⟨leaf, right, opened, _, _, same⟩ := acts
  have others : ∀ n, n ∉ t.openLeaves → leaf ≠ n ∧ n ∉ right := by
    intro n closed
    rw [opened, List.mem_cons, not_or] at closed
    exact ⟨Ne.symm closed.1, closed.2⟩
  rw [same]
  cases event with
  | expand rule =>
    obtain ⟨_, opens⟩ := fresh_expandLeaf right rule
      (inside leaf (by rw [opened]; exact List.mem_cons_self))
    have links := fun (n : Nat) (lt : n < t.size) => links_expandLeaf t leaf right rule lt
    refine ⟨by simp only [size_expandLeaf]; omega, fun n lt => (links n lt).1, ?_⟩
    intro n lt closed
    obtain ⟨other, notRight⟩ := others n closed
    refine ⟨(links n lt).2.2.2.trans (if_neg other), ?_⟩
    rw [opens, List.mem_append, not_or]
    refine ⟨fun mem => ?_, notRight⟩
    have new := List.mem_range'_1.mp ((waitingOf_sublist _ _).subset mem)
    omega
  | accept token =>
    have links := fun (n : Nat) (lt : n < t.size) => links_fillLeaf t leaf right token lt
    refine ⟨Nat.le_of_eq (size_fillLeaf t leaf right token).symm, fun n lt => (links n lt).1, ?_⟩
    exact fun n lt closed => ⟨(links n lt).2.2.2, (others n closed).2⟩

theorem Tracks.lt_size {t : Tree} {w : List String} (h : t.Tracks w) :
    ∀ n ∈ t.openLeaves, n < t.size := by
  intro n mem
  obtain ⟨s, shaped⟩ := h.shaped
  rw [h.order, shaped.leaves_eq] at mem
  exact shaped.lt_size (Shape.mem_preorder_of_mem_leaves (List.mem_filter.mp mem).1)

section Runs

open TableAsm.Parser

variable {g : Grammar} {rules : List Rule} {mark : Token}

theorem settled_of_reaches (accepted : Grammar.ofRules rules = .ok g)
    (marked : mark.kind = Symbol.endOfInput) {p q : Parser} {events : List ParseEvent}
    (chain : Reaches g mark p events q) {t : Tree} {w : List String}
    (stack : p.stack = w ++ [Symbol.endOfInput]) (tracks : t.Tracks w) :
    Settled t (events.foldl receive t) := by
  induction chain generalizing t w with
  | refl p => exact .refl t
  | @step p q _ event events moved _ ih =>
    obtain ⟨acts, v, below, next⟩ := tracks_move accepted (move_of_step marked moved) stack tracks
    rw [List.foldl_append]
    refine Settled.trans ?_ (ih below next)
    cases event with
    | none => exact .refl t
    | some e => exact (acts e rfl).settled tracks.lt_size

/-- The first rule of a successful parse grows the tree of one leaf into the derivation tree. -/
theorem exists_shows (accepted : Grammar.ofRules rules = .ok g) {f : Forest}
    (valid : f.Valid rules) (roots : f.roots = [Symbol.start]) :
    (f.events.foldl receive (planted Symbol.start)).Shows [1] f ∧
      (f.events.foldl receive (planted Symbol.start)).children root = [1] ∧
      (f.events.foldl receive (planted Symbol.start)).symbol root = Symbol.root := by
  have reserved := (Grammar.tableOf_accepted accepted).empty_reserved
  have fresh : (planted Symbol.start).Fresh root [1] f.roots := by
    rw [roots]
    exact fresh_planted _
  have opened : (planted Symbol.start).openLeaves = waitingOf [1] f.roots ++ [] := by
    rw [roots]
    rfl
  have built := builds_of_forest reserved valid fresh (List.nodup_singleton 1) opened
  have kept := built.kept root (Nat.zero_lt_succ _) (by decide)
  refine ⟨built.shown _ fun _ _ => rfl, ?_, ?_⟩
  · rw [children, kept]
    rfl
  · rw [symbol, kept]
    rfl

theorem Fresh.symbols {t : Tree} {parent : NodeId} {ids : List NodeId} {w : List String}
    (fresh : t.Fresh parent ids w) : ids.map t.symbol = w := by
  induction fresh with
  | nil => rfl
  | cons node _ ih => rw [List.map_cons, (links_of_node node).1, ih]

/-- The node that a rule expands keeps the symbols of the rule: its own, and its children's. -/
theorem expanded_node (accepted : Grammar.ofRules rules = .ok g)
    (marked : mark.kind = Symbol.endOfInput) {p next q : Parser} {r : Rule}
    {later : List ParseEvent} (moved : p.step g mark = .next next (some (.expand r)))
    (chain : Reaches g mark next later q) {t : Tree} {w : List String}
    (stack : p.stack = w ++ [Symbol.endOfInput]) (tracks : t.Tracks w) :
    ∃ id right, t.openLeaves = id :: right ∧
      (later.foldl receive (t.receiveRule r)).symbol id = r.lhs ∧
      ((later.foldl receive (t.receiveRule r)).children id).map
        (later.foldl receive (t.receiveRule r)).symbol = r.rhs := by
  have move := move_of_step marked moved
  obtain ⟨acts, v, below, after⟩ := tracks_move accepted move stack tracks
  obtain ⟨id, right, opened, symbol, _, same⟩ := acts _ rfl
  have tracksU : (t.receiveRule r).Tracks v := after
  have settled := settled_of_reaches accepted marked chain below tracksU
  have same : t.receiveRule r = t.expandLeaf id right r := same
  have some_rhs : r.rhs ≠ [] := by
    cases move with
    | expand _ _ rule =>
      have tabled := Grammar.tableOf_accepted accepted
      have known := ((tabled.ruleFor_iff _ _ _).mp rule).1
      exact Rule.rhs_ne_nil (Grammar.valid_of_accepted accepted r known)
  obtain ⟨s, shaped⟩ := tracks.shaped
  have opened_leaf : id ∈ s.leaves := by
    have mem : id ∈ t.openLeaves := by rw [opened]; exact List.mem_cons_self
    rw [tracks.order, shaped.leaves_eq] at mem
    exact (List.mem_filter.mp mem).1
  have inside : id < t.size := shaped.lt_size (Shape.mem_preorder_of_mem_leaves opened_leaf)
  obtain ⟨fresh, _⟩ := fresh_expandLeaf right r inside
  obtain ⟨sameSymbol, _, _, children⟩ := links_expandLeaf t id right r inside
  rw [if_pos rfl, shaped.fits.childless opened_leaf, List.nil_append] at children
  rw [← same] at fresh sameSymbol children
  have larger : id < (t.receiveRule r).size := by
    rw [same, size_expandLeaf]
    exact Nat.lt_of_lt_of_le inside (Nat.le_add_right _ _)
  -- the node has children now, so it is no leaf and is not open any more
  have closed : id ∉ (t.receiveRule r).openLeaves := by
    obtain ⟨u, shapedU⟩ := tracksU.shaped
    rw [tracksU.order, shapedU.leaves_eq]
    intro mem
    have none := shapedU.fits.childless (List.mem_filter.mp mem).1
    rw [children] at none
    have symbols := fresh.symbols
    rw [none] at symbols
    exact some_rhs symbols.symm
  obtain ⟨kept, _⟩ := settled.closed id larger closed
  refine ⟨id, right, opened, (settled.symbols id larger).trans (sameSymbol.trans symbol), ?_⟩
  rw [kept, children]
  exact (List.map_congr_left fun n mem => settled.symbols n (fresh.lt_size mem)).trans
    fresh.symbols

/-- A valid forest over the start symbol begins with an event. -/
theorem events_ne_nil (started : Symbol.start ∈ nonterminalsOf rules) {f : Forest}
    (valid : f.Valid rules) (roots : f.roots = [Symbol.start]) : f.events ≠ [] := by
  cases f with
  | nil => cases roots
  | empty f => exact absurd (List.cons.inj roots).1 (by decide)
  | token t f => exact absurd ((List.cons.inj roots).1 ▸ started) valid.2.1
  | node r children f => exact List.cons_ne_nil _ _

end Runs

/-- The tree of a successful parse shows the derivation below its root. -/
theorem exists_shows_of_parse (accepted : Grammar.ofRules rules = .ok g)
    (unmarked_rules : ∀ r ∈ rules, Symbol.endOfInput ∉ r.rhs) {tokens : List Token}
    (unmarked : ∀ t ∈ tokens, t.kind ≠ Symbol.endOfInput) (success : (g.parse tokens).error = none)
    {t : Tree} (made : ofEvents (g.parse tokens).events = t) :
    ∃ f shape, f.Valid rules ∧ f.roots = [Symbol.start] ∧ f.tokens = tokens ∧ t.Shaped shape ∧
      t.Shows [1] f ∧ t.children root = [1] ∧ t.symbol root = Symbol.root := by
  obtain ⟨f, valid, roots, rfl, same⟩ :=
    Grammar.exists_forest_of_parse accepted unmarked_rules unmarked success
  obtain ⟨last, chain, _⟩ := Grammar.parse_run (Grammar.tableOf_accepted accepted) f.tokens
  rw [same] at chain made
  have marked := endMark_kind f.tokens
  have begun := events_ne_nil (Grammar.start_named accepted) valid roots
  obtain ⟨w, _, tracks⟩ := ofEvents_tracks accepted marked chain begun
  obtain ⟨shape, shaped⟩ := tracks.shaped
  obtain ⟨shows, links, symbol⟩ := exists_shows accepted valid roots
  rw [← ofEvents_eq_planted accepted marked chain begun, made] at shows links symbol
  rw [made] at shaped
  exact ⟨f, shape, valid, roots, rfl, shaped, shows, links, symbol⟩

/-- The tree of a parse tracks the parser: from the first event on its open leaves are those that
wait, they carry the symbols on the stack, and each event acts on the first of them. A node keeps
the right-hand side that it was expanded by. When the parse succeeds, the tree is the derivation
tree of the tokens. -/
theorem ofEvents_tracks_parse (rules : List Rule) (g : Grammar)
    (accepted : Grammar.ofRules rules = .ok g) (tokens : List Token) :
    (∀ events p, Parser.Reaches g (endMark tokens) (.initial tokens) events p → events ≠ [] →
      (∃ w, p.stack = w ++ [Symbol.endOfInput] ∧
        (ofEvents events).openLeaves.map (ofEvents events).symbol =
          w.filter (· ≠ Symbol.empty)) ∧
      (ofEvents events).openLeaves = (ofEvents events).leaves.filter (ofEvents events).waits ∧
      ∀ q event, p.step g (endMark tokens) = .next q (some event) →
        (ofEvents events).ActsOnFirst p.stack event) ∧
    (∀ before r after p, Parser.Reaches g (endMark tokens) (.initial tokens)
        (before ++ .expand r :: after) p →
      let t := ofEvents (before ++ .expand r :: after)
      ∃ id, ((before = [] ∧ t.children root = [id]) ∨
          ∃ right, (ofEvents before).openLeaves = id :: right) ∧
        t.symbol id = r.lhs ∧ (t.children id).map t.symbol = r.rhs) ∧
    ((∀ r ∈ rules, Symbol.endOfInput ∉ r.rhs) → (∀ t ∈ tokens, t.kind ≠ Symbol.endOfInput) →
      (g.parse tokens).error = none →
      let t := ofEvents (g.parse tokens).events
      ∃ top f, t.children root = [top] ∧ t.symbol top = Symbol.start ∧ f.Valid rules ∧
        f.events = (g.parse tokens).events ∧ t.Shows [top] f ∧
        t.frontier = tokens.map (·.lexeme) ∧ t.leaves.filterMap t.matchedToken = tokens) := by
  have marked := endMark_kind tokens
  refine ⟨?_, ?_, ?_⟩
  · intro events p chain begun
    obtain ⟨w, stack, tracks⟩ := ofEvents_tracks accepted marked chain begun
    refine ⟨⟨w, stack, tracks.symbols⟩, tracks.order, ?_⟩
    intro q event moved
    exact (tracks_move accepted (Parser.move_of_step marked moved) stack tracks).1 event rfl
  · intro before r after p chain
    obtain ⟨q, next, front, moved, back⟩ := chain.split
    by_cases begun : before = []
    · subst begun
      have planted_tracks : (planted Symbol.start).Tracks [Symbol.start] :=
        tracks_planted (by decide)
      obtain ⟨w, stack, tracks⟩ :=
        tracks_of_reaches accepted marked front (w := [Symbol.start]) rfl planted_tracks
      obtain ⟨id, right, opened, symbols⟩ := expanded_node accepted marked moved back stack tracks
      have settled :=
        settled_of_reaches accepted marked chain (w := [Symbol.start]) rfl planted_tracks
      have top := (settled.closed root (Nat.zero_lt_succ _) (by decide : root ∉ [1])).1
      have eq := ofEvents_eq_planted accepted marked chain (List.cons_ne_nil _ _)
      obtain ⟨rfl, _⟩ := List.cons.inj opened
      rw [← eq] at top
      exact ⟨1, Or.inl ⟨rfl, top⟩, by rw [eq]; exact symbols.1, by rw [eq]; exact symbols.2⟩
    · obtain ⟨w, stack, tracks⟩ := ofEvents_tracks accepted marked front begun
      obtain ⟨id, right, opened, symbols⟩ := expanded_node accepted marked moved back stack tracks
      have eq : ofEvents (before ++ .expand r :: after) =
          after.foldl receive ((ofEvents before).receiveRule r) := List.foldl_append
      exact ⟨id, Or.inr ⟨right, opened⟩, by rw [eq]; exact symbols.1, by rw [eq]; exact symbols.2⟩
  · intro unmarked_rules unmarked success
    obtain ⟨f, valid, roots, rfl, same⟩ :=
      Grammar.exists_forest_of_parse accepted unmarked_rules unmarked success
    obtain ⟨last, chain, _⟩ := Grammar.parse_run (Grammar.tableOf_accepted accepted) f.tokens
    rw [same] at chain ⊢
    have begun := events_ne_nil (Grammar.start_named accepted) valid roots
    have eq := ofEvents_eq_planted accepted marked chain begun
    obtain ⟨shows, top, _⟩ := exists_shows accepted valid roots
    rw [← eq] at shows top
    obtain ⟨w, _, tracks⟩ := ofEvents_tracks accepted marked chain begun
    obtain ⟨s, shaped⟩ := tracks.shaped
    have symbol : (ofEvents f.events).symbol 1 = Symbol.start := by
      have symbols := shows.symbols
      rw [roots] at symbols
      exact (List.cons.inj symbols).1
    have texts : (ofEvents f.events).frontier = f.tokens.map (·.lexeme) ∧
        (ofEvents f.events).leaves.filterMap (ofEvents f.events).matchedToken = f.tokens := by
      rw [frontier, shaped.leaves_eq]
      obtain _ | ⟨id, below, rest⟩ := s
      · cases shaped.top
      · obtain ⟨rfl, alone⟩ := List.cons.inj shaped.top
        obtain rfl := Shape.tops_eq_nil alone
        obtain ⟨_, _, links, fits, _⟩ := shaped.fits
        have tops : below.tops = [1] := links.symm.trans top
        have found := Shows.leaves
          (fun r mem => Rule.rhs_ne_nil (Grammar.valid_of_accepted accepted r mem)) valid fits
          (tops.symm ▸ shows)
        rw [Shape.leaves_node, if_neg (by rw [tops]; exact List.cons_ne_nil _ _), Shape.leaves,
          List.append_nil]
        exact found
    exact ⟨1, f, top, symbol, valid, rfl, shows, texts⟩

/-- The tree of two `x` and a `y` has these three texts at its leaves. -/
theorem ofEvents_tracks_manyThenOne :
    ∃ g, Grammar.ofRules Grammar.manyThenOne = .ok g ∧
      let tokens := [⟨"x", "1", .start⟩, ⟨"x", "2", .start⟩, ⟨"y", "3", .start⟩]
      (g.parse tokens).error = none ∧
        (ofEvents (g.parse tokens).events).frontier = ["1", "2", "3"] := by
  let tokens : List Token := [⟨"x", "1", .start⟩, ⟨"x", "2", .start⟩, ⟨"y", "3", .start⟩]
  have run : ((Grammar.ofRules Grammar.manyThenOne).toOption.map fun g =>
      (g.parse tokens).error) = some none := by
    decide +kernel
  cases built : Grammar.ofRules Grammar.manyThenOne with
  | error e => rw [built] at run; cases run
  | ok g =>
    rw [built] at run
    have success : (g.parse tokens).error = none := Option.some.inj run
    obtain ⟨_, _, derives⟩ := ofEvents_tracks_parse Grammar.manyThenOne g built tokens
    obtain ⟨_, _, _, _, _, _, _, texts, _⟩ := derives (by decide) (by decide) success
    exact ⟨g, rfl, success, texts⟩

end TableAsm.Tree
