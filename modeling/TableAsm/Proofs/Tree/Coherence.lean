import TableAsm.Proofs.Tree.Order
import TableAsm.Proofs.Tree.Tracking

/-! What holds of every tree that has grown from the root alone, whatever events it has received.
The events need not be those of a parse: a rule may have any sides, and a rule or token for which no
leaf is open is received as well. -/
namespace TableAsm.Tree

variable {t u v : Tree} {leaf : Nat} {before after : List NodeId}

/-- Links, order and open leaves of a tree fit together. -/
structure Coherent (t : Tree) : Prop where
  shaped : ∃ s, t.Shaped s
  rising : ∀ id p, t.parent id = some p → p < id
  opened : t.openLeaves.Sublist t.leaves
  waiting : ∀ id ∈ t.openLeaves, t.waits id = true
  inner : root ∉ t.openLeaves ∧ t.raw root = none
  texts : ∀ id, t.raw id ≠ none → t.children id = []

/-- Every node stays what it is: it may get a text and further children, but none once it has a
text. -/
structure Keeps (t u : Tree) : Prop where
  grows : t.size ≤ u.size
  links : ∀ id < t.size, u.symbol id = t.symbol id ∧ u.parent id = t.parent id
  children : ∀ id < t.size, t.children id <+: u.children id
  texts : ∀ id, t.raw id ≠ none → u.nodes[id]? = t.nodes[id]?

theorem lt_size_of_raw {id : Nat} (text : t.raw id ≠ none) : id < t.size := by
  apply Nat.lt_of_not_ge
  intro outside
  have outside : t.nodes.size ≤ id := outside
  simp [raw, Array.getElem?_eq_none outside] at text

theorem Keeps.refl (t : Tree) : Keeps t t :=
  ⟨Nat.le_refl _, fun _ _ => ⟨rfl, rfl⟩, fun _ _ => List.prefix_rfl, fun _ _ => rfl⟩

theorem Keeps.congr (keeps : Keeps t u) (same : v.nodes = u.nodes) : Keeps t v := by
  have size : v.size = u.size := congrArg Array.size same
  refine ⟨Nat.le_trans keeps.grows (Nat.le_of_eq size.symm), ?_, ?_, ?_⟩
  · simpa only [symbol, parent, same] using keeps.links
  · simpa only [Tree.children, same] using keeps.children
  · simpa only [same] using keeps.texts

theorem Keeps.trans (first : Keeps t u) (second : Keeps u v) : Keeps t v := by
  refine ⟨Nat.le_trans first.grows second.grows, fun id lt => ?_, fun id lt => ?_,
    fun id text => ?_⟩
  · obtain ⟨symbol, parent⟩ := first.links id lt
    obtain ⟨symbol', parent'⟩ := second.links id (Nat.lt_of_lt_of_le lt first.grows)
    exact ⟨symbol'.trans symbol, parent'.trans parent⟩
  · exact (first.children id lt).trans (second.children id (Nat.lt_of_lt_of_le lt first.grows))
  · have kept := first.texts id text
    have still : u.raw id ≠ none := by simpa only [raw, kept] using text
    exact (second.texts id still).trans kept

theorem splitAtSymbol_eq_some {symbol : String} {ids : List NodeId}
    (found : t.splitAtSymbol symbol ids = some (before, leaf, after)) :
    ids = before ++ leaf :: after := by
  induction ids generalizing before with
  | nil => cases found
  | cons id ids ih =>
    rw [splitAtSymbol] at found
    split at found
    · cases found
      rfl
    · obtain ⟨⟨front, x, back⟩, later, same⟩ := Option.map_eq_some_iff.mp found
      cases same
      rw [ih later, List.cons_append]

/-- Where an entry of a list stands once, a sublist with that entry is cut there as well. -/
theorem sublist_cut {α : Type} {xs ys left right : List α} {a : α} (once : a ∉ left ∧ a ∉ right)
    (sub : (xs ++ a :: ys).Sublist (left ++ a :: right)) : xs.Sublist left ∧ ys.Sublist right := by
  induction left generalizing xs with
  | nil =>
    cases xs with
    | nil => exact ⟨List.nil_sublist _, List.cons_sublist_cons.mp sub⟩
    | cons x xs =>
      have inside : a ∈ right := sub.of_cons_cons.subset (by simp)
      exact absurd inside once.2
  | cons b left ih =>
    simp only [List.mem_cons, not_or] at once
    obtain ⟨⟨other, absent⟩, absent'⟩ := once
    rcases List.sublist_cons_iff.mp sub with skipped | ⟨r, same, rest⟩
    · obtain ⟨front, back⟩ := ih ⟨absent, absent'⟩ skipped
      exact ⟨front.cons b, back⟩
    · cases xs with
      | nil => exact absurd (List.cons.inj same).1 other
      | cons x xs =>
        obtain ⟨rfl, rfl⟩ := List.cons.inj same
        obtain ⟨front, back⟩ := ih ⟨absent, absent'⟩ rest
        exact ⟨front.cons_cons x, back⟩

section Children

variable {p : Nat} (w : List String)

/-- A node of a tree that has got children is an old one, or one of them. -/
theorem node_addChildren_cases (inside : p < t.size) (id : Nat) :
    id < t.size ∨ (t.size ≤ id ∧ ∃ s,
        (t.addChildren p w).1.nodes[id]? = some ⟨s, none, none, some p, []⟩) ∨
      (t.addChildren p w).1.nodes[id]? = none := by
  have size : (t.addChildren p w).1.nodes.size = t.size + w.length := size_addChildren t p w
  by_cases old : id < t.size
  · exact Or.inl old
  · by_cases new : id < t.size + w.length
    · have mem : id ∈ List.range' t.size w.length := List.mem_range'_1.mpr ⟨by omega, new⟩
      exact Or.inr (Or.inl ⟨by omega, (fresh_addChildren t p w inside).1.exists_node mem⟩)
    · exact Or.inr (Or.inr (Array.getElem?_eq_none (by omega)))

theorem keeps_addChildren (blank : t.raw p = none) : Keeps t (t.addChildren p w).1 := by
  have links := fun (n : Nat) (lt : n < t.size) => links_expandLeaf t p [] ⟨"", w⟩ lt
  refine ⟨?_, fun id lt => ⟨(links id lt).1, (links id lt).2.2.1⟩, fun id lt => ?_,
    fun id text => ?_⟩
  · rw [size_addChildren]
    exact Nat.le_add_right _ _
  · have same : (t.addChildren p w).1.children id = _ := (links id lt).2.2.2
    rw [same]
    split
    · exact List.prefix_append _ _
    · exact List.prefix_rfl
  · rw [node_addChildren t p w (lt_size_of_raw text), if_neg]
    rintro rfl
    exact text blank

theorem rising_addChildren (inside : p < t.size)
    (rising : ∀ id q, t.parent id = some q → q < id) {id q : NodeId}
    (up : (t.addChildren p w).1.parent id = some q) : q < id := by
  rcases node_addChildren_cases w inside id with old | ⟨new, s, node⟩ | none
  · have same : (t.addChildren p w).1.parent id = t.parent id :=
      (links_expandLeaf t p [] ⟨"", w⟩ old).2.2.1
    exact rising id q (same ▸ up)
  · simp only [parent, node, Option.bind_some, Option.some.injEq] at up
    exact up ▸ Nat.lt_of_lt_of_le inside new
  · simp [parent, none] at up

theorem texts_addChildren (inside : p < t.size) (blank : t.raw p = none)
    (texts : ∀ id, t.raw id ≠ none → t.children id = []) (id : NodeId)
    (text : (t.addChildren p w).1.raw id ≠ none) : (t.addChildren p w).1.children id = [] := by
  rcases node_addChildren_cases w inside id with old | ⟨_, s, node⟩ | none
  · obtain ⟨_, raw, _, children⟩ := links_expandLeaf t p [] ⟨"", w⟩ old
    have raw : (t.addChildren p w).1.raw id = t.raw id := raw
    have children : (t.addChildren p w).1.children id = _ := children
    rw [raw] at text
    rw [children, if_neg, texts id text]
    rintro rfl
    exact text blank
  · simp [children, node]
  · simp [raw, none] at text

end Children

theorem Shaped.congr {s : Shape} (shaped : t.Shaped s) (same : u.nodes = t.nodes) : u.Shaped s := by
  have size : u.size = t.size := congrArg Array.size same
  refine ⟨shaped.fits.congr (Nat.le_of_eq size.symm) fun n _ => ?_, shaped.top, ?_⟩
  · simp [parent, children, same]
  · rw [ids, size]
    exact shaped.all

theorem Fits.append {parent : Option NodeId} {a b : Shape} (first : t.Fits parent a)
    (second : t.Fits parent b) : t.Fits parent (a.append b) := by
  induction a with
  | nil => exact second
  | node id below rest _ ih =>
    obtain ⟨lt, up, links, fitsB, fitsR⟩ := first
    exact ⟨lt, up, links, fitsB, ih fitsR⟩

/-- A node that is put below the root comes right of all others. -/
theorem Shaped.plant {s : Shape} (shaped : t.Shaped s) (symbol : String) :
    ∃ s', (t.addChild root symbol).Shaped s' ∧
      s'.leaves = (s.leaves.filter (· ≠ root)) ++ [t.size] := by
  obtain _ | ⟨top, below, rest⟩ := s
  · cases shaped.top
  · have nodup := shaped.nodup
    have all := shaped.all
    obtain ⟨rfl, alone⟩ := List.cons.inj shaped.top
    obtain rfl := Shape.tops_eq_nil alone
    obtain ⟨inside, up, links, fits, _⟩ := shaped.fits
    have size : (t.addChild root symbol).size = t.size + 1 := size_addChild t root symbol
    have kept := fun (n : Nat) (lt : n < t.size) => links_expandLeaf t root [] ⟨"", [symbol]⟩ lt
    have hang := (fresh_addChildren t root [symbol] inside).1.links.1
    simp only [Shape.preorder, List.append_nil, List.nodup_cons] at nodup all
    refine ⟨.node root (below.append (.node t.size .nil .nil)) .nil, ⟨?_, rfl, ?_⟩, ?_⟩
    · have old : (t.addChild root symbol).Fits (some root) below := by
        apply fits.congr (by omega)
        intro n mem
        have lt : n < t.size := List.mem_range.mp (all.mem_iff.mp (by simp [mem]))
        obtain ⟨_, _, sameUp, sameDown⟩ := kept n lt
        have other : root ≠ n := fun same => nodup.1 (same ▸ mem)
        rw [if_neg other] at sameDown
        exact ⟨sameUp, sameDown⟩
      have new : (t.addChild root symbol).Fits (some root) (.row [t.size]) := fits_row hang
      obtain ⟨_, _, sameUp, sameDown⟩ := kept root inside
      rw [if_pos rfl, links] at sameDown
      refine ⟨Nat.lt_of_lt_of_le inside (by omega), sameUp.trans up, ?_, old.append new, trivial⟩
      rw [Shape.tops_append]
      exact sameDown
    · have more := all.append_right [t.size]
      rw [ids, ← List.range_succ] at more
      rw [ids, size]
      simpa using more
    · have inner : ∀ n ∈ below.leaves, n ≠ root := by
        rintro n mem rfl
        exact nodup.1 (Shape.mem_preorder_of_mem_leaves mem)
      have kept_leaves : below.leaves.filter (· ≠ root) = below.leaves :=
        List.filter_eq_self.mpr fun n mem => decide_eq_true (inner n mem)
      rw [Shape.leaves_node, Shape.leaves_node, Shape.tops_append, if_neg (by simp),
        Shape.leaves_append, Shape.leaves, Shape.leaves, Shape.leaves, List.append_nil,
        List.append_nil]
      split
      · rename_i none
        obtain rfl := Shape.tops_eq_nil none
        simp
      · rw [kept_leaves]

/-- Where a leaf is expanded, what waits below it comes in its place. -/
theorem Shaped.expand {s : Shape} (shaped : t.Shaped s) (mem : leaf ∈ s.leaves) (w : List String) :
    ∃ s', (t.addChildren leaf w).1.Shaped s' ∧ ∃ left mid right,
      s.leaves = left ++ leaf :: right ∧ s'.leaves = left ++ (mid ++ right) ∧
      (waitingOf (List.range' t.size w.length) w).Sublist mid := by
  by_cases some_rhs : w = []
  · subst some_rhs
    obtain ⟨left, right, split⟩ := List.append_of_mem mem
    exact ⟨s, shaped, left, [leaf], right, split, by simpa using split, List.nil_sublist _⟩
  · have some_fresh : List.range' t.size w.length ≠ [] := by simpa using some_rhs
    obtain ⟨_, left, right, split, grown⟩ := Shape.graft_leaf some_fresh shaped.nodup mem
    refine ⟨_, ?_, left, _, right, split, grown, waitingOf_sublist _ _⟩
    exact (shaped.expandLeaf mem [] ⟨"", w⟩ some_rhs).congr rfl

theorem Coherent.blank (h : t.Coherent) {id : NodeId} (mem : id ∈ t.openLeaves) :
    t.raw id = none ∧ t.symbol id ≠ Symbol.empty := by
  have ready := h.waiting id mem
  simp only [waits, Bool.and_eq_true, bne_iff_ne, Option.isNone_iff_eq_none] at ready
  exact ready

/-- A leaf is expanded where the open leaves left and right of it are known. -/
theorem Coherent.expand (h : t.Coherent) (blank : t.raw leaf = none)
    (cut : (before ++ leaf :: after).Sublist t.leaves)
    (others : ∀ id, id ∈ before ∨ id ∈ after → id ∈ t.openLeaves) {w : List String}
    (nodes : u.nodes = (t.addChildren leaf w).1.nodes)
    (opens : u.openLeaves = before ++ (t.addChildren leaf w).2 ++ after) : u.Coherent := by
  obtain ⟨s, shaped⟩ := h.shaped
  have mem : leaf ∈ s.leaves := by
    rw [← shaped.leaves_eq]
    exact cut.subset (by simp)
  have inside : leaf < t.size := shaped.lt_size (Shape.mem_preorder_of_mem_leaves mem)
  obtain ⟨s', shaped', left, mid, right, split, grown, sub⟩ := shaped.expand mem w
  have shapedU : u.Shaped s' := shaped'.congr nodes
  obtain ⟨fresh, fresh_open⟩ := fresh_addChildren t leaf w inside
  have old : ∀ n : Nat, n < t.size → u.symbol n = t.symbol n ∧ u.raw n = t.raw n := by
    intro n lt
    obtain ⟨symbol, raw, _⟩ := links_expandLeaf t leaf [] ⟨"", w⟩ lt
    rw [Tree.symbol, Tree.raw, nodes]
    exact ⟨symbol, raw⟩
  have freshU : u.Fresh leaf (List.range' t.size w.length) w := by
    simpa only [Fresh, nodes] using fresh
  rw [fresh_open] at opens
  have rootInside : root < t.size := Nat.lt_of_le_of_lt (Nat.zero_le leaf) inside
  refine ⟨⟨s', shapedU⟩, fun id p up => ?_, ?_, fun id here => ?_, ⟨?_, ?_⟩, fun id text => ?_⟩
  · rw [parent, nodes] at up
    exact rising_addChildren w inside h.rising up
  · -- the leaf stands once, so the open leaves are cut where all leaves are
    rw [shaped.leaves_eq, split] at cut
    obtain ⟨front, back⟩ := sublist_cut (shaped.leaf_once split) cut
    rw [opens, shapedU.leaves_eq, grown, List.append_assoc]
    exact front.append (sub.append back)
  · rw [opens, List.append_assoc, List.mem_append, List.mem_append] at here
    have known : (id ∈ before ∨ id ∈ after) → u.waits id = true := by
      intro side
      have waiting := h.waiting id (others id side)
      obtain ⟨symbol, raw⟩ := old id (shaped.mem_leaves_iff.mp (h.opened.subset (others id side))).1
      rwa [waits, raw, symbol]
    rcases here with left | new | right
    · exact known (Or.inl left)
    · rw [← freshU.links.2.1] at new
      exact (List.mem_filter.mp new).2
    · exact known (Or.inr right)
  · intro here
    rw [opens, List.append_assoc, List.mem_append, List.mem_append] at here
    rcases here with left | new | right
    · exact h.inner.1 (others root (Or.inl left))
    · have range := List.mem_range'_1.mp ((waitingOf_sublist _ _).subset new)
      exact absurd rootInside (Nat.not_lt_of_le range.1)
    · exact h.inner.1 (others root (Or.inr right))
  · rw [(old root rootInside).2]
    exact h.inner.2
  · rw [raw, nodes] at text
    rw [children, nodes]
    exact texts_addChildren w inside blank h.texts id text

/-- A node that is put below the root is a leaf right of all open ones. -/
theorem Coherent.plant (h : t.Coherent) (symbol : String) :
    (t.addChild root symbol).Coherent ∧
      (t.openLeaves ++ [t.size]).Sublist (t.addChild root symbol).leaves ∧
      (t.addChild root symbol).raw t.size = none := by
  obtain ⟨s, shaped⟩ := h.shaped
  have inside : root < t.size := shaped.lt_size (by
    apply Shape.mem_preorder_of_mem_tops
    rw [shaped.top]
    exact List.mem_cons_self)
  obtain ⟨s', shaped', leaves⟩ := shaped.plant symbol
  have old : ∀ n : Nat, n < t.size → (t.addChild root symbol).symbol n = t.symbol n ∧
      (t.addChild root symbol).raw n = t.raw n := by
    intro n lt
    obtain ⟨same, raw, _⟩ := links_expandLeaf t root [] ⟨"", [symbol]⟩ lt
    exact ⟨same, raw⟩
  have others : ∀ id ∈ t.openLeaves, id ≠ root := by
    rintro id mem rfl
    exact h.inner.1 mem
  have further : (t.openLeaves ++ [t.size]).Sublist (t.addChild root symbol).leaves := by
    have kept := h.opened.filter (· ≠ root)
    rw [List.filter_eq_self.mpr fun id mem => decide_eq_true (others id mem),
      shaped.leaves_eq] at kept
    rw [shaped'.leaves_eq, leaves]
    exact kept.append (List.Sublist.refl _)
  refine ⟨⟨⟨s', shaped'⟩, fun id p up => ?_, ?_, fun id mem => ?_, ⟨h.inner.1, ?_⟩,
    fun id text => ?_⟩, further, ?_⟩
  · exact rising_addChildren [symbol] inside h.rising up
  · exact (List.sublist_append_left _ _).trans further
  · obtain ⟨same, raw⟩ := old id (shaped.mem_leaves_iff.mp (h.opened.subset mem)).1
    have waiting := h.waiting id mem
    rwa [waits, raw, same]
  · rw [(old root inside).2]
    exact h.inner.2
  · exact texts_addChildren [symbol] inside h.inner.2 h.texts id text
  · rw [raw, node_addChild_new]
    rfl

theorem parent_fillLeaf (right : List NodeId) (token : Token) (n : Nat) :
    (t.fillLeaf leaf right token).parent n = t.parent n := by
  simp only [parent, node_fillLeaf]
  split
  · cases t.nodes[n]? <;> rfl
  · rfl

theorem keeps_fillLeaf (blank : t.raw leaf = none) (right : List NodeId) (token : Token) :
    Keeps t (t.fillLeaf leaf right token) := by
  have links := fun (n : Nat) (lt : n < t.size) => links_fillLeaf t leaf right token lt
  refine ⟨Nat.le_of_eq (size_fillLeaf t leaf right token).symm,
    fun id lt => ⟨(links id lt).1, (links id lt).2.2.1⟩, fun id lt => ?_, fun id text => ?_⟩
  · rw [(links id lt).2.2.2]
  · rw [node_fillLeaf, if_neg]
    rintro rfl
    exact text blank

theorem Coherent.fill (h : t.Coherent) (cut : t.openLeaves = before ++ leaf :: after)
    (token : Token) : (t.fillLeaf leaf (before ++ after) token).Coherent := by
  obtain ⟨s, shaped⟩ := h.shaped
  have shapedU : (t.fillLeaf leaf (before ++ after) token).Shaped s :=
    shaped.fillLeaf (before ++ after) token
  have mem : leaf ∈ t.openLeaves := by simp [cut]
  have fewer : (before ++ after).Sublist t.openLeaves := by
    rw [cut]
    exact (List.Sublist.refl before).append (List.sublist_cons_self leaf after)
  have nodup := shaped.nodup_leaves.sublist h.opened
  rw [cut, List.nodup_middle, List.nodup_cons] at nodup
  have links := fun n (lt : n < t.size) => links_fillLeaf t leaf (before ++ after) token lt
  have size := size_fillLeaf t leaf (before ++ after) token
  have inside : ∀ id ∈ t.openLeaves, id < t.size := fun id mem =>
    (shaped.mem_leaves_iff.mp (h.opened.subset mem)).1
  have rootInside : root < t.size := Nat.lt_of_le_of_lt (Nat.zero_le leaf) (inside leaf mem)
  refine ⟨⟨s, shapedU⟩, fun id p up => ?_, ?_, fun id here => ?_, ⟨?_, ?_⟩, fun id text => ?_⟩
  · rw [parent_fillLeaf] at up
    exact h.rising id p up
  · rw [shapedU.leaves_eq, ← shaped.leaves_eq]
    exact fewer.trans h.opened
  · have known := fewer.subset here
    obtain ⟨symbol, raw, _⟩ := links id (inside id known)
    have other : leaf ≠ id := by
      rintro rfl
      exact nodup.1 here
    rw [if_neg other] at raw
    have waiting := h.waiting id known
    rwa [waits, raw, symbol]
  · exact fun here => h.inner.1 (fewer.subset here)
  · have other : leaf ≠ root := by
      rintro rfl
      exact h.inner.1 mem
    rw [(links root rootInside).2.1, if_neg other]
    exact h.inner.2
  · have lt : id < t.size := size ▸ lt_size_of_raw text
    obtain ⟨_, raw, _, children⟩ := links id lt
    rw [children]
    by_cases here : leaf = id
    · exact here ▸ (shaped.mem_leaves_iff.mp (h.opened.subset mem)).2
    · rw [raw, if_neg here] at text
      exact h.texts id text

theorem Coherent.receiveRule (h : t.Coherent) (rule : Rule) :
    (t.receiveRule rule).Coherent ∧ Keeps t (t.receiveRule rule) := by
  cases found : t.splitAtSymbol rule.lhs t.openLeaves with
  | some parts =>
    obtain ⟨before, leaf, after⟩ := parts
    have cut := splitAtSymbol_eq_some found
    have same : t.receiveRule rule = ⟨(t.addChildren leaf rule.rhs).1.nodes,
        before ++ (t.addChildren leaf rule.rhs).2 ++ after⟩ := by
      rw [Tree.receiveRule, found]
    have mem : leaf ∈ t.openLeaves := by simp [cut]
    have others : ∀ id, id ∈ before ∨ id ∈ after → id ∈ t.openLeaves := by
      intro id side
      rw [cut]
      rcases side with left | right
      · simp [left]
      · simp [right]
    rw [same]
    exact ⟨h.expand (h.blank mem).1 (cut ▸ h.opened) others rfl rfl,
      (keeps_addChildren rule.rhs (h.blank mem).1).congr rfl⟩
  | none =>
    obtain ⟨planted, cut, blank⟩ := h.plant rule.lhs
    have same : t.receiveRule rule =
        ⟨((t.addChild root rule.lhs).addChildren t.size rule.rhs).1.nodes,
          t.openLeaves ++ ((t.addChild root rule.lhs).addChildren t.size rule.rhs).2⟩ := by
      rw [Tree.receiveRule, found]
    rw [same]
    refine ⟨planted.expand blank cut ?_ rfl (List.append_nil _).symm, ?_⟩
    · rintro id (left | none)
      · exact left
      · cases none
    · have first : Keeps t (t.addChild root rule.lhs) := keeps_addChildren [rule.lhs] h.inner.2
      exact (first.trans (keeps_addChildren rule.rhs blank)).congr rfl

theorem Coherent.receiveToken (h : t.Coherent) (token : Token) :
    (t.receiveToken token).Coherent ∧ Keeps t (t.receiveToken token) := by
  cases found : t.splitAtSymbol token.kind t.openLeaves with
  | some parts =>
    obtain ⟨before, leaf, after⟩ := parts
    have cut := splitAtSymbol_eq_some found
    have same : t.receiveToken token = t.fillLeaf leaf (before ++ after) token := by
      rw [Tree.receiveToken, found]
      rfl
    have mem : leaf ∈ t.openLeaves := by simp [cut]
    rw [same]
    exact ⟨h.fill cut token, keeps_fillLeaf (h.blank mem).1 _ token⟩
  | none =>
    have same : t.receiveToken token = t := by rw [Tree.receiveToken, found]
    rw [same]
    exact ⟨h, .refl t⟩

theorem Coherent.receive (h : t.Coherent) (event : ParseEvent) :
    (t.receive event).Coherent ∧ Keeps t (t.receive event) := by
  cases event with
  | expand rule => exact h.receiveRule rule
  | accept token => exact h.receiveToken token

theorem coherent_new : new.Coherent := by
  have shaped : new.Shaped (.node root .nil .nil) :=
    ⟨⟨Nat.zero_lt_succ _, rfl, rfl, trivial, trivial⟩, rfl, List.Perm.refl _⟩
  refine ⟨⟨_, shaped⟩, fun id p up => ?_, List.nil_sublist _, fun id mem => ?_,
    ⟨List.not_mem_nil, rfl⟩, fun id text => ?_⟩
  · have child := shaped.mem_children_iff.mpr up
    have inside := shaped.mem_preorder_iff.mp (shaped.whole p (List.ne_nil_of_mem child))
    obtain rfl : p = 0 := Nat.lt_one_iff.mp inside
    cases child
  · cases mem
  · have inside : id < 1 := lt_size_of_raw text
    obtain rfl : id = 0 := Nat.lt_one_iff.mp inside
    rfl

theorem coherent_ofEvents (events : List ParseEvent) : (ofEvents events).Coherent := by
  have run : ∀ t : Tree, t.Coherent → (events.foldl Tree.receive t).Coherent := by
    induction events with
    | nil => exact fun t h => h
    | cons event events ih => exact fun t h => ih _ (h.receive event).1
  exact run new coherent_new

/-- The number of steps from a node up to one without a parent. -/
inductive Climbs (t : Tree) : NodeId → Nat → Prop where
  | top {id : NodeId} : t.parent id = none → Climbs t id 0
  | up {id p : NodeId} {n : Nat} : t.parent id = some p → Climbs t p n → Climbs t id (n + 1)

theorem climbs_depthWithin (rising : ∀ id p, t.parent id = some p → p < id) {fuel id : Nat}
    (enough : id < fuel) : t.Climbs id (t.depthWithin fuel id) := by
  -- a parent has a smaller number, so the fuel stays above it
  induction fuel generalizing id with
  | zero => exact absurd enough (Nat.not_lt_zero id)
  | succ fuel ih =>
    rw [depthWithin]
    cases up : t.parent id with
    | none => exact .top up
    | some p => exact .up up (ih (Nat.lt_of_lt_of_le (rising id p up) (Nat.le_of_lt_succ enough)))

/-- All trees that come about from the root alone are sound. Every node but the root is once a child
of its parent, which came into being before it, and a child of no other node; so the way up from a
node ends, and the childless nodes are listed once each from left to right, with no need for more
fuel. The open leaves are some of these in their order, and wait for a rule or a token. What is
received next changes no node but by a text or by further children, and no node that has a text. -/
theorem ofEvents_sound (events : List ParseEvent) :
    let t := ofEvents events
    (t.parent root = none ∧ (∀ id < t.size, id ≠ root → ∃ p < id, t.parent id = some p) ∧
      ∀ p id, (t.children p).count id = if t.parent id = some p then 1 else 0) ∧
    (∀ id < t.size, t.Climbs id (t.depth id)) ∧
    (t.leaves.Nodup ∧ (∀ id, id ∈ t.leaves ↔ id < t.size ∧ t.children id = []) ∧
      t.leaves.Pairwise t.LeftOf ∧ ∀ more, t.leavesBelow (t.size + more) [root] = t.leaves) ∧
    (t.openLeaves.Nodup ∧ t.openLeaves.Sublist t.leaves ∧ ∀ id ∈ t.openLeaves,
      t.children id = [] ∧ t.raw id = none ∧ t.symbol id ≠ Symbol.empty) ∧
    ∀ event, Keeps t (t.receive event) := by
  intro t
  have h : t.Coherent := coherent_ofEvents events
  obtain ⟨s, shaped⟩ := h.shaped
  refine ⟨⟨?_, fun id lt other => ?_, fun p id => ?_⟩, fun id lt => climbs_depthWithin h.rising lt,
    ⟨shaped.nodup_leaves, fun id => shaped.mem_leaves_iff, shaped.pairwise_leaves, ?_⟩,
    ⟨shaped.nodup_leaves.sublist h.opened, h.opened, fun id mem => ?_⟩,
    fun event => (h.receive event).2⟩
  · apply shaped.fits.parent_of_top
    rw [shaped.top]
    exact List.mem_cons_self
  · rcases shaped.fits.top_or_child (shaped.mem_preorder_iff.mpr lt) with top | ⟨p, _, child⟩
    · rw [shaped.top] at top
      exact absurd (List.mem_singleton.mp top) other
    · have up := shaped.mem_children_iff.mp child
      exact ⟨p, h.rising id p up, up⟩
  · rw [(shaped.nodup_children p).count]
    simp only [shaped.mem_children_iff]
  · intro more
    have all := leavesBelow_append shaped.fits more []
    have size : s.preorder.length = t.size := by rw [shaped.all.length_eq, ids, List.length_range]
    rw [shaped.top, size, List.append_nil] at all
    rw [shaped.leaves_eq, all]
    cases more <;> simp [leavesBelow]
  · exact ⟨(shaped.mem_leaves_iff.mp (h.opened.subset mem)).2, h.blank mem⟩

end TableAsm.Tree
