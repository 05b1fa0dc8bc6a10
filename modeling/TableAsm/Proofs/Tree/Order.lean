import TableAsm.Proofs.Tree.Shape

/-! The order of nodes as their links have it. Of two nodes one is above the other, or they are in
the branches of two siblings. The preorder of a shape lists a node before those below it and before
all that is right of it, and in no other way. -/
namespace TableAsm.Tree

variable {t : Tree}

/-- A node is the given one or below it. -/
inductive Under (t : Tree) (top : NodeId) : NodeId → Prop where
  | self : Under t top top
  | child {p id : NodeId} : Under t top p → id ∈ t.children p → Under t top id

/-- Two nodes are in the branches of two siblings, the first one further left. -/
def LeftOf (t : Tree) (x y : NodeId) : Prop :=
  ∃ p a b, [a, b].Sublist (t.children p) ∧ t.Under a x ∧ t.Under b y

/-- A node comes before another one in preorder. -/
def Precedes (t : Tree) (x y : NodeId) : Prop := (x ≠ y ∧ t.Under x y) ∨ t.LeftOf x y

theorem Under.trans {x y z : NodeId} (first : t.Under x y) (second : t.Under y z) :
    t.Under x z := by
  induction second with
  | self => exact first
  | child _ mem ih => exact .child ih mem

/-- The way down to a node that is further below goes through a child. -/
theorem Under.eq_or_child {x y : NodeId} (h : t.Under x y) :
    x = y ∨ ∃ c ∈ t.children x, t.Under c y := by
  induction h with
  | self => exact Or.inl rfl
  | @child p id _ mem ih =>
    rcases ih with rfl | ⟨c, first, below⟩
    · exact Or.inr ⟨id, mem, .self⟩
    · exact Or.inr ⟨c, first, .child below mem⟩

namespace Fits

variable {parent : Option NodeId} {s : Shape}

theorem parent_of_top (fits : t.Fits parent s) {id : NodeId} (mem : id ∈ s.tops) :
    t.parent id = parent := by
  induction s with
  | nil => cases mem
  | node top below rest _ ih =>
    obtain ⟨_, up, _, _, fitsR⟩ := fits
    rcases List.mem_cons.mp mem with rfl | mem
    · exact up
    · exact ih fitsR mem

/-- The part of a shape that is below one of its nodes. -/
theorem exists_below (fits : t.Fits parent s) {id : NodeId} (mem : id ∈ s.preorder) :
    ∃ below, t.Fits (some id) below ∧ t.children id = below.tops ∧
      ∃ left right, s.preorder = left ++ id :: (below.preorder ++ right) := by
  induction s generalizing parent with
  | nil => cases mem
  | node top below rest ihb ih =>
    obtain ⟨_, _, links, fitsB, fitsR⟩ := fits
    rcases List.mem_cons.mp mem with rfl | mem
    · exact ⟨below, fitsB, links, [], rest.preorder, rfl⟩
    · rcases List.mem_append.mp mem with inside | later
      · obtain ⟨deep, fitsD, links, left, right, split⟩ := ihb fitsB inside
        refine ⟨deep, fitsD, links, top :: left, right ++ rest.preorder, ?_⟩
        simp [split]
      · obtain ⟨deep, fitsD, links, left, right, split⟩ := ih fitsR later
        refine ⟨deep, fitsD, links, top :: (below.preorder ++ left), right, ?_⟩
        simp [split]

theorem parent_of_child (fits : t.Fits parent s) {p c : NodeId} (inside : p ∈ s.preorder)
    (mem : c ∈ t.children p) : t.parent c = some p := by
  obtain ⟨below, fitsB, links, _⟩ := fits.exists_below inside
  exact fitsB.parent_of_top (links ▸ mem)

theorem mem_of_child (fits : t.Fits parent s) {p c : NodeId} (inside : p ∈ s.preorder)
    (mem : c ∈ t.children p) : c ∈ s.preorder := by
  obtain ⟨below, _, links, left, right, split⟩ := fits.exists_below inside
  have beneath := Shape.mem_preorder_of_mem_tops (links ▸ mem)
  simp [split, beneath]

theorem mem_of_under (fits : t.Fits parent s) {x y : NodeId} (inside : x ∈ s.preorder)
    (under : t.Under x y) : y ∈ s.preorder := by
  induction under with
  | self => exact inside
  | child _ mem ih => exact fits.mem_of_child ih mem

/-- A node is a top node of the shape, or a child in it. -/
theorem top_or_child (fits : t.Fits parent s) {id : NodeId} (mem : id ∈ s.preorder) :
    id ∈ s.tops ∨ ∃ p ∈ s.preorder, id ∈ t.children p := by
  induction s generalizing parent with
  | nil => cases mem
  | node top below rest ihb ih =>
    obtain ⟨_, _, links, fitsB, fitsR⟩ := fits
    rcases List.mem_cons.mp mem with rfl | mem
    · exact Or.inl List.mem_cons_self
    · rcases List.mem_append.mp mem with inside | later
      · right
        rcases ihb fitsB inside with child | ⟨p, deep, child⟩
        · exact ⟨top, List.mem_cons_self, links ▸ child⟩
        · exact ⟨p, by simp [deep], child⟩
      · rcases ih fitsR later with beside | ⟨p, deep, child⟩
        · exact Or.inl (List.mem_cons_of_mem _ beside)
        · exact Or.inr ⟨p, by simp [deep], child⟩

theorem under_top (fits : t.Fits parent s) {id : NodeId} (mem : id ∈ s.preorder) :
    ∃ top ∈ s.tops, t.Under top id := by
  induction s generalizing parent with
  | nil => cases mem
  | node top below rest ihb ih =>
    obtain ⟨_, _, links, fitsB, fitsR⟩ := fits
    rcases List.mem_cons.mp mem with rfl | mem
    · exact ⟨id, List.mem_cons_self, .self⟩
    · rcases List.mem_append.mp mem with inside | later
      · obtain ⟨c, child, under⟩ := ihb fitsB inside
        exact ⟨top, List.mem_cons_self, .trans (.child .self (links ▸ child)) under⟩
      · obtain ⟨beside, other, under⟩ := ih fitsR later
        exact ⟨beside, List.mem_cons_of_mem _ other, under⟩

/-- Of two nodes in a row of siblings' branches, the one further left is first in preorder. -/
theorem sublist_of_beside (fits : t.Fits parent s) {a b x y : NodeId}
    (beside : [a, b].Sublist s.tops) (underA : t.Under a x) (underB : t.Under b y) :
    [x, y].Sublist s.preorder := by
  induction s with
  | nil => cases beside
  | node top below rest _ ih =>
    obtain ⟨lt, up, links, fitsB, fitsR⟩ := fits
    rw [Shape.preorder, ← List.cons_append]
    rcases List.sublist_cons_iff.mp beside with later | ⟨_, same, other⟩
    · exact (ih fitsR later).trans (List.sublist_append_right _ _)
    · obtain ⟨rfl, rfl⟩ := List.cons.inj same
      have branch : t.Fits parent (.node a below .nil) := ⟨lt, up, links, fitsB, trivial⟩
      have first := branch.mem_of_under List.mem_cons_self underA
      have second := fitsR.mem_of_under
        (Shape.mem_preorder_of_mem_tops (List.singleton_sublist.mp other)) underB
      rw [Shape.preorder, Shape.preorder, List.append_nil] at first
      exact (List.singleton_sublist.mpr first).append (List.singleton_sublist.mpr second)

theorem sublist_of_precedes (fits : t.Fits parent s)
    (whole : ∀ id, t.children id ≠ [] → id ∈ s.preorder) {x y : NodeId} (h : t.Precedes x y) :
    [x, y].Sublist s.preorder := by
  rcases h with ⟨ne, under⟩ | ⟨p, a, b, beside, underA, underB⟩
  · obtain same | ⟨c, child, deeper⟩ := under.eq_or_child
    · exact absurd same ne
    · have inside := whole x (List.ne_nil_of_mem child)
      obtain ⟨below, fitsB, links, left, right, split⟩ := fits.exists_below inside
      have top := Shape.mem_preorder_of_mem_tops (links ▸ child)
      have deep := fitsB.mem_of_under top deeper
      rw [split]
      apply List.Sublist.trans _ (List.sublist_append_right left _)
      exact (List.singleton_sublist.mpr (List.mem_append_left _ deep)).cons_cons x
  · have some_child : t.children p ≠ [] := by
      rintro none
      rw [none] at beside
      cases beside
    obtain ⟨below, fitsB, links, left, right, split⟩ := fits.exists_below (whole p some_child)
    have inner := fitsB.sublist_of_beside (links ▸ beside) underA underB
    rw [split]
    exact ((inner.trans (List.sublist_append_left _ right)).cons p).trans
      (List.sublist_append_right left _)

theorem pairwise_preorder (fits : t.Fits parent s)
    (beside : ∀ a b, [a, b].Sublist s.tops → ∃ p, [a, b].Sublist (t.children p)) :
    s.preorder.Pairwise fun x y => t.Under x y ∨ t.LeftOf x y := by
  induction s generalizing parent with
  | nil => exact .nil
  | node top below rest ihb ih =>
    obtain ⟨_, _, links, fitsB, fitsR⟩ := fits
    -- `top` and the top nodes right of it are siblings, so their branches are apart
    have apart : ∀ x y, t.Under top x → y ∈ rest.preorder → t.LeftOf x y := by
      intro x y under mem
      obtain ⟨b, other, underB⟩ := fitsR.under_top mem
      obtain ⟨p, siblings⟩ :=
        beside top b ((List.singleton_sublist.mpr other).cons_cons top)
      exact ⟨p, top, b, siblings, under, underB⟩
    have inside : ∀ x ∈ below.preorder, t.Under top x := by
      intro x mem
      obtain ⟨c, child, under⟩ := fitsB.under_top mem
      exact .trans (.child .self (links ▸ child)) under
    rw [Shape.preorder, List.pairwise_cons, List.pairwise_append]
    refine ⟨?_, ihb fitsB ?_, ih fitsR ?_, ?_⟩
    · intro x mem
      rcases List.mem_append.mp mem with here | later
      · exact Or.inl (inside x here)
      · exact Or.inr (apart top x .self later)
    · exact fun a b two => ⟨top, links ▸ two⟩
    · exact fun a b two => beside a b (two.cons top)
    · exact fun x here y later => Or.inr (apart x y (inside x here) later)

theorem leaves_eq_filter (fits : t.Fits parent s) :
    s.leaves = s.preorder.filter fun id => t.children id = [] := by
  induction s generalizing parent with
  | nil => rfl
  | node top below rest ihb ih =>
    obtain ⟨_, _, links, fitsB, fitsR⟩ := fits
    rw [Shape.leaves_node, Shape.preorder, List.filter_cons, List.filter_append, ← ihb fitsB,
      ← ih fitsR, links]
    split
    · rename_i childless
      obtain rfl := Shape.tops_eq_nil childless
      simp
    · rename_i children
      simp [children]

end Fits

namespace Shaped

variable {s : Shape} (shaped : t.Shaped s)

include shaped

theorem mem_preorder_iff {id : NodeId} : id ∈ s.preorder ↔ id < t.size :=
  shaped.all.mem_iff.trans List.mem_range

theorem whole (id : NodeId) (some_child : t.children id ≠ []) : id ∈ s.preorder := by
  rw [shaped.mem_preorder_iff]
  apply Nat.lt_of_not_ge
  intro outside
  apply some_child
  have outside : t.nodes.size ≤ id := outside
  simp [children, Array.getElem?_eq_none outside]

theorem mem_children_iff {p c : NodeId} : c ∈ t.children p ↔ t.parent c = some p := by
  constructor
  · intro mem
    exact shaped.fits.parent_of_child (shaped.whole p (List.ne_nil_of_mem mem)) mem
  · intro up
    have inside : c ∈ s.preorder := by
      rw [shaped.mem_preorder_iff]
      apply Nat.lt_of_not_ge
      intro outside
      have outside : t.nodes.size ≤ c := outside
      simp [parent, Array.getElem?_eq_none outside] at up
    rcases shaped.fits.top_or_child inside with top | ⟨q, _, child⟩
    · rw [shaped.fits.parent_of_top top] at up
      cases up
    · have same := shaped.fits.parent_of_child (shaped.whole q (List.ne_nil_of_mem child)) child
      rw [up] at same
      obtain rfl := Option.some.inj same
      exact child

theorem nodup_children (p : NodeId) : (t.children p).Nodup := by
  by_cases none : t.children p = []
  · rw [none]
    exact List.nodup_nil
  · obtain ⟨below, _, links, left, right, split⟩ := shaped.fits.exists_below (shaped.whole p none)
    have nodup := shaped.nodup
    rw [split] at nodup
    have inner := (List.nodup_cons.mp (List.nodup_append.mp nodup).2.1).2
    rw [links]
    exact (List.nodup_append.mp inner).1.sublist below.tops_sublist

theorem pairwise_preorder : s.preorder.Pairwise fun x y => t.Under x y ∨ t.LeftOf x y := by
  apply shaped.fits.pairwise_preorder
  intro a b two
  rw [shaped.top] at two
  exact absurd two.length_le (by simp)

/-- A node is before another one in preorder when it is above it or left of it. -/
theorem sublist_preorder_iff {x y : NodeId} : [x, y].Sublist s.preorder ↔ t.Precedes x y := by
  constructor
  · intro two
    have ne := shaped.nodup.sublist two
    have order := shaped.pairwise_preorder.sublist two
    simp only [List.nodup_cons, List.mem_singleton] at ne
    exact (List.pairwise_pair.mp order).imp_left fun under => ⟨ne.1, under⟩
  · exact shaped.fits.sublist_of_precedes shaped.whole

theorem mem_leaves_iff {id : NodeId} : id ∈ t.leaves ↔ id < t.size ∧ t.children id = [] := by
  rw [shaped.leaves_eq, shaped.fits.leaves_eq_filter, List.mem_filter, shaped.mem_preorder_iff,
    decide_eq_true_iff]

theorem nodup_leaves : t.leaves.Nodup := by
  rw [shaped.leaves_eq]
  exact shaped.nodup.sublist s.leaves_sublist

theorem pairwise_leaves : t.leaves.Pairwise t.LeftOf := by
  have order := shaped.pairwise_preorder.sublist s.leaves_sublist
  have distinct := shaped.nodup.sublist s.leaves_sublist
  rw [shaped.leaves_eq]
  refine (order.and distinct).imp_of_mem ?_
  rintro x y mem _ ⟨under | left, ne⟩
  · obtain same | ⟨c, child, _⟩ := under.eq_or_child
    · exact absurd same ne
    · rw [shaped.fits.childless mem] at child
      cases child
  · exact left

end Shaped

end TableAsm.Tree
