import Mathlib.Data.List.Nodup
import TableAsm.Tree.Basic

/-! Shapes of trees. A tree stores its nodes in a row and links them by numbers; a shape is the row
of subtrees that the links spell out. A shape that fits a tree gives its leaves in order, and
growing a leaf grows the shape at that leaf. -/
namespace TableAsm

/-- A row of subtrees, by the first node, what is below it, and the rest. -/
inductive Shape where
  | nil
  | node (id : NodeId) (below rest : Shape)

namespace Shape

@[simp] def tops : Shape → List NodeId
  | nil => []
  | node id _ rest => id :: rest.tops

/-- All nodes, each before those below it, from left to right. -/
@[simp] def preorder : Shape → List NodeId
  | nil => []
  | node id below rest => id :: (below.preorder ++ rest.preorder)

/-- The nodes with nothing below them, from left to right. -/
@[simp] def leaves : Shape → List NodeId
  | nil => []
  | node id nil rest => id :: rest.leaves
  | node _ (node id below beside) rest => (node id below beside).leaves ++ rest.leaves

/-- A row of childless nodes. -/
@[simp] def row : List NodeId → Shape
  | [] => nil
  | id :: ids => node id nil (row ids)

/-- Puts one row of subtrees behind another. -/
@[simp] def append : Shape → Shape → Shape
  | nil, other => other
  | node id below rest, other => node id below (rest.append other)

/-- Puts childless nodes below a leaf. -/
@[simp] def graft (leaf : NodeId) (fresh : List NodeId) : Shape → Shape
  | nil => nil
  | node id below rest =>
    if id = leaf then node id (row fresh) (rest.graft leaf fresh)
    else node id (below.graft leaf fresh) (rest.graft leaf fresh)

@[simp] theorem tops_row (ids : List NodeId) : (row ids).tops = ids := by
  induction ids with
  | nil => rfl
  | cons id ids ih => exact congrArg (id :: ·) ih

@[simp] theorem preorder_row (ids : List NodeId) : (row ids).preorder = ids := by
  induction ids with
  | nil => rfl
  | cons id ids ih => exact congrArg (id :: ·) ih

@[simp] theorem leaves_row (ids : List NodeId) : (row ids).leaves = ids := by
  induction ids with
  | nil => rfl
  | cons id ids ih => exact congrArg (id :: ·) ih

theorem tops_eq_nil {s : Shape} (h : s.tops = []) : s = nil := by
  cases s with
  | nil => rfl
  | node id below rest => cases h

theorem leaves_node (id : NodeId) (below rest : Shape) :
    (node id below rest).leaves =
      (if below.tops = [] then [id] else below.leaves) ++ rest.leaves := by
  cases below <;> rfl

@[simp] theorem tops_append (a b : Shape) : (a.append b).tops = a.tops ++ b.tops := by
  induction a with
  | nil => rfl
  | node id below rest _ ih => exact congrArg (id :: ·) ih

@[simp] theorem preorder_append (a b : Shape) :
    (a.append b).preorder = a.preorder ++ b.preorder := by
  induction a with
  | nil => rfl
  | node id below rest _ ih => simp [ih]

@[simp] theorem leaves_append (a b : Shape) : (a.append b).leaves = a.leaves ++ b.leaves := by
  induction a with
  | nil => rfl
  | node id below rest _ ih => simp [leaves_node, ih]

/-- A row of subtrees can be cut where its tops are cut. -/
theorem exists_append {s : Shape} {before after : List NodeId} (tops : s.tops = before ++ after) :
    ∃ a b : Shape, s = a.append b ∧ a.tops = before ∧ b.tops = after := by
  induction before generalizing s with
  | nil => exact ⟨nil, s, rfl, rfl, tops⟩
  | cons x before ih =>
    cases s with
    | nil => cases tops
    | node id below rest =>
      obtain ⟨rfl, tail⟩ := List.cons.inj tops
      obtain ⟨a, b, rfl, rfl, same⟩ := ih tail
      exact ⟨node id below a, b, rfl, rfl, same⟩

@[simp] theorem tops_graft (leaf : NodeId) (fresh : List NodeId) (s : Shape) :
    (s.graft leaf fresh).tops = s.tops := by
  induction s with
  | nil => rfl
  | node id below rest _ ih =>
    rw [graft]
    split <;> simp [ih]

theorem tops_sublist (s : Shape) : s.tops.Sublist s.preorder := by
  induction s with
  | nil => exact List.Sublist.refl []
  | node id below rest _ ih => exact (ih.trans (List.sublist_append_right _ _)).cons_cons id

theorem mem_preorder_of_mem_tops {s : Shape} {id : NodeId} (mem : id ∈ s.tops) :
    id ∈ s.preorder :=
  s.tops_sublist.subset mem

theorem leaves_sublist (s : Shape) : s.leaves.Sublist s.preorder := by
  induction s with
  | nil => exact List.Sublist.refl []
  | node id below rest ihb ih =>
    rw [leaves_node, preorder, ← List.cons_append]
    refine List.Sublist.append ?_ ih
    split
    · exact List.singleton_sublist.mpr List.mem_cons_self
    · exact ihb.cons id

theorem mem_preorder_of_mem_leaves {s : Shape} {id : NodeId} (mem : id ∈ s.leaves) :
    id ∈ s.preorder :=
  s.leaves_sublist.subset mem

theorem graft_of_not_mem {leaf : NodeId} (fresh : List NodeId) {s : Shape}
    (absent : leaf ∉ s.preorder) : s.graft leaf fresh = s := by
  induction s with
  | nil => rfl
  | node id below rest ihb ih =>
    simp only [preorder, List.mem_cons, List.mem_append, not_or] at absent
    rw [graft, if_neg (Ne.symm absent.1), ihb absent.2.1, ih absent.2.2]

/-- What a graft does at the one place of its leaf: to the nodes, and to the leaves in order. -/
theorem graft_leaf {leaf : NodeId} {fresh : List NodeId} (some_fresh : fresh ≠ []) {s : Shape}
    (nodup : s.preorder.Nodup) (mem : leaf ∈ s.leaves) :
    (s.graft leaf fresh).preorder.Perm (s.preorder ++ fresh) ∧
      ∃ left right, s.leaves = left ++ leaf :: right ∧
        (s.graft leaf fresh).leaves = left ++ (fresh ++ right) := by
  induction s with
  | nil => cases mem
  | node id below rest ihb ih =>
    obtain ⟨notTop, nodupB, nodupR, apart⟩ : id ∉ below.preorder ++ rest.preorder ∧
        below.preorder.Nodup ∧ rest.preorder.Nodup ∧
        below.preorder.Disjoint rest.preorder := by
      simpa [List.nodup_append'] using nodup
    rw [leaves_node] at mem ⊢
    rcases List.mem_append.mp mem with here | later
    · have absent : leaf ∉ rest.preorder := by
        split at here
        · rw [List.mem_singleton.mp here]
          exact fun mem => notTop (List.mem_append_right _ mem)
        · exact fun mem => apart (mem_preorder_of_mem_leaves here) mem
      split at here
      · rename_i childless
        obtain rfl := List.mem_singleton.mp here
        obtain rfl := tops_eq_nil childless
        rw [graft, if_pos rfl, graft_of_not_mem fresh absent]
        refine ⟨?_, [], rest.leaves, rfl, ?_⟩
        · simpa using List.perm_append_comm
        · rw [leaves_node, tops_row, if_neg some_fresh, leaves_row]
          rfl
      · rename_i children
        have other : id ≠ leaf := by
          rintro rfl
          exact notTop (List.mem_append_left _ (mem_preorder_of_mem_leaves here))
        obtain ⟨perm, left, right, split, grown⟩ := ihb nodupB here
        rw [graft, if_neg other, graft_of_not_mem fresh absent]
        refine ⟨?_, left, right ++ rest.leaves, ?_, ?_⟩
        · simp only [preorder, List.cons_append, List.append_assoc]
          refine (List.Perm.append_right rest.preorder perm).cons id |>.trans ?_
          rw [List.append_assoc]
          exact (List.perm_append_comm.append_left _).cons id
        · rw [if_neg children, split, List.append_assoc]
          rfl
        · rw [leaves_node, tops_graft, if_neg children, grown]
          simp
    · have inRest := mem_preorder_of_mem_leaves later
      have other : id ≠ leaf := by
        rintro rfl
        exact notTop (List.mem_append_right _ inRest)
      have absent : leaf ∉ below.preorder := fun mem => apart mem inRest
      obtain ⟨perm, left, right, split, grown⟩ := ih nodupR later
      rw [graft, if_neg other, graft_of_not_mem fresh absent]
      refine ⟨?_, (if below.tops = [] then [id] else below.leaves) ++ left, right, ?_, ?_⟩
      · simp only [preorder, List.cons_append, List.append_assoc]
        exact (perm.append_left _).cons id
      · rw [split, List.append_assoc]
      · rw [leaves_node, grown, List.append_assoc]

end Shape

namespace Tree

/-- A shape spells out the links of a tree, where its top nodes hang below a parent. -/
@[simp] def Fits (t : Tree) : Option NodeId → Shape → Prop
  | _, .nil => True
  | parent, .node id below rest =>
    id < t.size ∧ t.parent id = parent ∧ t.children id = below.tops ∧
      t.Fits (some id) below ∧ t.Fits parent rest

instance decidableFits (t : Tree) :
    (parent : Option NodeId) → (s : Shape) → Decidable (t.Fits parent s)
  | _, .nil => isTrue trivial
  | parent, .node id below rest =>
    have := decidableFits t (some id) below
    have := decidableFits t parent rest
    inferInstanceAs (Decidable (id < t.size ∧ t.parent id = parent ∧ t.children id = below.tops ∧
      t.Fits (some id) below ∧ t.Fits parent rest))

theorem Fits.childless {t : Tree} {parent : Option NodeId} {s : Shape} (fits : t.Fits parent s)
    {id : NodeId} (mem : id ∈ s.leaves) : t.children id = [] := by
  induction s generalizing parent with
  | nil => cases mem
  | node top below rest ihb ih =>
    obtain ⟨_, _, links, fitsB, fitsR⟩ := fits
    rw [Shape.leaves_node] at mem
    rcases List.mem_append.mp mem with here | later
    · split at here
      · rename_i childless
        rw [List.mem_singleton.mp here, links, childless]
      · exact ihb fitsB here
    · exact ih fitsR later

theorem leavesBelow_append {t : Tree} {parent : Option NodeId} {s : Shape}
    (fits : t.Fits parent s) (fuel : Nat) (ids : List NodeId) :
    t.leavesBelow (s.preorder.length + fuel) (s.tops ++ ids) =
      s.leaves ++ t.leavesBelow fuel ids := by
  induction s generalizing parent fuel ids with
  | nil => simp
  | node id below rest ihb ih =>
    obtain ⟨_, _, links, fitsB, fitsR⟩ := fits
    have count : (Shape.node id below rest).preorder.length + fuel =
        below.preorder.length + (rest.preorder.length + fuel) + 1 := by
      simp only [Shape.preorder, List.length_cons, List.length_append]
      omega
    rw [count, Shape.leaves_node, List.append_assoc]
    simp only [Shape.tops, List.cons_append, leavesBelow, links]
    split
    · rename_i childless
      obtain rfl := Shape.tops_eq_nil childless
      have tail := ih fitsR fuel ids
      simpa using tail
    · rename_i children
      rw [ihb fitsB, ih fitsR, if_neg children]

/-- A shape spells out a whole tree. -/
structure Shaped (t : Tree) (s : Shape) : Prop where
  fits : t.Fits none s
  top : s.tops = [root]
  all : s.preorder.Perm t.ids

/-- The leaves of a tree are those of its shape. -/
theorem Shaped.leaves_eq {t : Tree} {s : Shape} (shaped : t.Shaped s) : t.leaves = s.leaves := by
  have size : t.size = s.preorder.length + 0 := by
    rw [shaped.all.length_eq, ids, List.length_range, Nat.add_zero]
  rw [leaves, size, ← shaped.top, ← List.append_nil s.tops, leavesBelow_append shaped.fits,
    leavesBelow, List.append_nil]

theorem Shaped.nodup {t : Tree} {s : Shape} (shaped : t.Shaped s) : s.preorder.Nodup :=
  shaped.all.nodup_iff.mpr List.nodup_range

theorem Shaped.lt_size {t : Tree} {s : Shape} (shaped : t.Shaped s) {id : NodeId}
    (mem : id ∈ s.preorder) : id < t.size :=
  List.mem_range.mp (shaped.all.mem_iff.mp mem)

end Tree

end TableAsm
