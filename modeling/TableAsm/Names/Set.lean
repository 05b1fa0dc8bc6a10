/-!
Finite sets of names. A set is the strictly ascending list of its members, so two sets with
the same members are equal and listing a set needs no sorting. The order is that of code
points, which is also the order of UTF-8 bytes.
-/
namespace TableAsm

/-- Puts a name into a strictly ascending list, unless it is there already. -/
def insertAscending (x : String) : List String → List String
  | [] => [x]
  | y :: ys =>
    if x < y then x :: y :: ys
    else if x = y then y :: ys
    else y :: insertAscending x ys

theorem mem_insertAscending {x a : String} {xs : List String} :
    a ∈ insertAscending x xs ↔ a = x ∨ a ∈ xs := by
  induction xs with
  | nil => simp [insertAscending]
  | cons y ys ih =>
    unfold insertAscending
    split
    · simp
    · split
      · rename_i h
        subst h
        simp
      · simp only [List.mem_cons, ih]
        constructor <;> rintro (h | h | h) <;> simp [h]

theorem insertAscending_pairwise (x : String) {xs : List String}
    (h : xs.Pairwise (· < ·)) : (insertAscending x xs).Pairwise (· < ·) := by
  induction xs with
  | nil => simp [insertAscending]
  | cons y ys ih =>
    unfold insertAscending
    rw [List.pairwise_cons] at h
    split
    · rename_i lt
      rw [List.pairwise_cons, List.pairwise_cons]
      refine ⟨?_, h⟩
      intro a ha
      rcases List.mem_cons.mp ha with rfl | ha
      · exact lt
      · exact String.lt_trans lt (h.1 a ha)
    · split
      · exact List.pairwise_cons.mpr h
      · rename_i not_lt ne
        rw [List.pairwise_cons]
        refine ⟨?_, ih h.2⟩
        intro a ha
        rcases mem_insertAscending.mp ha with rfl | ha
        · exact Std.lt_of_le_of_ne (String.not_lt.mp not_lt) (Ne.symm ne)
        · exact h.1 a ha

/-- A finite set of names, as the strictly ascending list of its members. -/
@[ext] structure NameSet where
  toList : List String
  ascending : toList.Pairwise (· < ·)

namespace NameSet

instance : DecidableEq NameSet := fun s t =>
  decidable_of_iff (s.toList = t.toList) ⟨NameSet.ext, fun h => h ▸ rfl⟩

instance : Membership String NameSet := ⟨fun s x => x ∈ s.toList⟩

instance (x : String) (s : NameSet) : Decidable (x ∈ s) :=
  inferInstanceAs (Decidable (x ∈ s.toList))

theorem mem_toList {x : String} {s : NameSet} : x ∈ s.toList ↔ x ∈ s := Iff.rfl

def empty : NameSet := ⟨[], List.Pairwise.nil⟩

instance : EmptyCollection NameSet := ⟨empty⟩
instance : Inhabited NameSet := ⟨empty⟩

def insert (s : NameSet) (x : String) : NameSet :=
  ⟨insertAscending x s.toList, insertAscending_pairwise x s.ascending⟩

def singleton (x : String) : NameSet := empty.insert x

def union (s t : NameSet) : NameSet := t.toList.foldl insert s

def filter (p : String → Bool) (s : NameSet) : NameSet :=
  ⟨s.toList.filter p, s.ascending.filter p⟩

def ofList (xs : List String) : NameSet := xs.foldl insert empty

def size (s : NameSet) : Nat := s.toList.length

@[simp] theorem not_mem_empty (x : String) : ¬ x ∈ empty := List.not_mem_nil

@[simp] theorem mem_insert {s : NameSet} {x a : String} : a ∈ s.insert x ↔ a = x ∨ a ∈ s :=
  mem_insertAscending

@[simp] theorem mem_singleton {x a : String} : a ∈ singleton x ↔ a = x := by
  simp [singleton]

theorem mem_foldl_insert {xs : List String} {s : NameSet} {a : String} :
    a ∈ xs.foldl insert s ↔ a ∈ xs ∨ a ∈ s := by
  induction xs generalizing s with
  | nil => simp
  | cons x xs ih =>
    rw [List.foldl_cons, ih, mem_insert, List.mem_cons, or_left_comm, or_assoc]

@[simp] theorem mem_union {s t : NameSet} {a : String} : a ∈ s.union t ↔ a ∈ s ∨ a ∈ t := by
  rw [union, mem_foldl_insert, mem_toList, or_comm]

@[simp] theorem mem_ofList {xs : List String} {a : String} : a ∈ ofList xs ↔ a ∈ xs := by
  simp [ofList, mem_foldl_insert]

@[simp] theorem mem_filter {s : NameSet} {p : String → Bool} {a : String} :
    a ∈ s.filter p ↔ a ∈ s ∧ p a = true :=
  List.mem_filter

end NameSet

end TableAsm
