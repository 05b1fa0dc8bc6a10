/-!
Finite maps from names. A map is a list of bindings whose keys strictly ascend, so a map is
determined by its look-ups and lists its bindings in the order of their keys.
-/
namespace TableAsm

/-- Binds a name in a list of bindings with ascending keys; an earlier binding is replaced. -/
def bindAscending {α : Type} (k : String) (v : α) : List (String × α) → List (String × α)
  | [] => [(k, v)]
  | b :: bs =>
    if k < b.1 then (k, v) :: b :: bs
    else if k = b.1 then (k, v) :: bs
    else b :: bindAscending k v bs

theorem key_bindAscending {α : Type} {k : String} {v : α} {bs : List (String × α)}
    {b : String × α} (h : b ∈ bindAscending k v bs) : b.1 = k ∨ b ∈ bs := by
  induction bs with
  | nil => simp [bindAscending] at h; simp [h]
  | cons c cs ih =>
    unfold bindAscending at h
    split at h
    · rcases List.mem_cons.mp h with rfl | h
      · exact Or.inl rfl
      · exact Or.inr h
    · split at h
      · rcases List.mem_cons.mp h with rfl | h
        · exact Or.inl rfl
        · exact Or.inr (List.mem_cons_of_mem _ h)
      · rcases List.mem_cons.mp h with rfl | h
        · exact Or.inr List.mem_cons_self
        · exact (ih h).imp_right (List.mem_cons_of_mem _)

theorem bindAscending_pairwise {α : Type} (k : String) (v : α) {bs : List (String × α)}
    (h : bs.Pairwise (·.1 < ·.1)) : (bindAscending k v bs).Pairwise (·.1 < ·.1) := by
  induction bs with
  | nil => simp [bindAscending]
  | cons c cs ih =>
    unfold bindAscending
    have hc := List.pairwise_cons.mp h
    split
    · rename_i lt
      rw [List.pairwise_cons]
      refine ⟨?_, h⟩
      intro b hb
      rcases List.mem_cons.mp hb with rfl | hb
      · exact lt
      · exact String.lt_trans lt (hc.1 b hb)
    · split
      · rename_i eq
        rw [List.pairwise_cons]
        refine ⟨?_, hc.2⟩
        intro b hb
        simpa [eq] using hc.1 b hb
      · rename_i not_lt ne
        rw [List.pairwise_cons]
        refine ⟨?_, ih hc.2⟩
        intro b hb
        rcases key_bindAscending hb with eq | hb
        · rw [eq]
          exact Std.lt_of_le_of_ne (String.not_lt.mp not_lt) (Ne.symm ne)
        · exact hc.1 b hb

/-- A finite map from names, as a list of bindings with strictly ascending keys. -/
@[ext] structure NameMap (α : Type) where
  toList : List (String × α)
  ascending : toList.Pairwise (·.1 < ·.1)

namespace NameMap

variable {α : Type} {β : Type}

instance [DecidableEq α] : DecidableEq (NameMap α) := fun m n =>
  decidable_of_iff (m.toList = n.toList) ⟨NameMap.ext, fun h => h ▸ rfl⟩

instance [BEq α] : BEq (NameMap α) := ⟨fun m n => m.toList == n.toList⟩

def empty : NameMap α := ⟨[], List.Pairwise.nil⟩

instance : EmptyCollection (NameMap α) := ⟨empty⟩
instance : Inhabited (NameMap α) := ⟨empty⟩

def insert (m : NameMap α) (k : String) (v : α) : NameMap α :=
  ⟨bindAscending k v m.toList, bindAscending_pairwise k v m.ascending⟩

def get? (m : NameMap α) (k : String) : Option α := m.toList.lookup k

def contains (m : NameMap α) (k : String) : Bool := (m.get? k).isSome

def keys (m : NameMap α) : List String := m.toList.map (·.1)

def values (m : NameMap α) : List α := m.toList.map (·.2)

/-- Applies a function to every value. -/
def map (f : α → β) (m : NameMap α) : NameMap β :=
  ⟨m.toList.map fun b => (b.1, f b.2), by
    rw [List.pairwise_map]
    exact m.ascending⟩

/-- Pairs keys with new values in order; a key for which there is none keeps its value. -/
def replaceValues : List (String × α) → List α → List (String × α)
  | b :: bs, v :: vs => (b.1, v) :: replaceValues bs vs
  | bs, _ => bs

theorem map_fst_replaceValues (bs : List (String × α)) (vs : List α) :
    (replaceValues bs vs).map (·.1) = bs.map (·.1) := by
  induction bs generalizing vs with
  | nil => simp [replaceValues]
  | cons b bs ih =>
    cases vs with
    | nil => simp [replaceValues]
    | cons v vs => simp [replaceValues, ih]

/-- The same keys with other values, given in the order of the keys. -/
def withValues (m : NameMap α) (values : List α) : NameMap α :=
  ⟨replaceValues m.toList values, by
    have h : (m.toList.map (·.1)).Pairwise (· < ·) := List.pairwise_map.mpr m.ascending
    rw [← map_fst_replaceValues m.toList values] at h
    exact List.pairwise_map.mp h⟩

theorem lookup_bindAscending (k : String) (v : α) (bs : List (String × α)) (a : String) :
    (bindAscending k v bs).lookup a = if a = k then some v else bs.lookup a := by
  induction bs with
  | nil =>
    by_cases h : a = k
    · simp [bindAscending, h]
    · simp [bindAscending, List.lookup_cons, h, beq_false_of_ne h]
  | cons c cs ih =>
    obtain ⟨ck, cv⟩ := c
    unfold bindAscending
    split
    · by_cases h : a = k
      · simp [h]
      · simp [List.lookup_cons, h, beq_false_of_ne h]
    · split
      · rename_i eq
        simp only at eq
        subst eq
        by_cases h : a = k
        · simp [h]
        · simp [List.lookup_cons, h, beq_false_of_ne h]
      · rename_i ne
        simp only at ne
        by_cases hc : a = ck
        · subst hc
          simp [Ne.symm ne]
        · simp [List.lookup_cons, beq_false_of_ne hc, ih]

/-- A map holds the bindings that its look-ups find. -/
theorem mem_toList_iff (m : NameMap α) (k : String) (v : α) :
    (k, v) ∈ m.toList ↔ m.get? k = some v := by
  obtain ⟨bs, ascending⟩ := m
  show (k, v) ∈ bs ↔ bs.lookup k = some v
  induction bs with
  | nil => simp
  | cons c cs ih =>
    obtain ⟨ck, cv⟩ := c
    have hc := List.pairwise_cons.mp ascending
    by_cases h : k = ck
    · subst h
      have fresh : (k, v) ∉ cs := fun mem => String.lt_irrefl k (hc.1 _ mem)
      simp [fresh, eq_comm]
    · simp [List.lookup_cons, h, beq_false_of_ne h, ih hc.2]

@[simp] theorem get?_empty (k : String) : (empty : NameMap α).get? k = none := rfl

@[simp] theorem get?_insert (m : NameMap α) (k : String) (v : α) (a : String) :
    (m.insert k v).get? a = if a = k then some v else m.get? a :=
  lookup_bindAscending k v m.toList a

end NameMap

end TableAsm
