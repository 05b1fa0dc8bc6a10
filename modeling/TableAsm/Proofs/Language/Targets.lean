import TableAsm.Proofs.Language.Unrolling

/-! The labels of an unrolled block. Among the copies of a labelled statement one lies in first
iterations only; a label that is known by its name is on that copy. Where no two of those copies
share a name, a reference has one target at most. -/
namespace TableAsm.Language

variable {C D : List Copy} {name : String} {trail : List Pass} {i j k r loop times : Nat}

/-- The names on a copy: copies in later iterations have none. -/
def Copy.names (c : Copy) : List String :=
  if ∀ p ∈ c.trail, p.round = 0 then c.statement.labels else []

theorem mem_names {c : Copy} :
    name ∈ c.names ↔ name ∈ c.statement.labels ∧ ∀ p ∈ c.trail, p.round = 0 := by
  rw [Copy.names]
  split
  · rename_i first
    exact ⟨fun mem => ⟨mem, first⟩, And.left⟩
  · rename_i later
    exact ⟨fun mem => absurd mem List.not_mem_nil, fun h => absurd h.2 later⟩

theorem names_within_first (loop : Nat) (c : Copy) : (c.within ⟨loop, 0⟩).names = c.names := by
  simp [Copy.names, Copy.within]

theorem names_within_later (loop round : Nat) (c : Copy) :
    (c.within ⟨loop, round + 1⟩).names = [] := by
  simp [Copy.names, Copy.within]

/-- A repeat leaves the names of its block on the first iteration. -/
theorem map_names_rounds (loop times : Nat) (C : List Copy) :
    (rounds loop times C).map Copy.names =
      Labels.unrolledNames (C.map Copy.names) times := by
  cases times with
  | zero => rfl
  | succ further =>
    have later : ∀ n, ((List.range n).flatMap fun round =>
        C.map fun c => (c.within ⟨loop, round + 1⟩).names) = List.replicate (n * C.length) [] := by
      intro n
      induction n with
      | zero => simp
      | succ n ih =>
        simp only [names_within_later] at ih ⊢
        rw [List.range_succ, List.flatMap_append, ih, List.flatMap_singleton, Nat.succ_mul,
          ← List.replicate_append_replicate, List.map_const']
    rw [rounds, List.range_succ_eq_map, List.flatMap_cons, List.flatMap_map, List.map_append,
      List.map_map, List.map_flatMap, Labels.unrolledNames, List.length_map]
    congr 1
    · exact List.map_congr_left fun c _ => names_within_first loop c
    · rw [← later further]
      simp only [List.map_map]
      rfl

/-- A labelled statement that is copied at all has a copy that has its labels. -/
theorem exists_named {b : Block} {before : Nat} {c : Copy} (mem : c ∈ b.copies before)
    (label : name ∈ c.statement.labels) : ∃ c' ∈ b.copies before, name ∈ c'.names := by
  induction b generalizing before c with
  | done => cases mem
  | statement s rest ih =>
    rcases List.mem_cons.mp mem with rfl | mem
    · refine ⟨⟨s, []⟩, List.mem_cons_self, mem_names.mpr ⟨label, ?_⟩⟩
      intro p pass
      cases pass
    · obtain ⟨c', mem', named⟩ := ih mem label
      exact ⟨c', List.mem_cons_of_mem _ mem', named⟩
  | loop count body rest ihb ih =>
    rcases List.mem_append.mp mem with mem | mem
    · obtain ⟨r, round, inner, inside, rfl⟩ := mem_rounds.mp mem
      obtain ⟨c', mem', named⟩ := ihb inside label
      refine ⟨c'.within ⟨before, 0⟩, List.mem_append_left _ (mem_rounds.mpr ?_), ?_⟩
      · exact ⟨0, Nat.zero_lt_of_lt round, c', mem', rfl⟩
      · rw [names_within_first]
        exact named
    · obtain ⟨c', mem', named⟩ := ih mem label
      exact ⟨c', List.mem_append_right _ mem', named⟩

/-- The names of different copies are different. -/
def Distinct (C : List Copy) : Prop := (C.map Copy.names).Pairwise List.Disjoint

theorem distinct_append : Distinct (C ++ D) ↔ Distinct C ∧ Distinct D ∧
    ∀ c ∈ C, ∀ d ∈ D, ∀ name ∈ c.names, name ∉ d.names := by
  rw [Distinct, List.map_append, List.pairwise_append]
  simp only [List.mem_map, forall_exists_index, and_imp, forall_apply_eq_imp_iff₂]
  rfl

theorem Distinct.of_rounds (h : Distinct (rounds loop times C)) (some : 0 < times) :
    Distinct C := by
  obtain ⟨further, rfl⟩ := Nat.exists_eq_succ_of_ne_zero (Nat.ne_of_gt some)
  rw [Distinct, map_names_rounds, Labels.unrolledNames] at h
  exact (List.pairwise_append.mp h).1

section Places

theorem IsTarget.append_left (h : IsTarget C trail name j) (D : List Copy) :
    IsTarget (C ++ D) trail name j := by
  obtain ⟨there, found, label, reaches⟩ := h
  refine ⟨there, ?_, label, reaches⟩
  rw [List.getElem?_append_left (List.getElem?_eq_some_iff.mp found).1, found]

theorem IsTarget.append_right (h : IsTarget D trail name j) (C : List Copy) :
    IsTarget (C ++ D) trail name (C.length + j) := by
  obtain ⟨there, found, label, reaches⟩ := h
  refine ⟨there, ?_, label, reaches⟩
  rw [List.getElem?_append_right (Nat.le_add_right _ _), Nat.add_sub_cancel_left, found]

theorem isTarget_append (h : IsTarget (C ++ D) trail name j) :
    IsTarget C trail name j ∨ ∃ k, j = C.length + k ∧ IsTarget D trail name k := by
  obtain ⟨there, found, label, reaches⟩ := h
  by_cases short : j < C.length
  · rw [List.getElem?_append_left short] at found
    exact Or.inl ⟨there, found, label, reaches⟩
  · rw [List.getElem?_append_right (Nat.le_of_not_lt short)] at found
    exact Or.inr ⟨j - C.length, by omega, there, found, label, reaches⟩

/-- A target in one iteration is one in the same iteration of a repeat around it. -/
theorem IsTarget.round (h : IsTarget C trail name j) (round : r < times)
    (beyond : ∀ c ∈ C, ∀ q ∈ c.trail, loop < q.loop) :
    IsTarget (rounds loop times C) (⟨loop, r⟩ :: trail) name (r * C.length + j) := by
  obtain ⟨there, found, label, reaches⟩ := h
  have place := (List.getElem?_eq_some_iff.mp found).1
  refine ⟨there.within ⟨loop, r⟩, ?_, label, ?_⟩
  · rw [getElem?_rounds round place, found]
    rfl
  · intro q pass
    rcases List.mem_cons.mp pass with rfl | pass
    · exact Or.inl List.mem_cons_self
    · rcases reaches q pass with inside | ⟨outside, first⟩
      · exact Or.inl (List.mem_cons_of_mem _ inside)
      · refine Or.inr ⟨?_, first⟩
        rintro p (_ | ⟨_, other⟩)
        · exact Nat.ne_of_lt (beyond there (List.mem_of_getElem? found) q pass)
        · exact outside p other

/-- Of the iterations of one repeat a trail reaches one only. -/
theorem Reaches.head_unique {s s' : Nat} {label label' : List Pass}
    (steady : ∀ p ∈ trail, ∀ q ∈ trail, p.loop = q.loop → p = q)
    (first : Reaches trail (⟨loop, s⟩ :: label)) (second : Reaches trail (⟨loop, s'⟩ :: label')) :
    s = s' := by
  rcases first _ List.mem_cons_self with inside | ⟨outside, zero⟩ <;>
    rcases second _ List.mem_cons_self with inside' | ⟨outside', zero'⟩
  · exact congrArg Pass.round (steady _ inside _ inside' rfl)
  · exact absurd rfl (outside' ⟨loop, s⟩ inside)
  · exact absurd rfl (outside ⟨loop, s'⟩ inside')
  · exact zero.trans zero'.symm

/-- A reference has at most one target when the names on the copies are distinct. -/
theorem IsTarget.unique {b : Block} {before : Nat} (distinct : Distinct (b.copies before))
    (steady : ∀ p ∈ trail, ∀ q ∈ trail, p.loop = q.loop → p = q)
    (first : IsTarget (b.copies before) trail name j)
    (second : IsTarget (b.copies before) trail name k) : j = k := by
  induction b generalizing before j k with
  | done =>
    obtain ⟨_, found, _⟩ := first
    cases found
  | statement s rest ih =>
    have split : (Block.statement s rest).copies before = [⟨s, []⟩] ++ rest.copies before := rfl
    rw [split] at distinct first second
    obtain ⟨_, behind, apart⟩ := distinct_append.mp distinct
    have alone : ∀ {j k}, IsTarget [⟨s, []⟩] trail name j →
        IsTarget (rest.copies before) trail name k → False := by
      rintro j k ⟨here, found, label, _⟩ ⟨there, found', label', _⟩
      obtain ⟨named, mem, on⟩ := exists_named (List.mem_of_getElem? found') label'
      obtain rfl := List.mem_singleton.mp (List.mem_of_getElem? found)
      exact apart _ List.mem_cons_self named mem name (mem_names.mpr ⟨label, by simp⟩) on
    rcases isTarget_append first with here | ⟨j, rfl, there⟩ <;>
      rcases isTarget_append second with here' | ⟨k, rfl, there'⟩
    · obtain ⟨_, found, _⟩ := here
      obtain ⟨_, found', _⟩ := here'
      have short := (List.getElem?_eq_some_iff.mp found).1
      have short' := (List.getElem?_eq_some_iff.mp found').1
      simp only [List.length_singleton] at short short'
      omega
    · exact (alone here there').elim
    · exact (alone here' there).elim
    · rw [ih behind there there']
  | loop count body rest ihb ih =>
    rw [Block.copies] at distinct first second
    obtain ⟨ahead, behind, apart⟩ := distinct_append.mp distinct
    have alone : ∀ {j k}, IsTarget (rounds before (timesOf count) (body.copies (before + 1)))
        trail name j → IsTarget (rest.copies (before + 1 + body.loops)) trail name k → False := by
      rintro j k ⟨here, found, label, _⟩ ⟨there, found', label', _⟩
      obtain ⟨r, round, inner, inside, rfl⟩ := mem_rounds.mp (List.mem_of_getElem? found)
      obtain ⟨named, mem, on⟩ := exists_named inside label
      obtain ⟨named', mem', on'⟩ := exists_named (List.mem_of_getElem? found') label'
      refine apart (named.within ⟨before, 0⟩) ?_ named' mem' name ?_ on'
      · exact mem_rounds.mpr ⟨0, Nat.zero_lt_of_lt round, named, mem, rfl⟩
      · rw [names_within_first]
        exact on
    rcases isTarget_append first with here | ⟨j, rfl, there⟩ <;>
      rcases isTarget_append second with here' | ⟨k, rfl, there'⟩
    · obtain ⟨_, found, label, reaches⟩ := here
      obtain ⟨_, found', label', reaches'⟩ := here'
      obtain ⟨r, i, c, round, _, rfl, at_i, rfl⟩ := exists_round found
      obtain ⟨r', i', c', _, _, rfl, at_i', rfl⟩ := exists_round found'
      obtain rfl := Reaches.head_unique steady reaches reaches'
      have tail : IsTarget (body.copies (before + 1)) trail name i :=
        ⟨c, at_i, label, fun q pass => reaches q (List.mem_cons_of_mem _ pass)⟩
      have tail' : IsTarget (body.copies (before + 1)) trail name i' :=
        ⟨c', at_i', label', fun q pass => reaches' q (List.mem_cons_of_mem _ pass)⟩
      rw [ihb (ahead.of_rounds (Nat.zero_lt_of_lt round)) tail tail']
    · exact (alone here there').elim
    · exact (alone here' there).elim
    · rw [ih behind there there']

end Places

end TableAsm.Language
