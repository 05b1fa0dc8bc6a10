import TableAsm.Proofs.Language.Targets

/-! The statements of a block where they are written, each once and with the repeats around it. A
statement has copies unless some repeat around it has the count zero. Whether a label is seen from
another line is told by the repeats around both, and how long the block is, in the end and at most,
by its counts. -/
namespace TableAsm.Language

/-- A repeat around a statement, known by where it begins. -/
structure Frame where
  loop : Nat
  times : Nat
deriving DecidableEq, Repr

structure Site where
  statement : Statement
  frames : List Frame

def Site.within (f : Frame) (s : Site) : Site := { s with frames := f :: s.frames }

/-- The sites of a block that has a number of repeats before it. -/
def Block.sites (before : Nat) : Block → List Site
  | .done => []
  | .statement s rest => ⟨s, []⟩ :: rest.sites before
  | .loop count body rest =>
    (body.sites (before + 1)).map (Site.within ⟨before, timesOf count⟩) ++
      rest.sites (before + 1 + body.loops)

def Block.labels : Block → List String
  | .done => []
  | .statement s rest => s.labels ++ rest.labels
  | .loop _ body rest => body.labels ++ rest.labels

/-- The length of the unrolling if a count of zero is read as one. -/
def Block.extent : Block → Nat
  | .done => 0
  | .statement _ rest => rest.extent + 1
  | .loop count body rest => max 1 (timesOf count) * body.extent + rest.extent

/-- The site of a label can be reached from that of a use: each repeat with the count zero around
the label is around the use as well. -/
def Site.Sees (use label : Site) : Prop := ∀ f ∈ label.frames, f.times = 0 → f ∈ use.frames

/-- Each word that stands for a value is a label that can be reached. -/
def Block.Grounded (b : Block) : Prop :=
  ∀ use ∈ b.sites 0, ∀ t ∈ use.statement.written, t.kind = "IDENTIFIER" →
    ∃ label ∈ b.sites 0, t.lexeme ∈ label.statement.labels ∧ use.Sees label

section Copies

variable {b : Block} {before : Nat} {c : Copy} {s : Site} {name : String}

def Site.Live (s : Site) : Prop := ∀ f ∈ s.frames, f.times ≠ 0

/-- A copy is one of a statement that is written where all counts are positive. -/
theorem exists_site (mem : c ∈ b.copies before) :
    ∃ s ∈ b.sites before, s.statement = c.statement ∧ s.Live := by
  induction b generalizing before c with
  | done => cases mem
  | statement s rest ih =>
    rcases List.mem_cons.mp mem with rfl | mem
    · exact ⟨⟨s, []⟩, List.mem_cons_self, rfl, fun f enclosing => by cases enclosing⟩
    · obtain ⟨s', written, same, live⟩ := ih mem
      exact ⟨s', List.mem_cons_of_mem _ written, same, live⟩
  | loop count body rest ihb ih =>
    rcases List.mem_append.mp mem with mem | mem
    · obtain ⟨r, round, c', inside, rfl⟩ := mem_rounds.mp mem
      obtain ⟨s', written, same, live⟩ := ihb inside
      refine ⟨s'.within ⟨before, timesOf count⟩, ?_, same, fun f enclosing => ?_⟩
      · exact List.mem_append_left _ (List.mem_map_of_mem written)
      · rcases List.mem_cons.mp enclosing with rfl | enclosing
        · exact Nat.ne_of_gt (Nat.zero_lt_of_lt round)
        · exact live f enclosing
    · obtain ⟨s', written, same, live⟩ := ih mem
      exact ⟨s', List.mem_append_right _ written, same, live⟩

theorem exists_copy (mem : s ∈ b.sites before) (live : s.Live) :
    ∃ c ∈ b.copies before, c.statement = s.statement := by
  induction b generalizing before s with
  | done => cases mem
  | statement s' rest ih =>
    rcases List.mem_cons.mp mem with rfl | mem
    · exact ⟨⟨s', []⟩, List.mem_cons_self, rfl⟩
    · obtain ⟨c, copied, same⟩ := ih mem live
      exact ⟨c, List.mem_cons_of_mem _ copied, same⟩
  | loop count body rest ihb ih =>
    rcases List.mem_append.mp mem with mem | mem
    · obtain ⟨s', written, rfl⟩ := List.mem_map.mp mem
      obtain ⟨c, copied, same⟩ := ihb written fun f enclosing =>
        live f (List.mem_cons_of_mem _ enclosing)
      have some : timesOf count ≠ 0 := live ⟨before, timesOf count⟩ List.mem_cons_self
      refine ⟨c.within ⟨before, 0⟩, List.mem_append_left _ (mem_rounds.mpr ?_), same⟩
      exact ⟨0, Nat.pos_of_ne_zero some, c, copied, rfl⟩
    · obtain ⟨c, copied, same⟩ := ih mem live
      exact ⟨c, List.mem_append_right _ copied, same⟩

theorem Site.Live.of_sees {use label : Site} (live : use.Live) (sees : use.Sees label) :
    label.Live := fun f enclosing none => live f (sees f enclosing none) none

theorem labels_subset (mem : c ∈ b.copies before) : c.statement.labels ⊆ b.labels := by
  induction b generalizing before c with
  | done => cases mem
  | statement s rest ih =>
    rcases List.mem_cons.mp mem with rfl | mem
    · exact List.subset_append_left _ _
    · exact fun name label => List.mem_append_right _ (ih mem label)
  | loop count body rest ihb ih =>
    rcases List.mem_append.mp mem with mem | mem
    · obtain ⟨r, _, c', inside, rfl⟩ := mem_rounds.mp mem
      exact fun name label => List.mem_append_left _ (ihb inside label)
    · exact fun name label => List.mem_append_right _ (ih mem label)

theorem length_copies_le (b : Block) (before : Nat) : (b.copies before).length ≤ b.extent := by
  induction b generalizing before with
  | done => exact Nat.le_refl _
  | statement s rest ih => exact Nat.succ_le_succ (ih before)
  | loop count body rest ihb ih =>
    rw [Block.copies, List.length_append, length_rounds]
    exact Nat.add_le_add (Nat.mul_le_mul (Nat.le_max_right 1 _) (ihb _)) (ih _)

theorem exists_names_iff : (∃ here ∈ (b.copies before).map Copy.names, name ∈ here) ↔
    ∃ s ∈ b.sites before, s.Live ∧ name ∈ s.statement.labels := by
  simp only [List.mem_map, exists_exists_and_eq_and]
  constructor
  · rintro ⟨c, copied, on⟩
    obtain ⟨s, written, same, live⟩ := exists_site copied
    exact ⟨s, written, live, same ▸ (mem_names.mp on).1⟩
  · rintro ⟨s, written, live, label⟩
    obtain ⟨c, copied, same⟩ := exists_copy written live
    exact exists_named copied (same ▸ label)

end Copies

section Frames

variable {b : Block} {before : Nat} {s use label : Site} {f : Frame}

theorem frame_bounds (mem : s ∈ b.sites before) (around : f ∈ s.frames) :
    before ≤ f.loop ∧ f.loop < before + b.loops := by
  induction b generalizing before s with
  | done => cases mem
  | statement s' rest ih =>
    rcases List.mem_cons.mp mem with rfl | mem
    · cases around
    · exact ih mem around
  | loop count body rest ihb ih =>
    rw [Block.loops]
    rcases List.mem_append.mp mem with mem | mem
    · obtain ⟨s', inside, rfl⟩ := List.mem_map.mp mem
      rcases List.mem_cons.mp around with rfl | around
      · simp only
        omega
      · have bounds := ihb inside around
        omega
    · have bounds := ih mem around
      omega

/-- Where no repeat is around both, a label is seen if it has copies. -/
theorem Site.sees_iff_live (apart : ∀ f ∈ label.frames, f ∉ use.frames) :
    use.Sees label ↔ label.Live := by
  constructor
  · intro sees f around none
    exact apart f around (sees f around none)
  · intro live f around none
    exact absurd none (live f around)

theorem Site.sees_within (other : f ∉ label.frames) :
    (use.within f).Sees (label.within f) ↔ use.Sees label := by
  constructor
  · intro sees g around none
    rcases List.mem_cons.mp (sees g (List.mem_cons_of_mem f around) none) with rfl | seen
    · exact absurd around other
    · exact seen
  · intro sees g around none
    rcases List.mem_cons.mp around with rfl | around
    · exact List.mem_cons_self
    · exact List.mem_cons_of_mem f (sees g around none)

end Frames

section Lengths

/-- The length of the unrolling. -/
def Block.length : Block → Nat
  | .done => 0
  | .statement _ rest => rest.length + 1
  | .loop count body rest => timesOf count * body.length + rest.length

/-- The most instructions that there are at one time when a block is unrolled from its end, with
some behind it. A repeat is unrolled from the inside, so what is around it is not yet known. -/
def Block.peak (behind : Nat) : Block → Nat
  | .done => behind
  | .statement _ rest => max (rest.peak behind) (behind + rest.length + 1)
  | .loop count body rest =>
    max (rest.peak behind) (max (body.peak (behind + rest.length))
      (behind + rest.length + timesOf count * body.length))

theorem length_copies (b : Block) (before : Nat) : (b.copies before).length = b.length := by
  induction b generalizing before with
  | done => rfl
  | statement s rest ih => exact congrArg (· + 1) (ih before)
  | loop count body rest ihb ih =>
    rw [Block.copies, List.length_append, length_rounds, ihb, ih, Block.length]

theorem length_le_peak (b : Block) (behind : Nat) : behind + b.length ≤ b.peak behind := by
  cases b with
  | done => exact Nat.le_refl _
  | statement s rest => exact Nat.le_max_right _ _
  | loop count body rest =>
    rw [Block.length, Block.peak]
    omega

theorem peak_le_extent (b : Block) (behind : Nat) : b.peak behind ≤ behind + b.extent := by
  have short : ∀ b : Block, b.length ≤ b.extent := fun b => length_copies b 0 ▸ length_copies_le b 0
  induction b generalizing behind with
  | done => exact Nat.le_refl _
  | statement s rest ih =>
    have later := ih behind
    have tail := short rest
    rw [Block.peak, Block.extent]
    omega
  | loop count body rest ihb ih =>
    have later := ih behind
    have within := ihb (behind + rest.length)
    have tail := short rest
    have once : body.extent ≤ max 1 (timesOf count) * body.extent :=
      Nat.le_mul_of_pos_left _ (by omega)
    have copied : timesOf count * body.length ≤ max 1 (timesOf count) * body.extent :=
      Nat.mul_le_mul (Nat.le_max_right 1 _) (short body)
    rw [Block.peak, Block.extent]
    omega

theorem exists_site_of_length {b : Block} (some : 0 < b.length) (before : Nat) :
    ∃ s, s ∈ b.sites before := by
  rw [← length_copies b before] at some
  obtain ⟨c, copied⟩ := List.exists_mem_of_length_pos some
  obtain ⟨s, written, _⟩ := exists_site copied
  exact ⟨s, written⟩

/-- Where all statements have copies there are never more instructions than in the end. -/
theorem peak_eq_length {b : Block} {before : Nat} (live : ∀ s ∈ b.sites before, s.Live)
    (behind : Nat) : b.peak behind = behind + b.length := by
  induction b generalizing before behind with
  | done => rfl
  | statement s rest ih =>
    have later := ih (fun s mem => live s (List.mem_cons_of_mem _ mem)) behind
    rw [Block.peak, Block.length, later]
    omega
  | loop count body rest ihb ih =>
    have later := ih (fun s mem => live s (List.mem_append_right _ mem)) behind
    have inner : ∀ s ∈ body.sites (before + 1),
        Site.Live (s.within ⟨before, timesOf count⟩) := fun s mem =>
      live _ (List.mem_append_left _ (List.mem_map_of_mem mem))
    have within := ihb (fun s mem f around => inner s mem f (List.mem_cons_of_mem _ around))
      (behind + rest.length)
    -- a body that has a statement is there once at least
    have once : body.length ≤ timesOf count * body.length := by
      rcases Nat.eq_zero_or_pos body.length with none | some
      · simp [none]
      · obtain ⟨s, written⟩ := exists_site_of_length some (before + 1)
        have counted : timesOf count ≠ 0 := inner s written _ List.mem_cons_self
        exact Nat.le_mul_of_pos_left _ (Nat.pos_of_ne_zero counted)
    rw [Block.peak, Block.length, later, within]
    omega

end Lengths

end TableAsm.Language
