import Mathlib.Data.Int.Basic
import Mathlib.Tactic.Push
import TableAsm.Labels

/-! Names and their placeholders. Every name that has been seen has a place of its own, which fixes
its placeholder; placeholders are multiples of one unit, so no small number is one. -/
namespace TableAsm.Labels

theorem unit_pos : 0 < unit := by decide

theorem placeOf?_eq_some {v : Int} {i : Nat} : placeOf? v = some i ↔ v = placeholderAt i := by
  unfold placeholderAt
  cases v with
  | ofNat n =>
    have none : placeOf? (.ofNat n) = none := rfl
    have nonneg : 0 ≤ Int.ofNat n := Int.natCast_nonneg n
    have pos : 0 < (i + 1) * unit := Nat.mul_pos (Nat.succ_pos i) unit_pos
    simp only [none, reduceCtorEq, false_iff]
    omega
  | negSucc m =>
    have place : placeOf? (.negSucc m) =
        if (m + 1) % unit = 0 then some ((m + 1) / unit - 1) else none := rfl
    have shift : Int.negSucc m = -((i + 1) * unit : Nat) ↔ m + 1 = (i + 1) * unit := by
      rw [Int.negSucc_eq]
      omega
    rw [shift, place]
    constructor
    · intro found
      by_cases divides : (m + 1) % unit = 0
      · obtain ⟨k, eq⟩ := Nat.dvd_of_mod_eq_zero divides
        rw [if_pos divides, eq, Nat.mul_div_cancel_left _ unit_pos] at found
        obtain rfl := Option.some.inj found
        have pos : k ≠ 0 := by
          rintro rfl
          omega
        rw [eq, Nat.sub_add_cancel (Nat.one_le_iff_ne_zero.mpr pos), Nat.mul_comm]
      · rw [if_neg divides] at found
        cases found
    · intro eq
      rw [eq, if_pos (Nat.mul_mod_left _ _), Nat.mul_div_cancel _ unit_pos, Nat.add_sub_cancel]

@[simp] theorem placeOf?_placeholderAt (i : Nat) : placeOf? (placeholderAt i) = some i :=
  placeOf?_eq_some.mpr rfl

theorem placeholderAt_inj {i j : Nat} (same : placeholderAt i = placeholderAt j) : i = j := by
  have found := placeOf?_eq_some.mpr same
  rw [placeOf?_placeholderAt] at found
  exact Option.some.inj found

/-- Placeholders lie below all numbers that are minus the unit at least. -/
theorem placeholderAt_le (i : Nat) : placeholderAt i ≤ -(unit : Int) := by
  have le : unit ≤ (i + 1) * unit := Nat.le_mul_of_pos_left unit (Nat.succ_pos i)
  unfold placeholderAt
  omega

variable {l l' : Labels}

theorem entryOf?_placeholderAt (l : Labels) (i : Nat) :
    l.entryOf? (placeholderAt i) = l.entries[i]? := by
  rw [entryOf?, placeOf?_placeholderAt]
  rfl

/-- A number that is not too far below zero is no placeholder. -/
theorem entryOf?_of_lt {v : Int} (small : -(unit : Int) < v) : l.entryOf? v = none := by
  rw [entryOf?]
  cases place : placeOf? v with
  | none => rfl
  | some i =>
    have le := placeholderAt_le i
    rw [← placeOf?_eq_some.mp place] at le
    omega

/-- The name at a place in the order of appearance. -/
def nameAt (l : Labels) (i : Nat) : Option String := l.entries[i]?.map (·.name)

/-- The names that are listed are those that are found, each at its own place. -/
structure Sound (l : Labels) : Prop where
  listed : ∀ (name : String) i, l.index[name]? = some i ↔ l.nameAt i = some name
  few : l.entries.size ≤ maxNames

/-- The placeholder of a name that has been seen. -/
def placeholder? (l : Labels) (name : String) : Option Int := l.index[name]?.map placeholderAt

/-- The number of the instruction that a name labels. -/
def target? (l : Labels) (name : String) : Option Int :=
  l.index[name]?.bind fun i => l.entries[i]?.bind (·.target)

/-- Names that have been seen keep their places. -/
def Extends (l l' : Labels) : Prop :=
  ∀ (name : String) i, l.index[name]? = some i → l'.index[name]? = some i

theorem Extends.refl (l : Labels) : l.Extends l := fun _ _ h => h

theorem Extends.trans {l'' : Labels} (first : l.Extends l') (second : l'.Extends l'') :
    l.Extends l'' := fun name i h => second name i (first name i h)

theorem Extends.placeholder? (h : l.Extends l') {name : String} {n : Int}
    (known : l.placeholder? name = some n) : l'.placeholder? name = some n := by
  obtain ⟨i, place, rfl⟩ := Option.map_eq_some_iff.mp known
  rw [Labels.placeholder?, h name i place]
  rfl

theorem sound_new : new.Sound := by
  refine ⟨fun name i => ?_, Nat.zero_le _⟩
  simp [new, nameAt]

/-- Different names have different placeholders. -/
theorem Sound.name_unique (sound : l.Sound) {name other : String} {n : Int}
    (known : l.placeholder? name = some n) (knownOther : l.placeholder? other = some n) :
    name = other := by
  obtain ⟨i, place, rfl⟩ := Option.map_eq_some_iff.mp known
  obtain ⟨j, placeOther, same⟩ := Option.map_eq_some_iff.mp knownOther
  obtain rfl := placeholderAt_inj same
  have named := (sound.listed name j).mp place
  rw [(sound.listed other j).mp placeOther] at named
  exact (Option.some.inj named).symm

/-- What is known about the name that a placeholder stands for. -/
theorem Sound.entryOf?_eq_some (sound : l.Sound) {v : Int} {e : LabelEntry} :
    l.entryOf? v = some e ↔
      l.placeholder? e.name = some v ∧ ∃ i, l.index[e.name]? = some i ∧ l.entries[i]? = some e := by
  constructor
  · intro found
    obtain ⟨i, place, entry⟩ := Option.bind_eq_some_iff.mp found
    have named : l.index[e.name]? = some i := by
      rw [sound.listed, nameAt, entry]
      rfl
    refine ⟨?_, i, named, entry⟩
    rw [placeholder?, named, placeOf?_eq_some.mp place]
    rfl
  · rintro ⟨known, i, named, entry⟩
    rw [placeholder?, named] at known
    obtain rfl := Option.some.inj known
    rw [entryOf?_placeholderAt, entry]

theorem Sound.target?_of_entryOf? (sound : l.Sound) {v : Int} {e : LabelEntry}
    (found : l.entryOf? v = some e) : l.target? e.name = e.target := by
  obtain ⟨_, i, named, entry⟩ := sound.entryOf?_eq_some.mp found
  rw [target?, named, Option.bind_some, entry, Option.bind_some]

theorem Sound.entryOf?_of_placeholder? (sound : l.Sound) {name : String} {v : Int}
    (known : l.placeholder? name = some v) : ∃ e, l.entryOf? v = some e ∧ e.name = name := by
  obtain ⟨i, place, rfl⟩ := Option.map_eq_some_iff.mp known
  obtain ⟨e, entry, named⟩ := Option.map_eq_some_iff.mp ((sound.listed name i).mp place)
  exact ⟨e, (entryOf?_placeholderAt l i).trans entry, named⟩

end TableAsm.Labels
