import Mathlib.Logic.Relation
import TableAsm.Proofs.Labels.Distances
import TableAsm.Proofs.Labels.Limits
import TableAsm.Proofs.Labels.Width

/-! Names and placeholders along runs of calls. A name keeps its placeholder whatever is called
later, and no other name gets it. A new placeholder comes from the number of names seen so far; the
one for the last name that there is room for still fits 64 bits. -/
namespace TableAsm.Labels

variable {l m : Labels} {name : String} {p : Option Position}

/-- What a single call leads to, whether it succeeds or fails. -/
inductive Call (l : Labels) : Labels → Prop where
  | reference (name : String) (position : Option Position) : Call l (l.reference name position).1
  | define (name : String) (number : Int) (position : Option Position) :
      Call l (l.define name number position).1
  | place : Call l l.place.1
  | expandRepeat (block : List Instruction) (times : Nat) : Call l (l.expandRepeat block times).1

/-- Any number of calls, one after the other. -/
abbrev Calls : Labels → Labels → Prop := Relation.ReflTransGen Call

theorem Called.call (called : Called l) (call : Call l m) : Called m := by
  cases call with
  | reference name position => exact called.reference name position
  | define name number position => exact called.define name number position
  | place => exact called.place
  | expandRepeat block times => exact called.expandRepeat block times

theorem index_place (l : Labels) : l.place.1.index = l.index := by
  unfold place
  split <;> rfl

theorem index_expandRepeat (l : Labels) (block : List Instruction) (times : Nat) :
    (l.expandRepeat block times).1.index = l.index := by
  unfold expandRepeat
  cases times with
  | zero => rfl
  | succ further =>
    simp only
    split <;> rfl

theorem Extends.of_index (same : m.index = l.index) : l.Extends m := by
  intro name i place
  rw [same]
  exact place

theorem Call.extends (sound : l.Sound) (call : Call l m) : l.Extends m := by
  cases call with
  | reference name position => exact (reference_keeps sound name position).kept
  | define name number position =>
    rcases define_cases sound name number position with ok | grows
    · obtain ⟨-, kept, -⟩ := define_target sound (Prod.ext rfl ok)
      exact kept
    · exact grows.kept
  | place => exact .of_index l.index_place
  | expandRepeat block times => exact .of_index (l.index_expandRepeat block times)

/-- Along a run of calls names keep their placeholders. -/
theorem Called.calls (called : Called l) (calls : Calls l m) : Called m ∧ l.Extends m := by
  induction calls with
  | refl => exact ⟨called, .refl l⟩
  | tail _ call ih =>
    obtain ⟨called', kept⟩ := ih
    exact ⟨called'.call call, kept.trans (call.extends called'.keeps.1)⟩

/-- Names that are referred to in the course of a run share a placeholder only if they are equal. -/
theorem Called.reference_eq_iff (called : Called l) {m' m'' : Labels} {other : String}
    {q : Option Position} {n k : Int} (first : l.reference name p = (m, .ok n))
    (between : Calls m m') (second : m'.reference other q = (m'', .ok k)) :
    k = n ↔ other = name := by
  have reached : Called m := by
    have call := called.call (.reference name p)
    rwa [first] at call
  obtain ⟨called', kept⟩ := reached.calls between
  obtain ⟨-, known⟩ := reference_grows called.keeps.1 first
  obtain ⟨grows, known'⟩ := reference_grows called'.keeps.1 second
  have still : m''.placeholder? name = some n := (kept.trans grows.kept).placeholder? known
  constructor
  · rintro rfl
    exact grows.sound.name_unique known' still
  · rintro rfl
    exact Option.some.inj (known'.symm.trans still)

section Sizes

theorem size_reference (sizes : l.index.size = l.entries.size) (name : String)
    (p : Option Position) :
    (l.reference name p).1.index.size = (l.reference name p).1.entries.size := by
  unfold reference
  split
  · simpa using sizes
  · rename_i fresh
    simp only
    split
    · exact sizes
    · have absent : name ∉ l.index := by
        rw [Std.HashMap.mem_iff_isSome_getElem?, fresh]
        simp
      simp [Std.HashMap.size_insert, absent, sizes]

/-- Both tables of names have as many rows. -/
theorem Called.size_index (called : Called l) : l.index.size = l.entries.size := by
  induction called with
  | new => rfl
  | reference name position _ ih => exact size_reference ih name position
  | @define l name number position _ ih =>
    have sizes := size_reference ih name position
    unfold Labels.define
    cases step : l.reference name position with
    | mk m r =>
      rw [step] at sizes
      cases r with
      | error e => exact sizes
      | ok n =>
        simp only
        split
        · simpa using sizes
        · exact sizes
  | @place l _ ih =>
    unfold Labels.place
    split <;> exact ih
  | @expandRepeat l block times _ ih =>
    have moved (f : Int → Option Int) : l.index.size = (l.retarget block.length f).size := by
      rw [ih, retarget, Array.size_map]
    unfold Labels.expandRepeat
    cases times with
    | zero => exact moved _
    | succ further =>
      simp only
      split
      · exact ih
      · exact moved _

end Sizes

section Failures

variable {e : LabelError}

/-- The two tables of names, the defined labels and the counter are the same. -/
structure Unchanged (l m : Labels) : Prop where
  placeholders : ∀ name, m.placeholder? name = l.placeholder? name
  names : ∀ v, m.nameOf? v = l.nameOf? v
  labels : ∀ v, m.labelOf? v = l.labelOf? v
  counter : m.counter = l.counter

theorem Unchanged.refl (l : Labels) : l.Unchanged l :=
  ⟨fun _ => rfl, fun _ => rfl, fun _ => rfl, rfl⟩

theorem Sound.labelOf?_eq (sound : l.Sound) (v : Int) :
    l.labelOf? v = (l.nameOf? v).bind l.target? := by
  rw [labelOf?, nameOf?]
  cases found : l.entryOf? v with
  | none => rfl
  | some e => exact (sound.target?_of_entryOf? found).symm

theorem Grows.unchanged (sound : l.Sound) (grows : l.Grows m) (same : m.index = l.index) :
    l.Unchanged m := by
  have placeholders (name : String) : m.placeholder? name = l.placeholder? name := by
    rw [placeholder?, placeholder?, same]
  have names (v : Int) : m.nameOf? v = l.nameOf? v := by
    refine Option.ext fun name => ?_
    rw [grows.sound.nameOf?_eq_some, sound.nameOf?_eq_some, placeholders]
  refine ⟨placeholders, names, fun v => ?_, grows.counter⟩
  rw [grows.sound.labelOf?_eq, sound.labelOf?_eq, names]
  congr 1
  exact funext grows.targets

theorem reference_of_error (failed : l.reference name p = (m, .error e)) : m = l := by
  unfold reference at failed
  split at failed
  · cases failed
  · simp only at failed
    split at failed <;> cases failed
    rfl

theorem reference_eq_error_iff (l : Labels) (name : String) (p : Option Position) :
    (∃ m e, l.reference name p = (m, .error e)) ↔
      name ∉ l.index ∧ maxNames ≤ l.entries.size := by
  rw [Std.HashMap.mem_iff_isSome_getElem?]
  unfold reference
  cases l.index[name]? with
  | some i => simp
  | none =>
    simp only
    split <;> simp_all

theorem define_of_error {number : Int} (failed : l.define name number p = (m, .error e)) :
    m = l ∨ m = (l.reference name p).1 ∧ e = .definedTwice name p := by
  unfold define at failed
  cases step : l.reference name p with
  | mk m' r =>
    rw [step] at failed
    cases r with
    | error e =>
      cases failed
      exact .inl (reference_of_error step)
    | ok n =>
      simp only at failed
      split at failed <;> cases failed
      exact .inr ⟨rfl, rfl⟩

/-- A definition that fails adds no name: either there was no room for one, or the name is that of
a label and has been seen. -/
theorem define_unchanged (sound : l.Sound) {number : Int}
    (failed : l.define name number p = (m, .error e)) : l.Unchanged m := by
  rcases define_of_error failed with rfl | ⟨rfl, rfl⟩
  · exact .refl m
  · rcases define_eq_error sound failed with full | ⟨-, labelled⟩
    · cases full
    · refine (reference_keeps sound name p).unchanged sound ?_
      cases place : l.index[name]? with
      | none => simp [target?, place] at labelled
      | some i => simp [reference, place]

end Failures

section Narrow

/-- The placeholder of one more name than so many, with numbers of 64 bits: the count, one more,
shifted and negated. -/
def placeholderNarrow? (size : Nat) : Option Int := do
  let count ← signed? ((← signed? size) + 1)
  let shifted ← signed? (count * unit)
  signed? (-shifted)

/-- `reference` with numbers of 64 bits; there is no result when one does not fit. The placeholder
of a name that has been seen is looked up. -/
def referenceNarrow? (l : Labels) (name : String) (p : Option Position) :
    Option (Labels × Except LabelError Int) :=
  match l.index[name]? with
  | some i => some ({ l with entries := l.entries.modify i (·.seenAt p) }, .ok (placeholderAt i))
  | none => do
    let count ← signed? ((← signed? l.index.size) + 1)
    if maxNames < count then return (l, .error (.tooManyNames name p))
    else
      let placeholder ← placeholderNarrow? l.index.size
      return ({ l with
          entries := l.entries.push ⟨name, p, none⟩
          index := l.index.insert name l.entries.size },
        .ok placeholder)

/-- The largest multiple of the unit that is needed, and minus it. -/
theorem signed?_multiple {n : Nat} (le : n ≤ maxNames * unit) :
    signed? n = some (n : Int) ∧ signed? (-n) = some (-n : Int) := by
  have room : maxNames * unit < 2 ^ 63 := by decide
  exact ⟨signed?_of_range (by omega) (by omega), signed?_of_range (by omega) (by omega)⟩

theorem placeholderNarrow?_eq {size : Nat} (few : size < maxNames) :
    placeholderNarrow? size = some (placeholderAt size) := by
  have names : maxNames = 32767 := rfl
  have counted : signed? size = some (size : Int) := signed?_of_range (by omega) (by omega)
  have next : signed? ((size : Int) + 1) = some ((size : Int) + 1) :=
    signed?_of_range (by omega) (by omega)
  obtain ⟨shifted, negated⟩ := signed?_multiple (Nat.mul_le_mul_right unit few)
  have scaled : (((size + 1) * unit : Nat) : Int) = ((size : Int) + 1) * unit := by
    rw [Int.natCast_mul, Int.natCast_succ]
  simp only [placeholderNarrow?, Option.bind_eq_bind, Option.bind_eq_some_iff]
  exact ⟨_, counted, _, next, _, scaled ▸ shifted, scaled ▸ negated⟩

theorem Called.referenceNarrow?_eq (called : Called l) (name : String) (p : Option Position) :
    l.referenceNarrow? name p = some (l.reference name p) := by
  have sizes := called.size_index
  have few := called.keeps.1.few
  have names : maxNames = 32767 := rfl
  unfold referenceNarrow? Labels.reference
  cases l.index[name]? with
  | some i => rfl
  | none =>
    have count := signed?_of_range (n := l.entries.size) (by omega) (by omega)
    have next := signed?_of_range (n := (l.entries.size : Int) + 1) (by omega) (by omega)
    simp only [sizes, count, next, Option.bind_eq_bind, Option.bind_some]
    by_cases full : maxNames ≤ l.entries.size
    · have beyond : (maxNames : Int) < (l.entries.size : Int) + 1 := by omega
      simp [full, beyond]
    · have room : ¬(maxNames : Int) < (l.entries.size : Int) + 1 := by omega
      simp [full, room, placeholderNarrow?_eq (Nat.lt_of_not_le full)]

end Narrow

/-- What is true of names and placeholders at any point of a run. -/
structure Named (l : Labels) : Prop where
  /-- Each table of names is the inverse of the other. -/
  inverse : ∀ name v, l.placeholder? name = some v ↔ l.nameOf? v = some name
  isPlaceholder_iff : ∀ v, l.isPlaceholder v = true ↔ ∃ name, l.placeholder? name = some v
  /-- Equal names get equal placeholders and other names others, however many calls lie between. -/
  apart : ∀ name p m n, l.reference name p = (m, .ok n) → m.placeholder? name = some n ∧
    ∀ m', Calls m m' → ∀ other q m'' k, m'.reference other q = (m'', .ok k) →
      (k = n ↔ other = name)
  multiple : ∀ name v, l.placeholder? name = some v →
    ∃ n : Nat, 1 ≤ n ∧ n ≤ 32767 ∧ v = -(n * 2 ^ 48)
  narrow : ∀ name p, l.referenceNarrow? name p = some (l.reference name p)
  small : ∀ v : Int, v.natAbs < 2 ^ 48 → l.isPlaceholder v = false
  /-- What is defined as a label is a placeholder. -/
  labelled : ∀ v t, l.labelOf? v = some t → l.isPlaceholder v = true
  full : ∀ name p, (∃ m e, l.reference name p = (m, .error e)) ↔
    name ∉ l.index ∧ l.index.size = 32767
  reference_unchanged : ∀ name p m e, l.reference name p = (m, .error e) → l.Unchanged m
  define_unchanged : ∀ name number p m e, l.define name number p = (m, .error e) → l.Unchanged m

theorem isPlaceholder_iff (l : Labels) (v : Int) :
    l.isPlaceholder v = true ↔ ∃ name, l.nameOf? v = some name := by
  rw [isPlaceholder, nameOf?, Option.isSome_iff_exists]
  simp

theorem isPlaceholder_of_labelOf? {v t : Int} (label : l.labelOf? v = some t) :
    l.isPlaceholder v = true := by
  obtain ⟨e, found, -⟩ := Option.bind_eq_some_iff.mp label
  rw [isPlaceholder, found]
  rfl

theorem Sound.exists_multiple (sound : l.Sound) {v : Int} (known : l.placeholder? name = some v) :
    ∃ n : Nat, 1 ≤ n ∧ n ≤ 32767 ∧ v = -(n * 2 ^ 48) := by
  obtain ⟨i, place, rfl⟩ := Option.map_eq_some_iff.mp known
  obtain ⟨e, entry, -⟩ := Option.map_eq_some_iff.mp ((sound.listed name i).mp place)
  have inside := (Array.getElem?_eq_some_iff.mp entry).1
  have few : l.entries.size ≤ 32767 := sound.few
  exact ⟨i + 1, by omega, by omega, by rw [placeholderAt]; push_cast; rfl⟩

theorem Called.full_iff (called : Called l) (name : String) (p : Option Position) :
    (∃ m e, l.reference name p = (m, .error e)) ↔ name ∉ l.index ∧ l.index.size = 32767 := by
  have few : l.entries.size ≤ 32767 := called.keeps.1.few
  have limit : maxNames = 32767 := rfl
  rw [reference_eq_error_iff, called.size_index, limit]
  constructor
  · rintro ⟨absent, full⟩
    exact ⟨absent, by omega⟩
  · rintro ⟨absent, full⟩
    exact ⟨absent, by omega⟩

/-- Names and placeholders go together in whatever order the operations are called. -/
theorem Called.named_apart (called : Called l) : l.Named where
  inverse name v := called.keeps.1.nameOf?_eq_some.symm
  isPlaceholder_iff v := by
    rw [Labels.isPlaceholder_iff]
    exact exists_congr fun name => called.keeps.1.nameOf?_eq_some
  apart name p m n first :=
    ⟨(reference_grows called.keeps.1 first).2, fun _ between _ _ _ _ second =>
      called.reference_eq_iff first between second⟩
  multiple name v known := called.keeps.1.exists_multiple known
  narrow := called.referenceNarrow?_eq
  small v small := by
    have near : -(unit : Int) < v := by
      have units : (unit : Int) = 2 ^ 48 := rfl
      omega
    rw [isPlaceholder, entryOf?_of_lt near]
    rfl
  labelled v t label := isPlaceholder_of_labelOf? label
  full := called.full_iff
  reference_unchanged name p m e failed := reference_of_error failed ▸ .refl l
  define_unchanged name number p m e failed := Labels.define_unchanged called.keeps.1 failed

theorem named_pair : ∃ l m k, Called l ∧ l.placeholder? "a" = some (-(2 ^ 48)) ∧
    l.reference "b" none = (m, .ok k) ∧ k ≠ -(2 ^ 48) ∧ l.isPlaceholder (2 ^ 48 - 1) = false := by
  have first : new.reference "a" none =
      (⟨#[⟨"a", none, none⟩], (∅ : Std.HashMap String Nat).insert "a" 0, 0⟩, .ok (-(2 ^ 48))) := by
    simp [reference, new, maxNames, placeholderAt, unit]
  have called : Called (new.reference "a" none).1 := .reference "a" none .new
  obtain ⟨known, apart⟩ := Called.new.named_apart.apart "a" none _ _ first
  have second : ∃ m k, (new.reference "a" none).1.reference "b" none = (m, .ok k) := by
    cases step : (new.reference "a" none).1.reference "b" none with
    | mk m r =>
      cases r with
      | ok k => exact ⟨m, k, rfl⟩
      | error e =>
        obtain ⟨-, full⟩ := (called.named_apart.full "b" none).mp ⟨m, e, step⟩
        rw [called.size_index, first] at full
        simp at full
  obtain ⟨m, k, step⟩ := second
  rw [first] at called step
  refine ⟨_, m, k, called, known, step, ?_, called.named_apart.small _ (by decide)⟩
  rw [Ne, apart _ .refl _ _ _ _ step]
  decide

end TableAsm.Labels
