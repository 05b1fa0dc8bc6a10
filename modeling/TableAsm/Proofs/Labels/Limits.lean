import Mathlib.Data.List.Dedup
import TableAsm.Proofs.Labels.Resolving

/-! When the operations on labels go through. A program can have so many names and so many
instructions; a label must be new, and a reference that is resolved needs a label. Nothing else is
in the way, so a failure tells what was missing. -/
namespace TableAsm.Labels

variable {l : Labels} {known : List String} {names inside behind : List (List String)}
  {name : String}

/-- All names that have been seen are among some. -/
structure Among (l : Labels) (known : List String) : Prop where
  sound : l.Sound
  listed : ∀ (name : String) i, l.index[name]? = some i → name ∈ known

theorem among_new : new.Among known := by
  refine ⟨sound_new, fun name i found => ?_⟩
  simp [new] at found

/-- The names seen so far are all different, so a further one is one of the others. -/
theorem Among.size_lt (among : l.Among known) (mem : name ∈ known)
    (unseen : l.index[name]? = none) : l.entries.size < known.dedup.length := by
  have sound := among.sound
  have place : ∀ i : Nat, (l.entries.toList.map (·.name))[i]? = l.nameAt i := fun i => by
    rw [List.getElem?_map, Array.getElem?_toList, nameAt]
  have listed : ∀ other ∈ l.entries.toList.map (·.name), ∃ i, l.index[other]? = some i := by
    intro other inside
    obtain ⟨i, found⟩ := List.mem_iff_getElem?.mp inside
    rw [place] at found
    exact ⟨i, (sound.listed other i).mpr found⟩
  have nodup : (l.entries.toList.map (·.name)).Nodup := by
    rw [List.nodup_iff_getElem?_ne_getElem?]
    intro i j less short same
    obtain ⟨other, found⟩ : ∃ other, (l.entries.toList.map (·.name))[j]? = some other :=
      ⟨_, List.getElem?_eq_getElem short⟩
    have first := same.trans found
    rw [place] at first found
    have one := (sound.listed other i).mpr first
    rw [(sound.listed other j).mpr found] at one
    exact Nat.ne_of_lt less (Option.some.inj one).symm
  have different : (name :: l.entries.toList.map (·.name)).Nodup := by
    refine List.nodup_cons.mpr ⟨fun inside => ?_, nodup⟩
    obtain ⟨i, found⟩ := listed name inside
    rw [unseen] at found
    cases found
  have all : name :: l.entries.toList.map (·.name) ⊆ known.dedup := by
    intro other inside
    rw [List.mem_dedup]
    rcases List.mem_cons.mp inside with rfl | inside
    · exact mem
    · obtain ⟨i, found⟩ := listed other inside
      exact among.listed other i found
  have count := different.length_le_of_subset all
  rw [List.length_cons, List.length_map, Array.length_toList] at count
  exact count

section Names

variable (among : l.Among known) (few : known.dedup.length ≤ maxNames) (mem : name ∈ known)
  (p : Option Position)

include among few mem

theorem exists_reference : ∃ l' n, l.reference name p = (l', .ok n) ∧ l'.Among known := by
  cases place : l.index[name]? with
  | some i =>
    have step : l.reference name p =
        ({ l with entries := l.entries.modify i (·.seenAt p) }, .ok (placeholderAt i)) := by
      simp only [reference, place]
    exact ⟨_, _, step, (reference_grows among.sound step).1.sound, among.listed⟩
  | none =>
    have room := Nat.lt_of_lt_of_le (among.size_lt mem place) few
    have step : l.reference name p =
        ({ l with entries := l.entries.push ⟨name, p, none⟩
                  index := l.index.insert name l.entries.size },
          .ok (placeholderAt l.entries.size)) := by
      simp only [reference, place, if_neg (Nat.not_le.mpr room)]
    refine ⟨_, _, step, (reference_grows among.sound step).1.sound, fun other i found => ?_⟩
    rw [Std.HashMap.getElem?_insert] at found
    split at found
    · rename_i same
      exact eq_of_beq same ▸ mem
    · exact among.listed other i found

theorem exists_define (free : l.target? name = none) (number : Int) :
    ∃ l', l.define name number p = (l', .ok ()) ∧ l'.Among known := by
  obtain ⟨m, n, referred, among'⟩ := exists_reference among few mem p
  obtain ⟨grows, placed⟩ := reference_grows among.sound referred
  obtain ⟨⟨title, use, target⟩, entry, rfl⟩ := grows.sound.entryOf?_of_placeholder? placed
  have none := grows.sound.target?_of_entryOf? entry
  rw [grows.targets, free] at none
  obtain ⟨i, _, eq⟩ := Option.map_eq_some_iff.mp placed
  have place : placeOf? n = some i := placeOf?_eq_some.mpr eq.symm
  subst none
  have step : l.define title number p =
      ({ m with entries := m.entries.modify i ({ · with target := some number }) }, .ok ()) := by
    simp only [define, referred, place, entry]
  exact ⟨_, step, (define_target among.sound step).1, among'.listed⟩

end Names

theorem Carries.exists_place (h : l.Carries names) (room : names.length < maxLength)
    (among : l.Among known) : ∃ l' n, l.place = (l', .ok n) ∧ l'.Among known := by
  have counter := h.counter
  have below : ¬ l.counter ≤ -(maxLength : Int) := by omega
  have step : l.place = ({ l with counter := l.counter - 1 }, .ok (l.counter - 1)) := by
    rw [Labels.place, if_neg below]
  exact ⟨_, _, step, (h.place step).1.sound, among.listed⟩

theorem Carries.exists_expandRepeat (h : l.Carries (inside ++ behind)) {block : List Instruction}
    (length : block.length = inside.length) {times : Nat} (few : times ≤ maxCopies)
    (room : times * block.length + behind.length ≤ maxLength) (among : l.Among known) :
    ∃ l' is, l.expandRepeat block times = (l', .ok is) ∧ l'.Among known := by
  unfold Labels.expandRepeat
  cases times with
  | zero => exact ⟨_, _, rfl, among.sound.retarget _ _ _, among.listed⟩
  | succ further =>
    have counter := h.counter
    rw [List.length_append, ← length] at counter
    rw [Nat.succ_mul] at room
    have fits : ¬ (maxCopies < further || l.counter - further * block.length < -(maxLength : Int)) =
        true := by
      rw [Bool.or_eq_true, decide_eq_true_eq, decide_eq_true_eq, ← Int.natCast_mul]
      omega
    simp only
    rw [if_neg fits]
    exact ⟨_, _, rfl, among.sound.retarget _ _ _, among.listed⟩

theorem Carries.exists_resolveValue (h : l.Carries names) {n : Int}
    (seen : l.placeholder? name = some n) (on : ∃ here ∈ names, name ∈ here) (index : Nat) :
    ∃ w, l.resolveValue index (.int n) = .ok w := by
  obtain ⟨here, mem, label⟩ := on
  obtain ⟨j, place⟩ := List.mem_iff_getElem?.mp mem
  have target := (h.targets name _).mpr ⟨j, here, place, label, rfl⟩
  obtain ⟨e, entry, rfl⟩ := h.sound.entryOf?_of_placeholder? seen
  rw [h.sound.target?_of_entryOf? entry] at target
  simp only [resolveValue, entry, target]
  exact ⟨_, rfl⟩

section Failures

variable {l' : Labels} {e : LabelError} {p : Option Position}

theorem reference_eq_error (failed : l.reference name p = (l', .error e)) :
    e = .tooManyNames name p := by
  unfold Labels.reference at failed
  split at failed
  · cases failed
  · simp only at failed
    split at failed
    · cases failed
      rfl
    · cases failed

theorem define_eq_error (sound : l.Sound) {number : Int}
    (failed : l.define name number p = (l', .error e)) :
    e = .tooManyNames name p ∨ e = .definedTwice name p ∧ (l.target? name).isSome := by
  unfold Labels.define at failed
  rcases referred : l.reference name p with ⟨m, _ | n⟩
  · rw [referred] at failed
    cases failed
    exact Or.inl (reference_eq_error referred)
  · obtain ⟨grows, known⟩ := reference_grows sound referred
    obtain ⟨entry, found, rfl⟩ := grows.sound.entryOf?_of_placeholder? known
    obtain ⟨i, _, eq⟩ := Option.map_eq_some_iff.mp known
    have placed : placeOf? n = some i := placeOf?_eq_some.mpr eq.symm
    simp only [referred, placed, found] at failed
    obtain ⟨title, use, _ | target⟩ := entry
    · cases failed
    · cases failed
      have kept := grows.sound.target?_of_entryOf? found
      rw [grows.targets] at kept
      simp [kept]

theorem Carries.place_eq_error (h : l.Carries names) (failed : l.place = (l', .error e)) :
    e = .programTooLong ∧ maxLength ≤ names.length := by
  have counter := h.counter
  unfold Labels.place at failed
  split at failed
  · cases failed
    exact ⟨rfl, by omega⟩
  · cases failed

/-- Unrolling fails only for want of room if the count can be calculated with. -/
theorem Carries.expandRepeat_eq_error (h : l.Carries (inside ++ behind))
    {block : List Instruction} (length : block.length = inside.length) {times : Nat}
    (few : times ≤ maxCopies) (failed : l.expandRepeat block times = (l', .error e)) :
    e = .repeatTooLong ∧ maxLength < behind.length + times * block.length := by
  have counter := h.counter
  rw [List.length_append, ← length] at counter
  unfold Labels.expandRepeat at failed
  cases times with
  | zero => cases failed
  | succ further =>
    simp only at failed
    split at failed
    · rename_i long
      cases failed
      rw [Bool.or_eq_true, decide_eq_true_eq, decide_eq_true_eq, ← Int.natCast_mul] at long
      rw [Nat.succ_mul]
      exact ⟨rfl, by omega⟩
    · cases failed

end Failures

end TableAsm.Labels
