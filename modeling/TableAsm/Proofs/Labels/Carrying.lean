import Mathlib.Data.List.Basic
import TableAsm.Proofs.Labels.Placeholders

/-! Labels as names attached to a list of instructions. The list is the part of the program that
has been placed, from the one placed last; every name that has a target sits on the instruction
there, and only there. Each operation on labels does to the list what it stands for. -/
namespace TableAsm.Labels

variable {l l' : Labels}

/-- Names may have been added, and nothing else has changed. -/
structure Grows (l l' : Labels) : Prop where
  sound : l'.Sound
  kept : l.Extends l'
  counter : l'.counter = l.counter
  targets : ∀ name, l'.target? name = l.target? name

theorem Grows.refl (sound : l.Sound) : l.Grows l := ⟨sound, .refl l, rfl, fun _ => rfl⟩

theorem Grows.trans {l'' : Labels} (first : l.Grows l') (second : l'.Grows l'') : l.Grows l'' :=
  ⟨second.sound, first.kept.trans second.kept, second.counter.trans first.counter,
    fun name => (second.targets name).trans (first.targets name)⟩

theorem name_seenAt (e : LabelEntry) (p : Option Position) : (e.seenAt p).name = e.name := by
  unfold LabelEntry.seenAt
  split <;> rfl

theorem target_seenAt (e : LabelEntry) (p : Option Position) :
    (e.seenAt p).target = e.target := by
  unfold LabelEntry.seenAt
  split <;> rfl

/-- Entries may change as long as they keep their names. -/
theorem Sound.of_names {entries : Array LabelEntry} {counter : Int} (sound : l.Sound)
    (size : entries.size = l.entries.size)
    (names : ∀ i : Nat, entries[i]?.map (·.name) = l.nameAt i) :
    Sound ⟨entries, l.index, counter⟩ := by
  refine ⟨fun name i => ?_, ?_⟩
  · rw [sound.listed, ← names i]
    rfl
  · rw [show entries.size = l.entries.size from size]
    exact sound.few

section Entries

variable {name : String}

/-- What is known about a name. -/
def known? (l : Labels) (name : String) : Option LabelEntry :=
  l.index[name]?.bind (l.entries[·]?)

theorem target?_eq (l : Labels) (name : String) :
    l.target? name = (l.known? name).bind (·.target) :=
  (Option.bind_assoc _ _ _).symm

theorem Sound.known?_modify (sound : l.Sound) {i : Nat} (place : l.index[name]? = some i)
    (f : LabelEntry → LabelEntry) (other : String) :
    known? { l with entries := l.entries.modify i f } other =
      if other = name then (l.known? name).map f else l.known? other := by
  by_cases same : other = name
  · subst same
    simp [known?, place, Array.getElem?_modify]
  · rw [if_neg same]
    simp only [known?]
    cases found : l.index[other]? with
    | none => rfl
    | some j =>
      have apart : i ≠ j := by
        rintro rfl
        have named := (sound.listed name i).mp place
        rw [(sound.listed other i).mp found] at named
        exact same (Option.some.inj named)
      simp [Array.getElem?_modify, apart]

theorem reference_known? (sound : l.Sound) {p : Option Position} {n : Int}
    (step : l.reference name p = (l', .ok n)) (other : String) :
    l'.known? other = if other = name then
      some ((l.known? name).elim ⟨name, p, none⟩ (·.seenAt p)) else l.known? other := by
  unfold reference at step
  split at step
  · rename_i i place
    cases step
    obtain ⟨e, entry, _⟩ := Option.map_eq_some_iff.mp ((sound.listed name i).mp place)
    rw [sound.known?_modify place]
    simp [known?, place, entry]
  · rename_i fresh
    simp only at step
    split at step
    · cases step
    · cases step
      have index : (l.index.insert name l.entries.size)[other]? =
          if other = name then some l.entries.size else l.index[other]? := by
        rw [Std.HashMap.getElem?_insert]
        simp only [beq_iff_eq, @eq_comm _ name]
      by_cases same : other = name
      · subst same
        simp [known?, fresh]
      · simp only [known?, index, if_neg same]
        cases found : l.index[other]? with
        | none => rfl
        | some j =>
          -- a name that is found has its entry in front of the new one
          obtain ⟨e, entry, _⟩ := Option.map_eq_some_iff.mp ((sound.listed other j).mp found)
          have short := (Array.getElem?_eq_some_iff.mp entry).1
          simp [Array.getElem?_push, Nat.ne_of_lt short]

end Entries

theorem reference_target? (sound : l.Sound) {name : String} {p : Option Position} {n : Int}
    (step : l.reference name p = (l', .ok n)) (other : String) : l'.target? other = l.target? other := by
  rw [target?_eq, target?_eq, reference_known? sound step]
  by_cases same : other = name
  · rw [if_pos same, same]
    cases l.known? name with
    | none => rfl
    | some e => exact target_seenAt e p
  · rw [if_neg same]

/-- Referring to a name makes it known and changes no target. -/
theorem reference_grows (sound : l.Sound) {name : String} {p : Option Position} {n : Int}
    (step : l.reference name p = (l', .ok n)) :
    l.Grows l' ∧ l'.placeholder? name = some n := by
  have targets := reference_target? sound step
  unfold reference at step
  cases place : l.index[name]? with
  | some i =>
    rw [place] at step
    cases step
    have entry : ∀ j : Nat, (l.entries.modify i (·.seenAt p))[j]? =
        if i = j then l.entries[j]?.map (·.seenAt p) else l.entries[j]? :=
      fun j => Array.getElem?_modify
    refine ⟨⟨sound.of_names Array.size_modify fun j => ?_, .refl l, rfl, targets⟩, ?_⟩
    · rw [entry, nameAt]
      split
      · cases l.entries[j]? <;> simp [name_seenAt]
      · rfl
    · rw [placeholder?, place]
      rfl
  | none =>
    rw [place] at step
    simp only at step
    split at step
    · cases step
    · rename_i few
      cases step
      have index : ∀ other : String, (l.index.insert name l.entries.size)[other]? =
          if name = other then some l.entries.size else l.index[other]? := by
        intro other
        rw [Std.HashMap.getElem?_insert]
        simp
      have entry : ∀ j : Nat, (l.entries.push ⟨name, p, none⟩)[j]? =
          if j = l.entries.size then some ⟨name, p, none⟩ else l.entries[j]? :=
        fun j => Array.getElem?_push
      have beyond : l.nameAt l.entries.size = none := by simp [nameAt]
      have inside : ∀ (other : String) j, l.index[other]? = some j → j ≠ l.entries.size := by
        rintro other j found rfl
        rw [sound.listed, beyond] at found
        cases found
      refine ⟨⟨⟨fun other j => ?_, ?_⟩, fun other j found => ?_, rfl, targets⟩, ?_⟩
      · simp only [index, nameAt, entry]
        by_cases same : name = other
        · subst same
          by_cases last : j = l.entries.size
          · simp [last]
          · have absent := (sound.listed name j).not.mp (by rw [place]; simp)
            rw [if_pos rfl, if_neg last]
            exact ⟨fun eq => absurd (Option.some.inj eq).symm last, fun eq => absurd eq absent⟩
        · rw [if_neg same]
          by_cases last : j = l.entries.size
          · subst last
            refine ⟨fun found => absurd rfl (inside other _ found), fun eq => ?_⟩
            rw [if_pos rfl] at eq
            exact absurd (Option.some.inj eq) same
          · rw [if_neg last]
            exact sound.listed other j
      · rw [Array.size_push]
        omega
      · have other_ne : name ≠ other := by
          rintro rfl
          rw [place] at found
          cases found
        rw [index, if_neg other_ne, found]
      · rw [placeholder?, index, if_pos rfl]
        rfl

/-- Defining a name gives it a target, which it has not had before. -/
theorem define_target (sound : l.Sound) {name : String} {number : Int} {p : Option Position}
    (step : l.define name number p = (l', .ok ())) :
    l'.Sound ∧ l.Extends l' ∧ l'.counter = l.counter ∧ l.target? name = none ∧
      ∀ other, l'.target? other = if other = name then some number else l.target? other := by
  unfold define at step
  cases referred : l.reference name p with
  | mk m r =>
    rw [referred] at step
    cases r with
    | error e => cases step
    | ok n =>
      obtain ⟨grows, known⟩ := reference_grows sound referred
      obtain ⟨i, place, eq⟩ := Option.map_eq_some_iff.mp known
      have placed : placeOf? n = some i := placeOf?_eq_some.mpr eq.symm
      have entryOf : m.entryOf? n = m.entries[i]? := eq ▸ entryOf?_placeholderAt m i
      simp only [placed, entryOf] at step
      cases found : m.entries[i]? with
      | none =>
        rw [found] at step
        cases step
      | some e =>
        rw [found] at step
        obtain ⟨title, use, target⟩ := e
        cases target with
        | some t => cases step
        | none =>
          cases step
          have known : m.known? name = some ⟨title, use, none⟩ := by
            rw [known?, place, Option.bind_some, found]
          have fresh : m.target? name = none := by
            rw [target?_eq, known]
            rfl
          refine ⟨grows.sound.of_names Array.size_modify fun j => ?_, grows.kept, grows.counter,
            (grows.targets name).symm.trans fresh, fun other => ?_⟩
          · rw [Array.getElem?_modify, nameAt]
            split
            · cases m.entries[j]? <;> rfl
            · rfl
          · rw [← grows.targets other, target?_eq, grows.sound.known?_modify place]
            by_cases same : other = name
            · rw [if_pos same, if_pos same, known]
              rfl
            · rw [if_neg same, if_neg same, target?_eq]

section Sitting

/-- A name is on the instruction with a number, where the instructions in a row have the names
`names` and are numbered from `first` on. -/
def Sits (name : String) (names : List (List String)) (first number : Int) : Prop :=
  ∃ (j : Nat) (here : List String), names[j]? = some here ∧ name ∈ here ∧ number = first + j

variable {name : String} {names others : List (List String)} {first number : Int}

theorem not_sits_nil : ¬Sits name [] first number := by
  rintro ⟨j, here, found, _⟩
  cases found

theorem sits_cons {here : List String} :
    Sits name (here :: names) first number ↔
      (name ∈ here ∧ number = first) ∨ Sits name names (first + 1) number := by
  constructor
  · rintro ⟨j, there, found, mem, rfl⟩
    cases j with
    | zero =>
      obtain rfl := Option.some.inj found
      exact Or.inl ⟨mem, by omega⟩
    | succ j => exact Or.inr ⟨j, there, found, mem, by omega⟩
  · rintro (⟨mem, rfl⟩ | ⟨j, there, found, mem, rfl⟩)
    · exact ⟨0, here, rfl, mem, by omega⟩
    · exact ⟨j + 1, there, found, mem, by omega⟩

theorem sits_append : Sits name (names ++ others) first number ↔
    Sits name names first number ∨ Sits name others (first + names.length) number := by
  induction names generalizing first with
  | nil => simp [not_sits_nil]
  | cons here names ih =>
    have shift : first + 1 + names.length = first + (here :: names).length := by
      rw [List.length_cons]
      omega
    rw [List.cons_append, sits_cons, sits_cons, ih, or_assoc, shift]

theorem not_sits_replicate (n : Nat) : ¬Sits name (List.replicate n []) first number := by
  rintro ⟨j, here, found, mem, _⟩
  rw [(List.mem_replicate.mp (List.mem_of_getElem? found)).2] at mem
  cases mem

theorem Sits.in_range (h : Sits name names first number) :
    first ≤ number ∧ number < first + names.length := by
  obtain ⟨j, here, found, _, rfl⟩ := h
  have short := (List.getElem?_eq_some_iff.mp found).1
  omega

/-- The same instructions can be numbered differently. -/
theorem sits_shift (d : Int) :
    Sits name names (first + d) (number + d) ↔ Sits name names first number := by
  constructor
  · rintro ⟨j, here, found, mem, eq⟩
    exact ⟨j, here, found, mem, by omega⟩
  · rintro ⟨j, here, found, mem, eq⟩
    exact ⟨j, here, found, mem, by omega⟩

end Sitting

/-- The names on the instructions that have been placed, from the one placed last. -/
structure Carries (l : Labels) (names : List (List String)) : Prop where
  sound : l.Sound
  counter : l.counter = -(names.length : Int)
  targets : ∀ name t, l.target? name = some t ↔ Sits name names l.counter t

/-- No more instructions have been placed than a program can have. -/
def Fits (l : Labels) : Prop := -(maxLength : Int) ≤ l.counter

theorem carries_new : new.Carries [] := by
  refine ⟨sound_new, rfl, fun name t => ?_⟩
  simp [target?, new, not_sits_nil]

theorem fits_new : new.Fits := by
  show -(maxLength : Int) ≤ 0
  omega

namespace Carries

variable {names : List (List String)} {name : String}

theorem grows (h : l.Carries names) (grown : l.Grows l') : l'.Carries names :=
  ⟨grown.sound, grown.counter.trans h.counter, fun name t => by
    rw [grown.targets, grown.counter]
    exact h.targets name t⟩

theorem length_le (h : l.Carries names) (fits : l.Fits) : names.length ≤ maxLength := by
  have counter := h.counter
  unfold Fits at fits
  omega

/-- A name sits on one instruction at most. -/
theorem unique (h : l.Carries names) {i j : Nat} {here there : List String}
    (atI : names[i]? = some here) (memI : name ∈ here) (atJ : names[j]? = some there)
    (memJ : name ∈ there) : i = j := by
  have first := (h.targets name _).mpr ⟨i, here, atI, memI, rfl⟩
  rw [(h.targets name _).mpr ⟨j, there, atJ, memJ, rfl⟩] at first
  have same := Option.some.inj first
  omega

theorem isSome_target?_iff (h : l.Carries names) :
    (l.target? name).isSome ↔ ∃ here ∈ names, name ∈ here := by
  rw [Option.isSome_iff_exists]
  constructor
  · rintro ⟨t, target⟩
    obtain ⟨j, here, found, on, _⟩ := (h.targets name t).mp target
    exact ⟨here, List.mem_of_getElem? found, on⟩
  · rintro ⟨here, mem, on⟩
    obtain ⟨j, found⟩ := List.mem_iff_getElem?.mp mem
    exact ⟨_, (h.targets name _).mpr ⟨j, here, found, on, rfl⟩⟩

/-- Placing puts an instruction without names in front. -/
theorem place (h : l.Carries names) {n : Int} (step : l.place = (l', .ok n)) :
    l'.Carries ([] :: names) ∧ l.Extends l' ∧ l'.Fits ∧ n = l'.counter := by
  unfold Labels.place at step
  split at step
  · cases step
  · rename_i room
    cases step
    refine ⟨⟨⟨h.sound.listed, h.sound.few⟩, ?_, fun name t => ?_⟩, .refl l, ?_, rfl⟩
    · show l.counter - 1 = _
      rw [h.counter, List.length_cons]
      omega
    · show l.target? name = some t ↔ Sits name ([] :: names) (l.counter - 1) t
      rw [h.targets, sits_cons, Int.sub_add_cancel]
      simp
    · show -(maxLength : Int) ≤ l.counter - 1
      omega

/-- Defining puts a new name on an instruction. -/
theorem define (h : l.Carries names) {j : Nat} {here : List String} (found : names[j]? = some here)
    {p : Option Position} (step : l.define name (l.counter + j) p = (l', .ok ())) :
    l'.Carries (names.set j (name :: here)) ∧ l.Extends l' ∧ l'.counter = l.counter ∧
      ∀ others ∈ names, name ∉ others := by
  obtain ⟨sound, kept, counter, fresh, targets⟩ := define_target h.sound step
  have absent : ∀ others ∈ names, name ∉ others := by
    intro others mem onIt
    obtain ⟨k, at_k⟩ := List.mem_iff_getElem?.mp mem
    have old := (h.targets name _).mpr ⟨k, others, at_k, onIt, rfl⟩
    rw [fresh] at old
    cases old
  have inside : j < names.length := (List.getElem?_eq_some_iff.mp found).1
  have set_at : ∀ k, (names.set j (name :: here))[k]? =
      if j = k then some (name :: here) else names[k]? := by
    intro k
    by_cases hit : j = k
    · rw [if_pos hit, ← hit, List.getElem?_set_self inside]
    · rw [if_neg hit, List.getElem?_set_ne hit]
  refine ⟨⟨sound, ?_, fun other t => ?_⟩, kept, counter, absent⟩
  · rw [counter, h.counter, List.length_set]
  · rw [targets, counter]
    by_cases same : other = name
    · subst same
      rw [if_pos rfl]
      constructor
      · rintro ⟨⟩
        exact ⟨j, other :: here, by rw [set_at, if_pos rfl], List.mem_cons_self, rfl⟩
      · rintro ⟨k, there, at_k, mem, rfl⟩
        rw [set_at] at at_k
        split at at_k
        · rename_i same
          rw [same]
        · exact absurd mem (absent there (List.mem_of_getElem? at_k))
    · rw [if_neg same, h.targets]
      constructor
      · rintro ⟨k, there, at_k, mem, rfl⟩
        by_cases hit : j = k
        · subst hit
          obtain rfl := Option.some.inj (found.symm.trans at_k)
          exact ⟨j, name :: here, by rw [set_at, if_pos rfl], List.mem_cons_of_mem _ mem, rfl⟩
        · exact ⟨k, there, by rw [set_at, if_neg hit, at_k], mem, rfl⟩
      · rintro ⟨k, there, at_k, mem, rfl⟩
        rw [set_at] at at_k
        split at at_k
        · rename_i hit
          subst hit
          obtain rfl := Option.some.inj at_k
          exact ⟨j, here, found, (List.mem_cons.mp mem).resolve_left same, rfl⟩
        · exact ⟨k, there, at_k, mem, rfl⟩

end Carries

section Blocks

variable {inside behind : List (List String)} {name : String}

/-- A block's labels are those whose targets lie in its range. -/
theorem Carries.target_in_range (h : l.Carries (inside ++ behind)) {t : Int} :
    (l.target? name = some t ∧ l.counter ≤ t ∧ t < l.counter + inside.length) ↔
      Sits name inside l.counter t := by
  rw [h.targets, sits_append]
  constructor
  · rintro ⟨within | beyond, _, below⟩
    · exact within
    · have le := beyond.in_range.1
      omega
  · exact fun within => ⟨Or.inl within, within.in_range⟩

theorem target?_retarget (l : Labels) (length : Nat) (f : Int → Option Int) (counter : Int)
    (name : String) :
    target? ⟨l.retarget length f, l.index, counter⟩ name = (l.target? name).bind fun t =>
      if l.counter ≤ t ∧ t < l.counter + length then f t else some t := by
  simp only [target?, retarget, Array.getElem?_map]
  cases l.index[name]? with
  | none => rfl
  | some i =>
    simp only [Option.bind_some]
    cases l.entries[i]? with
    | none => rfl
    | some e =>
      simp only [Option.map_some, Option.bind_some]
      cases target : e.target with
      | none => exact target
      | some t =>
        simp only [Option.bind_some]
        split
        · rfl
        · exact target

theorem Sound.retarget (sound : l.Sound) (length : Nat) (f : Int → Option Int) (counter : Int) :
    Sound ⟨l.retarget length f, l.index, counter⟩ := by
  refine sound.of_names Array.size_map fun i => ?_
  rw [nameAt, Labels.retarget, Array.getElem?_map, Option.map_map]
  congr 1
  funext e
  simp only [Function.comp_apply]
  split
  · split <;> rfl
  · rfl

/-- Only the labels of the block get other targets. -/
theorem Carries.retarget (h : l.Carries (inside ++ behind)) (f : Int → Option Int)
    (counter t : Int) :
    target? ⟨l.retarget inside.length f, l.index, counter⟩ name = some t ↔
      (∃ t', Sits name inside l.counter t' ∧ f t' = some t) ∨
        Sits name behind (l.counter + inside.length) t := by
  rw [target?_retarget, Option.bind_eq_some_iff]
  constructor
  · rintro ⟨t', known, eq⟩
    rcases sits_append.mp ((h.targets name t').mp known) with within | beyond
    · rw [if_pos within.in_range] at eq
      exact Or.inl ⟨t', within, eq⟩
    · have le := beyond.in_range.1
      rw [if_neg (by omega)] at eq
      exact Or.inr (Option.some.inj eq ▸ beyond)
  · rintro (⟨t', within, eq⟩ | beyond)
    · refine ⟨t', (h.targets name t').mpr (sits_append.mpr (Or.inl within)), ?_⟩
      rw [if_pos within.in_range, eq]
    · have le := beyond.in_range.1
      refine ⟨t, (h.targets name t).mpr (sits_append.mpr (Or.inr beyond)), ?_⟩
      rw [if_neg (by omega)]

/-- The names on a block that is unrolled: they stay on its first copy. -/
def unrolledNames (inside : List (List String)) : Nat → List (List String)
  | 0 => []
  | further + 1 => inside ++ List.replicate (further * inside.length) []

theorem length_unrolledNames (inside : List (List String)) (times : Nat) :
    (unrolledNames inside times).length = times * inside.length := by
  cases times with
  | zero => rw [unrolledNames, List.length_nil, Nat.zero_mul]
  | succ further =>
    rw [unrolledNames, List.length_append, List.length_replicate, Nat.succ_mul, Nat.add_comm]

/-- Unrolling a block moves its labels to the first copy, or drops them. -/
theorem Carries.expandRepeat (h : l.Carries (inside ++ behind)) (fits : l.Fits)
    {block unrolled : List Instruction} (length : block.length = inside.length) {times : Nat}
    (step : l.expandRepeat block times = (l', .ok unrolled)) :
    l'.Carries (unrolledNames inside times ++ behind) ∧ l.Extends l' ∧ l'.Fits ∧
      unrolled = (List.replicate times (l.resolveWithin block)).flatten := by
  unfold Labels.expandRepeat at step
  rw [length] at step
  have counter := h.counter
  rw [List.length_append] at counter
  cases times with
  | zero =>
    cases step
    refine ⟨⟨h.sound.retarget _ _ _, ?_, fun name t => ?_⟩, .refl l, ?_, rfl⟩
    · show l.counter + inside.length = -(behind.length : Int)
      omega
    · rw [h.retarget]
      simp [unrolledNames]
    · show -(maxLength : Int) ≤ l.counter + inside.length
      unfold Fits at fits
      omega
  | succ further =>
    simp only at step
    split at step
    · cases step
    · rename_i room
      cases step
      simp only [Bool.or_eq_true, decide_eq_true_eq, not_or] at room
      refine ⟨⟨h.sound.retarget _ _ _, ?_, fun name t => ?_⟩, .refl l, Int.not_lt.mp room.2, ?_⟩
      · show l.counter - further * inside.length = _
        simp only [unrolledNames, List.length_append, List.length_replicate, Int.natCast_add,
          Int.natCast_mul]
        omega
      · rw [h.retarget]
        simp only [Option.some.injEq, unrolledNames, sits_append, not_sits_replicate, or_false,
          List.length_append, List.length_replicate, Int.natCast_add, Int.natCast_mul]
        generalize (further : Int) * inside.length = extra
        have shift : l.counter + (inside.length : Int) =
            l.counter - extra + (inside.length + extra) := by omega
        rw [shift]
        refine or_congr_left ⟨?_, fun moved => ⟨t + extra, ?_, by omega⟩⟩
        · rintro ⟨t', within, rfl⟩
          exact (sits_shift (-extra)).mpr within
        · rw [← sits_shift (-extra), Int.add_neg_cancel_right]
          exact moved
      · unfold copies
        split
        · rename_i empty
          rw [List.isEmpty_iff.mp empty, List.flatten_replicate_nil]
        · rfl

end Blocks

end TableAsm.Labels
