import TableAsm.Proofs.Labels.Building
import TableAsm.Proofs.Labels.Calls

/-! Resolving as one pass over the values of a program. The values are read instruction by
instruction, operands before properties and properties by key. Each reference in turn gives way
to a distance, up to the first one without a label; nothing else changes. A distance is too small
to be a reference, so a resolved program stays as it is. -/
namespace TableAsm

namespace NameMap

theorem values_withValues {α : Type} (m : NameMap α) {vs : List α}
    (length : vs.length = m.values.length) : (m.withValues vs).values = vs := by
  show (replaceValues m.toList vs).map (·.2) = vs
  simp only [values, List.length_map] at length
  generalize m.toList = bs at length ⊢
  induction bs generalizing vs with
  | nil => simpa [replaceValues] using length
  | cons b bs ih =>
    cases vs with
    | nil => simp at length
    | cons v vs =>
      have same : vs.length = bs.length := by simpa using length
      simp [replaceValues, ih same]

end NameMap

namespace Instruction

/-- Two instructions that may have different values in the same places. -/
structure Alike (i j : Instruction) : Prop where
  name : j.name = i.name
  annotations : j.annotations = i.annotations
  operands : j.operands.length = i.operands.length
  keys : j.properties.keys = i.properties.keys

variable {i j : Instruction}

theorem Alike.refl (i : Instruction) : i.Alike i := ⟨rfl, rfl, rfl, rfl⟩

theorem Alike.length_values (h : i.Alike j) : j.values.length = i.values.length := by
  have same := congrArg List.length h.keys
  simp only [NameMap.keys, List.length_map] at same
  simp [values, NameMap.values, h.operands, same]

theorem Alike.eq_of_values (h : i.Alike j) (same : j.values = i.values) : j = i := by
  obtain ⟨operands, values⟩ := List.append_inj same h.operands
  have properties : j.properties = i.properties :=
    NameMap.ext ((List.zip_of_prod h.keys values).trans (List.zip_of_prod rfl rfl).symm)
  obtain ⟨name, annotations, -, -⟩ := h
  cases i
  cases j
  simp_all

end Instruction

namespace Program

/-- The values in reading order, each with the index of its instruction. -/
def readingFrom : Nat → Program → List (Nat × Value)
  | _, [] => []
  | index, i :: p => i.values.map (index, ·) ++ readingFrom (index + 1) p

def reading (p : Program) : List (Nat × Value) := readingFrom 0 p

/-- Programs that may have different values in the same places. -/
def Alike (p q : Program) : Prop := List.Forall₂ Instruction.Alike p q

variable {p q : Program}

theorem Alike.eq_of_readingFrom (h : p.Alike q) (index : Nat)
    (same : readingFrom index q = readingFrom index p) : q = p := by
  induction h generalizing index with
  | nil => rfl
  | cons alike _ ih =>
    obtain ⟨first, rest⟩ := List.append_inj same (by simp [alike.length_values])
    have values := List.map_injective_iff.mpr (fun _ _ eq => (Prod.mk.inj eq).2) first
    rw [alike.eq_of_values values, ih (index + 1) rest]

theorem Alike.eq_of_reading (h : p.Alike q) (same : q.reading = p.reading) : q = p :=
  h.eq_of_readingFrom 0 same

theorem index_lt_of_mem_readingFrom {start index : Nat} {v : Value}
    (mem : (index, v) ∈ readingFrom start p) : start ≤ index ∧ index < start + p.length := by
  induction p generalizing start with
  | nil => cases mem
  | cons i p ih =>
    rcases List.mem_append.mp mem with here | later
    · obtain ⟨_, _, same⟩ := List.mem_map.mp here
      cases same
      simp
    · have := ih later
      simp only [List.length_cons]
      omega

end Program

namespace Labels

open Program

/-- The number of the instruction that a value refers to. -/
def labelOf? (l : Labels) (v : Int) : Option Int := (l.entryOf? v).bind (·.target)

/-- What a value of the instruction at `index` becomes: the distance to its label if it has one. -/
def distance (l : Labels) (index : Nat) : Value → Value
  | .int v =>
    match l.labelOf? v with
    | some t => .int (t - l.counter - index)
    | none => .int v
  | v => v

/-- Values that are no references without a label. -/
def Alive (l : Labels) : Value → Prop
  | .int v => l.isPlaceholder v → (l.labelOf? v).isSome
  | _ => True

variable {l : Labels} {index : Nat}

theorem resolveValue_eq_ok_iff {v w : Value} :
    l.resolveValue index v = .ok w ↔ l.Alive v ∧ w = l.distance index v := by
  cases v with
  | int n =>
    simp only [resolveValue, Alive, isPlaceholder, labelOf?, distance]
    cases found : l.entryOf? n with
    | none => simp [@eq_comm _ w]
    | some e => cases target : e.target <;> simp [target, @eq_comm _ w]
  | _ => simp [resolveValue, Alive, distance, @eq_comm _ w]

theorem resolveValue_eq_error_iff {v : Value} {e : LabelError} :
    l.resolveValue index v = .error e ↔ ∃ n entry, v = .int n ∧ l.entryOf? n = some entry ∧
      entry.target = none ∧ e = .neverDefined entry.name entry.firstUse := by
  cases v with
  | int n =>
    simp only [resolveValue]
    cases found : l.entryOf? n with
    | none => simp [found]
    | some e => cases target : e.target <;> simp [found, target, eq_comm]
  | _ => simp [resolveValue]

section Pass

/-- Rewrites values with their indices in order, up to the first that fails. -/
def settleAll (l : Labels) : List (Nat × Value) → List (Nat × Value) × Option LabelError
  | [] => ([], none)
  | (index, v) :: rest =>
    match l.resolveValue index v with
    | .error e => ((index, v) :: rest, some e)
    | .ok w => ((index, w) :: (l.settleAll rest).1, (l.settleAll rest).2)

theorem settleAll_append (vs ws : List (Nat × Value)) :
    l.settleAll (vs ++ ws) =
      match l.settleAll vs with
      | (vs, some e) => (vs ++ ws, some e)
      | (vs, none) => (vs ++ (l.settleAll ws).1, (l.settleAll ws).2) := by
  induction vs with
  | nil => simp [settleAll]
  | cons v vs ih =>
    obtain ⟨index, v⟩ := v
    cases first : l.resolveValue index v with
    | error e => simp [settleAll, first]
    | ok w =>
      simp only [List.cons_append, settleAll, first, ih]
      rcases l.settleAll vs with ⟨vs, _ | e⟩ <;> simp

theorem settleAll_eq_resolveValues (vs : List Value) :
    l.settleAll (vs.map (index, ·)) =
      ((l.resolveValues index vs).1.map (index, ·), (l.resolveValues index vs).2) := by
  induction vs with
  | nil => rfl
  | cons v vs ih =>
    cases first : l.resolveValue index v <;> simp [settleAll, resolveValues, first, ih]

theorem length_resolveValues (vs : List Value) :
    (l.resolveValues index vs).1.length = vs.length := by
  induction vs with
  | nil => rfl
  | cons v vs ih => cases first : l.resolveValue index v <;> simp [resolveValues, first, ih]

theorem resolveInstruction_reading (l : Labels) (index : Nat) (i : Instruction) :
    i.Alike (l.resolveInstruction index i).1 ∧
      l.settleAll (i.values.map (index, ·)) =
        ((l.resolveInstruction index i).1.values.map (index, ·),
          (l.resolveInstruction index i).2) := by
  have operands : (l.resolveValues index i.operands).1.length = i.operands.length :=
    length_resolveValues _
  have properties : (l.resolveValues index i.properties.values).1.length =
      i.properties.values.length := length_resolveValues _
  rw [Instruction.values, List.map_append, settleAll_append]
  simp only [settleAll_eq_resolveValues, resolveInstruction]
  rcases first : l.resolveValues index i.operands with ⟨vs, _ | e⟩
  · rcases second : l.resolveValues index i.properties.values with ⟨ws, e⟩
    rw [first] at operands
    rw [second] at properties
    refine ⟨⟨rfl, rfl, operands, NameMap.map_fst_replaceValues _ _⟩, ?_⟩
    simp [Instruction.values, NameMap.values_withValues _ properties]
  · rw [first] at operands
    exact ⟨⟨rfl, rfl, operands, rfl⟩, by simp [Instruction.values]⟩

theorem resolveFrom_reading (reversed : List Instruction) (index : Nat) (p : Program) :
    ∃ q, (l.resolveFrom reversed index p).1 = reversed.reverse ++ q ∧ p.Alike q ∧
      l.settleAll (readingFrom index p) =
        (readingFrom index q, (l.resolveFrom reversed index p).2) := by
  induction p generalizing reversed index with
  | nil => exact ⟨[], by simp [resolveFrom], .nil, rfl⟩
  | cons i p ih =>
    obtain ⟨alike, values⟩ := resolveInstruction_reading l index i
    rw [readingFrom, settleAll_append, values]
    rw [resolveFrom]
    rcases step : l.resolveInstruction index i with ⟨j, _ | e⟩
    · obtain ⟨q, eq, rest, settled⟩ := ih (j :: reversed) (index + 1)
      rw [step] at alike
      refine ⟨j :: q, by simp [eq], .cons alike rest, ?_⟩
      simp [settled, readingFrom]
    · rw [step] at alike
      exact ⟨j :: p, by simp, .cons alike (List.forall₂_same.mpr fun i _ => .refl i),
        by simp [readingFrom]⟩

/-- Resolving rewrites the values in reading order and nothing else. -/
theorem resolve_reading (l : Labels) (p : Program) :
    p.Alike (l.resolve p).1 ∧
      l.settleAll p.reading = ((l.resolve p).1.reading, (l.resolve p).2) := by
  obtain ⟨q, eq, alike, settled⟩ := resolveFrom_reading (l := l) [] 0 p
  rw [List.reverse_nil, List.nil_append] at eq
  rw [resolve, eq]
  exact ⟨alike, settled⟩

/-- Where the pass gets to the end, no reference was without a label. -/
theorem settleAll_eq_none {vs ws : List (Nat × Value)} (done : l.settleAll vs = (ws, none)) :
    (∀ v ∈ vs, l.Alive v.2) ∧ ws = vs.map fun v => (v.1, l.distance v.1 v.2) := by
  induction vs generalizing ws with
  | nil =>
    cases done
    simp
  | cons v vs ih =>
    obtain ⟨index, v⟩ := v
    cases first : l.resolveValue index v with
    | error e => simp [settleAll, first] at done
    | ok w =>
      obtain ⟨alive, rfl⟩ := resolveValue_eq_ok_iff.mp first
      simp only [settleAll, first, Prod.mk.injEq] at done
      obtain ⟨rfl, later⟩ := done
      obtain ⟨rest, eq⟩ := ih (Prod.ext rfl later)
      exact ⟨by simpa [alive] using rest, by simp [eq]⟩

/-- Where it does not, it has come to the first such reference. -/
theorem settleAll_eq_some {vs ws : List (Nat × Value)} {e : LabelError}
    (failed : l.settleAll vs = (ws, some e)) :
    ∃ before index v after, vs = before ++ (index, v) :: after ∧ (∀ v ∈ before, l.Alive v.2) ∧
      l.resolveValue index v = .error e ∧
      ws = before.map (fun v => (v.1, l.distance v.1 v.2)) ++ (index, v) :: after := by
  induction vs generalizing ws with
  | nil => cases failed
  | cons v vs ih =>
    obtain ⟨index, v⟩ := v
    cases first : l.resolveValue index v with
    | error e' =>
      simp only [settleAll, first, Prod.mk.injEq, Option.some.injEq] at failed
      obtain ⟨rfl, rfl⟩ := failed
      exact ⟨[], index, v, vs, rfl, by simp, first, rfl⟩
    | ok w =>
      obtain ⟨alive, rfl⟩ := resolveValue_eq_ok_iff.mp first
      simp only [settleAll, first, Prod.mk.injEq] at failed
      obtain ⟨rfl, later⟩ := failed
      obtain ⟨before, k, v', after, rfl, rest, missing, eq⟩ := ih (Prod.ext rfl later)
      exact ⟨(index, v) :: before, k, v', after, rfl, by simpa [alive] using rest, missing,
        by simp [eq]⟩

theorem settleAll_of_alive {vs : List (Nat × Value)} (alive : ∀ v ∈ vs, l.Alive v.2) :
    (l.settleAll vs).2 = none := by
  rcases pass : l.settleAll vs with ⟨ws, _ | e⟩
  · rfl
  · obtain ⟨before, index, v, after, rfl, -, missing, -⟩ := settleAll_eq_some pass
    have here := alive (index, v) (by simp)
    rw [resolveValue_eq_ok_iff.mpr ⟨here, rfl⟩] at missing
    cases missing

end Pass

section Outcome

/-- Labels of a program of `length` instructions: whatever calls have led to them, each name that
has a target labels one of these. -/
structure Covers (l : Labels) (length : Nat) : Prop where
  called : Called l
  counter : l.counter = -(length : Int)
  within : ∀ name t, l.target? name = some t → l.counter ≤ t ∧ t ≤ -1

theorem Built.called {L : Listing} {live : List String} (built : Built l L live) : Called l := by
  induction built with
  | new => exact .new
  | @reference _ _ _ _ name position _ _ step ih =>
    simpa [step] using ih.reference name position
  | place i _ step ih => simpa [step] using ih.place
  | @define _ _ L _ name j position _ _ step ih =>
    simpa [step] using ih.define name (j - L.length) position
  | @expand _ _ block _ _ times _ _ step ih =>
    simpa [step] using ih.expandRepeat block.instructions times

theorem Built.covers {L : Listing} {live : List String} (built : Built l L live) :
    l.Covers L.length := by
  obtain ⟨carries, -, -⟩ := built.carries
  have counter := carries.counter
  rw [Listing.length_names] at counter
  refine ⟨built.called, counter, fun name t target => ?_⟩
  have range := ((carries.targets name t).mp target).in_range
  rw [Listing.length_names] at range
  omega

variable {length : Nat} {p q : Program}

theorem Covers.label_range (h : l.Covers length) {v t : Int} (label : l.labelOf? v = some t) :
    l.counter ≤ t ∧ t ≤ -1 := by
  obtain ⟨e, entry, target⟩ := Option.bind_eq_some_iff.mp label
  obtain ⟨sound, -⟩ := h.called.keeps
  exact h.within e.name t ((sound.target?_of_entryOf? entry).trans target)

theorem Covers.distance_range (h : l.Covers length) {v d : Int} (known : l.isPlaceholder v)
    (alive : l.Alive (.int v)) (eq : l.distance index (.int v) = .int d) :
    0 ≤ index + d ∧ index + d < length := by
  obtain ⟨t, label⟩ := Option.isSome_iff_exists.mp (alive known)
  have range := h.label_range label
  have counter := h.counter
  simp only [distance, label, Value.int.injEq] at eq
  omega

/-- A value that has been dealt with is no reference any more. -/
theorem Covers.not_isPlaceholder_distance (h : l.Covers length) (inside : index < length)
    {v : Value} {n : Int} (alive : l.Alive v) (eq : l.distance index v = .int n) :
    l.isPlaceholder n = false := by
  cases v with
  | int v =>
    simp only [distance] at eq
    cases label : l.labelOf? v with
    | none =>
      simp only [label, Value.int.injEq] at eq
      subst eq
      by_contra known
      have found := alive (by simpa using known)
      simp [label] at found
    | some t =>
      have range := h.label_range label
      have counter := h.counter
      obtain ⟨-, fits⟩ := h.called.keeps
      have room : maxLength < unit := by decide
      unfold Fits at fits
      simp only [label, Value.int.injEq] at eq
      simp [isPlaceholder, entryOf?_of_lt (show -(unit : Int) < n by omega)]
  | _ => cases eq

theorem resolve_eq_self
    (free : ∀ index v, (index, .int v) ∈ p.reading → l.isPlaceholder v = false) :
    l.resolve p = (p, none) := by
  have each : ∀ v ∈ p.reading, l.Alive v.2 ∧ l.distance v.1 v.2 = v.2 := by
    rintro ⟨index, v⟩ mem
    cases v with
    | int v =>
      have unknown := free index v mem
      have nothing : l.entryOf? v = none := by simpa [isPlaceholder] using unknown
      simp [Alive, unknown, distance, labelOf?, nothing]
    | _ => exact ⟨trivial, rfl⟩
  obtain ⟨alike, settled⟩ := resolve_reading l p
  have done : (l.resolve p).2 = none := by
    rw [← settleAll_of_alive fun v mem => (each v mem).1, settled]
  rw [done] at settled
  obtain ⟨-, eq⟩ := settleAll_eq_none settled
  have same : (l.resolve p).1.reading = p.reading := by
    have fixed : ∀ v ∈ p.reading, (v.1, l.distance v.1 v.2) = id v :=
      fun v mem => Prod.ext rfl (each v mem).2
    rw [eq, List.map_congr_left fixed, List.map_id]
  exact Prod.ext (alike.eq_of_reading same) done

/-- Resolving goes through where every reference has a label. Then the references, and only they,
have given way to distances within the program, and resolving once more changes nothing. Otherwise
it fails over the first reference without a label, and leaves all values from there on. -/
theorem Covers.resolve_outcome (h : l.Covers p.length) :
    ((l.resolve p).2 = none ↔ ∀ v ∈ p.reading, l.Alive v.2) ∧
    (∀ q, l.resolve p = (q, none) → p.Alike q ∧
      q.reading = p.reading.map (fun v => (v.1, l.distance v.1 v.2)) ∧
      (∀ index v d, (index, .int v) ∈ p.reading → l.isPlaceholder v →
        l.distance index (.int v) = .int d → 0 ≤ index + d ∧ index + d < p.length) ∧
      (∀ index v, (index, .int v) ∈ q.reading → l.isPlaceholder v = false) ∧
      l.resolve q = (q, none)) ∧
    (∀ q e, l.resolve p = (q, some e) →
      ∃ before index v entry after, p.reading = before ++ (index, .int v) :: after ∧
        (∀ v ∈ before, l.Alive v.2) ∧ l.entryOf? v = some entry ∧
        l.placeholder? entry.name = some v ∧ entry.target = none ∧
        e = .neverDefined entry.name entry.firstUse ∧ p.Alike q ∧
        q.reading =
          before.map (fun v => (v.1, l.distance v.1 v.2)) ++ (index, .int v) :: after) := by
  obtain ⟨alike, settled⟩ := resolve_reading l p
  refine ⟨⟨fun done => ?_, fun alive => ?_⟩, fun q done => ?_, fun q e failed => ?_⟩
  · rw [done] at settled
    exact (settleAll_eq_none settled).1
  · rw [← settleAll_of_alive alive, settled]
  · rw [done] at alike settled
    obtain ⟨alive, eq⟩ := settleAll_eq_none settled
    -- every value of the result is a distance, and none of these is as far out as a placeholder
    have free : ∀ index v, (index, .int v) ∈ q.reading → l.isPlaceholder v = false := by
      intro index v mem
      simp only [eq, List.mem_map, Prod.mk.injEq] at mem
      obtain ⟨⟨k, w⟩, mem, rfl, same⟩ := mem
      have inside := index_lt_of_mem_readingFrom mem
      exact h.not_isPlaceholder_distance (by omega) (alive _ mem) same
    exact ⟨alike, eq, fun index v d mem known => h.distance_range known (alive _ mem), free,
      resolve_eq_self free⟩
  · rw [failed] at alike settled
    obtain ⟨before, index, v, after, split, alive, missing, eq⟩ := settleAll_eq_some settled
    obtain ⟨n, entry, rfl, found, none, rfl⟩ := resolveValue_eq_error_iff.mp missing
    obtain ⟨sound, -⟩ := h.called.keeps
    exact ⟨before, index, n, entry, after, split, alive, found,
      (sound.entryOf?_eq_some.mp found).1, none, rfl, alike, eq⟩

/-- A property of the first instruction and an operand of the second refer to the second. -/
theorem resolve_outcome_pair :
    ∃ l p q, Covers l p.length ∧
      p.reading = [(0, .int 5), (0, .int (placeholderAt 0)), (1, .int (placeholderAt 0))] ∧
      l.resolve p = (q, none) ∧ q.reading = [(0, .int 5), (0, .int 1), (1, .int 0)] ∧
      l.resolve q = (q, none) := by
  let index : Std.HashMap String Nat := (∅ : Std.HashMap String Nat).insert "A" 0
  let l : Labels := ⟨#[⟨"A", none, some (-1)⟩], index, -2⟩
  let i := (Instruction.bare "x" [.int 5]).putProperty "to" (.int (placeholderAt 0))
  let j := Instruction.bare "y" [.int (placeholderAt 0)]
  have defined : Labels.define ⟨#[], ∅, -1⟩ "A" (-1) none =
      (⟨#[⟨"A", none, some (-1)⟩], index, -1⟩, .ok ()) := by
    simp only [define, reference, Std.HashMap.getElem?_empty]
    rfl
  have last : Built ⟨#[], ∅, -1⟩ [⟨[], j⟩] [] := .place j .new rfl
  have labelled : Built _ [⟨["A"], j⟩] ["A"] := .define last Nat.zero_lt_one defined
  have built : Built l [⟨[], i⟩, ⟨["A"], j⟩] ["A"] := .place i labelled rfl
  obtain ⟨ok_iff, done, -⟩ := Covers.resolve_outcome (p := [i, j]) built.covers
  have label : l.labelOf? (placeholderAt 0) = some (-1) := by
    rw [labelOf?, entryOf?_placeholderAt]
    rfl
  have literal : l.labelOf? 5 = none := rfl
  have reading : Program.reading [i, j] =
      [(0, .int 5), (0, .int (placeholderAt 0)), (1, .int (placeholderAt 0))] := rfl
  have known : l.isPlaceholder 5 = false := rfl
  have goes : (l.resolve [i, j]).2 = none := by
    rw [ok_iff, reading]
    simp [Alive, label, known]
  have resolved : l.resolve [i, j] = ((l.resolve [i, j]).1, none) := Prod.ext rfl goes
  obtain ⟨-, values, -, -, again⟩ := done _ resolved
  refine ⟨l, [i, j], (l.resolve [i, j]).1, built.covers, reading, resolved, ?_, again⟩
  rw [values, reading]
  simp [distance, label, literal, l]

end Outcome

end Labels

end TableAsm
