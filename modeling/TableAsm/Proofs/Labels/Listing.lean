import TableAsm.Proofs.Labels.Resolving

/-! Listings: instructions with the names that label them. A reference from one line of a listing
to another comes to the distance between them. When labels carry the names of a listing, unrolling
a block at its front settles the references within the block, and resolving settles all. -/
namespace TableAsm

/-- An instruction and the names that label it. -/
structure Line where
  names : List String
  instruction : Instruction

abbrev Listing := List Line

namespace Labels

variable {l l' : Labels} {name : String} {v : Int}

/-- The name that a number stands for. -/
def nameOf? (l : Labels) (v : Int) : Option String := (l.entryOf? v).map (·.name)

theorem Sound.nameOf?_eq_some (sound : l.Sound) :
    l.nameOf? v = some name ↔ l.placeholder? name = some v := by
  rw [nameOf?, Option.map_eq_some_iff]
  constructor
  · rintro ⟨e, found, rfl⟩
    exact (sound.entryOf?_eq_some.mp found).1
  · exact sound.entryOf?_of_placeholder?

theorem nameOf?_of_lt (small : -(unit : Int) < v) : l.nameOf? v = none := by
  rw [nameOf?, entryOf?_of_lt small]
  rfl

end Labels

namespace Listing

def instructions (L : Listing) : Program := L.map (·.instruction)

def names (L : Listing) : List (List String) := L.map (·.names)

/-- A name is on the line at an index. -/
def Sits (L : Listing) (name : String) (j : Nat) : Prop :=
  ∃ line, L[j]? = some line ∧ name ∈ line.names

/-- The first line that a name is on. -/
def indexOf? (L : Listing) (name : String) : Option Nat :=
  L.findIdx? (name ∈ ·.names)

/-- Puts a name on the line at an index. -/
def mark (L : Listing) (j : Nat) (name : String) : Listing :=
  L.modify j fun line => { line with names := name :: line.names }

/-- The instructions that a block is unrolled to, with the names of the block on the first ones. -/
def unrolled (block : Listing) (is : List Instruction) : Listing :=
  is.mapIdx fun k i => ⟨(block.names[k]?).getD [], i⟩

/-- What the value at `index` becomes: a reference to a line gives way to the distance to it. -/
def settle (l : Labels) (L : Listing) (index : Nat) : Value → Value
  | .int v =>
    match (l.nameOf? v).bind L.indexOf? with
    | some j => .int (j - index)
    | none => .int v
  | v => v

/-- The instructions of a listing, with the references between them settled. -/
def settled (l : Labels) (L : Listing) : Program :=
  L.mapIdx fun index line => line.instruction.mapValues (settle l L index)

section Lines

variable {L block behind : Listing} {name : String} {j : Nat}

@[simp] theorem length_names (L : Listing) : L.names.length = L.length := List.length_map _

@[simp] theorem length_instructions (L : Listing) : L.instructions.length = L.length :=
  List.length_map _

theorem names_append (block behind : Listing) :
    names (block ++ behind) = block.names ++ behind.names := List.map_append

theorem sits_iff : L.Sits name j ↔ ∃ here, L.names[j]? = some here ∧ name ∈ here := by
  rw [names, List.getElem?_map]
  constructor
  · rintro ⟨line, found, mem⟩
    exact ⟨line.names, by rw [found]; rfl, mem⟩
  · rintro ⟨here, found, mem⟩
    obtain ⟨line, at_line, rfl⟩ := Option.map_eq_some_iff.mp found
    exact ⟨line, at_line, mem⟩

theorem sits_append_right (sits : behind.Sits name j) (block : Listing) :
    Sits (block ++ behind) name (block.length + j) := by
  obtain ⟨line, found, mem⟩ := sits
  refine ⟨line, ?_, mem⟩
  rw [List.getElem?_append_right (Nat.le_add_right _ _), Nat.add_sub_cancel_left, found]

theorem sits_of_indexOf? (found : L.indexOf? name = some j) : L.Sits name j := by
  obtain ⟨inside, on, _⟩ := List.findIdx?_eq_some_iff_getElem.mp found
  exact ⟨L[j], List.getElem?_eq_getElem inside, of_decide_eq_true on⟩

theorem indexOf?_eq_none : L.indexOf? name = none ↔ ∀ here ∈ L.names, name ∉ here := by
  rw [indexOf?, List.findIdx?_eq_none_iff, names]
  simp

theorem mapIdx_instructions (L : Listing) (f : Nat → Instruction → Instruction) :
    L.instructions.mapIdx f = L.mapIdx fun k line => f k line.instruction := by
  refine List.ext_getElem? fun k => ?_
  simp only [instructions, List.getElem?_mapIdx, List.getElem?_map, Option.map_map]
  rfl

theorem names_mark {line : Line} (found : L[j]? = some line) (name : String) :
    (L.mark j name).names = L.names.set j (name :: line.names) := by
  refine List.ext_getElem? fun k => ?_
  obtain ⟨inside, rfl⟩ := List.getElem?_eq_some_iff.mp found
  simp only [names, mark, List.getElem?_map, List.getElem?_modify, List.getElem?_set]
  by_cases here : j = k
  · subst here
    simp [inside]
  · simp [here]

theorem names_unrolled (block : Listing) {is : List Instruction} {times : Nat}
    (length : is.length = times * block.length) :
    (block.unrolled is).names = Labels.unrolledNames block.names times := by
  cases times with
  | zero =>
    rw [Nat.zero_mul] at length
    rw [List.eq_nil_of_length_eq_zero length]
    rfl
  | succ further =>
    refine List.ext_getElem? fun k => ?_
    rw [Nat.succ_mul] at length
    simp only [Labels.unrolledNames, names, unrolled, List.getElem?_map, List.getElem?_mapIdx]
    by_cases first : k < block.length
    · have inside : k < is.length := by omega
      rw [List.getElem?_append_left (by simpa using first)]
      simp [first, inside]
    · have none : block[k]? = none := List.getElem?_eq_none_iff.mpr (by omega)
      rw [List.getElem?_append_right (by simpa using first), List.length_map,
        List.getElem?_replicate, none]
      by_cases inside : k < is.length
      · have later : k - block.length < further * block.length := by omega
        simp [inside, later]
      · have after : ¬k - block.length < further * block.length := by omega
        simp [inside, after]

end Lines

end Listing

namespace Labels

open Listing

variable {l l' : Labels} {L block behind : Listing} {name : String}

/-- The target of a name is the number of the line that it is on. -/
theorem Carries.target_iff (h : l.Carries L.names) (name : String) (t : Int) :
    l.target? name = some t ↔ ∃ j, L.Sits name j ∧ t + L.length = j := by
  have counter := h.counter
  rw [length_names] at counter
  rw [h.targets]
  constructor
  · rintro ⟨j, here, found, mem, rfl⟩
    exact ⟨j, sits_iff.mpr ⟨here, found, mem⟩, by omega⟩
  · rintro ⟨j, sits, eq⟩
    obtain ⟨here, found, mem⟩ := sits_iff.mp sits
    exact ⟨j, here, found, mem, by omega⟩

theorem Carries.sits_unique (h : l.Carries L.names) {i j : Nat} (first : L.Sits name i)
    (second : L.Sits name j) : i = j := by
  obtain ⟨here, found, mem⟩ := sits_iff.mp first
  obtain ⟨there, found', mem'⟩ := sits_iff.mp second
  exact h.unique found mem found' mem'

theorem Carries.localValue_eq_settle (h : l.Carries (block.names ++ behind.names)) (index : Nat)
    (w : Value) : l.localValue block.names.length index w = settle l block index w := by
  cases w with
  | int n =>
    cases known : l.nameOf? n with
    | none =>
      have unknown : l.entryOf? n = none := Option.map_eq_none_iff.mp known
      have no : l.localOffset? block.names.length (l.counter + index) n = none := by
        show (l.entryOf? n).bind _ = _
        rw [unknown]
        rfl
      simp only [localValue, settle, known, no]
      rfl
    | some name =>
      have placeholder := h.sound.nameOf?_eq_some.mp known
      cases found : block.indexOf? name with
      | none =>
        rw [h.localValue_of_not_mem placeholder (indexOf?_eq_none.mp found)]
        simp only [settle, known, Option.bind_some, found]
      | some j =>
        obtain ⟨here, at_j, on⟩ := sits_iff.mp (sits_of_indexOf? found)
        rw [h.localValue_of_mem placeholder at_j on]
        simp only [settle, known, Option.bind_some, found]
  | _ => rfl

/-- Unrolling a block settles the references within it. -/
theorem Carries.resolveWithin_eq_settled (h : l.Carries (block.names ++ behind.names)) :
    l.resolveWithin block.instructions = block.settled l := by
  rw [resolveWithin_eq_mapIdx, mapIdx_instructions, settled, length_instructions]
  congr 1
  funext k line
  congr 1
  funext w
  rw [← length_names]
  exact h.localValue_eq_settle k w

theorem Carries.resolveValue_eq_settle (h : l.Carries L.names) (index : Nat) {w : Value}
    (alive : ∀ v, w = .int v → ∀ name, l.nameOf? v = some name → ∃ here ∈ L.names, name ∈ here) :
    l.resolveValue index w = .ok (settle l L index w) := by
  cases w with
  | int n =>
    cases known : l.nameOf? n with
    | none =>
      have unknown : l.entryOf? n = none := Option.map_eq_none_iff.mp known
      simp only [resolveValue, settle, known, unknown, Option.bind_none]
    | some name =>
      obtain ⟨here, mem, on⟩ := alive n rfl name known
      obtain ⟨j, at_j⟩ := List.mem_iff_getElem?.mp mem
      have sits : L.Sits name j := sits_iff.mpr ⟨here, at_j, on⟩
      obtain ⟨e, entry, rfl⟩ := Option.map_eq_some_iff.mp known
      have target := (h.target_iff e.name (j - L.length)).mpr ⟨j, sits, by omega⟩
      rw [h.sound.target?_of_entryOf? entry] at target
      have counter := h.counter
      rw [length_names] at counter
      -- a name is on one line at most, so the first line that it is on is that of its target
      have found : L.indexOf? e.name = some j := by
        cases index : L.indexOf? e.name with
        | none => exact absurd on (indexOf?_eq_none.mp index here mem)
        | some k => rw [h.sits_unique (sits_of_indexOf? index) sits]
      simp only [resolveValue, entry, target, settle, known, Option.bind_some, found]
      congr 2
      omega
  | _ => rfl

/-- Where all references have a line to refer to, all are settled. -/
theorem Carries.resolve_eq_settled (h : l.Carries L.names)
    (alive : ∀ line ∈ L, ∀ v, .int v ∈ line.instruction.values → ∀ name,
      l.nameOf? v = some name → ∃ here ∈ L.names, name ∈ here) :
    l.resolve L.instructions = (L.settled l, none) := by
  have each : ∀ (k : Nat) i, L.instructions[k]? = some i → ∀ w ∈ i.values,
      l.resolveValue (0 + k) w = .ok (settle l L (0 + k) w) := by
    intro k i found w mem
    rw [instructions, List.getElem?_map] at found
    obtain ⟨line, at_k, rfl⟩ := Option.map_eq_some_iff.mp found
    exact h.resolveValue_eq_settle _ fun v same =>
      alive line (List.mem_of_getElem? at_k) v (same ▸ mem)
  rw [resolve, resolveFrom_mapIdx 0 each [], mapIdx_instructions, List.reverse_nil,
    List.nil_append, settled]
  simp only [Nat.zero_add]

/-- A program is only resolved where its references have lines to refer to. -/
theorem Carries.alive_of_resolve (h : l.Carries L.names) {p : Program}
    (resolved : l.resolve L.instructions = (p, none)) :
    ∀ line ∈ L, ∀ v, .int v ∈ line.instruction.values → ∀ name,
      l.nameOf? v = some name → ∃ here ∈ L.names, name ∈ here := by
  intro line mem v used name known
  obtain ⟨k, at_k⟩ := List.mem_iff_getElem?.mp mem
  obtain ⟨_, each⟩ := resolve_eq_ok resolved
  obtain ⟨j, _, step⟩ := each k line.instruction (by simp [instructions, at_k])
  obtain ⟨w, value⟩ := resolveInstruction_alive step _ used
  obtain ⟨j, here, found, on, _⟩ :=
    h.resolveValue_eq_ok (h.sound.nameOf?_eq_some.mp known) value
  exact ⟨here, List.mem_of_getElem? found, on⟩

/-- Unrolling puts copies of the settled block in its place. -/
theorem Carries.expand (h : l.Carries (names (block ++ behind))) (fits : l.Fits) {times : Nat}
    {is : List Instruction}
    (step : l.expandRepeat block.instructions times = (l', .ok is)) :
    l'.Carries (unrolledNames block.names times ++ behind.names) ∧
      l'.Carries (names (block.unrolled is ++ behind)) ∧ l'.Fits ∧
      is = (List.replicate times (block.settled l)).flatten := by
  rw [names_append] at h
  obtain ⟨carried, _, fits', copies⟩ := h.expandRepeat fits (by simp) step
  rw [h.resolveWithin_eq_settled] at copies
  have length : is.length = times * block.length := by
    rw [copies]
    simp [settled]
  refine ⟨carried, ?_, fits', copies⟩
  rw [names_append, names_unrolled block length]
  exact carried

end Labels

end TableAsm
