import Mathlib.Data.List.Basic
import Mathlib.Data.List.Forall2
import TableAsm.Proofs.Labels.Carrying

/-! What becomes of the values of instructions. A value that is not too far below zero stays as it
is. A placeholder gives way to a distance when its name is on an instruction in reach: on one of
the block while the block is unrolled, on any one in the end. -/
namespace TableAsm.Labels

variable {l : Labels} {names inside behind : List (List String)} {name : String} {n v : Int}

section Blocks

/-- What the value at `index` in the block of `length` instructions placed last becomes when the
block is unrolled. -/
def localValue (l : Labels) (length index : Nat) : Value → Value
  | .int v => .int ((l.localOffset? length (l.counter + index) v).getD v)
  | v => v

theorem resolveWithin_eq_mapIdx (l : Labels) (block : List Instruction) :
    l.resolveWithin block = block.mapIdx fun k i => i.mapValues (l.localValue block.length k) := by
  rw [resolveWithin, List.mapIdx_eq_zipIdx_map]
  rfl

theorem length_resolveWithin (l : Labels) (block : List Instruction) :
    (l.resolveWithin block).length = block.length := by
  rw [resolveWithin_eq_mapIdx, List.length_mapIdx]

/-- What is related to the instructions of a block is related to what they become. -/
theorem forall₂_resolveWithin {α : Type} {R S : α → Instruction → Prop} {as : List α}
    {block : List Instruction} (h : List.Forall₂ R as block)
    (step : ∀ k < block.length, ∀ a x, R a x → S a (x.mapValues (l.localValue block.length k))) :
    List.Forall₂ S as (l.resolveWithin block) := by
  rw [List.forall₂_iff_get] at h ⊢
  obtain ⟨same, each⟩ := h
  refine ⟨same.trans (length_resolveWithin l block).symm, fun k short short' => ?_⟩
  have place : k < block.length := same ▸ short
  have value : (l.resolveWithin block).get ⟨k, short'⟩ =
      (block.get ⟨k, place⟩).mapValues (l.localValue block.length k) := by
    simp only [resolveWithin_eq_mapIdx, List.get_eq_getElem, List.getElem_mapIdx]
  rw [value]
  exact step k place _ _ (each k short place)

/-- So it is with copies. -/
theorem forall₂_replicate {α β : Type} {R : α → β → Prop} {as : List α} {bs : List β}
    (h : List.Forall₂ R as bs) (times : Nat) :
    List.Forall₂ R (List.replicate times as).flatten (List.replicate times bs).flatten := by
  induction times with
  | zero => exact .nil
  | succ times ih =>
    rw [List.replicate_succ, List.replicate_succ, List.flatten_cons, List.flatten_cons]
    exact List.rel_append h ih

theorem Carries.localOffset?_eq_some (h : l.Carries (inside ++ behind))
    (known : l.placeholder? name = some n) {here d : Int} :
    l.localOffset? inside.length here n = some d ↔ Sits name inside l.counter (here + d) := by
  obtain ⟨e, entry, rfl⟩ := h.sound.entryOf?_of_placeholder? known
  have target := h.sound.target?_of_entryOf? entry
  rw [← h.target_in_range, target]
  have unfolded : l.localOffset? inside.length here n = e.target.bind fun t =>
      if l.counter ≤ t ∧ t < l.counter + inside.length then some (t - here) else none := by
    show (l.entryOf? n).bind _ = _
    rw [entry]
    rfl
  rw [unfolded, Option.bind_eq_some_iff]
  constructor
  · rintro ⟨t, eq, found⟩
    split at found
    · rename_i range
      obtain rfl := Option.some.inj found
      rw [show here + (t - here) = t by omega]
      exact ⟨eq, range⟩
    · cases found
  · rintro ⟨eq, range⟩
    refine ⟨_, eq, ?_⟩
    rw [if_pos range]
    congr 1
    omega

theorem localValue_of_lt (small : -(unit : Int) < v) (length index : Nat) :
    l.localValue length index (.int v) = .int v := by
  rw [localValue, show l.localOffset? length (l.counter + index) v = none by
    show (l.entryOf? v).bind _ = _
    rw [entryOf?_of_lt small]
    rfl]
  rfl

/-- A name on an instruction of the block is replaced by the distance to it. -/
theorem Carries.localValue_of_mem (h : l.Carries (inside ++ behind))
    (known : l.placeholder? name = some n) {j : Nat} {here : List String}
    (found : inside[j]? = some here) (mem : name ∈ here) (index : Nat) :
    l.localValue inside.length index (.int n) = .int (j - index) := by
  have sits : Sits name inside l.counter (l.counter + index + (j - index)) :=
    ⟨j, here, found, mem, by omega⟩
  rw [localValue, (h.localOffset?_eq_some known).mpr sits]
  rfl

/-- A name on no instruction of the block stays for later. -/
theorem Carries.localValue_of_not_mem (h : l.Carries (inside ++ behind))
    (known : l.placeholder? name = some n) (absent : ∀ here ∈ inside, name ∉ here) (index : Nat) :
    l.localValue inside.length index (.int n) = .int n := by
  rw [localValue]
  cases offset : l.localOffset? inside.length (l.counter + index) n with
  | none => rfl
  | some d =>
    obtain ⟨j, here, found, mem, _⟩ := (h.localOffset?_eq_some known).mp offset
    exact absurd mem (absent here (List.mem_of_getElem? found))

end Blocks

section Programs

theorem resolveValue_of_lt (small : -(unit : Int) < v) (index : Nat) :
    l.resolveValue index (.int v) = .ok (.int v) := by
  rw [resolveValue, entryOf?_of_lt small]

/-- In the end a name stands for the distance to the instruction that it is on. -/
theorem Carries.resolveValue_eq_ok (h : l.Carries names) (known : l.placeholder? name = some n)
    {index : Nat} {w : Value} (resolved : l.resolveValue index (.int n) = .ok w) :
    ∃ (j : Nat) (here : List String), names[j]? = some here ∧ name ∈ here ∧
      w = .int (j - index) := by
  obtain ⟨e, entry, rfl⟩ := h.sound.entryOf?_of_placeholder? known
  simp only [resolveValue, entry] at resolved
  have target := h.sound.target?_of_entryOf? entry
  cases found : e.target with
  | none =>
    rw [found] at resolved
    cases resolved
  | some t =>
    rw [found] at resolved target
    obtain ⟨j, here, at_j, mem, rfl⟩ := (h.targets e.name t).mp target
    cases resolved
    refine ⟨j, here, at_j, mem, ?_⟩
    congr 1
    omega

theorem resolveValues_eq_ok {index : Nat} {vs ws : List Value}
    (resolved : l.resolveValues index vs = (ws, none)) :
    List.Forall₂ (fun v w => l.resolveValue index v = .ok w) vs ws := by
  induction vs generalizing ws with
  | nil =>
    cases resolved
    exact .nil
  | cons v vs ih =>
    rw [resolveValues] at resolved
    cases first : l.resolveValue index v with
    | error e =>
      rw [first] at resolved
      cases resolved
    | ok w =>
      rw [first] at resolved
      obtain ⟨rfl, none⟩ := Prod.mk.inj resolved
      exact .cons first (ih (Prod.ext rfl none))

/-- New values take the places of the old ones. -/
theorem lookup_replaceValues {R : Value → Value → Prop} {bs : List (String × Value)}
    {ws : List Value} (values : List.Forall₂ R (bs.map (·.2)) ws) (k : String) :
    Option.Rel R (bs.lookup k) ((NameMap.replaceValues bs ws).lookup k) := by
  induction bs generalizing ws with
  | nil =>
    cases values
    exact .none
  | cons b bs ih =>
    cases values with
    | cons first rest =>
      obtain ⟨key, v⟩ := b
      simp only [NameMap.replaceValues, List.lookup_cons]
      cases k == key with
      | true => exact .some first
      | false => exact ih rest

/-- What has become of an instruction whose values are all resolved. -/
theorem resolveInstruction_eq_ok {index : Nat} {i j : Instruction}
    (resolved : l.resolveInstruction index i = (j, none)) :
    j.name = i.name ∧ j.annotations = i.annotations ∧
      List.Forall₂ (fun v w => l.resolveValue index v = .ok w) i.operands j.operands ∧
      ∀ k, Option.Rel (fun v w => l.resolveValue index v = .ok w) (i.property? k)
        (j.property? k) := by
  unfold resolveInstruction at resolved
  split at resolved
  · cases resolved
  · rename_i operands first
    split at resolved
    rename_i values e second
    obtain ⟨rfl, rfl⟩ := Prod.mk.inj resolved
    exact ⟨rfl, rfl, resolveValues_eq_ok first,
      lookup_replaceValues (resolveValues_eq_ok second)⟩

theorem resolveFrom_eq_ok {reversed p q : List Instruction} {index : Nat}
    (resolved : l.resolveFrom reversed index p = (q, none)) :
    ∃ rest, q = reversed.reverse ++ rest ∧ rest.length = p.length ∧
      ∀ k i, p[k]? = some i → ∃ j, rest[k]? = some j ∧
        l.resolveInstruction (index + k) i = (j, none) := by
  induction p generalizing reversed index with
  | nil =>
    cases resolved
    exact ⟨[], (List.append_nil _).symm, rfl, fun k i found => by cases found⟩
  | cons i p ih =>
    rw [resolveFrom] at resolved
    split at resolved
    · cases resolved
    · rename_i j first
      obtain ⟨rest, rfl, length, each⟩ := ih resolved
      refine ⟨j :: rest, by simp, by simp [length], fun k i' found => ?_⟩
      cases k with
      | zero =>
        obtain rfl := Option.some.inj found
        exact ⟨j, rfl, first⟩
      | succ k =>
        obtain ⟨j', at_k, step⟩ := each k i' found
        refine ⟨j', at_k, ?_⟩
        rw [show index + (k + 1) = index + 1 + k by omega]
        exact step

/-- Each instruction of a resolved program is resolved at its own place. -/
theorem resolve_eq_ok {p q : Program} (resolved : l.resolve p = (q, none)) :
    q.length = p.length ∧ ∀ k i, p[k]? = some i → ∃ j, q[k]? = some j ∧
      l.resolveInstruction k i = (j, none) := by
  obtain ⟨rest, eq, length, each⟩ := resolveFrom_eq_ok resolved
  rw [List.reverse_nil, List.nil_append] at eq
  subst eq
  refine ⟨length, fun k i found => ?_⟩
  obtain ⟨j, at_k, step⟩ := each k i found
  rw [Nat.zero_add] at step
  exact ⟨j, at_k, step⟩

/-- Where an instruction is resolved, each of its values is. -/
theorem resolveValues_alive {index : Nat} {vs ws : List Value}
    (resolved : l.resolveValues index vs = (ws, none)) :
    ∀ v ∈ vs, ∃ w, l.resolveValue index v = .ok w := by
  have each := resolveValues_eq_ok resolved
  clear resolved
  induction each with
  | nil => exact fun v mem => absurd mem List.not_mem_nil
  | cons first _ ih =>
    intro v mem
    rcases List.mem_cons.mp mem with rfl | mem
    · exact ⟨_, first⟩
    · exact ih v mem

theorem resolveInstruction_alive {index : Nat} {i j : Instruction}
    (resolved : l.resolveInstruction index i = (j, none)) :
    ∀ v ∈ i.values, ∃ w, l.resolveValue index v = .ok w := by
  unfold resolveInstruction at resolved
  split at resolved
  · cases resolved
  · rename_i operands first
    split at resolved
    rename_i values e second
    obtain ⟨rfl, rfl⟩ := Prod.mk.inj resolved
    intro v mem
    rcases List.mem_append.mp mem with mem | mem
    · exact resolveValues_alive first v mem
    · exact resolveValues_alive second v mem

/-- Where resolving fails, it does so over a value. -/
theorem resolveValues_eq_error {index : Nat} {vs ws : List Value} {e : LabelError}
    (failed : l.resolveValues index vs = (ws, some e)) :
    ∃ v ∈ vs, l.resolveValue index v = .error e := by
  induction vs generalizing ws with
  | nil => cases failed
  | cons v vs ih =>
    rw [resolveValues] at failed
    cases first : l.resolveValue index v with
    | error e' =>
      rw [first] at failed
      cases failed
      exact ⟨v, List.mem_cons_self, first⟩
    | ok w =>
      rw [first] at failed
      obtain ⟨_, later⟩ := Prod.mk.inj failed
      obtain ⟨v', mem, failing⟩ := ih (Prod.ext rfl later)
      exact ⟨v', List.mem_cons_of_mem _ mem, failing⟩

theorem resolveInstruction_eq_error {index : Nat} {i j : Instruction} {e : LabelError}
    (failed : l.resolveInstruction index i = (j, some e)) :
    ∃ v ∈ i.values, l.resolveValue index v = .error e := by
  unfold resolveInstruction at failed
  split at failed
  · rename_i operands e' first
    obtain ⟨-, same⟩ := Prod.mk.inj failed
    obtain rfl := Option.some.inj same
    obtain ⟨v, mem, failing⟩ := resolveValues_eq_error first
    exact ⟨v, List.mem_append_left _ mem, failing⟩
  · rename_i operands first
    split at failed
    rename_i values e' second
    obtain ⟨-, rfl⟩ := Prod.mk.inj failed
    obtain ⟨v, mem, failing⟩ := resolveValues_eq_error second
    exact ⟨v, List.mem_append_right _ mem, failing⟩

theorem resolveFrom_eq_error {reversed p q : List Instruction} {index : Nat} {e : LabelError}
    (failed : l.resolveFrom reversed index p = (q, some e)) :
    ∃ k i, p[k]? = some i ∧ ∃ v ∈ i.values, l.resolveValue (index + k) v = .error e := by
  induction p generalizing reversed index with
  | nil => cases failed
  | cons i p ih =>
    rw [resolveFrom] at failed
    split at failed
    · rename_i j e' first
      obtain ⟨-, same⟩ := Prod.mk.inj failed
      obtain rfl := Option.some.inj same
      exact ⟨0, i, rfl, resolveInstruction_eq_error first⟩
    · obtain ⟨k, i', found, v, mem, failing⟩ := ih failed
      refine ⟨k + 1, i', found, v, mem, ?_⟩
      rw [show index + (k + 1) = index + 1 + k by omega]
      exact failing

theorem resolve_eq_error {p q : Program} {e : LabelError}
    (failed : l.resolve p = (q, some e)) :
    ∃ k i, p[k]? = some i ∧ ∃ v ∈ i.values, l.resolveValue k v = .error e := by
  obtain ⟨k, i, found, v, mem, failing⟩ := resolveFrom_eq_error failed
  rw [Nat.zero_add] at failing
  exact ⟨k, i, found, v, mem, failing⟩

end Programs

section Settling

variable {f : Value → Value} {index : Nat}

theorem withValues_map (m : NameMap Value) (f : Value → Value) :
    m.withValues (m.values.map f) = m.map f := by
  refine NameMap.ext ?_
  show NameMap.replaceValues m.toList ((m.toList.map (·.2)).map f) =
    m.toList.map fun b => (b.1, f b.2)
  induction m.toList with
  | nil => rfl
  | cons b bs ih =>
    simp only [List.map_cons, NameMap.replaceValues]
    rw [ih]

theorem resolveValues_map {vs : List Value}
    (each : ∀ v ∈ vs, l.resolveValue index v = .ok (f v)) :
    l.resolveValues index vs = (vs.map f, none) := by
  induction vs with
  | nil => rfl
  | cons v vs ih =>
    rw [resolveValues, each v List.mem_cons_self]
    simp only [ih fun v mem => each v (List.mem_cons_of_mem _ mem), List.map_cons]

theorem resolveInstruction_mapValues {i : Instruction}
    (each : ∀ v ∈ i.values, l.resolveValue index v = .ok (f v)) :
    l.resolveInstruction index i = (i.mapValues f, none) := by
  rw [resolveInstruction, resolveValues_map fun v mem => each v (List.mem_append_left _ mem),
    resolveValues_map fun v mem => each v (List.mem_append_right _ mem)]
  simp only [withValues_map]
  rfl

theorem resolveFrom_mapIdx {f : Nat → Value → Value} {p : Program} (index : Nat)
    (each : ∀ (k : Nat) i, p[k]? = some i → ∀ v ∈ i.values,
      l.resolveValue (index + k) v = .ok (f (index + k) v)) (reversed : List Instruction) :
    l.resolveFrom reversed index p =
      (reversed.reverse ++ p.mapIdx fun k i => i.mapValues (f (index + k)), none) := by
  induction p generalizing index reversed with
  | nil => simp [resolveFrom]
  | cons i p ih =>
    have first := resolveInstruction_mapValues fun v mem => each 0 i rfl v mem
    rw [Nat.add_zero] at first
    rw [resolveFrom, first]
    have shift : ∀ k, index + (k + 1) = index + 1 + k := by omega
    have rest := ih (index + 1) fun k i' found v mem => shift k ▸ each (k + 1) i' found v mem
    simp only [rest, List.mapIdx_cons, List.reverse_cons, List.append_assoc, List.singleton_append,
      Nat.add_zero]
    simp only [Nat.add_assoc, Nat.add_comm 1]

end Settling

end TableAsm.Labels
