import Mathlib.Algebra.Group.Int.Defs
import Mathlib.Algebra.Group.Nat.Defs
import TableAsm.Proofs.Labels.Calls

/-! Unrolling with numbers of 64 bits. `expandRepeatNarrow?` goes through the same steps as
`expandRepeat`, with every number kept in range: where a product or a difference is checked, one
that does not fit makes the program too long, and where it is not, it leaves no result. There is
a result for every block that has been placed and every count, and it is that of exact numbers. -/
namespace TableAsm

/-- A number of 64 bits with a sign, if it fits. -/
def signed? (n : Int) : Option Int :=
  if n.toNat < 0x8000000000000000 ∧ (-n).toNat ≤ 0x8000000000000000 then some n else none

theorem signed?_of_range {n : Int} (low : -(2 ^ 63) ≤ n) (high : n < 2 ^ 63) :
    signed? n = some n := if_pos (by omega)

theorem signed?_eq_none {n : Int} (far : n < -(2 ^ 63) ∨ 2 ^ 63 ≤ n) : signed? n = none :=
  if_neg (by omega)

/-- Changes every operand and property value, if each one can be. -/
def Instruction.mapValues? (f : Value → Option Value) (i : Instruction) : Option Instruction := do
  let operands ← i.operands.mapM f
  let values ← i.properties.values.mapM f
  return { i with operands, properties := i.properties.withValues values }

theorem mapM_some {α β : Type} {f : α → Option β} {g : α → β} {as : List α}
    (each : ∀ a ∈ as, f a = some (g a)) : as.mapM f = some (as.map g) := by
  induction as with
  | nil => rfl
  | cons a as ih =>
    have rest := ih fun b mem => each b (List.mem_cons_of_mem _ mem)
    simp [List.mapM_cons, each a List.mem_cons_self, rest]

theorem Instruction.mapValues?_eq_some {f : Value → Option Value} {g : Value → Value}
    (each : ∀ v, f v = some (g v)) (i : Instruction) : i.mapValues? f = some (i.mapValues g) := by
  simp [mapValues?, mapM_some fun v _ => each v, Labels.withValues_map, mapValues]

namespace Labels

/-- The number of the instruction that a value refers to, if it is in a range. -/
def targetIn? (l : Labels) (first stop value : Int) : Option Int :=
  ((l.entryOf? value).bind (·.target)).filter fun t => first ≤ t ∧ t < stop

/-- What a value of the instruction `here` becomes when the block placed last ends at `stop`. -/
def narrowValue? (l : Labels) (stop here : Int) : Value → Option Value
  | .int v =>
    match l.targetIn? l.counter stop v with
    | some t => (signed? (t - here)).map .int
    | none => some (.int v)
  | v => some v

def narrowBlock? (l : Labels) (stop : Int) (block : List Instruction) :
    Option (List Instruction) :=
  block.zipIdx.mapM fun (i, k) => do
    let here ← signed? (l.counter + (← signed? k))
    i.mapValues? (l.narrowValue? stop here)

/-- How far the labels of a block of `length` instructions move for the further copies, and the
counter after them. -/
def narrowMove? (counter length : Int) (further : Nat) : Option (Int × Int) := do
  let extra ← signed? ((← signed? further) * length)
  let counter ← signed? (counter - extra)
  if counter < -(maxLength : Int) then none else some (extra, counter)

def narrowRetarget? (l : Labels) (stop extra : Int) : Option (Array LabelEntry) :=
  l.entries.mapM fun e =>
    match e.target with
    | some t =>
      if l.counter ≤ t ∧ t < stop then
        (signed? (t - extra)).map fun t => { e with target := some t }
      else some e
    | none => some e

/-- What is left to do once the references within the block are resolved. -/
def narrowCopies? (l : Labels) (block resolved : List Instruction) (length stop : Int) :
    Nat → Option (Labels × Except LabelError (List Instruction))
  | 0 => do
    let counter ← signed? (l.counter + length)
    return ({ l with entries := l.retarget block.length fun _ => none, counter }, .ok [])
  | further + 1 =>
    match narrowMove? l.counter length further with
    | none => return (l, .error .repeatTooLong)
    | some (extra, counter) => do
      let entries ← l.narrowRetarget? stop extra
      return ({ l with entries, counter }, .ok (copies resolved (further + 1)))

/-- `expandRepeat` with numbers of 64 bits; there is no result when one that is not checked does
not fit. -/
def expandRepeatNarrow? (l : Labels) (block : List Instruction) (times : Nat) :
    Option (Labels × Except LabelError (List Instruction)) := do
  let length ← signed? block.length
  let stop ← signed? (l.counter + length)
  let resolved ← l.narrowBlock? stop block
  l.narrowCopies? block resolved length stop times

variable {l l' : Labels} {block : List Instruction} {times : Nat}

/-- A label of the block and the instruction that refers to it are both numbered in range. -/
theorem narrowValue?_eq_some {length index : Nat} (low : -(2 ^ 62) ≤ l.counter)
    (high : l.counter + length ≤ 2 ^ 62) (short : index < length) (v : Value) :
    l.narrowValue? (l.counter + length) (l.counter + index) v =
      some (l.localValue length index v) := by
  cases v with
  | int v =>
    have offset : l.localOffset? length (l.counter + index) v =
        (l.targetIn? l.counter (l.counter + length) v).map (· - (l.counter + index)) := by
      unfold localOffset? targetIn?
      cases l.entryOf? v with
      | none => rfl
      | some e =>
        cases target : e.target with
        | none => simp [target]
        | some t =>
          by_cases inside : l.counter ≤ t ∧ t < l.counter + length <;>
            simp [target, inside, Option.filter]
    simp only [narrowValue?, localValue, offset]
    cases found : l.targetIn? l.counter (l.counter + length) v with
    | none => rfl
    | some t =>
      have inside : l.counter ≤ t ∧ t < l.counter + length := by
        simpa using (Option.filter_eq_some_iff.mp found).2
      simp [signed?_of_range (n := t - (l.counter + index)) (by omega) (by omega)]
  | _ => rfl

theorem narrowBlock?_eq_some (low : -(2 ^ 62) ≤ l.counter)
    (high : l.counter + block.length ≤ 2 ^ 62) :
    l.narrowBlock? (l.counter + block.length) block = some (l.resolveWithin block) := by
  rw [resolveWithin_eq_mapIdx, List.mapIdx_eq_zipIdx_map]
  refine mapM_some fun p mem => ?_
  obtain ⟨i, k⟩ := p
  have short : k < block.length := by
    have inside := List.snd_lt_of_mem_zipIdx mem
    omega
  have value := narrowValue?_eq_some low high short
  simp [signed?_of_range (n := k) (by omega) (by omega),
    signed?_of_range (n := l.counter + k) (by omega) (by omega),
    Instruction.mapValues?_eq_some value]

/-- Both checks come to one: a product that does not fit is longer than any program. -/
theorem narrowMove?_eq {counter : Int} {length further : Nat} (low : -(maxLength : Int) ≤ counter)
    (high : counter ≤ 0) :
    narrowMove? counter length further =
      if maxCopies < further ∨ counter - further * length < -(maxLength : Int) then none
      else some ((further : Int) * length, counter - further * length) := by
  have limit : (maxLength : Int) < 2 ^ 62 := by decide
  have nonneg : 0 ≤ (further : Int) * length :=
    Int.mul_nonneg (Int.natCast_nonneg _) (Int.natCast_nonneg _)
  unfold narrowMove?
  -- the product is checked before the difference, so the one may fail where the other would not
  by_cases many : maxCopies < further
  · have count : signed? further = none := signed?_eq_none (by simp only [maxCopies] at many; omega)
    simp [count, many]
  · have count : signed? further = some (further : Int) :=
      signed?_of_range (by omega) (by simp only [maxCopies] at many; omega)
    by_cases long : counter - further * length < -(maxLength : Int)
    · by_cases fits : (further : Int) * length < 2 ^ 63
      · have extra := signed?_of_range (by omega) fits
        by_cases below : -(2 ^ 63) ≤ counter - further * length
        · simp [count, extra, signed?_of_range below (by omega), long]
        · have none : signed? (counter - further * length) = none := signed?_eq_none (by omega)
          simp [count, extra, none, long]
      · have none : signed? ((further : Int) * length) = none := signed?_eq_none (by omega)
        simp [count, none, long]
    · have extra := signed?_of_range (n := further * length) (by omega) (by omega)
      have moved := signed?_of_range (n := counter - further * length) (by omega) (by omega)
      simp [count, extra, moved, many, long]

theorem narrowRetarget?_eq_some {length : Nat} {extra : Int} (low : -(2 ^ 62) ≤ l.counter)
    (high : l.counter + length ≤ 2 ^ 62) (nonneg : 0 ≤ extra) (few : extra ≤ 2 ^ 62) :
    l.narrowRetarget? (l.counter + length) extra =
      some (l.retarget length fun t => some (t - extra)) := by
  unfold narrowRetarget? retarget
  show Array.mapM _ l.entries = pure (Array.map _ l.entries)
  rw [← Array.mapM_pure]
  congr 1
  funext e
  cases e.target with
  | none => rfl
  | some t =>
    by_cases inside : l.counter ≤ t ∧ t < l.counter + length
    · simp [inside, signed?_of_range (n := t - extra) (by omega) (by omega)]
    · simp [inside]

/-- With numbers of 64 bits unrolling has the result that it has with exact ones. -/
theorem Fits.expandRepeatNarrow?_eq (fits : l.Fits) (placed : (block.length : Int) ≤ -l.counter)
    (times : Nat) :
    l.expandRepeatNarrow? block times = some (l.expandRepeat block times) := by
  have limit : (maxLength : Int) < 2 ^ 62 := by decide
  unfold Fits at fits
  have length := signed?_of_range (n := block.length) (by omega) (by omega)
  have stop := signed?_of_range (n := l.counter + block.length) (by omega) (by omega)
  have resolved : l.narrowBlock? (l.counter + block.length) block = some (l.resolveWithin block) :=
    narrowBlock?_eq_some (by omega) (by omega)
  simp only [expandRepeatNarrow?, length, stop, resolved, Option.bind_eq_bind, Option.bind_some]
  cases times with
  | zero => simp [narrowCopies?, stop, Labels.expandRepeat]
  | succ further =>
    simp only [narrowCopies?, narrowMove?_eq fits (show l.counter ≤ 0 by omega),
      Labels.expandRepeat, Bool.or_eq_true, decide_eq_true_eq]
    by_cases long :
        maxCopies < further ∨ l.counter - further * block.length < -(maxLength : Int)
    · simp [long]
    · have nonneg : 0 ≤ (further : Int) * block.length :=
        Int.mul_nonneg (Int.natCast_nonneg _) (Int.natCast_nonneg _)
      have moved : l.narrowRetarget? (l.counter + block.length) (further * block.length) =
          some (l.retarget block.length fun t => some (t - further * block.length)) :=
        narrowRetarget?_eq_some (by omega) (by omega) nonneg (by omega)
      simp [long, moved]

theorem length_copies (is : List Instruction) (times : Nat) :
    (copies is times).length = times * is.length := by
  unfold copies
  split
  · rename_i empty
    simp [List.isEmpty_iff.mp empty]
  · simp

theorem expandRepeat_eq_error_iff (l : Labels) (block : List Instruction) (times : Nat) :
    (∃ l' e, l.expandRepeat block times = (l', .error e)) ↔
      1 ≤ times ∧ (maxCopies < times - 1 ∨
        l.counter - (times - 1 : Nat) * block.length < -(maxLength : Int)) := by
  unfold expandRepeat
  cases times with
  | zero => simp
  | succ further =>
    by_cases long :
        maxCopies < further ∨ l.counter - further * block.length < -(maxLength : Int) <;>
      simp [long]

theorem expandRepeat_eq_ok {is : List Instruction}
    (done : l.expandRepeat block times = (l', .ok is)) :
    is.length = times * block.length ∧
      l'.counter + times * block.length = l.counter + block.length := by
  unfold expandRepeat at done
  cases times with
  | zero =>
    cases done
    simp
  | succ further =>
    simp only at done
    split at done
    · cases done
    · cases done
      refine ⟨by rw [length_copies, length_resolveWithin], ?_⟩
      push_cast
      rw [Int.add_mul]
      omega

theorem expandRepeat_eq_error {e : LabelError}
    (failed : l.expandRepeat block times = (l', .error e)) : l' = l ∧ e = .repeatTooLong := by
  unfold expandRepeat at failed
  cases times with
  | zero => cases failed
  | succ further =>
    simp only at failed
    split at failed <;> cases failed
    exact ⟨rfl, rfl⟩

/-- After any calls, a block that has been placed is unrolled within 64 bits. It fails where the
further copies cannot be counted or the program would get too long, and then changes nothing. -/
theorem Called.expandRepeat_within (called : Called l)
    (placed : (block.length : Int) ≤ -l.counter) (times : Nat) :
    l.expandRepeatNarrow? block times = some (l.expandRepeat block times) ∧
    ((∃ l' e, l.expandRepeat block times = (l', .error e)) ↔
      1 ≤ times ∧ (2 ^ 63 - 1 < times - 1 ∨
        l.counter - (times - 1 : Nat) * block.length < -(2 ^ 24))) ∧
    (∀ l' is, l.expandRepeat block times = (l', .ok is) →
      is.length = times * block.length ∧
      l'.counter + times * block.length = l.counter + block.length ∧
      -(2 ^ 24) ≤ l'.counter ∧ l'.counter ≤ 0) ∧
    (∀ l' e, l.expandRepeat block times = (l', .error e) → l' = l ∧ e = .repeatTooLong) := by
  obtain ⟨-, fits⟩ := called.keeps
  have limit : (maxLength : Int) = 2 ^ 24 := rfl
  refine ⟨fits.expandRepeatNarrow?_eq placed times, ?_, fun l' is done => ?_,
    fun l' e => expandRepeat_eq_error⟩
  · rw [expandRepeat_eq_error_iff, limit]
    rfl
  · obtain ⟨length, counter⟩ := expandRepeat_eq_ok done
    have fits' := fits.expandRepeat block times
    rw [done, Fits, limit] at fits'
    refine ⟨length, counter, fits', ?_⟩
    have nonneg : 0 ≤ (times : Int) * block.length :=
      Int.mul_nonneg (Int.natCast_nonneg _) (Int.natCast_nonneg _)
    omega

theorem expandRepeat_within_thrice :
    ∃ l' is, expandRepeatNarrow? new.place.1 [.bare "x" [.int 7]] 3 = some (l', .ok is) ∧
      is.length = 3 ∧ l'.counter = -3 := by
  have called : Called new.place.1 := .place .new
  have placed : ([Instruction.bare "x" [.int 7]].length : Int) ≤ -new.place.1.counter := by decide
  obtain ⟨narrow, fails, done, -⟩ := called.expandRepeat_within placed 3
  rw [narrow]
  have start : new.place.1.counter = -1 := rfl
  cases result : new.place.1.expandRepeat [.bare "x" [.int 7]] 3 with
  | mk l' r =>
    cases r with
    | error e =>
      obtain ⟨-, many | long⟩ := fails.mp ⟨l', e, result⟩
      · omega
      · simp [start] at long
    | ok is =>
      obtain ⟨length, counter, -, -⟩ := done l' is result
      simp only [start, List.length_singleton] at counter
      exact ⟨l', is, rfl, length, by omega⟩

end Labels

end TableAsm
