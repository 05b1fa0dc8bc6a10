import TableAsm.Proofs.Labels.Resolving

/-! The places where names are seen are kept for messages only. When all of them are moved to the
start of the text, every operation on labels goes the same way: the places in what it leaves and in
its error have moved, and nothing else is different. -/
namespace TableAsm

def LabelEntry.atStart (e : LabelEntry) : LabelEntry :=
  { e with firstUse := e.firstUse.map fun _ => .start }

def LabelError.atStart : LabelError → LabelError
  | tooManyNames name p => tooManyNames name (p.map fun _ => .start)
  | definedTwice name p => definedTwice name (p.map fun _ => .start)
  | programTooLong => programTooLong
  | repeatTooLong => repeatTooLong
  | neverDefined name p => neverDefined name (p.map fun _ => .start)

theorem LabelEntry.atStart_seenAt (e : LabelEntry) (p : Option Position) :
    (e.seenAt p).atStart = e.atStart.seenAt (p.map fun _ => .start) := by
  obtain ⟨name, use, target⟩ := e
  cases p with
  | none => rfl
  | some p => cases use <;> rfl

namespace Labels

/-- Labels whose names have all been seen at the start. -/
def atStart (l : Labels) : Labels := { l with entries := l.entries.map LabelEntry.atStart }

theorem map_modify {α β : Type} {f : α → α} {g : α → β} {h : β → β}
    (commutes : ∀ a, g (f a) = h (g a)) (as : Array α) (i : Nat) :
    (as.modify i f).map g = (as.map g).modify i h := by
  refine Array.ext_getElem? fun j => ?_
  by_cases here : i = j
  · cases found : as[j]? <;> simp [Array.getElem?_modify, here, found, commutes]
  · simp [Array.getElem?_modify, here]

theorem reference_atStart (l : Labels) (name : String) (p : Option Position) :
    l.atStart.reference name (p.map fun _ => .start) =
      ((l.reference name p).1.atStart, (l.reference name p).2.mapError LabelError.atStart) := by
  unfold reference
  have index : l.atStart.index = l.index := rfl
  have size : l.atStart.entries.size = l.entries.size := Array.size_map
  rw [index, size]
  cases l.index[name]? with
  | some i =>
    have seen : (l.entries.modify i (·.seenAt p)).map LabelEntry.atStart =
        (l.entries.map LabelEntry.atStart).modify i (·.seenAt (p.map fun _ => .start)) :=
      map_modify (fun e => e.atStart_seenAt p) _ _
    simp [atStart, Except.mapError, seen]
  | none =>
    by_cases full : maxNames ≤ l.entries.size
    · simp [full, Except.mapError, LabelError.atStart]
    · simp [full, atStart, Except.mapError, LabelEntry.atStart]

theorem entryOf?_atStart (l : Labels) (v : Int) :
    l.atStart.entryOf? v = (l.entryOf? v).map LabelEntry.atStart := by
  unfold entryOf?
  cases placeOf? v <;> simp [atStart]

theorem define_atStart (l : Labels) (name : String) (number : Int) (p : Option Position) :
    l.atStart.define name number (p.map fun _ => .start) =
      ((l.define name number p).1.atStart,
        (l.define name number p).2.mapError LabelError.atStart) := by
  unfold define
  rw [reference_atStart]
  rcases l.reference name p with ⟨m, e | n⟩
  · rfl
  · simp only [Except.mapError, entryOf?_atStart]
    rcases placeOf? n with _ | i
    · rfl
    · rcases m.entryOf? n with _ | ⟨title, use, _ | t⟩
      · rfl
      · have aimed :
            (m.entries.modify i ({ · with target := some number })).map LabelEntry.atStart =
              (m.entries.map LabelEntry.atStart).modify i ({ · with target := some number }) :=
          map_modify (fun _ => by rfl) _ _
        simp only [Option.map_some, LabelEntry.atStart, atStart, aimed]
      · rfl

theorem place_atStart (l : Labels) :
    l.atStart.place = (l.place.1.atStart, l.place.2.mapError LabelError.atStart) := by
  unfold place
  by_cases full : l.counter ≤ -(maxLength : Int) <;>
    simp [full, atStart, Except.mapError, LabelError.atStart]

theorem localOffset?_atStart (l : Labels) (length : Nat) (here v : Int) :
    l.atStart.localOffset? length here v = l.localOffset? length here v := by
  unfold localOffset?
  rw [entryOf?_atStart]
  cases l.entryOf? v <;> rfl

theorem resolveWithin_atStart (l : Labels) (block : List Instruction) :
    l.atStart.resolveWithin block = l.resolveWithin block := by
  unfold resolveWithin
  simp only [localOffset?_atStart]
  rfl

theorem retarget_atStart (l : Labels) (length : Nat) (f : Int → Option Int) :
    l.atStart.retarget length f = (l.retarget length f).map LabelEntry.atStart := by
  unfold retarget
  rw [atStart, Array.map_map, Array.map_map]
  congr 1
  funext e
  obtain ⟨name, use, _ | t⟩ := e
  · rfl
  · by_cases inside : l.counter ≤ t ∧ t < l.counter + length <;>
      simp [LabelEntry.atStart, inside]

theorem expandRepeat_atStart (l : Labels) (block : List Instruction) (times : Nat) :
    l.atStart.expandRepeat block times =
      ((l.expandRepeat block times).1.atStart,
        (l.expandRepeat block times).2.mapError LabelError.atStart) := by
  have counter : l.atStart.counter = l.counter := rfl
  unfold expandRepeat
  cases times with
  | zero =>
    simp only [retarget_atStart, counter]
    rfl
  | succ further =>
    simp only [retarget_atStart, resolveWithin_atStart, counter]
    split <;> rfl

section Resolving

variable (l : Labels) (index : Nat)

theorem resolveValue_atStart (v : Value) :
    l.atStart.resolveValue index v = (l.resolveValue index v).mapError LabelError.atStart := by
  cases v with
  | int v =>
    simp only [resolveValue, entryOf?_atStart]
    rcases l.entryOf? v with _ | ⟨name, use, _ | t⟩ <;> rfl
  | _ => rfl

theorem resolveValues_atStart (vs : List Value) :
    l.atStart.resolveValues index vs =
      ((l.resolveValues index vs).1, (l.resolveValues index vs).2.map LabelError.atStart) := by
  induction vs with
  | nil => rfl
  | cons v vs ih =>
    cases first : l.resolveValue index v <;>
      simp [resolveValues, resolveValue_atStart, first, Except.mapError, ih]

theorem resolveInstruction_atStart (i : Instruction) :
    l.atStart.resolveInstruction index i =
      ((l.resolveInstruction index i).1,
        (l.resolveInstruction index i).2.map LabelError.atStart) := by
  simp only [resolveInstruction, resolveValues_atStart]
  rcases l.resolveValues index i.operands with ⟨vs, _ | e⟩ <;> rfl

theorem resolveFrom_atStart (reversed p : List Instruction) :
    l.atStart.resolveFrom reversed index p =
      ((l.resolveFrom reversed index p).1,
        (l.resolveFrom reversed index p).2.map LabelError.atStart) := by
  induction p generalizing reversed index with
  | nil => rfl
  | cons i p ih =>
    simp only [resolveFrom, resolveInstruction_atStart]
    rcases l.resolveInstruction index i with ⟨j, _ | e⟩
    · exact ih (index + 1) (j :: reversed)
    · rfl

theorem resolve_atStart (p : Program) :
    l.atStart.resolve p = ((l.resolve p).1, (l.resolve p).2.map LabelError.atStart) :=
  resolveFrom_atStart l 0 [] p

end Resolving

end Labels

end TableAsm
