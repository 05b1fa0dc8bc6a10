import TableAsm.Proofs.Labels.Calls

/-! Where names are seen first. Of all places where a name is referred to or defined the earliest is
kept, whatever the name is there. Placing instructions and repeating them changes none, also where
labels are dropped. -/
namespace TableAsm

/-- The earliest of the places known so far and one more. -/
def Position.earliest (p : Position) (known : Option Position) : Option Position :=
  some (known.elim p (·.earlier p))

theorem Position.earliest_twice (p : Position) (known : Option Position) :
    p.earliest (p.earliest known) = p.earliest known := by
  have self : p.before p = false := by simp [before]
  cases known with
  | none => simp [earliest, earlier, self]
  | some q => by_cases first : p.before q <;> simp [earliest, earlier, self, first]

theorem LabelEntry.firstUse_seenAt (e : LabelEntry) (p : Position) :
    (e.seenAt (some p)).firstUse = p.earliest e.firstUse := by
  obtain ⟨name, use, target⟩ := e
  cases use <;> rfl

namespace Labels

variable {l l' : Labels} {name : String}

def firstUse? (l : Labels) (name : String) : Option Position := (l.known? name).bind (·.firstUse)

theorem firstUse?_reference (sound : l.Sound) {p : Position} {n : Int}
    (step : l.reference name (some p) = (l', .ok n)) (other : String) :
    l'.firstUse? other =
      if other = name then p.earliest (l.firstUse? other) else l.firstUse? other := by
  rw [firstUse?, reference_known? sound step]
  by_cases same : other = name
  · rw [if_pos same, if_pos same, firstUse?, same]
    cases l.known? name with
    | none => rfl
    | some e => exact e.firstUse_seenAt p
  · rw [if_neg same, if_neg same, firstUse?]

theorem firstUse?_define (sound : l.Sound) {number : Int} {p : Position}
    (step : l.define name number (some p) = (l', .ok ())) (other : String) :
    l'.firstUse? other =
      if other = name then p.earliest (l.firstUse? other) else l.firstUse? other := by
  unfold define at step
  split at step
  · cases step
  · rename_i m n referred
    rw [← firstUse?_reference sound referred]
    split at step
    · rename_i i _ _ placed _
      cases step
      obtain ⟨grows, known⟩ := reference_grows sound referred
      obtain ⟨j, place, eq⟩ := Option.map_eq_some_iff.mp known
      obtain rfl : j = i := by
        rw [placeOf?_eq_some.mpr eq.symm] at placed
        exact Option.some.inj placed
      rw [firstUse?, firstUse?, grows.sound.known?_modify place]
      by_cases same : other = name
      · subst same
        cases m.known? other <;> simp
      · rw [if_neg same]
    · cases step

theorem firstUse?_retarget (l : Labels) (length : Nat) (f : Int → Option Int) (counter : Int)
    (name : String) :
    firstUse? ⟨l.retarget length f, l.index, counter⟩ name = l.firstUse? name := by
  simp only [firstUse?, known?, retarget, Array.getElem?_map]
  cases l.index[name]? with
  | none => rfl
  | some i =>
    simp only [Option.bind_some]
    cases l.entries[i]? with
    | none => rfl
    | some e =>
      simp only [Option.map_some, Option.bind_some]
      split
      · split <;> rfl
      · rfl

theorem firstUse?_expandRepeat (l : Labels) (block : List Instruction) (times : Nat)
    (name : String) : (l.expandRepeat block times).1.firstUse? name = l.firstUse? name := by
  unfold expandRepeat
  cases times with
  | zero => exact l.firstUse?_retarget _ _ _ name
  | succ further =>
    simp only
    split
    · rfl
    · exact l.firstUse?_retarget _ _ _ name

theorem Sound.firstUse?_of_entryOf? (sound : l.Sound) {v : Int} {e : LabelEntry}
    (found : l.entryOf? v = some e) : l.firstUse? e.name = e.firstUse := by
  obtain ⟨_, i, named, entry⟩ := sound.entryOf?_eq_some.mp found
  rw [firstUse?, known?, named, Option.bind_some, entry, Option.bind_some]

end Labels

end TableAsm
