import TableAsm.Proofs.Labels.Resolving

/-! Labels after any calls of the operations on them. Nothing is asked of the arguments, and a call
may fail. What is left of the guards is that names and places go together and that a program is no
longer than the limit. -/
namespace TableAsm.Labels

/-- The labels that can be reached by calls of the operations. -/
inductive Called : Labels → Prop where
  | new : Called new
  | reference {l : Labels} (name : String) (position : Option Position) :
      Called l → Called (l.reference name position).1
  | define {l : Labels} (name : String) (number : Int) (position : Option Position) :
      Called l → Called (l.define name number position).1
  | place {l : Labels} : Called l → Called l.place.1
  | expandRepeat {l : Labels} (block : List Instruction) (times : Nat) :
      Called l → Called (l.expandRepeat block times).1

variable {l : Labels}

theorem reference_keeps (sound : l.Sound) (name : String) (position : Option Position) :
    l.Grows (l.reference name position).1 := by
  cases step : l.reference name position with
  | mk m r =>
    cases r with
    | ok n => exact (reference_grows sound step).1
    | error e =>
      unfold reference at step
      split at step
      · cases step
      · simp only at step
        split at step <;> cases step
        exact .refl sound

/-- Defining a name that has a target may still add to what is known about where it occurs. -/
theorem define_cases (sound : l.Sound) (name : String) (number : Int)
    (position : Option Position) :
    (l.define name number position).2 = .ok () ∨ l.Grows (l.define name number position).1 := by
  have grows := reference_keeps sound name position
  unfold define
  cases step : l.reference name position with
  | mk m r =>
    rw [step] at grows
    cases r with
    | error e => exact .inr grows
    | ok n =>
      simp only
      split
      · exact .inl rfl
      · exact .inr grows

theorem define_keeps (sound : l.Sound) (name : String) (number : Int)
    (position : Option Position) :
    (l.define name number position).1.Sound ∧
      (l.define name number position).1.counter = l.counter := by
  rcases define_cases sound name number position with ok | grows
  · obtain ⟨sound', _, counter, _⟩ := define_target sound (Prod.ext rfl ok)
    exact ⟨sound', counter⟩
  · exact ⟨grows.sound, grows.counter⟩

theorem Fits.place (fits : l.Fits) : l.place.1.Fits := by
  unfold Labels.place Fits at *
  split
  · exact fits
  · simp only
    omega

theorem Fits.expandRepeat (fits : l.Fits) (block : List Instruction) (times : Nat) :
    (l.expandRepeat block times).1.Fits := by
  unfold Labels.expandRepeat Fits at *
  cases times with
  | zero =>
    simp only
    omega
  | succ further =>
    simp only
    split
    · exact fits
    · rename_i room
      simp only [Bool.or_eq_true, decide_eq_true_eq, not_or] at room
      exact Int.not_lt.mp room.2

theorem Sound.expandRepeat (sound : l.Sound) (block : List Instruction) (times : Nat) :
    (l.expandRepeat block times).1.Sound := by
  unfold Labels.expandRepeat
  cases times with
  | zero => exact sound.retarget _ _ _
  | succ further =>
    simp only
    split
    · exact sound
    · exact sound.retarget _ _ _

/-- What holds after any calls. -/
theorem Called.keeps (called : Called l) : l.Sound ∧ l.Fits := by
  induction called with
  | new => exact ⟨sound_new, fits_new⟩
  | @reference l name position _ ih =>
    obtain ⟨sound, fits⟩ := ih
    have grows := reference_keeps sound name position
    refine ⟨grows.sound, ?_⟩
    rw [Fits, grows.counter]
    exact fits
  | @define l name number position _ ih =>
    obtain ⟨sound, fits⟩ := ih
    obtain ⟨sound', counter⟩ := define_keeps sound name number position
    refine ⟨sound', ?_⟩
    rw [Fits, counter]
    exact fits
  | place _ ih =>
    obtain ⟨sound, fits⟩ := ih
    refine ⟨?_, fits.place⟩
    unfold Labels.place
    split
    · exact sound
    · exact ⟨sound.listed, sound.few⟩
  | expandRepeat block times _ ih =>
    obtain ⟨sound, fits⟩ := ih
    exact ⟨sound.expandRepeat block times, fits.expandRepeat block times⟩

end TableAsm.Labels
