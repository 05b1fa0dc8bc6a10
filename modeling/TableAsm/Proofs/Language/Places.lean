import TableAsm.Proofs.Labels.Places
import TableAsm.Proofs.Language.Translation

/-! The places of tokens matter for messages only. When all tokens are moved to the start of the
text, they spell the same syntax, and it comes to the same program, or to the same error with its
place moved. -/
namespace TableAsm

def Token.atStart (t : Token) : Token := { t with position := .start }

def AssemblyError.atStart : AssemblyError → AssemblyError
  | shape e => shape e
  | literal e => literal { e with position := e.position.map fun _ => .start }
  | label e => label e.atStart

namespace Language

def Mark.atStart : Mark → Mark
  | label name => label name.atStart
  | annotation name => annotation name.atStart
  | property key value => property key.atStart value.atStart

def Statement.atStart (s : Statement) : Statement :=
  ⟨s.marks.map Mark.atStart, s.name.atStart, s.operands.map Token.atStart⟩

/-- A block whose tokens are all at the start. -/
def Block.atStart : Block → Block
  | done => done
  | statement s rest => statement s.atStart rest.atStart
  | loop count body rest => loop count.atStart body.atStart rest.atStart

section Spelling

variable {ts : List Token}

theorem SpellsFurther.atStart {vs : List Token} (h : SpellsFurther vs ts) :
    SpellsFurther (vs.map Token.atStart) (ts.map Token.atStart) := by
  induction h with
  | none => exact .none
  | value comma kind _ ih => exact .value comma kind ih

theorem SpellsValues.atStart {vs : List Token} (h : SpellsValues vs ts) :
    SpellsValues (vs.map Token.atStart) (ts.map Token.atStart) := by
  cases h with
  | none => exact .none
  | value kind further => exact .value kind further.atStart

theorem Mark.Spells.atStart {m : Mark} (h : m.Spells ts) :
    m.atStart.Spells (ts.map Token.atStart) := by
  cases h with
  | label kind => exact .label kind
  | annotation sign key name => exact Mark.Spells.annotation sign key name
  | property sign key name value => exact .property sign key name value

theorem Statement.Spells.atStart {s : Statement} (h : s.Spells ts) :
    s.atStart.Spells (ts.map Token.atStart) := by
  induction h with
  | instruction name values => exact .instruction name values.atStart
  | marked mark _ ih =>
    rw [List.map_append]
    exact .marked mark.atStart ih

theorem Block.Spells.atStart {b : Block} (h : b.Spells ts) :
    b.atStart.Spells (ts.map Token.atStart) := by
  induction h with
  | done => exact .done
  | statement line stop _ ih =>
    rw [List.map_append, List.map_cons]
    exact .statement line.atStart stop ih
  | loop key opens count closes left _ right _ inside behind =>
    simp only [List.map_cons, List.map_append]
    exact .loop key opens count closes left inside right behind

end Spelling

section Translating

/-- A translation goes from labels that are moved as another goes from them as they were. -/
def Moves {α : Type} (x y : Translation α) : Prop :=
  ∀ l, y.run l.atStart = ((x.run l).1.mapError AssemblyError.atStart, (x.run l).2.atStart)

theorem Moves.pure {α : Type} (a : α) : Moves (Pure.pure a) (Pure.pure a) := fun _ => rfl

theorem Moves.throw {α : Type} (e : AssemblyError) :
    Moves (MonadExcept.throw e : Translation α) (MonadExcept.throw e.atStart) := fun _ => rfl

theorem Moves.bind {α β : Type} {x y : Translation α} {f g : α → Translation β} (h : Moves x y)
    (further : ∀ a, Moves (f a) (g a)) : Moves (x >>= f) (y >>= g) := by
  intro l
  rw [run_bind, run_bind, h l]
  rcases x.run l with ⟨e | a, m⟩
  · rfl
  · exact further a m

theorem Moves.onLabels {α : Type} {f g : Labels → Labels × Except LabelError α}
    (h : ∀ l, g l.atStart = ((f l).1.atStart, (f l).2.mapError LabelError.atStart)) :
    Moves (Translation.onLabels f) (Translation.onLabels g) := by
  intro l
  rw [Translation.run_onLabels, Translation.run_onLabels, h l]
  rcases f l with ⟨m, e | a⟩ <;> rfl

theorem Moves.reference (name : String) (t : Token) :
    Moves (Translation.reference name t) (Translation.reference name t.atStart) :=
  .onLabels fun l => l.reference_atStart name (some t.position)

theorem Moves.literal {α : Type} (make : α → Value) (read : Option α) (fault : LiteralFault)
    (t : Token) : Moves (Translation.literal make read fault t)
      (Translation.literal make read fault t.atStart) := by
  cases read with
  | none => exact .throw _
  | some a => exact .pure (make a)

theorem value_moves (t : Token) : Moves (value t) (value t.atStart) := by
  unfold value
  simp only [show t.atStart.kind = t.kind from rfl, show t.atStart.lexeme = t.lexeme from rfl]
  split
  · exact (Moves.reference _ t).bind fun n => .pure _
  · split
    · exact .literal _ _ _ t
    · split <;> exact .literal _ _ _ t

theorem values_moves (ts : List Token) : Moves (values ts) (values (ts.map Token.atStart)) := by
  induction ts with
  | nil => exact .pure []
  | cons t ts ih => exact ih.bind fun vs => (value_moves t).bind fun v => .pure (v :: vs)

theorem Mark.apply_moves (m : Mark) (i : Instruction) (number : Int) :
    Moves (m.apply i number) (m.atStart.apply i number) := by
  cases m with
  | label name =>
    exact (Moves.reference _ name).bind fun _ =>
      (Moves.onLabels fun l => l.define_atStart _ number (some name.position)).bind fun _ =>
        .pure i
  | annotation name => exact (Moves.reference _ name).bind fun _ => .pure _
  | property key v =>
    exact (value_moves v).bind fun w => (Moves.reference _ key).bind fun _ => .pure _

theorem applyMarks_moves (marks : List Mark) (i : Instruction) (number : Int) :
    Moves (applyMarks marks i number) (applyMarks (marks.map Mark.atStart) i number) := by
  induction marks with
  | nil => exact .pure i
  | cons m marks ih => exact ih.bind fun j => m.apply_moves j number

theorem Statement.translate_moves (s : Statement) : Moves s.translate s.atStart.translate :=
  (values_moves s.operands).bind fun _ => (Moves.reference _ s.name).bind fun _ =>
    (Moves.onLabels Labels.place_atStart).bind fun number =>
      (applyMarks_moves s.marks _ number).bind fun _ => .pure _

theorem repeatCount_moves (t : Token) (v : Value) :
    Moves (repeatCount t v) (repeatCount t.atStart v) := by
  cases v with
  | int n =>
    by_cases nonneg : 0 ≤ n
    · simp only [repeatCount, if_pos nonneg]
      exact .pure _
    · simp only [repeatCount, if_neg nonneg]
      exact .throw _
  | _ => exact .throw _

theorem Block.translate_moves (b : Block) : Moves b.translate b.atStart.translate := by
  induction b with
  | done => exact .pure []
  | statement s rest ih => exact ih.bind fun _ => s.translate_moves.bind fun _ => .pure _
  | loop count body rest inside behind =>
    exact behind.bind fun _ => inside.bind fun inner => (value_moves count).bind fun v =>
      (repeatCount_moves count v).bind fun times =>
        (Moves.onLabels fun l => l.expandRepeat_atStart inner times).bind fun _ => .pure _

/-- A block whose tokens are moved comes to the same program, or to the same error, moved. -/
theorem Block.assemble_atStart (b : Block) :
    b.atStart.assemble = b.assemble.mapError AssemblyError.atStart := by
  have start : Labels.new.atStart = Labels.new := by simp [Labels.new, Labels.atStart]
  have translated := b.translate_moves Labels.new
  rw [start] at translated
  rw [assemble, assemble, translated]
  rcases b.translate.run .new with ⟨e | p, l⟩
  · rfl
  · simp only [Except.mapError, Labels.resolve_atStart]
    rcases l.resolve p with ⟨q, _ | e⟩ <;> rfl

end Translating

end Language

end TableAsm
