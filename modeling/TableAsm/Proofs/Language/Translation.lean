import TableAsm.Assembly
import TableAsm.Proofs.Language.Syntax

/-! Translating syntax to instructions without a tree. A block is translated from its end, so that
labels are seen in the order in which the assembler sees them. -/
namespace TableAsm

section Runs

variable {ε σ α β : Type}

/-- A computation that can fail runs one part and then the other. -/
theorem run_bind (x : ExceptT ε (StateM σ) α) (f : α → ExceptT ε (StateM σ) β) (s : σ) :
    (x >>= f).run s = match x.run s with
      | (.ok a, s) => (f a).run s
      | (.error e, s) => (.error e, s) := by
  show (ExceptT.bindCont f (x.run s).1) (x.run s).2 = _
  rcases x.run s with ⟨r, s'⟩
  cases r <;> rfl

theorem run_pure (a : α) (s : σ) : (pure a : ExceptT ε (StateM σ) α).run s = (.ok a, s) := rfl

theorem run_get (s : σ) : (get : ExceptT ε (StateM σ) σ).run s = (.ok s, s) := rfl

theorem run_set (s s' : σ) : (set s' : ExceptT ε (StateM σ) PUnit).run s = (.ok ⟨⟩, s') := rfl

/-- When both parts run, the first one does. -/
theorem run_bind_eq_ok {x : ExceptT ε (StateM σ) α} {f : α → ExceptT ε (StateM σ) β} {s s' : σ}
    {b : β} : (x >>= f).run s = (.ok b, s') ↔
      ∃ a between, x.run s = (.ok a, between) ∧ (f a).run between = (.ok b, s') := by
  rw [run_bind]
  rcases x.run s with ⟨r, between⟩
  constructor
  · intro both
    cases r with
    | error e => cases both
    | ok a => exact ⟨a, between, rfl, both⟩
  · rintro ⟨a, m, ⟨⟩, second⟩
    exact second

/-- When one of them fails, it is the first one, or the second one behind it. -/
theorem run_bind_eq_error {x : ExceptT ε (StateM σ) α} {f : α → ExceptT ε (StateM σ) β}
    {s s' : σ} {e : ε} : (x >>= f).run s = (.error e, s') ↔ x.run s = (.error e, s') ∨
      ∃ a between, x.run s = (.ok a, between) ∧ (f a).run between = (.error e, s') := by
  rw [run_bind]
  rcases x.run s with ⟨r, between⟩
  constructor
  · intro failed
    cases r with
    | error e' =>
      cases failed
      exact Or.inl rfl
    | ok a => exact Or.inr ⟨a, between, rfl, failed⟩
  · rintro (⟨⟨⟩⟩ | ⟨a, m, ⟨⟩, failed⟩)
    · rfl
    · exact failed

theorem run_pure_eq_ok {a b : α} {s s' : σ} :
    (pure a : ExceptT ε (StateM σ) α).run s = (.ok b, s') ↔ b = a ∧ s' = s := by
  rw [run_pure]
  constructor
  · rintro ⟨⟩
    exact ⟨rfl, rfl⟩
  · rintro ⟨rfl, rfl⟩
    rfl

end Runs

namespace Language

/-- A translation changes the labels; what it has changed stays when it fails. -/
abbrev Translation := ExceptT AssemblyError (StateM Labels)

namespace Translation

/-- Runs an operation on the labels. -/
def onLabels {α : Type} (f : Labels → Labels × Except LabelError α) : Translation α := do
  let (l, result) := f (← get)
  set l
  match result with
  | .ok a => return a
  | .error e => throw (.label e)

theorem run_onLabels {α : Type} (f : Labels → Labels × Except LabelError α) (l : Labels) :
    (onLabels f).run l = match f l with
      | (l, .ok a) => (.ok a, l)
      | (l, .error e) => (.error (.label e), l) := by
  simp only [onLabels, run_bind, run_get, run_set]
  rcases f l with ⟨l, r⟩
  cases r <;> rfl

theorem run_onLabels_eq_ok {α : Type} {f : Labels → Labels × Except LabelError α} {l l' : Labels}
    {a : α} : (onLabels f).run l = (.ok a, l') ↔ f l = (l', .ok a) := by
  rw [run_onLabels]
  rcases f l with ⟨m, r⟩
  constructor
  · intro run
    cases r with
    | error e => cases run
    | ok b =>
      cases run
      rfl
  · rintro ⟨⟩
    rfl

theorem run_onLabels_eq_error {α : Type} {f : Labels → Labels × Except LabelError α}
    {l l' : Labels} {e : AssemblyError} : (onLabels f).run l = (.error e, l') ↔
      ∃ e', f l = (l', .error e') ∧ e = .label e' := by
  rw [run_onLabels]
  rcases f l with ⟨m, _ | a⟩
  · constructor
    · rintro ⟨⟩
      exact ⟨_, rfl, rfl⟩
    · rintro ⟨_, ⟨⟩, rfl⟩
      rfl
  · constructor
    · rintro ⟨⟩
    · rintro ⟨_, ⟨⟩, _⟩

/-- The placeholder of a name that a token holds. -/
def reference (name : String) (t : Token) : Translation Int :=
  onLabels (·.reference name (some t.position))

def literal {α : Type} (make : α → Value) (read : Option α) (fault : LiteralFault) (t : Token) :
    Translation Value :=
  match read with
  | some a => return make a
  | none => throw (.literal ⟨fault, t.lexeme, some t.position⟩)

end Translation

open Translation

/-- The value of a token; a word stands for its placeholder. -/
def value (t : Token) : Translation Value :=
  if t.kind = "IDENTIFIER" then return .int (← reference t.lexeme t)
  else if t.kind = "I_LITERAL" then
    literal .int (Action.integerOf? t.lexeme) .integerOutOfRange t
  else if t.kind = "F_LITERAL" then
    literal .float (Decimal.readFloat? t.lexeme.toList) .malformedFloat t
  else literal .str (Action.stringOf? t.lexeme) .unterminatedString t

/-- The values of tokens, the last one first. -/
def values : List Token → Translation (List Value)
  | [] => return []
  | t :: ts => do
    let vs ← values ts
    let v ← value t
    return v :: vs

/-- What a mark does to an instruction that has a number. -/
def Mark.apply (m : Mark) (i : Instruction) (number : Int) : Translation Instruction :=
  match m with
  | .label l => do
    let name := Action.labelName l.lexeme
    let _ ← reference name l
    onLabels (·.define name number (some l.position))
    return i
  | Mark.annotation n => do
    let _ ← reference n.lexeme n
    return i.annotate n.lexeme
  | .property k v => do
    let w ← value v
    let _ ← reference k.lexeme k
    return i.putProperty k.lexeme w

/-- Marks are applied from right to left. -/
def applyMarks : List Mark → Instruction → Int → Translation Instruction
  | [], i, _ => return i
  | m :: marks, i, number => do
    let j ← applyMarks marks i number
    m.apply j number

/-- The instruction of a statement, and its number. -/
def Statement.translate (s : Statement) : Translation (Instruction × Int) := do
  let vs ← values s.operands
  let _ ← reference s.name.lexeme s.name
  let number ← onLabels (·.place)
  let i ← applyMarks s.marks (.bare s.name.lexeme vs) number
  return (i, number)

/-- How often a block is to be repeated. -/
def repeatCount (t : Token) : Value → Translation Nat
  | .int n =>
    if 0 ≤ n then return n.toNat
    else throw (.literal ⟨.badRepeatCount, "", some t.position⟩)
  | _ => throw (.literal ⟨.badRepeatCount, "", some t.position⟩)

/-- The instructions of a block; what stands behind is translated first. -/
def Block.translate : Block → Translation (List Instruction)
  | .done => return []
  | .statement s rest => do
    let tail ← rest.translate
    let (i, _) ← s.translate
    return i :: tail
  | .loop count body rest => do
    let tail ← rest.translate
    let inner ← body.translate
    let times ← repeatCount count (← value count)
    let unrolled ← onLabels (·.expandRepeat inner times)
    return unrolled ++ tail

section Parts

variable {body rest : Block} {l l' : Labels} {is : List Instruction}

/-- A statement is translated when what stands behind has been. -/
theorem Block.translate_statement_eq_ok {s : Statement}
    (run : (Block.statement s rest).translate.run l = (.ok is, l')) :
    ∃ tail between i number, rest.translate.run l = (.ok tail, between) ∧
      s.translate.run between = (.ok (i, number), l') ∧ is = i :: tail := by
  obtain ⟨tail, m, last, run⟩ := run_bind_eq_ok.mp run
  obtain ⟨⟨i, number⟩, m', first, run⟩ := run_bind_eq_ok.mp run
  obtain ⟨rfl, rfl⟩ := run_pure_eq_ok.mp run
  exact ⟨tail, m, i, number, last, first, rfl⟩

/-- So is the body of a repeat, and then its count is read. -/
theorem Block.translate_loop_eq_ok {count : Token}
    (run : (Block.loop count body rest).translate.run l = (.ok is, l')) :
    ∃ tail m₁ inner m₂ times m₃ unrolled, rest.translate.run l = (.ok tail, m₁) ∧
      body.translate.run m₁ = (.ok inner, m₂) ∧
      (do repeatCount count (← value count)).run m₂ = (.ok times, m₃) ∧
      m₃.expandRepeat inner times = (l', .ok unrolled) ∧ is = unrolled ++ tail := by
  obtain ⟨tail, m₁, last, run⟩ := run_bind_eq_ok.mp run
  obtain ⟨inner, m₂, within, run⟩ := run_bind_eq_ok.mp run
  rw [← bind_assoc] at run
  obtain ⟨times, m₃, counted, run⟩ := run_bind_eq_ok.mp run
  obtain ⟨unrolled, m₄, expanded, run⟩ := run_bind_eq_ok.mp run
  obtain ⟨rfl, rfl⟩ := run_pure_eq_ok.mp run
  exact ⟨tail, m₁, inner, m₂, times, m₃, unrolled, last, within, counted,
    run_onLabels_eq_ok.mp expanded, rfl⟩

end Parts

/-- The program of a block. -/
def Block.assemble (b : Block) : Except AssemblyError Program :=
  match b.translate.run .new with
  | (.error e, _) => .error e
  | (.ok p, l) =>
    match l.resolve p with
    | (p, none) => .ok p
    | (_, some e) => .error (.label e)

end Language

end TableAsm
