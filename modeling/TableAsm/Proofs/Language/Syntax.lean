import Mathlib.Data.List.Basic
import TableAsm.Rule
import TableAsm.Token

/-! The statements of the built-in language, and how tokens spell them. A statement is an
instruction behind any number of marks; a block is a row of statements and repeated blocks. The
tokens that carry a text are kept as they are, all others are fixed by their kinds. -/
namespace TableAsm.Language

/-- The productions of the language. -/
def rules : List Rule :=
  [⟨"start", ["line", ";", "start"]⟩,
    ⟨"start", ["KW_repeat", "(", "I_LITERAL", ")", "\x7b", "start", "\x7d", "start"]⟩,
    ⟨"start", ["EMPTY"]⟩,
    ⟨"line", ["@", "modifier", "line"]⟩,
    ⟨"line", ["LABEL", "line"]⟩,
    ⟨"line", ["instruction"]⟩,
    ⟨"instruction", ["IDENTIFIER", "operands"]⟩,
    ⟨"operands", ["anyval", "more_operands"]⟩,
    ⟨"operands", ["EMPTY"]⟩,
    ⟨"more_operands", [",", "anyval", "more_operands"]⟩,
    ⟨"more_operands", ["EMPTY"]⟩,
    ⟨"modifier", ["KW_annotation", "IDENTIFIER"]⟩,
    ⟨"modifier", ["KW_property", "IDENTIFIER", "anyval"]⟩,
    ⟨"anyval", ["IDENTIFIER"]⟩,
    ⟨"anyval", ["I_LITERAL"]⟩,
    ⟨"anyval", ["F_LITERAL"]⟩,
    ⟨"anyval", ["S_LITERAL"]⟩]

/-- The kinds of the tokens that are values. -/
def valueKinds : List String := ["IDENTIFIER", "I_LITERAL", "F_LITERAL", "S_LITERAL"]

/-- What can stand before an instruction. -/
inductive Mark where
  | label (name : Token)
  | annotation (name : Token)
  | property (key value : Token)

/-- An instruction with its marks from left to right. -/
structure Statement where
  marks : List Mark
  name : Token
  operands : List Token

/-- A row of statements and repeated blocks. -/
inductive Block where
  | done
  | statement (s : Statement) (rest : Block)
  | loop (count : Token) (body rest : Block)

/-- Values that each stand behind a comma. -/
inductive SpellsFurther : List Token → List Token → Prop where
  | none : SpellsFurther [] []
  | value {comma v : Token} {vs ts : List Token} : comma.kind = "," → v.kind ∈ valueKinds →
      SpellsFurther vs ts → SpellsFurther (v :: vs) (comma :: v :: ts)

/-- Values with commas between them. -/
inductive SpellsValues : List Token → List Token → Prop where
  | none : SpellsValues [] []
  | value {v : Token} {vs ts : List Token} : v.kind ∈ valueKinds → SpellsFurther vs ts →
      SpellsValues (v :: vs) (v :: ts)

inductive Mark.Spells : Mark → List Token → Prop where
  | label {l : Token} : l.kind = "LABEL" → (label l).Spells [l]
  | annotation {a k n : Token} : a.kind = "@" → k.kind = "KW_annotation" →
      n.kind = "IDENTIFIER" → (Mark.annotation n).Spells [a, k, n]
  | property {a k n v : Token} : a.kind = "@" → k.kind = "KW_property" → n.kind = "IDENTIFIER" →
      v.kind ∈ valueKinds → (property n v).Spells [a, k, n, v]

inductive Statement.Spells : Statement → List Token → Prop where
  | instruction {name : Token} {vs ts : List Token} : name.kind = "IDENTIFIER" →
      SpellsValues vs ts → Spells ⟨[], name, vs⟩ (name :: ts)
  | marked {m : Mark} {marks : List Mark} {name : Token} {vs front ts : List Token} :
      m.Spells front → Spells ⟨marks, name, vs⟩ ts → Spells ⟨m :: marks, name, vs⟩ (front ++ ts)

inductive Block.Spells : Block → List Token → Prop where
  | done : done.Spells []
  | statement {s : Statement} {stop : Token} {rest : Block} {front ts : List Token} :
      s.Spells front → stop.kind = ";" → rest.Spells ts →
      (statement s rest).Spells (front ++ stop :: ts)
  | loop {key opens count closes left right : Token} {body rest : Block} {inside ts : List Token} :
      key.kind = "KW_repeat" → opens.kind = "(" → count.kind = "I_LITERAL" → closes.kind = ")" →
      left.kind = "\x7b" → body.Spells inside → right.kind = "\x7d" → rest.Spells ts →
      (loop count body rest).Spells
        (key :: opens :: count :: closes :: left :: (inside ++ right :: ts))

section Uniqueness

/-- Tokens that a statement cannot go on with. -/
def Stops (ts : List Token) : Prop := ∃ stop rest, ts = stop :: rest ∧ stop.kind = ";"

/-- Tokens that a block cannot go on with. -/
def Ends (ts : List Token) : Prop := ∀ t rest, ts = t :: rest → t.kind = "\x7d"

variable {ts ts' u u' : List Token}

theorem SpellsFurther.unique {vs vs' : List Token} (h : SpellsFurther vs ts)
    (h' : SpellsFurther vs' ts') (stops : Stops u) (stops' : Stops u')
    (same : ts ++ u = ts' ++ u') : vs = vs' ∧ u = u' := by
  obtain ⟨stop, rest, rfl, kind⟩ := stops
  obtain ⟨stop', rest', rfl, kind'⟩ := stops'
  induction h generalizing vs' ts' with
  | none =>
    cases h' with
    | none => exact ⟨rfl, same⟩
    | value comma _ _ =>
      obtain ⟨rfl, _⟩ := List.cons.inj same
      simp [kind] at comma
  | value comma _ _ ih =>
    cases h' with
    | none =>
      obtain ⟨rfl, _⟩ := List.cons.inj same
      simp [kind'] at comma
    | value _ _ further =>
      obtain ⟨rfl, behind⟩ := List.cons.inj same
      obtain ⟨rfl, tail⟩ := List.cons.inj behind
      obtain ⟨rfl, others⟩ := ih further tail
      exact ⟨rfl, others⟩

theorem SpellsValues.unique {vs vs' : List Token} (h : SpellsValues vs ts)
    (h' : SpellsValues vs' ts') (stops : Stops u) (stops' : Stops u')
    (same : ts ++ u = ts' ++ u') : vs = vs' ∧ u = u' := by
  have notValue : ∀ stop : Token, stop.kind = ";" → stop.kind ∉ valueKinds := by
    intro stop kind
    rw [kind]
    decide
  cases h with
  | none =>
    cases h' with
    | none => exact ⟨rfl, same⟩
    | value mem _ =>
      obtain ⟨stop, rest, rfl, kind⟩ := stops
      obtain ⟨rfl, _⟩ := List.cons.inj same
      exact absurd mem (notValue _ kind)
  | value mem further =>
    cases h' with
    | none =>
      obtain ⟨stop, rest, rfl, kind⟩ := stops'
      obtain ⟨rfl, _⟩ := List.cons.inj same
      exact absurd mem (notValue _ kind)
    | value _ further' =>
      obtain ⟨rfl, tail⟩ := List.cons.inj same
      obtain ⟨rfl, others⟩ := further.unique further' stops stops' tail
      exact ⟨rfl, others⟩

theorem Mark.Spells.unique {m m' : Mark} (h : m.Spells ts) (h' : m'.Spells ts')
    (same : ts ++ u = ts' ++ u') : m = m' ∧ u = u' := by
  cases h <;> cases h' <;> simp_all

theorem Mark.Spells.first {m : Mark} (h : m.Spells ts) :
    ∃ t rest, ts = t :: rest ∧ (t.kind = "LABEL" ∨ t.kind = "@") := by
  cases h with
  | label kind => exact ⟨_, _, rfl, Or.inl kind⟩
  | annotation kind _ _ => exact ⟨_, _, rfl, Or.inr kind⟩
  | property kind _ _ _ => exact ⟨_, _, rfl, Or.inr kind⟩

theorem Statement.Spells.unique {s s' : Statement} (h : s.Spells ts) (h' : s'.Spells ts')
    (stops : Stops u) (stops' : Stops u') (same : ts ++ u = ts' ++ u') : s = s' ∧ u = u' := by
  induction h generalizing s' ts' with
  | instruction kind values =>
    cases h' with
    | instruction _ values' =>
      obtain ⟨rfl, tail⟩ := List.cons.inj same
      obtain ⟨rfl, others⟩ := values.unique values' stops stops' tail
      exact ⟨rfl, others⟩
    | marked mark _ =>
      obtain ⟨t, rest, rfl, other⟩ := mark.first
      obtain ⟨rfl, _⟩ := List.cons.inj same
      simp [kind] at other
  | marked mark _ ih =>
    cases h' with
    | instruction kind _ =>
      obtain ⟨t, rest, rfl, other⟩ := mark.first
      obtain ⟨rfl, _⟩ := List.cons.inj same
      simp [kind] at other
    | marked mark' behind =>
      rw [List.append_assoc, List.append_assoc] at same
      obtain ⟨rfl, tail⟩ := mark.unique mark' same
      obtain ⟨eq, others⟩ := ih behind tail
      cases eq
      exact ⟨rfl, others⟩

theorem Statement.Spells.first {s : Statement} (h : s.Spells ts) :
    ∃ t rest, ts = t :: rest ∧ t.kind ≠ "KW_repeat" ∧ t.kind ≠ "\x7d" := by
  cases h with
  | instruction kind _ => exact ⟨_, _, rfl, by rw [kind]; decide, by rw [kind]; decide⟩
  | marked mark _ =>
    obtain ⟨t, rest, rfl, kind⟩ := mark.first
    refine ⟨t, _, rfl, ?_⟩
    rcases kind with kind | kind <;> rw [kind] <;> decide

/-- Tokens spell one block at most. -/
theorem Block.Spells.unique {b b' : Block} (h : b.Spells ts) (h' : b'.Spells ts')
    (ends : Ends u) (ends' : Ends u') (same : ts ++ u = ts' ++ u') : b = b' ∧ u = u' := by
  induction h generalizing b' ts' u u' with
  | done =>
    cases h' with
    | done => exact ⟨rfl, same⟩
    | statement front _ _ =>
      obtain ⟨t, rest, rfl, _, other⟩ := front.first
      exact absurd (ends t _ same) other
    | loop key _ _ _ _ _ _ _ =>
      have kind := ends _ _ same
      simp [key] at kind
  | @statement s stop rest front ts line kind _ ih =>
    cases h' with
    | done =>
      obtain ⟨t, others, rfl, _, other⟩ := line.first
      exact absurd (ends' t _ same.symm) other
    | @statement s' stop' rest' front' ts' line' kind' behind =>
      rw [List.append_assoc, List.append_assoc] at same
      obtain ⟨rfl, tail⟩ := line.unique line' ⟨stop, _, rfl, kind⟩ ⟨stop', _, rfl, kind'⟩ same
      obtain ⟨rfl, others⟩ := ih behind ends ends' (List.cons.inj tail).2
      exact ⟨rfl, others⟩
    | loop key _ _ _ _ _ _ _ =>
      obtain ⟨t, others, rfl, other, _⟩ := line.first
      obtain ⟨rfl, _⟩ := List.cons.inj same
      exact absurd key other
  | @loop key opens count closes left right body rest inside ts isKey _ _ _ _ _ isRight _ ihb ih =>
    cases h' with
    | done =>
      have kind := ends' _ _ same.symm
      simp [isKey] at kind
    | statement line _ _ =>
      obtain ⟨t, others, rfl, other, _⟩ := line.first
      obtain ⟨rfl, _⟩ := List.cons.inj same
      exact absurd isKey other
    | @loop _ _ _ _ _ right' _ _ inside' ts' _ _ _ _ _ body' isRight' rest' =>
      simp only [List.cons_append, List.cons.injEq, List.append_assoc] at same
      obtain ⟨-, -, rfl, -, -, same⟩ := same
      have closed : Ends (right :: (ts ++ u)) := by
        rintro t others ⟨⟩
        exact isRight
      have closed' : Ends (right' :: (ts' ++ u')) := by
        rintro t others ⟨⟩
        exact isRight'
      obtain ⟨rfl, tail⟩ := ihb body' closed closed' same
      obtain ⟨rfl, others⟩ := ih rest' ends ends' (List.cons.inj tail).2
      exact ⟨rfl, others⟩

end Uniqueness

end TableAsm.Language
