import Mathlib.Data.List.Basic
import Mathlib.Data.List.Forall2
import TableAsm.Proofs.Labels.Carrying
import TableAsm.Proofs.Language.Syntax
import TableAsm.Assembly

/-! The unrolling of a block: the copies of its statements from left to right, each with the
iterations that it lies in. A name written in one copy stands for the labelled copy that lies in
the same iterations as far as they lie in the same repeats, and in the first iterations
otherwise. -/
namespace TableAsm.Language

/-- One iteration of a repeat. Repeats are numbered by where they begin. -/
structure Pass where
  loop : Nat
  round : Nat
deriving DecidableEq, Repr

/-- A copy of a statement, with the iterations it lies in from the outermost one on. -/
structure Copy where
  statement : Statement
  trail : List Pass

def Copy.within (p : Pass) (c : Copy) : Copy := { c with trail := p :: c.trail }

/-- How often the count of a repeat says. -/
def timesOf (count : Token) : Nat := Decimal.value count.lexeme.toList

/-- As many copies of a block as a repeat makes of it. -/
def rounds (loop times : Nat) (copies : List Copy) : List Copy :=
  (List.range times).flatMap fun round => copies.map (Copy.within ⟨loop, round⟩)

/-- How many repeats a block has. -/
def Block.loops : Block → Nat
  | .done => 0
  | .statement _ rest => rest.loops
  | .loop _ body rest => 1 + body.loops + rest.loops

/-- The unrolling of a block that has a number of repeats before it. -/
def Block.copies (before : Nat) : Block → List Copy
  | .done => []
  | .statement s rest => ⟨s, []⟩ :: rest.copies before
  | .loop count body rest =>
    rounds before (timesOf count) (body.copies (before + 1)) ++
      rest.copies (before + 1 + body.loops)

section Meaning

/-- The name of a label is its text without the colon at the end. -/
def Mark.label? : Mark → Option String
  | .label l => some (String.ofList l.lexeme.toList.dropLast)
  | _ => none

def Mark.annotation? : Mark → Option String
  | Mark.annotation n => some n.lexeme
  | _ => none

/-- The value that a mark gives to a property. -/
def Mark.property? (key : String) : Mark → Option Token
  | .property k v => if k.lexeme = key then some v else none
  | _ => none

def Mark.value? : Mark → Option Token
  | .property _ v => some v
  | _ => none

def Statement.labels (s : Statement) : List String := s.marks.filterMap Mark.label?

def Statement.annotations (s : Statement) : List String := s.marks.filterMap Mark.annotation?

/-- The value of the leftmost property with a key. -/
def Statement.property? (s : Statement) (key : String) : Option Token :=
  s.marks.findSome? (Mark.property? key)

/-- The values that a statement writes: its operands and those of its properties. -/
def Statement.written (s : Statement) : List Token := s.operands ++ s.marks.filterMap Mark.value?

/-- The iterations of a label that a reference sees: its own ones, and the first ones of repeats
that it does not lie in. -/
def Reaches (reference label : List Pass) : Prop :=
  ∀ q ∈ label, q ∈ reference ∨ ((∀ p ∈ reference, p.loop ≠ q.loop) ∧ q.round = 0)

/-- What a name stands for in a statement with a trail: the place of a copy that has it as a
label and that the trail reaches. -/
def IsTarget (copies : List Copy) (trail : List Pass) (name : String) (j : Nat) : Prop :=
  ∃ there, copies[j]? = some there ∧ name ∈ there.statement.labels ∧ Reaches trail there.trail

/-- The literals. -/
inductive Reads : Token → Value → Prop where
  | integer {t : Token} : t.kind = "I_LITERAL" → Reads t (.int (Decimal.value t.lexeme.toList))
  | float {t : Token} {x : Float} : t.kind = "F_LITERAL" →
      Decimal.readFloat? t.lexeme.toList = some x → Reads t (.float x)
  | string {t : Token} {s : String} : t.kind = "S_LITERAL" → t.lexeme = "\"" ++ s ++ "\"" →
      Reads t (.str s)

/-- The value of a token in the copy at place `i`: that of a literal, or the distance to the one
copy that a name stands for. -/
inductive Means (copies : List Copy) (trail : List Pass) (i : Nat) : Token → Value → Prop where
  | literal {t : Token} {v : Value} : Reads t v → Means copies trail i t v
  | word {t : Token} {j : Nat} : t.kind = "IDENTIFIER" → IsTarget copies trail t.lexeme j →
      (∀ k, IsTarget copies trail t.lexeme k → k = j) → Means copies trail i t (.int (j - i))

/-- An instruction has the name, the annotations, and in their places the values of a
statement. -/
structure Statement.Makes (s : Statement) (R : Token → Value → Prop) (x : Instruction) :
    Prop where
  name : x.name = s.name.lexeme
  operands : List.Forall₂ R s.operands x.operands
  annotations : ∀ a, a ∈ x.annotations ↔ a ∈ s.annotations
  properties : ∀ key, Option.Rel R (s.property? key) (x.property? key)

/-- A program is a block unrolled. -/
structure Block.Unrolls (b : Block) (p : Program) : Prop where
  length : p.length = (b.copies 0).length
  each : ∀ (i : Nat) (c : Copy) (x : Instruction), (b.copies 0)[i]? = some c → p[i]? = some x →
    c.statement.Makes (Means (b.copies 0) c.trail i) x

end Meaning

section Rounds

variable {C : List Copy} {c : Copy} {loop times r i : Nat}

theorem length_pieces {α : Type} {f : Nat → List α} {len : Nat}
    (each : ∀ r, (f r).length = len) (n : Nat) :
    ((List.range n).flatMap f).length = n * len := by
  induction n with
  | zero => simp
  | succ n ih =>
    rw [List.range_succ, List.flatMap_append, List.length_append, ih, List.flatMap_singleton,
      each, Nat.succ_mul]

/-- Pieces of one length lie at multiples of the length. -/
theorem getElem?_pieces {α : Type} {f : Nat → List α} {len : Nat}
    (each : ∀ r, (f r).length = len) {n r i : Nat} (round : r < n) (place : i < len) :
    ((List.range n).flatMap f)[r * len + i]? = (f r)[i]? := by
  induction n with
  | zero => omega
  | succ n ih =>
    rw [List.range_succ, List.flatMap_append, List.flatMap_singleton]
    rcases Nat.lt_succ_iff_lt_or_eq.mp round with earlier | rfl
    · rw [List.getElem?_append_left, ih earlier]
      rw [length_pieces each]
      calc r * len + i < r * len + len := by omega
        _ = (r + 1) * len := (Nat.succ_mul r len).symm
        _ ≤ n * len := Nat.mul_le_mul_right len earlier
    · rw [List.getElem?_append_right] <;> rw [length_pieces each]
      · rw [Nat.add_sub_cancel_left]
      · omega

theorem length_rounds (loop times : Nat) (C : List Copy) :
    (rounds loop times C).length = times * C.length :=
  length_pieces (fun _ => List.length_map _) times

theorem getElem?_rounds (round : r < times) (place : i < C.length) :
    (rounds loop times C)[r * C.length + i]? = C[i]?.map (Copy.within ⟨loop, r⟩) := by
  rw [rounds, getElem?_pieces (fun _ => List.length_map _) round place, List.getElem?_map]

theorem mem_rounds : c ∈ rounds loop times C ↔
    ∃ r < times, ∃ c' ∈ C, c = c'.within ⟨loop, r⟩ := by
  simp only [rounds, List.mem_flatMap, List.mem_range, List.mem_map, eq_comm]

/-- A place among the rounds is a place in one of them. -/
theorem exists_round {k : Nat} (found : (rounds loop times C)[k]? = some c) :
    ∃ r i c', r < times ∧ i < C.length ∧ k = r * C.length + i ∧ C[i]? = some c' ∧
      c = c'.within ⟨loop, r⟩ := by
  have short := (List.getElem?_eq_some_iff.mp found).1
  rw [length_rounds] at short
  have pos : 0 < C.length := Nat.pos_of_mul_pos_left (Nat.zero_lt_of_lt short)
  have round : k / C.length < times := Nat.div_lt_of_lt_mul (Nat.mul_comm times _ ▸ short)
  have place : k % C.length < C.length := Nat.mod_lt k pos
  have split : k = k / C.length * C.length + k % C.length := (Nat.div_add_mod' k C.length).symm
  rw [split, getElem?_rounds round place] at found
  obtain ⟨c', at_i, rfl⟩ := Option.map_eq_some_iff.mp found
  exact ⟨_, _, c', round, place, split, at_i, rfl⟩

end Rounds

section Trails

theorem loop_bounds {b : Block} {before : Nat} {c : Copy} (mem : c ∈ b.copies before) {p : Pass}
    (pass : p ∈ c.trail) : before ≤ p.loop ∧ p.loop < before + b.loops := by
  induction b generalizing before c with
  | done => cases mem
  | statement s rest ih =>
    rcases List.mem_cons.mp mem with rfl | mem
    · cases pass
    · exact ih mem pass
  | loop count body rest ihb ih =>
    rw [Block.loops]
    rcases List.mem_append.mp mem with mem | mem
    · obtain ⟨r, _, c', inside, rfl⟩ := mem_rounds.mp mem
      rcases List.mem_cons.mp pass with rfl | pass
      · simp only
        omega
      · have bounds := ihb inside pass
        omega
    · have bounds := ih mem pass
      omega

/-- No trail runs through two iterations of one repeat. -/
theorem trail_steady {b : Block} {before : Nat} {c : Copy} (mem : c ∈ b.copies before) :
    ∀ p ∈ c.trail, ∀ q ∈ c.trail, p.loop = q.loop → p = q := by
  induction b generalizing before c with
  | done => cases mem
  | statement s rest ih =>
    rcases List.mem_cons.mp mem with rfl | mem
    · intro p pass
      cases pass
    · exact ih mem
  | loop count body rest ihb ih =>
    rcases List.mem_append.mp mem with mem | mem
    · obtain ⟨r, _, c', inside, rfl⟩ := mem_rounds.mp mem
      intro p pass q pass' same
      rcases List.mem_cons.mp pass with rfl | pass <;>
        rcases List.mem_cons.mp pass' with rfl | pass'
      · rfl
      · have bounds := loop_bounds inside pass'
        simp only at same
        omega
      · have bounds := loop_bounds inside pass
        simp only at same
        omega
      · exact ihb inside p pass q pass' same
    · exact ih mem

end Trails

end TableAsm.Language
