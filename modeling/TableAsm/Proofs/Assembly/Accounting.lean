import TableAsm.Proofs.Labels.Carrying
import TableAsm.Proofs.Language.Performing

/-! What payloads hold and what actions take. A line and the instructions of a block have been
numbered; everything else an action can take has not. -/
namespace TableAsm

/-- How many numbered instructions a payload holds. -/
def Payload.weight : Payload → Nat
  | .line _ _ => 1
  | .block is => is.length
  | _ => 0

namespace Tree

variable {t : Tree} {id c d : NodeId} {symbol : String} {n : Nat}

/-- The `n`th child of a node with a symbol, counted from zero. -/
def child? (t : Tree) (id : NodeId) (symbol : String) (n : Nat) : Option NodeId :=
  ((t.children id).filter (t.symbol · == symbol))[n]?

theorem child?_mem (found : t.child? id symbol n = some c) :
    c ∈ t.children id ∧ t.symbol c = symbol := by
  have mem := List.mem_filter.mp (List.mem_of_getElem? found)
  exact ⟨mem.1, eq_of_beq mem.2⟩

/-- Of two children with a symbol the one counted first stands first. -/
theorem child?_order (first : t.child? id symbol 0 = some c) (second : t.child? id symbol 1 = some d) :
    ∃ before between after, t.children id = before ++ c :: (between ++ d :: after) := by
  unfold child? at first second
  generalize t.children id = ids at first second
  induction ids with
  | nil => cases first
  | cons x ids ih =>
    rw [List.filter_cons] at first second
    by_cases hit : (t.symbol x == symbol) = true
    · rw [if_pos hit] at first second
      obtain rfl := Option.some.inj first
      have mem := (List.mem_filter.mp (List.mem_of_getElem? second)).1
      obtain ⟨between, after, rfl⟩ := List.append_of_mem mem
      exact ⟨[], between, after, rfl⟩
    · rw [if_neg hit] at first second
      obtain ⟨before, between, after, rfl⟩ := ih first second
      exact ⟨x :: before, between, after, rfl⟩

end Tree

namespace Assembler

variable {s s' s'' : Assembler} {nodes more : List NodeId} {c id x : NodeId} {p : Payload}

/-- How many numbered instructions the payloads of some nodes hold. -/
def weight (s : Assembler) (nodes : List NodeId) : Nat :=
  (nodes.map fun x => (s.payload x).weight).sum

@[simp] theorem weight_nil (s : Assembler) : s.weight [] = 0 := rfl

@[simp] theorem weight_cons (s : Assembler) (x : NodeId) (nodes : List NodeId) :
    s.weight (x :: nodes) = (s.payload x).weight + s.weight nodes := rfl

@[simp] theorem weight_append (s : Assembler) (nodes more : List NodeId) :
    s.weight (nodes ++ more) = s.weight nodes + s.weight more := by
  simp [weight]

theorem weight_congr (same : ∀ x ∈ nodes, (s'.payload x).weight = (s.payload x).weight) :
    s'.weight nodes = s.weight nodes :=
  congrArg List.sum (List.map_congr_left same)

theorem payload_hold_blank (c x : NodeId) (s : Assembler) :
    (s.hold c .blank).payload x = if x = c then .blank else s.payload x := by
  split
  · rename_i same
    subst same
    rw [payload, hold, Array.getElem?_modify, if_pos rfl]
    cases s.payloads[x]? <;> rfl
  · rename_i ne
    exact payload_hold_of_ne s .blank ne

theorem payload_of_hold_blank (held : (s.hold c .blank).payload x = p) (ne : p ≠ .blank) :
    x ≠ c ∧ s.payload x = p := by
  rw [payload_hold_blank] at held
  split at held
  · exact absurd held.symm ne
  · rename_i other
    exact ⟨other, held⟩

/-- Taking a payload takes its weight. -/
theorem weight_hold_blank (nodup : nodes.Nodup) (mem : c ∈ nodes) :
    (s.hold c .blank).weight nodes + (s.payload c).weight = s.weight nodes := by
  induction nodes with
  | nil => cases mem
  | cons x nodes ih =>
    obtain ⟨absent, nodup⟩ := List.nodup_cons.mp nodup
    rw [weight_cons, weight_cons, payload_hold_blank]
    rcases List.mem_cons.mp mem with rfl | mem
    · have others : (s.hold c .blank).weight nodes = s.weight nodes :=
        weight_congr fun y inside => by
          have other : y ≠ c := fun same => absent (same ▸ inside)
          rw [payload_hold_blank, if_neg other]
      rw [if_pos rfl, others]
      show 0 + _ + _ = _
      omega
    · have other : x ≠ c := fun same => absent (same ▸ mem)
      have tail := ih nodup mem
      rw [if_neg other]
      omega

theorem weight_hold_of_not_mem (absent : c ∉ nodes) : (s.hold c p).weight nodes = s.weight nodes :=
  weight_congr fun x mem => by
    rw [payload_hold_of_ne s p fun same : x = c => absent (same ▸ mem)]

/-- From one assembler to another names may have become known, and payloads without weight may
have been taken from some nodes. -/
structure Sheds (nodes : List NodeId) (s s' : Assembler) : Prop where
  grows : s.labels.Grows s'.labels
  keeps : Keeps nodes s s'
  weights : ∀ x, (s'.payload x).weight = (s.payload x).weight

namespace Sheds

theorem refl (nodes : List NodeId) (sound : s.labels.Sound) : Sheds nodes s s :=
  ⟨.refl sound, .refl nodes s, fun _ => rfl⟩

theorem trans (first : Sheds nodes s s') (second : Sheds nodes s' s'') : Sheds nodes s s'' :=
  ⟨first.grows.trans second.grows, first.keeps.trans second.keeps, fun x =>
    (second.weights x).trans (first.weights x)⟩

theorem take (sound : s.labels.Sound) (mem : c ∈ nodes) (light : (s.payload c).weight = 0) :
    Sheds nodes s (s.hold c .blank) := by
  refine ⟨.refl sound, .hold mem s .blank, fun x => ?_⟩
  rw [payload_hold_blank]
  split
  · rename_i same
    rw [same, light]
    rfl
  · rfl

theorem sound (h : Sheds nodes s s') : s'.labels.Sound := h.grows.sound

theorem weight (h : Sheds nodes s s') (more : List NodeId) : s'.weight more = s.weight more :=
  weight_congr fun x _ => h.weights x

end Sheds

end Assembler

namespace Action

open Assembler

variable {t : Tree} {id c : NodeId} {s s' : Assembler} {p q : Payload}

section Taking

variable {symbol : String} {n : Nat}

theorem run_child_eq_ok : (child t id symbol n).run s = (.ok c, s') ↔
    t.child? id symbol n = some c ∧ s' = s := by
  rw [child, ← Tree.child?]
  cases t.child? id symbol n with
  | none =>
    constructor
    · rintro ⟨⟩
    · rintro ⟨⟨⟩, _⟩
  | some d =>
    constructor
    · rintro ⟨⟩
      exact ⟨rfl, rfl⟩
    · rintro ⟨⟨⟩, rfl⟩
      rfl

theorem run_takeFrom_eq_ok : (takeFrom c).run s = (.ok p, s') ↔
    p = s.payload c ∧ s' = s.hold c .blank := by
  rw [run_takeFrom]
  constructor
  · rintro ⟨⟩
    exact ⟨rfl, rfl⟩
  · rintro ⟨rfl, rfl⟩
    rfl

theorem run_take_eq_ok : (take t id symbol n).run s = (.ok p, s') ↔
    ∃ c, t.child? id symbol n = some c ∧ p = s.payload c ∧ s' = s.hold c .blank := by
  rw [take, run_bind_eq_ok]
  constructor
  · rintro ⟨c, m, located, taken⟩
    obtain ⟨found, rfl⟩ := run_child_eq_ok.mp located
    exact ⟨c, found, run_takeFrom_eq_ok.mp taken⟩
  · rintro ⟨c, found, taken⟩
    exact ⟨c, s, run_child_eq_ok.mpr ⟨found, rfl⟩, run_takeFrom_eq_ok.mpr taken⟩

theorem run_onLabels_eq_ok {α : Type} {f : Labels → Labels × Except LabelError α} {a : α} :
    (onLabels f).run s = (.ok a, s') ↔
      ∃ l, f s.labels = (l, .ok a) ∧ s' = { s with labels := l } := by
  rw [run_onLabels]
  rcases f s.labels with ⟨l, r⟩
  constructor
  · intro run
    cases r with
    | error e => cases run
    | ok b =>
      cases run
      exact ⟨l, rfl, rfl⟩
  · rintro ⟨_, ⟨⟩, rfl⟩
    rfl

theorem eq_of_asWord {w : String × Int} (run : (asWord p).run s = (.ok w, s')) :
    p = .word w.1 w.2 ∧ s' = s := by
  cases p with
  | word text n =>
    obtain ⟨rfl, rfl⟩ := run_pure_eq_ok.mp run
    exact ⟨rfl, rfl⟩
  | _ => cases run

theorem eq_of_asValue {v : Value} (run : (asValue p).run s = (.ok v, s')) :
    p = .value v ∧ s' = s := by
  cases p with
  | value w =>
    obtain ⟨rfl, rfl⟩ := run_pure_eq_ok.mp run
    exact ⟨rfl, rfl⟩
  | _ => cases run

theorem eq_of_asOperands {vs : List Value} (run : (asOperands p).run s = (.ok vs, s')) :
    p = .operands vs ∧ s' = s := by
  cases p with
  | operands ws =>
    obtain ⟨rfl, rfl⟩ := run_pure_eq_ok.mp run
    exact ⟨rfl, rfl⟩
  | _ => cases run

theorem eq_of_asInstruction {i : Instruction} (run : (asInstruction p).run s = (.ok i, s')) :
    p = .instruction i ∧ s' = s := by
  cases p with
  | instruction j =>
    obtain ⟨rfl, rfl⟩ := run_pure_eq_ok.mp run
    exact ⟨rfl, rfl⟩
  | _ => cases run

theorem eq_of_asLine {l : Instruction × Int} (run : (asLine p).run s = (.ok l, s')) :
    p = .line l.1 l.2 ∧ s' = s := by
  cases p with
  | line i number =>
    obtain ⟨rfl, rfl⟩ := run_pure_eq_ok.mp run
    exact ⟨rfl, rfl⟩
  | _ => cases run

theorem eq_of_asModifier {m : Modifier} (run : (asModifier p).run s = (.ok m, s')) :
    p = .modifier m ∧ s' = s := by
  cases p with
  | modifier n =>
    obtain ⟨rfl, rfl⟩ := run_pure_eq_ok.mp run
    exact ⟨rfl, rfl⟩
  | _ => cases run

theorem eq_of_asBlock {is : List Instruction} (run : (asBlock p).run s = (.ok is, s')) :
    p = .block is ∧ s' = s := by
  cases p with
  | block js =>
    obtain ⟨rfl, rfl⟩ := run_pure_eq_ok.mp run
    exact ⟨rfl, rfl⟩
  | _ => cases run

end Taking

section Light

/-- Operands are taken from children that hold nothing numbered. -/
theorem sheds_of_operands (sound : s.labels.Sound)
    (run : (operands t id).run s = (.ok p, s')) :
    Sheds (t.children id) s s' ∧ p.weight = 0 := by
  unfold operands at run
  split at run
  · obtain ⟨_, s₁, taken, run⟩ := run_bind_eq_ok.mp run
    obtain ⟨v, s₂, valued, run⟩ := run_bind_eq_ok.mp run
    obtain ⟨_, s₃, rest, run⟩ := run_bind_eq_ok.mp run
    obtain ⟨vs, s₄, others, run⟩ := run_bind_eq_ok.mp run
    obtain ⟨rfl, rfl⟩ := run_pure_eq_ok.mp run
    obtain ⟨c, found, rfl, rfl⟩ := run_take_eq_ok.mp taken
    obtain ⟨held, rfl⟩ := eq_of_asValue valued
    obtain ⟨d, found', rfl, rfl⟩ := run_take_eq_ok.mp rest
    obtain ⟨held', rfl⟩ := eq_of_asOperands others
    have first : Sheds (t.children id) s (s.hold c .blank) :=
      .take sound (Tree.child?_mem found).1 (by rw [held]; rfl)
    exact ⟨first.trans (.take first.sound (Tree.child?_mem found').1 (by rw [held']; rfl)), rfl⟩
  · obtain ⟨rfl, rfl⟩ := run_pure_eq_ok.mp run
    exact ⟨.refl _ sound, rfl⟩

theorem sheds_of_instruction (sound : s.labels.Sound)
    (run : (instruction t id).run s = (.ok p, s')) :
    Sheds (t.children id) s s' ∧ ∃ c name n vs, t.child? id "IDENTIFIER" 0 = some c ∧
      s.payload c = .word name n ∧ p = .instruction (.bare name vs) := by
  obtain ⟨_, s₁, taken, run⟩ := run_bind_eq_ok.mp run
  obtain ⟨⟨name, n⟩, s₂, worded, run⟩ := run_bind_eq_ok.mp run
  obtain ⟨_, s₃, rest, run⟩ := run_bind_eq_ok.mp run
  obtain ⟨vs, s₄, others, run⟩ := run_bind_eq_ok.mp run
  obtain ⟨rfl, rfl⟩ := run_pure_eq_ok.mp run
  obtain ⟨c, found, rfl, rfl⟩ := run_take_eq_ok.mp taken
  obtain ⟨held, rfl⟩ := eq_of_asWord worded
  obtain ⟨d, found', rfl, rfl⟩ := run_take_eq_ok.mp rest
  obtain ⟨held', rfl⟩ := eq_of_asOperands others
  have first : Sheds (t.children id) s (s.hold c .blank) :=
    .take sound (Tree.child?_mem found).1 (by rw [held]; rfl)
  exact ⟨first.trans (.take first.sound (Tree.child?_mem found').1 (by rw [held']; rfl)),
    c, name, n, vs, found, held, rfl⟩

theorem sheds_of_modifier (sound : s.labels.Sound)
    (run : (modifier t id).run s = (.ok p, s')) :
    Sheds (t.children id) s s' ∧ p.weight = 0 := by
  obtain ⟨_, s₁, taken, run⟩ := run_bind_eq_ok.mp run
  obtain ⟨⟨name, n⟩, s₂, worded, run⟩ := run_bind_eq_ok.mp run
  obtain ⟨c, found, rfl, rfl⟩ := run_take_eq_ok.mp taken
  obtain ⟨held, rfl⟩ := eq_of_asWord worded
  have first : Sheds (t.children id) s (s.hold c .blank) :=
    .take sound (Tree.child?_mem found).1 (by rw [held]; rfl)
  simp only at run
  split at run
  · obtain ⟨_, s₃, taken, run⟩ := run_bind_eq_ok.mp run
    obtain ⟨v, s₄, valued, run⟩ := run_bind_eq_ok.mp run
    obtain ⟨rfl, rfl⟩ := run_pure_eq_ok.mp run
    obtain ⟨d, found', rfl, rfl⟩ := run_take_eq_ok.mp taken
    obtain ⟨held', rfl⟩ := eq_of_asValue valued
    exact ⟨first.trans (.take first.sound (Tree.child?_mem found').1 (by rw [held']; rfl)), rfl⟩
  · split at run
    · obtain ⟨rfl, rfl⟩ := run_pure_eq_ok.mp run
      exact ⟨first, rfl⟩
    · cases run

theorem sheds_of_anyValue (sound : s.labels.Sound)
    (run : (anyValue t id).run s = (.ok p, s')) :
    Sheds (t.children id) s s' ∧ p.weight = 0 := by
  unfold anyValue at run
  split at run
  · cases run
  · rename_i c first
    have mem : c ∈ t.children id := List.mem_of_mem_head? first
    obtain ⟨q, s₁, taken, run⟩ := run_bind_eq_ok.mp run
    obtain ⟨rfl, rfl⟩ := run_takeFrom_eq_ok.mp taken
    split at run
    · rename_i held
      obtain ⟨rfl, rfl⟩ := run_pure_eq_ok.mp run
      exact ⟨.take sound mem (by rw [held]; rfl), rfl⟩
    · obtain ⟨v, s₂, valued, run⟩ := run_bind_eq_ok.mp run
      obtain ⟨rfl, rfl⟩ := run_pure_eq_ok.mp run
      obtain ⟨held, rfl⟩ := eq_of_asValue valued
      exact ⟨.take sound mem (by rw [held]; rfl), rfl⟩

theorem sheds_of_word (nodes : List NodeId) (sound : s.labels.Sound) {name : String} {position : Option Position}
    (run : (word name position).run s = (.ok p, s')) :
    Sheds nodes s s' ∧ ∃ n, p = .word name n := by
  obtain ⟨n, s₁, referred, run⟩ := run_bind_eq_ok.mp run
  obtain ⟨rfl, rfl⟩ := run_pure_eq_ok.mp run
  obtain ⟨l, step, rfl⟩ := run_onLabels_eq_ok.mp referred
  exact ⟨⟨(Labels.reference_grows sound step).1, .relabel _ _ _, fun _ => rfl⟩, n, rfl⟩

theorem sheds_of_literal (nodes : List NodeId) (sound : s.labels.Sound) {α : Type} {make : α → Value}
    {read : Option α} {fault : LiteralFault} {raw : String} {position : Option Position}
    (run : (literal make read fault raw position).run s = (.ok p, s')) :
    Sheds nodes s s' ∧ ∃ a, read = some a ∧ p = .value (make a) := by
  cases read with
  | none => cases run
  | some a =>
    obtain ⟨rfl, rfl⟩ := run_pure_eq_ok.mp run
    exact ⟨.refl _ sound, a, rfl, rfl⟩

end Light

end Action

end TableAsm
