import TableAsm.Proofs.Labels.Resolving
import TableAsm.Proofs.Language.Targets

/-! Instructions laid out as the copies of an unrolled block. Until the labels around a block are
known, a value is a literal, a distance within the block, or the placeholder of a name that no
label of the block can settle. Joining and repeating blocks keep this; resolving ends it. -/
namespace TableAsm.Language

open Labels

variable {l l' : Labels} {C D : List Copy} {B E : List Instruction} {trail : List Pass}
  {name : String} {i r loop times : Nat} {t : Token} {v : Value}

section Instructions

variable {s : Statement} {x y : Instruction} {R Q : Token → Value → Prop} {S : Value → Value → Prop}

theorem forall₂_chain {ts : List Token} {vs ws : List Value} (first : List.Forall₂ R ts vs)
    (second : List.Forall₂ S vs ws) (step : ∀ t v w, R t v → S v w → Q t w) :
    List.Forall₂ Q ts ws := by
  induction first generalizing ws with
  | nil =>
    cases second
    exact .nil
  | cons head _ ih =>
    cases second with
    | cons head' rest' => exact .cons (step _ _ _ head head') (ih rest')

theorem rel_chain {a : Option Token} {b c : Option Value} (first : Option.Rel R a b)
    (second : Option.Rel S b c) (step : ∀ t v w, R t v → S v w → Q t w) : Option.Rel Q a c := by
  cases first with
  | none =>
    cases second
    exact .none
  | some head =>
    cases second with
    | some head' => exact .some (step _ _ _ head head')

/-- What is true of the values of an instruction goes on to the values of another one. -/
theorem Statement.Makes.trans (h : s.Makes R x) (same : y.name = x.name)
    (marks : y.annotations = x.annotations) (operands : List.Forall₂ S x.operands y.operands)
    (properties : ∀ key, Option.Rel S (x.property? key) (y.property? key))
    (step : ∀ t v w, R t v → S v w → Q t w) : s.Makes Q y :=
  ⟨same.trans h.name, forall₂_chain h.operands operands step, marks ▸ h.annotations,
    fun key => rel_chain (h.properties key) (properties key) step⟩

theorem Statement.Makes.imp (h : s.Makes R x) (step : ∀ t v, R t v → Q t v) : s.Makes Q x :=
  ⟨h.name, h.operands.imp step, h.annotations, fun key =>
    match s.property? key, x.property? key, h.properties key with
    | _, _, .none => .none
    | _, _, .some head => .some (step _ _ head)⟩

theorem property?_mapValues (f : Value → Value) (x : Instruction) (key : String) :
    (x.mapValues f).property? key = (x.property? key).map f := by
  show (x.properties.toList.map fun b => (b.1, f b.2)).lookup key = _
  rw [Instruction.property?, NameMap.get?]
  induction x.properties.toList with
  | nil => rfl
  | cons b bs ih =>
    rw [List.map_cons, List.lookup_cons, List.lookup_cons, ih]
    cases key == b.1 <;> rfl

theorem Statement.Makes.mapValues {f : Value → Value} (h : s.Makes R x)
    (step : ∀ t v, R t v → Q t (f v)) : s.Makes Q (x.mapValues f) := by
  refine h.trans (S := fun v w => w = f v) rfl rfl ?_ (fun key => ?_) ?_
  · show List.Forall₂ _ x.operands (x.operands.map f)
    rw [List.forall₂_map_right_iff]
    exact List.forall₂_same.mpr fun _ _ => rfl
  · rw [property?_mapValues]
    cases x.property? key with
    | none => exact .none
    | some v => exact .some rfl
  · rintro t v _ known rfl
    exact step t v known

theorem mem_values_iff : v ∈ x.values ↔ v ∈ x.operands ∨ ∃ key, x.property? key = some v := by
  rw [Instruction.values, List.mem_append, NameMap.values, List.mem_map]
  refine or_congr_right ⟨?_, ?_⟩
  · rintro ⟨⟨key, w⟩, mem, rfl⟩
    exact ⟨key, (NameMap.mem_toList_iff _ _ _).mp mem⟩
  · rintro ⟨key, found⟩
    exact ⟨(key, v), (NameMap.mem_toList_iff _ _ _).mpr found, rfl⟩

theorem Statement.mem_written_of_property? {key : String} (found : s.property? key = some t) :
    t ∈ s.written := by
  obtain ⟨m, mem, given⟩ := List.exists_of_findSome?_eq_some found
  refine List.mem_append_right _ (List.mem_filterMap.mpr ⟨m, mem, ?_⟩)
  cases m with
  | property k v =>
    rw [Mark.property?] at given
    split at given
    · exact given
    · cases given
  | label l => cases given
  | annotation n => cases given

/-- Every value of an instruction is that of a token which its statement writes. -/
theorem Statement.Makes.exists_written (h : s.Makes R x) (mem : v ∈ x.values) :
    ∃ t ∈ s.written, R t v := by
  rcases mem_values_iff.mp mem with operand | ⟨key, found⟩
  · obtain ⟨i, place⟩ := List.mem_iff_getElem?.mp operand
    obtain ⟨short, rfl⟩ := List.getElem?_eq_some_iff.mp place
    have written : i < s.operands.length := h.operands.length_eq ▸ short
    exact ⟨s.operands[i], List.mem_append_left _ (List.getElem_mem written),
      h.operands.get written short⟩
  · have related := h.properties key
    rw [found] at related
    cases given : s.property? key with
    | none =>
      rw [given] at related
      cases related
    | some t =>
      rw [given] at related
      cases related with
      | some holds => exact ⟨t, mem_written_of_property? given, holds⟩

end Instructions

/-- Literals are no placeholders. -/
theorem Reads.int_gt {n : Int} (h : Reads t (.int n)) : -(unit : Int) < n := by
  have pos := unit_pos
  cases h with
  | integer _ => omega

theorem Reads.resolveValue_eq (h : Reads t v) (l : Labels) (index : Nat) :
    l.resolveValue index v = .ok v := by
  cases v with
  | int n => exact resolveValue_of_lt h.int_gt index
  | _ => rfl

/-- No label of some copies that has the name shares a repeat with a trail. -/
def Apart (C : List Copy) (trail : List Pass) (name : String) : Prop :=
  ∀ c ∈ C, name ∈ c.statement.labels → ∀ p ∈ trail, ∀ q ∈ c.trail, p.loop ≠ q.loop

/-- What a token at place `i` of some copies has become so far. -/
inductive Pending (l : Labels) (C : List Copy) (trail : List Pass) (i : Nat) :
    Token → Value → Prop where
  | literal {t : Token} {v : Value} : Reads t v → Pending l C trail i t v
  | settled {t : Token} {j : Nat} : t.kind = "IDENTIFIER" → IsTarget C trail t.lexeme j →
      Pending l C trail i t (.int (j - i))
  | waiting {t : Token} {n : Int} : t.kind = "IDENTIFIER" → l.placeholder? t.lexeme = some n →
      Apart C trail t.lexeme → Pending l C trail i t (.int n)

/-- Instructions are laid out as copies of statements. -/
structure Laid (l : Labels) (C : List Copy) (B : List Instruction) : Prop where
  length : B.length = C.length
  each : ∀ (i : Nat) (c : Copy) (x : Instruction), C[i]? = some c → B[i]? = some x →
    c.statement.Makes (Pending l C c.trail i) x

theorem laid_nil (l : Labels) : Laid l [] [] := ⟨rfl, fun i c x found => by cases found⟩

section Moving

/-- A distance stays the same when both of its ends move. -/
theorem Pending.settled_shift {j : Nat} (shift : Nat) (kind : t.kind = "IDENTIFIER")
    (target : IsTarget C trail t.lexeme (shift + j)) :
    Pending l C trail (shift + i) t (.int (j - i)) := by
  have same : (j : Int) - i = (shift + j : Nat) - (shift + i : Nat) := by omega
  rw [same]
  exact .settled kind target

/-- Copies can be moved along, and have others around them, if those are apart. -/
theorem Pending.move {trail' : List Pass} (h : Pending l C trail i t v) (shift : Nat)
    (kept : l.Extends l')
    (targets : ∀ j, IsTarget C trail t.lexeme j → IsTarget D trail' t.lexeme (shift + j))
    (apart : Apart C trail t.lexeme → Apart D trail' t.lexeme) :
    Pending l' D trail' (shift + i) t v := by
  cases h with
  | literal reads => exact .literal reads
  | @settled j kind target => exact .settled_shift shift kind (targets j target)
  | waiting kind known closed => exact .waiting kind (kept.placeholder? known) (apart closed)

theorem Laid.extend (h : Laid l C B) (kept : l.Extends l') : Laid l' C B := by
  refine ⟨h.length, fun i c x found at_i => (h.each i c x found at_i).imp fun t v pending => ?_⟩
  have moved := pending.move 0 kept
    (fun j target => (Nat.zero_add j).symm ▸ target) id
  rwa [Nat.zero_add] at moved

/-- Blocks with different repeats can be joined. -/
theorem Laid.append (first : Laid l C B) (second : Laid l D E)
    (apart : ∀ c ∈ C, ∀ d ∈ D, ∀ p ∈ c.trail, ∀ q ∈ d.trail, p.loop ≠ q.loop) :
    Laid l (C ++ D) (B ++ E) := by
  refine ⟨by rw [List.length_append, List.length_append, first.length, second.length],
    fun i c x found at_i => ?_⟩
  by_cases short : i < C.length
  · rw [List.getElem?_append_left short] at found
    rw [List.getElem?_append_left (first.length.symm ▸ short)] at at_i
    refine (first.each i c x found at_i).imp fun t v pending => ?_
    have moved := pending.move (D := C ++ D) 0 (.refl l)
      (fun j target => (Nat.zero_add j).symm ▸ target.append_left D)
      (fun closed d mem label p pass => ?_)
    · rwa [Nat.zero_add] at moved
    · rcases List.mem_append.mp mem with mem | mem
      · exact closed d mem label p pass
      · exact apart c (List.mem_of_getElem? found) d mem p pass
  · have long : C.length ≤ i := Nat.le_of_not_lt short
    rw [List.getElem?_append_right long] at found
    rw [List.getElem?_append_right (first.length.symm ▸ long), first.length] at at_i
    refine (second.each _ c x found at_i).imp fun t v pending => ?_
    have moved := pending.move (D := C ++ D) C.length (.refl l)
      (fun j target => target.append_right C) (fun closed d mem label p pass q pass' => ?_)
    · rwa [Nat.add_sub_cancel' long] at moved
    · rcases List.mem_append.mp mem with mem | mem
      · exact (apart d mem c (List.mem_of_getElem? found) q pass' p pass).symm
      · exact closed d mem label p pass q pass'

end Moving

section Repeating

variable {names : List (List String)}

/-- Distances between instructions are small. -/
theorem distance_gt {length : Nat} (j : Nat) (place : i < length) (fits : length ≤ maxLength) :
    -(unit : Int) < (j : Int) - i := by
  have room : maxLength < unit := by decide
  omega

/-- A name that nothing has settled stands for the copy it is on. -/
theorem Apart.isTarget (closed : Apart C trail name) {j : Nat} {here : List String}
    (found : (C.map Copy.names)[j]? = some here) (mem : name ∈ here) :
    IsTarget C trail name j := by
  rw [List.getElem?_map] at found
  obtain ⟨there, at_j, rfl⟩ := Option.map_eq_some_iff.mp found
  obtain ⟨label, first⟩ := mem_names.mp mem
  exact ⟨there, at_j, label, fun q pass => Or.inr
    ⟨fun p pass' => closed there (List.mem_of_getElem? at_j) label p pass' q pass, first q pass⟩⟩

/-- Names without a labelled copy stay apart from any iterations. -/
theorem apart_rounds (named : ∀ c ∈ C, ∀ name ∈ c.statement.labels, ∃ c' ∈ C, name ∈ c'.names)
    (absent : ∀ here ∈ C.map Copy.names, name ∉ here) :
    Apart (rounds loop times C) trail name := by
  intro c mem label
  obtain ⟨r, _, inner, inside, rfl⟩ := mem_rounds.mp mem
  obtain ⟨c', mem', on⟩ := named inner inside name label
  exact absurd on (absent _ (List.mem_map_of_mem mem'))

/-- Unrolling settles the names that are labels of the block, within each iteration. -/
theorem Laid.rounds (h : Laid l C B) (carries : l.Carries (C.map Copy.names ++ names))
    (fits : C.length ≤ maxLength) (beyond : ∀ c ∈ C, ∀ q ∈ c.trail, loop < q.loop)
    (named : ∀ c ∈ C, ∀ name ∈ c.statement.labels, ∃ c' ∈ C, name ∈ c'.names) (times : Nat)
    (kept : l.Extends l') :
    Laid l' (rounds loop times C) (List.replicate times (l.resolveWithin B)).flatten := by
  have pieces : (List.replicate times (l.resolveWithin B)).flatten =
      (List.range times).flatMap fun _ => l.resolveWithin B := by
    rw [List.flatMap_def, List.map_const', List.length_range]
  have length : (l.resolveWithin B).length = C.length := (length_resolveWithin l B).trans h.length
  refine ⟨?_, fun k c x found at_k => ?_⟩
  · rw [pieces, length_pieces (fun _ => length), length_rounds]
  · obtain ⟨r, i, inner, round, place, rfl, at_i, rfl⟩ := exists_round found
    rw [pieces, getElem?_pieces (fun _ => length) round place, resolveWithin_eq_mapIdx,
      List.getElem?_mapIdx, h.length] at at_k
    obtain ⟨x', old, rfl⟩ := Option.map_eq_some_iff.mp at_k
    refine (h.each i inner x' at_i old).mapValues fun t v pending => ?_
    have settle : ∀ j : Nat, t.kind = "IDENTIFIER" → IsTarget C inner.trail t.lexeme j →
        Pending l' (Language.rounds loop times C) (inner.within ⟨loop, r⟩).trail
          (r * C.length + i) t (.int (j - i)) :=
      fun j kind target => .settled_shift _ kind (target.round round beyond)
    cases pending with
    | literal reads =>
      have unchanged : l.localValue C.length i v = v := by
        cases v with
        | int n => exact localValue_of_lt reads.int_gt _ _
        | _ => rfl
      rw [unchanged]
      exact .literal reads
    | @settled j kind target =>
      rw [localValue_of_lt (distance_gt j place fits)]
      exact settle j kind target
    | @waiting n kind known closed =>
      have block : (C.map Copy.names).length = C.length := List.length_map _
      by_cases labelled : ∃ (j : Nat) (here : List String),
          (C.map Copy.names)[j]? = some here ∧ t.lexeme ∈ here
      · obtain ⟨j, here, found', mem⟩ := labelled
        have value := carries.localValue_of_mem known found' mem i
        rw [block] at value
        rw [value]
        exact settle j kind (closed.isTarget found' mem)
      · have absent : ∀ here ∈ C.map Copy.names, t.lexeme ∉ here := by
          intro here mem on
          obtain ⟨j, found'⟩ := List.mem_iff_getElem?.mp mem
          exact labelled ⟨j, here, found', on⟩
        have value := carries.localValue_of_not_mem known absent i
        rw [block] at value
        rw [value]
        exact .waiting kind (kept.placeholder? known) (apart_rounds named absent)

end Repeating

section Resolving

/-- Resolving a program leaves distances to the only targets. -/
theorem Laid.resolved (h : Laid l C B) (carries : l.Carries (C.map Copy.names))
    (fits : C.length ≤ maxLength)
    (unique : ∀ c ∈ C, ∀ name j k, IsTarget C c.trail name j → IsTarget C c.trail name k → j = k)
    {p : Program} (done : l.resolve B = (p, none)) :
    p.length = C.length ∧ ∀ (i : Nat) (c : Copy) (x : Instruction), C[i]? = some c →
      p[i]? = some x → c.statement.Makes (Means C c.trail i) x := by
  obtain ⟨length, each⟩ := resolve_eq_ok done
  refine ⟨length.trans h.length, fun i c y found at_i => ?_⟩
  have place : i < C.length := (List.getElem?_eq_some_iff.mp found).1
  obtain ⟨x, old⟩ : ∃ x, B[i]? = some x := ⟨_, List.getElem?_eq_getElem (h.length ▸ place)⟩
  obtain ⟨y', at_i', step⟩ := each i x old
  obtain rfl := Option.some.inj (at_i'.symm.trans at_i)
  obtain ⟨name, marks, operands, properties⟩ := resolveInstruction_eq_ok step
  refine (h.each i c x found old).trans name marks operands properties fun t v w pending ok => ?_
  have word : ∀ j : Nat, t.kind = "IDENTIFIER" → IsTarget C c.trail t.lexeme j →
      Means C c.trail i t (.int (j - i)) := fun j kind target =>
    .word kind target fun k other => unique c (List.mem_of_getElem? found) _ k j other target
  cases pending with
  | literal reads =>
    obtain rfl := Except.ok.inj ((reads.resolveValue_eq l i).symm.trans ok)
    exact .literal reads
  | @settled j kind target =>
    obtain rfl := Except.ok.inj ((resolveValue_of_lt (distance_gt j place fits) i).symm.trans ok)
    exact word j kind target
  | waiting kind known closed =>
    obtain ⟨j, here, found', mem, rfl⟩ := carries.resolveValue_eq_ok known ok
    exact word j kind (closed.isTarget found' mem)

end Resolving

end TableAsm.Language
