import TableAsm.Proofs.Language.Laying
import TableAsm.Proofs.Language.Translation

/-! What the translation of a block comes to. Statements are translated from the last one on, so
that the instructions made so far are those placed last, and carry the labels of their
statements. -/
namespace TableAsm.Language

open Labels Translation

variable {l l' : Labels} {t : Token} {v : Value} {names : List (List String)}

/-- What a token becomes when it is read: a literal, or the placeholder of a name. -/
inductive Fresh (l : Labels) : Token → Value → Prop where
  | literal {t : Token} {v : Value} : Reads t v → Fresh l t v
  | word {t : Token} {n : Int} : t.kind = "IDENTIFIER" → l.placeholder? t.lexeme = some n →
      Fresh l t (.int n)

theorem Fresh.extend (kept : l.Extends l') (h : Fresh l t v) : Fresh l' t v := by
  cases h with
  | literal reads => exact .literal reads
  | word kind known => exact .word kind (kept.placeholder? known)

/-- Outside of all repeats nothing shares a repeat. -/
theorem Fresh.pending (h : Fresh l t v) (C : List Copy) (i : Nat) : Pending l C [] i t v := by
  cases h with
  | literal reads => exact .literal reads
  | word kind known =>
    refine .waiting kind known fun c _ _ p pass => ?_
    cases pass

section Values

/-- Integer literals are made of digits, and labels end with a colon. -/
structure Lexed (tokens : List Token) : Prop where
  digits : ∀ t ∈ tokens, t.kind = "I_LITERAL" → t.lexeme.toList.all Decimal.isDigit = true
  colon : ∀ t ∈ tokens, t.kind = "LABEL" → t.lexeme.toList.getLast? = some ':'

theorem Lexed.mono {ts us : List Token} (h : Lexed us) (sub : ∀ t ∈ ts, t ∈ us) : Lexed ts :=
  ⟨fun t mem => h.digits t (sub t mem), fun t mem => h.colon t (sub t mem)⟩

/-- A digit is no sign. -/
theorem takeSign_of_digit {c : Char} (digit : Decimal.isDigit c = true) (cs : List Char) :
    Decimal.takeSign (c :: cs) = (false, c :: cs) := by
  have minus : c ≠ '-' := by
    rintro rfl
    exact absurd digit (by decide)
  have plus : c ≠ '+' := by
    rintro rfl
    exact absurd digit (by decide)
  unfold Decimal.takeSign
  split
  · exact absurd (List.cons.inj ‹_›).1 minus
  · exact absurd (List.cons.inj ‹_›).1 plus
  · rfl

theorem readInt?_of_digits {cs : List Char} (digits : cs.all Decimal.isDigit = true)
    (some : cs ≠ []) : Decimal.readInt? cs = Option.some (Decimal.value cs : Int) := by
  cases cs with
  | nil => exact absurd rfl some
  | cons c cs =>
    have first := takeSign_of_digit ((Bool.and_eq_true _ _).mp (List.all_cons ▸ digits)).1 cs
    rw [Decimal.readInt?, first]
    simp only [Decimal.readNat?, List.isEmpty_cons, digits]
    rfl

/-- Digits spell a number without sign. -/
theorem integerOf?_of_digits {raw : String} {n : Int}
    (digits : raw.toList.all Decimal.isDigit = true) (read : Action.integerOf? raw = some n) :
    n = Decimal.value raw.toList := by
  obtain ⟨m, spelled, bounded⟩ := Option.bind_eq_some_iff.mp read
  have whole : raw.toList ≠ [] := by
    intro none
    rw [none] at spelled
    cases spelled
  rw [readInt?_of_digits digits whole] at spelled
  obtain rfl := Option.some.inj spelled
  split at bounded
  · exact (Option.some.inj bounded).symm
  · cases bounded

theorem stringOf?_eq_some {raw s : String} (read : Action.stringOf? raw = some s) :
    raw = "\"" ++ s ++ "\"" := by
  unfold Action.stringOf? at read
  split at read
  · rename_i rest chars
    split at read
    · rename_i last
      obtain rfl := Option.some.inj read
      have whole : rest = rest.dropLast ++ ['"'] := by
        obtain ⟨front, rfl⟩ := List.getLast?_eq_some_iff.mp last
        rw [List.dropLast_concat]
      apply String.toList_injective
      simp only [String.toList_append, String.toList_ofList, chars]
      exact congrArg (List.cons '"') whole
    · cases read
  · cases read

theorem run_literal_eq_ok {α : Type} {make : α → Value} {read : Option α} {fault : LiteralFault} :
    (literal make read fault t).run l = (.ok v, l') ↔
      l' = l ∧ ∃ a, read = some a ∧ v = make a := by
  cases read with
  | none =>
    constructor
    · rintro ⟨⟩
    · rintro ⟨_, a, ⟨⟩, _⟩
  | some a =>
    constructor
    · rintro ⟨⟩
      exact ⟨rfl, a, rfl, rfl⟩
    · rintro ⟨rfl, b, ⟨⟩, rfl⟩
      rfl

theorem reference_spec (sound : l.Sound) {name : String} {n : Int}
    (run : (reference name t).run l = (.ok n, l')) :
    l.Grows l' ∧ l'.placeholder? name = some n :=
  reference_grows sound (run_onLabels_eq_ok.mp run)

/-- Reading a token makes its name known, and is otherwise without effect. -/
theorem value_grows (sound : l.Sound) (run : (value t).run l = (.ok v, l')) : l.Grows l' := by
  unfold value at run
  split at run
  · obtain ⟨n, m, referred, made⟩ := run_bind_eq_ok.mp run
    obtain ⟨_, rfl⟩ := run_pure_eq_ok.mp made
    exact (reference_spec sound referred).1
  · split at run
    · obtain ⟨rfl, _⟩ := run_literal_eq_ok.mp run
      exact .refl sound
    · split at run <;> obtain ⟨rfl, _⟩ := run_literal_eq_ok.mp run <;> exact .refl sound

/-- A relation that holds between a token and its value when it is read, and from then on. -/
structure Records (Q : Labels → Token → Value → Prop) (tokens : List Token) : Prop where
  read : ∀ {l l' : Labels} {t : Token} {v : Value}, t ∈ tokens → t.kind ∈ valueKinds → l.Sound →
    (value t).run l = (.ok v, l') → Q l' t v
  kept : ∀ {l l' : Labels} {t : Token} {v : Value}, l.Extends l' → Q l t v → Q l' t v

theorem Records.mono {Q : Labels → Token → Value → Prop} {ts us : List Token} (h : Records Q us)
    (sub : ∀ t ∈ ts, t ∈ us) : Records Q ts :=
  ⟨fun mem => h.read (sub _ mem), h.kept⟩

theorem Fresh.records {tokens : List Token} (lexed : Lexed tokens) : Records Fresh tokens := by
  refine ⟨fun {l l' t v} mem kind sound run => ?_, Fresh.extend⟩
  unfold value at run
  split at run
  · rename_i word
    obtain ⟨n, m, referred, made⟩ := run_bind_eq_ok.mp run
    obtain ⟨rfl, rfl⟩ := run_pure_eq_ok.mp made
    exact .word word (reference_spec sound referred).2
  · rename_i notWord
    split at run
    · rename_i integer
      obtain ⟨rfl, n, read, rfl⟩ := run_literal_eq_ok.mp run
      have same := integerOf?_of_digits (lexed.digits t mem integer) read
      exact .literal (same ▸ .integer integer)
    · rename_i notInteger
      split at run
      · rename_i float
        obtain ⟨rfl, x, read, rfl⟩ := run_literal_eq_ok.mp run
        exact .literal (.float float read)
      · rename_i notFloat
        obtain ⟨rfl, s, read, rfl⟩ := run_literal_eq_ok.mp run
        have string : t.kind = "S_LITERAL" := by
          simpa [valueKinds, notWord, notInteger, notFloat] using kind
        exact .literal (.string string (stringOf?_eq_some read))

variable {Q : Labels → Token → Value → Prop}

theorem values_spec (sound : l.Sound) {ts : List Token} {vs : List Value}
    (kinds : ∀ t ∈ ts, t.kind ∈ valueKinds) (records : Records Q ts)
    (run : (values ts).run l = (.ok vs, l')) : l.Grows l' ∧ List.Forall₂ (Q l') ts vs := by
  induction ts generalizing vs l' with
  | nil =>
    obtain ⟨rfl, rfl⟩ := run_pure_eq_ok.mp run
    exact ⟨.refl sound, .nil⟩
  | cons t ts ih =>
    obtain ⟨ws, m, rest, run⟩ := run_bind_eq_ok.mp run
    obtain ⟨v, m', first, run⟩ := run_bind_eq_ok.mp run
    obtain ⟨rfl, rfl⟩ := run_pure_eq_ok.mp run
    obtain ⟨grows, told⟩ := ih (fun t mem => kinds t (List.mem_cons_of_mem _ mem))
      (records.mono fun t mem => List.mem_cons_of_mem _ mem) rest
    have grows' := value_grows grows.sound first
    have made := records.read List.mem_cons_self (kinds t List.mem_cons_self) grows.sound first
    exact ⟨grows.trans grows', .cons made (told.imp fun t v => records.kept grows'.kept)⟩

end Values

section Marks

variable {s : Statement} {m : Mark} {front : List Token} {i j : Instruction}
  {Q : Labels → Token → Value → Prop}

/-- The name that a mark gives to an instruction. -/
def Mark.carried? : Mark → Option String
  | .label l => some (Action.labelName l.lexeme)
  | _ => none

def Statement.carried (s : Statement) : List String := s.marks.filterMap Mark.carried?

theorem Statement.carried_cons (m : Mark) (s : Statement) :
    carried ⟨m :: s.marks, s.name, s.operands⟩ = m.carried?.toList ++ s.carried := by
  rw [carried, List.filterMap_cons]
  cases m.carried? <;> rfl

/-- A mark does to an instruction what it says, and puts its label on the instruction that was
placed last. -/
theorem Mark.Spells.apply_spec (h : m.Spells front) (records : Records Q front)
    (carries : l.Carries (s.carried :: names)) (made : s.Makes (Q l) i)
    (run : (m.apply i l.counter).run l = (.ok j, l')) :
    l'.Carries (Statement.carried ⟨m :: s.marks, s.name, s.operands⟩ :: names) ∧ l.Extends l' ∧
      l'.counter = l.counter ∧ Statement.Makes ⟨m :: s.marks, s.name, s.operands⟩ (Q l') j := by
  cases h with
  | @label t kind =>
    obtain ⟨_, m₁, referred, run⟩ := run_bind_eq_ok.mp run
    obtain ⟨_, m₂, defined, run⟩ := run_bind_eq_ok.mp run
    obtain ⟨rfl, rfl⟩ := run_pure_eq_ok.mp run
    obtain ⟨grows, _⟩ := reference_spec carries.sound referred
    have placed : l.counter = m₁.counter + (0 : Nat) := by
      rw [grows.counter]
      omega
    have step := run_onLabels_eq_ok.mp defined
    rw [placed] at step
    obtain ⟨carried, kept, counter, _⟩ := (carries.grows grows).define rfl step
    have moved := made.imp fun _ _ => records.kept (grows.kept.trans kept)
    exact ⟨carried, grows.kept.trans kept, counter.trans grows.counter, moved.name,
      moved.operands, moved.annotations, moved.properties⟩
  | annotation isAt isKey kind =>
    rename_i n
    obtain ⟨_, m₁, referred, run⟩ := run_bind_eq_ok.mp run
    obtain ⟨rfl, rfl⟩ := run_pure_eq_ok.mp run
    obtain ⟨grows, _⟩ := reference_spec carries.sound referred
    have moved := made.imp fun _ _ => records.kept grows.kept
    refine ⟨carries.grows grows, grows.kept, grows.counter, moved.name, moved.operands,
      fun a => ?_, moved.properties⟩
    show a ∈ i.annotations.insert n.lexeme ↔ a ∈ n.lexeme :: s.annotations
    rw [NameSet.mem_insert, moved.annotations, List.mem_cons]
  | @property _ _ k w _ _ _ kind =>
    obtain ⟨v, m₁, valued, run⟩ := run_bind_eq_ok.mp run
    obtain ⟨_, m₂, referred, run⟩ := run_bind_eq_ok.mp run
    obtain ⟨rfl, rfl⟩ := run_pure_eq_ok.mp run
    have grows := value_grows carries.sound valued
    have told := records.read (by simp) kind carries.sound valued
    obtain ⟨grows', _⟩ := reference_spec grows.sound referred
    have both := grows.trans grows'
    have moved := made.imp fun _ _ => records.kept both.kept
    refine ⟨carries.grows both, both.kept, both.counter, moved.name, moved.operands,
      moved.annotations, fun key => ?_⟩
    show Option.Rel _ _ ((i.properties.insert k.lexeme v).get? key)
    rw [NameMap.get?_insert, Statement.property?, List.findSome?_cons]
    by_cases same : key = k.lexeme
    · subst same
      simp only [Mark.property?, if_true]
      exact .some (records.kept grows'.kept told)
    · rw [if_neg same]
      simp only [Mark.property?, if_neg (Ne.symm same)]
      exact moved.properties key

/-- Marks are applied from right to left. -/
theorem Statement.Spells.applyMarks_spec {ts : List Token} (h : s.Spells ts)
    (records : Records Q ts) (carries : l.Carries ([] :: names)) {vs : List Value}
    (values : List.Forall₂ (Q l) s.operands vs)
    (run : (applyMarks s.marks (.bare s.name.lexeme vs) l.counter).run l = (.ok j, l')) :
    l'.Carries (s.carried :: names) ∧ l.Extends l' ∧ l'.counter = l.counter ∧
      s.Makes (Q l') j := by
  induction h generalizing j l' with
  | instruction _ _ =>
    obtain ⟨rfl, rfl⟩ := run_pure_eq_ok.mp run
    refine ⟨carries, .refl _, rfl, rfl, values, fun a => ?_, fun key => .none⟩
    exact ⟨fun mem => absurd mem (NameSet.not_mem_empty a), fun mem => absurd mem List.not_mem_nil⟩
  | @marked m marks name ops front ts mark behind ih =>
    obtain ⟨i, between, applied, run⟩ := run_bind_eq_ok.mp run
    obtain ⟨carried, kept, counter, made⟩ :=
      ih (records.mono fun t mem => List.mem_append_right _ mem) values applied
    rw [← counter] at run
    obtain ⟨carried', kept', counter', made'⟩ := mark.apply_spec
      (records.mono fun t mem => List.mem_append_left _ mem) carried made run
    exact ⟨carried', kept.trans kept', counter'.trans counter, made'⟩

theorem SpellsFurther.values_mem {vs ts : List Token} (h : SpellsFurther vs ts) :
    ∀ v ∈ vs, v.kind ∈ valueKinds ∧ v ∈ ts := by
  induction h with
  | none =>
    intro v mem
    cases mem
  | value _ kind _ ih =>
    intro v mem
    rcases List.mem_cons.mp mem with rfl | mem
    · exact ⟨kind, List.mem_cons_of_mem _ List.mem_cons_self⟩
    · exact ⟨(ih v mem).1, List.mem_cons_of_mem _ (List.mem_cons_of_mem _ (ih v mem).2)⟩

theorem SpellsValues.values_mem {vs ts : List Token} (h : SpellsValues vs ts) :
    ∀ v ∈ vs, v.kind ∈ valueKinds ∧ v ∈ ts := by
  cases h with
  | none =>
    intro v mem
    cases mem
  | value kind further =>
    intro v mem
    rcases List.mem_cons.mp mem with rfl | mem
    · exact ⟨kind, List.mem_cons_self⟩
    · have inside := further.values_mem v mem
      exact ⟨inside.1, List.mem_cons_of_mem _ inside.2⟩

theorem Statement.Spells.operands_mem {ts : List Token} (h : s.Spells ts) :
    ∀ v ∈ s.operands, v.kind ∈ valueKinds ∧ v ∈ ts := by
  induction h with
  | instruction _ values =>
    intro v mem
    have inside := values.values_mem v mem
    exact ⟨inside.1, List.mem_cons_of_mem _ inside.2⟩
  | marked _ _ ih =>
    intro v mem
    exact ⟨(ih v mem).1, List.mem_append_right _ (ih v mem).2⟩

/-- A statement makes its instruction, and its names are on it. -/
theorem Statement.Spells.translate_spec {ts : List Token} (h : s.Spells ts)
    (records : Records Q ts) (carries : l.Carries names) {number : Int}
    (run : s.translate.run l = (.ok (j, number), l')) :
    l'.Carries (s.carried :: names) ∧ l.Extends l' ∧ l'.Fits ∧ s.Makes (Q l') j := by
  obtain ⟨vs, m₁, valued, run⟩ := run_bind_eq_ok.mp run
  obtain ⟨_, m₂, referred, run⟩ := run_bind_eq_ok.mp run
  obtain ⟨n, m₃, placed, run⟩ := run_bind_eq_ok.mp run
  obtain ⟨i, m₄, applied, run⟩ := run_bind_eq_ok.mp run
  obtain ⟨same, rfl⟩ := run_pure_eq_ok.mp run
  obtain ⟨rfl, rfl⟩ := Prod.mk.inj same
  have inside := h.operands_mem
  obtain ⟨grows, told⟩ := values_spec carries.sound (fun t mem => (inside t mem).1)
    (records.mono fun t mem => (inside t mem).2) valued
  obtain ⟨grows', _⟩ := reference_spec grows.sound referred
  obtain ⟨carried, kept, fits, rfl⟩ :=
    (carries.grows (grows.trans grows')).place (run_onLabels_eq_ok.mp placed)
  obtain ⟨carried', kept', counter, made⟩ := h.applyMarks_spec records carried
    (told.imp fun _ _ => records.kept (grows'.kept.trans kept)) applied
  refine ⟨carried', ((grows.trans grows').kept.trans kept).trans kept', ?_, made⟩
  unfold Fits
  rw [counter]
  exact fits

theorem Mark.Spells.carried?_eq (h : m.Spells front) (lexed : Lexed front) :
    m.carried? = m.label? := by
  cases h with
  | label kind => exact congrArg some (if_pos (lexed.colon _ List.mem_cons_self kind))
  | annotation _ _ _ => rfl
  | property _ _ _ _ => rfl

/-- The names of a statement are its labels where those end with a colon. -/
theorem Statement.Spells.carried_eq {ts : List Token} (h : s.Spells ts) (lexed : Lexed ts) :
    s.carried = s.labels := by
  induction h with
  | instruction _ _ => rfl
  | marked mark _ ih =>
    have first := mark.carried?_eq (lexed.mono fun t mem => List.mem_append_left _ mem)
    have behind := ih (lexed.mono fun t mem => List.mem_append_right _ mem)
    rw [carried, labels] at behind ⊢
    rw [List.filterMap_cons, List.filterMap_cons, first, behind]

end Marks

section Blocks

theorem Fresh.laid {s : Statement} {x : Instruction} (made : s.Makes (Fresh l) x) :
    Laid l [⟨s, []⟩] [x] := by
  refine ⟨rfl, fun i c y found at_i => ?_⟩
  obtain rfl := List.mem_singleton.mp (List.mem_of_getElem? found)
  obtain rfl := List.mem_singleton.mp (List.mem_of_getElem? at_i)
  exact made.imp fun t v fresh => fresh.pending _ i

/-- The count of a repeat is the number that its literal spells, and reading it has no effect. -/
theorem run_count_eq_ok (kind : t.kind = "I_LITERAL") {times : Nat} :
    (do repeatCount t (← value t)).run l = (.ok times, l') ↔
      l' = l ∧ ∃ n : Int, Action.integerOf? t.lexeme = some n ∧ 0 ≤ n ∧ times = n.toNat := by
  have notWord : t.kind ≠ "IDENTIFIER" := by rw [kind]; decide
  have integer : value t = literal .int (Action.integerOf? t.lexeme) .integerOutOfRange t := by
    rw [value, if_neg notWord, if_pos kind]
  rw [run_bind_eq_ok, integer]
  constructor
  · rintro ⟨v, m, valued, counted⟩
    obtain ⟨rfl, n, read, rfl⟩ := run_literal_eq_ok.mp valued
    rw [repeatCount] at counted
    split at counted
    · rename_i nonneg
      obtain ⟨rfl, rfl⟩ := run_pure_eq_ok.mp counted
      exact ⟨rfl, n, read, nonneg, rfl⟩
    · cases counted
  · rintro ⟨rfl, n, read, nonneg, rfl⟩
    refine ⟨.int n, l', run_literal_eq_ok.mpr ⟨rfl, n, read, rfl⟩, ?_⟩
    rw [repeatCount, if_pos nonneg]
    rfl

theorem count_spec (kind : t.kind = "I_LITERAL") (lexed : Lexed [t]) {times : Nat}
    (run : (do repeatCount t (← value t)).run l = (.ok times, l')) :
    l' = l ∧ times = timesOf t := by
  obtain ⟨rfl, n, read, _, rfl⟩ := (run_count_eq_ok kind).mp run
  obtain rfl := integerOf?_of_digits (lexed.digits t List.mem_cons_self kind) read
  exact ⟨rfl, rfl⟩

/-- The iterations of a repeat have no repeat in common with what stands behind. -/
theorem rounds_apart {count : Token} {body rest : Block} {before : Nat} :
    ∀ c ∈ rounds before (timesOf count) (body.copies (before + 1)),
      ∀ d ∈ rest.copies (before + 1 + body.loops), ∀ p ∈ c.trail, ∀ q ∈ d.trail,
        p.loop ≠ q.loop := by
  intro c mem d mem' p pass q pass'
  have inside : c ∈ (Block.loop count body .done).copies before := List.mem_append_left _ mem
  have below := (loop_bounds inside pass).2
  have above := (loop_bounds mem' pass').1
  simp only [Block.loops] at below
  omega

/-- A block makes its unrolling, with the labels on the copies that have them. -/
theorem Block.Spells.translate_spec {b : Block} {ts : List Token} (h : b.Spells ts)
    (lexed : Lexed ts) (before : Nat) (carries : l.Carries names) (fits : l.Fits)
    {is : List Instruction} (run : b.translate.run l = (.ok is, l')) :
    l'.Carries ((b.copies before).map Copy.names ++ names) ∧ l.Extends l' ∧ l'.Fits ∧
      Laid l' (b.copies before) is := by
  induction h generalizing before l l' names is with
  | done =>
    obtain ⟨rfl, rfl⟩ := run_pure_eq_ok.mp run
    exact ⟨carries, .refl _, fits, laid_nil _⟩
  | @statement s stop rest front ts line _ _ ih =>
    obtain ⟨tail, m, i, number, last, first, rfl⟩ := Block.translate_statement_eq_ok run
    obtain ⟨carried, kept, _, laid⟩ :=
      ih (lexed.mono fun t mem => by simp [mem]) before carries fits last
    have own : Lexed front := lexed.mono fun t mem => by simp [mem]
    obtain ⟨carried', kept', fits', made⟩ := line.translate_spec (Fresh.records own) carried first
    rw [line.carried_eq own] at carried'
    refine ⟨?_, kept.trans kept', fits', ?_⟩
    · have named : Copy.names ⟨s, []⟩ = s.labels := by simp [Copy.names]
      rw [Block.copies, List.map_cons, named]
      exact carried'
    · refine (Fresh.laid made).append (laid.extend kept') fun c mem d _ p pass => ?_
      obtain rfl := List.mem_singleton.mp mem
      cases pass
  | @loop key opens count closes left right body rest inside ts _ _ kind _ _ _ _ _ ihb ih =>
    obtain ⟨tail, m₁, inner, m₂, times, m₃, unrolled, last, within, counted, expanded, rfl⟩ :=
      Block.translate_loop_eq_ok run
    obtain ⟨carried, kept, fits, laid⟩ := ih (lexed.mono fun t mem => by simp [mem])
      (before + 1 + body.loops) carries fits last
    obtain ⟨carried', kept', fits', laid'⟩ :=
      ihb (lexed.mono fun t mem => by simp [mem]) (before + 1) carried fits within
    obtain ⟨rfl, rfl⟩ := count_spec kind (lexed.mono fun t mem => by simp_all) counted
    have length : inner.length = ((body.copies (before + 1)).map Copy.names).length := by
      rw [laid'.length, List.length_map]
    obtain ⟨carried₄, kept₄, fits₄, rfl⟩ := carried'.expandRepeat fits' length expanded
    have room : (body.copies (before + 1)).length ≤ maxLength := by
      have whole := carried'.length_le fits'
      rw [List.length_append, List.length_map] at whole
      omega
    refine ⟨?_, (kept.trans kept').trans kept₄, fits₄, ?_⟩
    · rw [Block.copies, List.map_append, map_names_rounds, List.append_assoc]
      exact carried₄
    · have repeated := laid'.rounds carried' room
        (fun c mem q pass => (loop_bounds mem pass).1)
        (fun c mem name label => exists_named mem label) (timesOf count) kept₄
      exact repeated.append (laid.extend (kept'.trans kept₄)) rounds_apart

/-- Names of copies are distinct when labels can carry them. -/
theorem distinct_of_carries {C : List Copy} (carries : l.Carries (C.map Copy.names)) :
    Distinct C := by
  refine List.pairwise_iff_getElem.mpr fun i j short short' less name on on' => ?_
  have same := carries.unique (List.getElem?_eq_getElem short) on
    (List.getElem?_eq_getElem short') on'
  exact Nat.ne_of_lt less same

/-- A block that is assembled makes a program that is not too long and unrolls the block. -/
theorem Block.Spells.assemble_spec {b : Block} {ts : List Token} (h : b.Spells ts)
    (lexed : Lexed ts) {p : Program} (assembled : b.assemble = .ok p) :
    p.length ≤ maxLength ∧ b.Unrolls p := by
  unfold Block.assemble at assembled
  split at assembled
  · cases assembled
  · rename_i is l run
    split at assembled
    · rename_i q resolved
      obtain rfl := Except.ok.inj assembled
      obtain ⟨carries, _, fits, laid⟩ := h.translate_spec lexed 0 carries_new fits_new run
      rw [List.append_nil] at carries
      have room := carries.length_le fits
      rw [List.length_map] at room
      obtain ⟨length, each⟩ := laid.resolved carries room
        (fun c mem name j k => IsTarget.unique (distinct_of_carries carries) (trail_steady mem))
        resolved
      exact ⟨length ▸ room, length, each⟩
    · cases assembled

end Blocks

end TableAsm.Language
