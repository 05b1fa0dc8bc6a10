import TableAsm.Proofs.Grammar.Coverage
import TableAsm.Proofs.Labels.Limits
import TableAsm.Proofs.Language.Loading
import TableAsm.Proofs.Language.Simulation

/-! Who is to blame when a program is not read. The grammar of the language gives the actions of
the assembler nothing but trees that they know, whatever the lexicon is; so with the lexicon and
the grammar loaded, every failure lies in the source. -/
namespace TableAsm.Language

open Translation

section Translations

variable {α β : Type}

/-- A translation that fails with some errors only. -/
def FailsWith (P : AssemblyError → Prop) (m : Translation α) : Prop :=
  ∀ (l l' : Labels) e, m.run l = (.error e, l') → P e

section Failing

variable {P Q : AssemblyError → Prop}

theorem FailsWith.mono {m : Translation α} (h : FailsWith P m) (weaker : ∀ e, P e → Q e) :
    FailsWith Q m := fun l l' e failed => weaker e (h l l' e failed)

theorem FailsWith.pure (a : α) : FailsWith P (pure a : Translation α) := by
  intro l l' e failed
  cases failed

theorem FailsWith.bind {m : Translation α} {f : α → Translation β} (first : FailsWith P m)
    (next : ∀ a, FailsWith P (f a)) : FailsWith P (m >>= f) := by
  intro l l' e failed
  rcases run_bind_eq_error.mp failed with failed | ⟨a, between, _, failed⟩
  · exact first l l' e failed
  · exact next a between l' e failed

theorem failsWith_throw {e : AssemblyError} (known : P e) :
    FailsWith P (throw e : Translation α) := by
  intro l l' e' failed
  cases failed
  exact known

theorem failsWith_onLabels {f : Labels → Labels × Except LabelError α}
    (known : ∀ l l' e, f l = (l', .error e) → P (.label e)) : FailsWith P (onLabels f) := by
  intro l l' e failed
  obtain ⟨e', step, rfl⟩ := run_onLabels_eq_error.mp failed
  exact known l l' e' step

end Failing

/-- What can go wrong with a single token: it is no literal, or a name too many. -/
def TokenFault : AssemblyError → Prop
  | .literal _ | .label (.tooManyNames _ _) => True
  | _ => False

theorem failsWith_reference (name : String) (t : Token) :
    FailsWith TokenFault (reference name t) := by
  apply failsWith_onLabels
  intro l l' e failed
  rw [Labels.reference_eq_error failed]
  trivial

theorem failsWith_literal (make : α → Value) (read : Option α) (fault : LiteralFault)
    (t : Token) : FailsWith TokenFault (literal make read fault t) := by
  cases read with
  | none => exact failsWith_throw trivial
  | some a => exact .pure (make a)

theorem failsWith_value (t : Token) : FailsWith TokenFault (value t) := by
  unfold value
  split
  · exact (failsWith_reference _ t).bind fun n => .pure (Value.int n)
  · split
    · exact failsWith_literal _ _ _ t
    · split
      · exact failsWith_literal _ _ _ t
      · exact failsWith_literal _ _ _ t

theorem failsWith_values (ts : List Token) : FailsWith TokenFault (values ts) := by
  induction ts with
  | nil => exact .pure []
  | cons t ts ih => exact ih.bind fun vs => (failsWith_value t).bind fun v => .pure (v :: vs)

theorem failsWith_repeatCount (t : Token) (v : Value) :
    FailsWith TokenFault (repeatCount t v) := by
  cases v with
  | int n =>
    rw [repeatCount]
    split
    · exact .pure n.toNat
    · exact failsWith_throw trivial
  | _ => exact failsWith_throw trivial

/-- What can go wrong before a program is resolved: no tree is misshapen, and no label is missing
yet. -/
def EarlyFault : AssemblyError → Prop
  | .shape _ | .label (.neverDefined _ _) => False
  | _ => True

theorem FailsWith.early {m : Translation α} (h : FailsWith TokenFault m) :
    FailsWith EarlyFault m := by
  refine h.mono fun e fault => ?_
  match e, fault with
  | .literal _, _ => trivial
  | .label (.tooManyNames _ _), _ => trivial

theorem failsEarly_define (name : String) (number : Int) (p : Option Position) :
    FailsWith EarlyFault (onLabels (·.define name number p)) := by
  apply failsWith_onLabels
  intro l l' e failed
  unfold Labels.define at failed
  split at failed
  · rename_i referred
    cases failed
    rw [Labels.reference_eq_error referred]
    trivial
  · split at failed <;> cases failed
    trivial

theorem failsEarly_place : FailsWith EarlyFault (onLabels (·.place)) := by
  apply failsWith_onLabels
  intro l l' e failed
  unfold Labels.place at failed
  split at failed <;> cases failed
  trivial

theorem failsEarly_expandRepeat (block : List Instruction) (times : Nat) :
    FailsWith EarlyFault (onLabels (·.expandRepeat block times)) := by
  apply failsWith_onLabels
  intro l l' e failed
  unfold Labels.expandRepeat at failed
  simp only at failed
  split at failed
  · cases failed
  · split at failed <;> cases failed
    trivial

theorem failsEarly_apply (m : Mark) (i : Instruction) (number : Int) :
    FailsWith EarlyFault (m.apply i number) := by
  cases m with
  | label l =>
    exact (failsWith_reference _ l).early.bind fun _ =>
      (failsEarly_define _ _ _).bind fun _ => .pure i
  | annotation n =>
    exact (failsWith_reference _ n).early.bind fun _ => .pure (i.annotate n.lexeme)
  | property k v =>
    exact (failsWith_value v).early.bind fun w =>
      (failsWith_reference _ k).early.bind fun _ => .pure (i.putProperty k.lexeme w)

theorem failsEarly_applyMarks (marks : List Mark) (i : Instruction) (number : Int) :
    FailsWith EarlyFault (applyMarks marks i number) := by
  induction marks with
  | nil => exact .pure i
  | cons m marks ih => exact ih.bind fun j => failsEarly_apply m j number

theorem failsEarly_statement (s : Statement) : FailsWith EarlyFault s.translate :=
  (failsWith_values s.operands).early.bind fun _ =>
    (failsWith_reference _ s.name).early.bind fun _ =>
      failsEarly_place.bind fun number =>
        (failsEarly_applyMarks _ _ number).bind fun i => .pure (i, number)

theorem failsEarly_block (b : Block) : FailsWith EarlyFault b.translate := by
  induction b with
  | done => exact .pure []
  | statement s rest ih =>
    exact ih.bind fun tail => (failsEarly_statement s).bind fun line => .pure (line.1 :: tail)
  | loop count body rest ihb ih =>
    exact ih.bind fun tail => ihb.bind fun inner => (failsWith_value count).early.bind fun v =>
      (failsWith_repeatCount count v).early.bind fun times =>
        (failsEarly_expandRepeat inner times).bind fun unrolled => .pure (unrolled ++ tail)

/-- A block is assembled when it is translated and then resolved. -/
theorem Block.assemble_eq_ok {b : Block} {p : Program} : b.assemble = .ok p ↔
    ∃ is l, b.translate.run .new = (.ok is, l) ∧ l.resolve is = (p, none) := by
  unfold Block.assemble
  constructor
  · intro assembled
    split at assembled
    · cases assembled
    · rename_i is l ran
      split at assembled
      · rename_i q resolved
        cases assembled
        exact ⟨is, l, ran, resolved⟩
      · cases assembled
  · rintro ⟨is, l, ran, resolved⟩
    simp only [ran, resolved]

/-- Where that fails, it does so in the translation, or over a label when all is resolved. -/
theorem Block.exists_run_of_error {b : Block} {e : AssemblyError} (failed : b.assemble = .error e) :
    (∃ l, b.translate.run .new = (.error e, l)) ∨ ∃ is l q e',
      b.translate.run .new = (.ok is, l) ∧ l.resolve is = (q, some e') ∧ e = .label e' := by
  unfold Block.assemble at failed
  split at failed
  · rename_i l ran
    cases failed
    exact Or.inl ⟨l, ran⟩
  · rename_i is l ran
    split at failed
    · cases failed
    · rename_i q e' resolved
      cases failed
      exact Or.inr ⟨is, l, q, e', ran, resolved, rfl⟩

theorem Block.assemble_eq_error {b : Block} {e : AssemblyError} (failed : b.assemble = .error e) :
    EarlyFault e ∨ ∃ is l q e', b.translate.run .new = (.ok is, l) ∧
      l.resolve is = (q, some e') ∧ e = .label e' := by
  rcases b.exists_run_of_error failed with ⟨l, ran⟩ | late
  · exact Or.inl (failsEarly_block b _ _ _ ran)
  · exact Or.inr late

theorem Block.assemble_ne_shape (b : Block) (e : ShapeError) : b.assemble ≠ .error (.shape e) := by
  intro failed
  rcases b.assemble_eq_error failed with early | ⟨_, _, _, _, _, _, same⟩
  · exact early
  · cases same

end Translations

section Reading

variable {text : String} {lexicon : Lexicon}

/-- Whatever the lexicon is, the tree of a parse holds the block that is spelled by the tokens that
were matched. What stands behind a token that looks like the end mark is not in the tree. -/
theorem exists_block_of_success {g : Grammar} (built : Grammar.ofRules rules = .ok g)
    {tokens : List Token} (success : (g.parse tokens).error = none) :
    ∃ b : Block, b.Spells (accepted (g.parse tokens).events) ∧
      b.MadeFrom (.ofEvents (g.parse tokens).events) := by
  obtain ⟨front, _, _, unmarked, same⟩ :=
    Grammar.exists_front_of_parse (Grammar.tableOf_accepted built) success
  have parsed : (g.parse front).error = none := by rw [same]
  have matched := Grammar.accepted_of_parse (Grammar.tableOf_accepted built) parsed
  rw [same, List.takeWhile_eq_self_iff.mpr (by simpa using unmarked)] at matched
  obtain ⟨b, spells, made⟩ := exists_block_of_parse built unmarked parsed
  rw [same] at made
  exact ⟨b, matched.symm ▸ spells, made⟩

/-- No action fails over the tree of a parse. -/
theorem assemble_ne_shape {g : Grammar} (accepted : Grammar.ofRules rules = .ok g)
    {tokens : List Token} (success : (g.parse tokens).error = none) (e : ShapeError) :
    (Tree.ofEvents (g.parse tokens).events).assemble.result ≠ .error (.shape e) := by
  obtain ⟨b, _, made⟩ := exists_block_of_success accepted success
  rw [made.assemble_eq]
  exact b.assemble_ne_shape e

/-- With the grammar of the language and any lexicon, a program that is not read is reported as
stray text or as a bad program; the actions never meet a tree that they do not know. -/
theorem readProgram_blames_source (read : Lexicon.ofText text = .ok lexicon) :
    ∃ f, FrontEnd.ofTexts text grammarText = .ok f ∧ f.lexicon = lexicon ∧
      (∀ source e, f.readProgram source = .error e →
        (∃ position fragment, e.diagnostic = .strayText position fragment) ∨
          ∃ position near message, e.diagnostic = .badProgram position near message) ∧
      ∀ tokens, (f.grammar.parse tokens).error = none →
        ∀ e, (Tree.ofEvents (f.grammar.parse tokens).events).assemble.result ≠
          .error (.shape e) := by
  obtain ⟨g, accepted⟩ := exists_grammar
  refine ⟨⟨lexicon, g⟩, ofTexts_grammarText read accepted, rfl, fun source e failed => ?_,
    fun tokens success => assemble_ne_shape accepted success⟩
  unfold FrontEnd.readProgram FrontEnd.tokenize at failed
  cases cut : lexicon.tokenize source with
  | error stray =>
    rw [cut] at failed
    cases failed
    exact Or.inl ⟨_, _, rfl⟩
  | ok tokens =>
    rw [cut] at failed
    simp only [Except.mapError, FrontEnd.parseTree] at failed
    cases outcome : (g.parse tokens).error with
    | some refused =>
      rw [outcome] at failed
      cases failed
      exact Or.inr ⟨_, _, _, rfl⟩
    | none =>
      have known := assemble_ne_shape accepted outcome
      rw [outcome] at failed
      simp only at failed
      generalize (Tree.ofEvents (g.parse tokens).events).assemble.result = made at failed known
      cases made with
      | ok p => cases failed
      | error e' =>
        cases failed
        cases e' with
        | shape e' => exact absurd rfl (known e')
        | literal e' => exact Or.inr ⟨_, _, _, rfl⟩
        | label e' => exact Or.inr ⟨_, _, _, rfl⟩

/-- A lexicon with few kinds, one of which looks like the end mark. -/
def markedText : String := "IDENTIFIER [a-z]+\n;\n$\n"

/-- A lexicon can make tokens that look like the end mark. -/
theorem readProgram_blames_source_marked :
    ∃ lexicon, Lexicon.ofText markedText = .ok lexicon ∧
      (lexicon.tokenize "x;$;").toOption.map (·.map (·.kind)) =
        some ["IDENTIFIER", ";", Symbol.endOfInput, ";"] ∧
      ∃ f, FrontEnd.ofTexts markedText grammarText = .ok f ∧ f.lexicon = lexicon ∧
        (∀ source e, f.readProgram source = .error e →
          (∃ position fragment, e.diagnostic = .strayText position fragment) ∨
            ∃ position near message, e.diagnostic = .badProgram position near message) ∧
        ∀ tokens, (f.grammar.parse tokens).error = none →
          ∀ e, (Tree.ofEvents (f.grammar.parse tokens).events).assemble.result ≠
            .error (.shape e) := by
  have cut : (Lexicon.ofText markedText).toOption.bind (fun lexicon =>
      (lexicon.tokenize "x;$;").toOption.map (·.map (·.kind))) =
        some ["IDENTIFIER", ";", Symbol.endOfInput, ";"] := by decide +kernel
  cases read : Lexicon.ofText markedText with
  | error e =>
    rw [read] at cut
    cases cut
  | ok lexicon =>
    rw [read] at cut
    exact ⟨lexicon, rfl, cut, readProgram_blames_source read⟩

end Reading

end TableAsm.Language
