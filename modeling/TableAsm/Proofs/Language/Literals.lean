import TableAsm.Proofs.Grammar.Coverage
import TableAsm.Proofs.Language.Assembling
import TableAsm.Proofs.Language.Faults
import TableAsm.Proofs.Language.Program

/-! Literals and placeholders. Both are numbers, and a placeholder is known by its number alone.
The check of a literal keeps it below the unit, so a literal is no placeholder unless it is
negative: the built-in lexicon has no such literal, another lexicon can have them. A literal that
is not the placeholder of a name is kept, however often its block is repeated, and is never looked
for among the labels. -/
namespace TableAsm.Language

open Labels Translation

/-- Numbers that are the placeholder of a name once enough names have been seen. -/
def Clashes (n : Int) : Prop := ∃ i < maxNames, n = placeholderAt i

/-- An integer literal stands for its number, unless that clashes. -/
def KeepsLiteral (t : Token) (v : Value) : Prop :=
  t.kind = "I_LITERAL" → ∃ n, Action.integerOf? t.lexeme = some n ∧ (¬Clashes n → v = .int n)

/-- How often the count of a repeat says, in any lexicon. -/
def countOf (count : Token) : Nat := ((Action.integerOf? count.lexeme).getD 0).toNat

/-- The statements of a block from left to right, those of a repeat as often as it says. -/
def Block.statements : Block → List Statement
  | .done => []
  | .statement s rest => s :: rest.statements
  | .loop count body rest =>
    (List.replicate (countOf count) body.statements).flatten ++ rest.statements

variable {l l' : Labels} {t : Token} {v w : Value} {names inside behind : List (List String)}
  {index : Nat}

theorem entryOf?_of_not_clashes (sound : l.Sound) {n : Int} (free : ¬Clashes n) :
    l.entryOf? n = none := by
  rw [entryOf?]
  cases place : placeOf? n with
  | none => rfl
  | some i =>
    rw [Option.bind_some, Array.getElem?_eq_none_iff]
    refine Nat.le_of_not_lt fun short => free ⟨i, ?_, placeOf?_eq_some.mp place⟩
    exact Nat.lt_of_lt_of_le short sound.few

theorem resolveValue_of_not_clashes (sound : l.Sound) {n : Int} (free : ¬Clashes n) :
    l.resolveValue index (.int n) = .ok (.int n) := by
  rw [resolveValue, entryOf?_of_not_clashes sound free]

/-- What a token has become before its program is resolved. A word is the placeholder of its name,
or already a distance; a literal that clashes may have been taken for a word. -/
inductive Told (l : Labels) : Token → Value → Prop where
  | literal {t : Token} {n : Int} : t.kind = "I_LITERAL" → Action.integerOf? t.lexeme = some n →
      Told l t (.int n)
  | clash {t : Token} {m : Int} (n : Int) : t.kind = "I_LITERAL" →
      Action.integerOf? t.lexeme = some m → Clashes m → Told l t (.int n)
  | waiting {t : Token} {n : Int} : t.kind = "IDENTIFIER" → l.placeholder? t.lexeme = some n →
      Told l t (.int n)
  | settled {t : Token} {n : Int} : t.kind = "IDENTIFIER" → -(unit : Int) < n → Told l t (.int n)
  | other {t : Token} {v : Value} : t.kind ≠ "I_LITERAL" → (∀ n, v ≠ .int n) → Told l t v

namespace Told

theorem extend (kept : l.Extends l') (h : Told l t v) : Told l' t v := by
  cases h with
  | literal kind read => exact .literal kind read
  | clash n kind read clashes => exact .clash n kind read clashes
  | waiting kind known => exact .waiting kind (kept.placeholder? known)
  | settled kind small => exact .settled kind small
  | other kind noInt => exact .other kind noInt

theorem records (tokens : List Token) : Records Told tokens := by
  refine ⟨fun {l l' t v} _ _ sound run => ?_, extend⟩
  unfold value at run
  split at run
  · rename_i word
    obtain ⟨n, m, referred, made⟩ := run_bind_eq_ok.mp run
    obtain ⟨rfl, rfl⟩ := run_pure_eq_ok.mp made
    exact .waiting word (reference_spec sound referred).2
  · split at run
    · rename_i integer
      obtain ⟨rfl, n, read, rfl⟩ := run_literal_eq_ok.mp run
      exact .literal integer read
    · rename_i notInteger
      split at run <;> obtain ⟨rfl, _, _, rfl⟩ := run_literal_eq_ok.mp run <;>
        exact .other notInteger fun n same => by cases same

/-- Unrolling a block does nothing to literals, and makes words distances within the block. -/
theorem localValue (h : Told l t v) (carries : l.Carries (inside ++ behind)) (fits : l.Fits)
    (place : index < inside.length) : Told l t (l.localValue inside.length index v) := by
  cases h with
  | @literal n kind read =>
    -- a literal that clashes may become the distance of a label that it never named
    by_cases clashes : Clashes n
    · exact .clash _ kind read clashes
    · have nothing : l.localOffset? inside.length (l.counter + index) n = none := by
        show (l.entryOf? n).bind _ = none
        rw [entryOf?_of_not_clashes carries.sound clashes]
        rfl
      rw [Labels.localValue, nothing]
      exact .literal kind read
  | clash n kind read clashes => exact .clash _ kind read clashes
  | @waiting n kind known =>
    rw [Labels.localValue]
    cases offset : l.localOffset? inside.length (l.counter + index) n with
    | none => exact .waiting kind known
    | some d =>
      have range := ((carries.localOffset?_eq_some known).mp offset).in_range
      have whole := carries.length_le fits
      rw [List.length_append] at whole
      have room : maxLength < unit := by decide
      refine .settled kind ?_
      rw [Option.getD_some]
      omega
  | settled kind small =>
    rw [localValue_of_lt small]
    exact .settled kind small
  | other kind noInt =>
    cases v with
    | int n => exact absurd rfl (noInt n)
    | _ => exact .other kind noInt

theorem resolved (h : Told l t v) (sound : l.Sound) (ok : l.resolveValue index v = .ok w) :
    KeepsLiteral t w := by
  intro isLiteral
  cases h with
  | @literal n kind read =>
    refine ⟨n, read, fun free => ?_⟩
    rw [resolveValue_of_not_clashes sound free] at ok
    exact (Except.ok.inj ok).symm
  | clash n kind read clashes => exact ⟨_, read, fun free => absurd clashes free⟩
  | waiting kind _ => simp [kind] at isLiteral
  | settled kind _ => simp [kind] at isLiteral
  | other kind _ => exact absurd isLiteral kind

/-- A value whose label is missing is that of a word, or of a literal that clashes. -/
theorem blamed (h : Told l t v) (sound : l.Sound) {name : String} {position : Option Position}
    (failed : l.resolveValue index v = .error (.neverDefined name position)) :
    (t.kind = "IDENTIFIER" ∧ t.lexeme = name) ∨
      (t.kind = "I_LITERAL" ∧ ∃ n, Action.integerOf? t.lexeme = some n ∧ Clashes n) := by
  cases h with
  | @literal n kind read =>
    refine Or.inr ⟨kind, n, read, Classical.byContradiction fun free => ?_⟩
    rw [resolveValue_of_not_clashes sound free] at failed
    cases failed
  | clash n kind read clashes => exact Or.inr ⟨kind, _, read, clashes⟩
  | @waiting n kind known =>
    obtain ⟨e, entry, named⟩ := sound.entryOf?_of_placeholder? known
    rw [resolveValue, entry] at failed
    refine Or.inl ⟨kind, ?_⟩
    rw [← named]
    simp only at failed
    split at failed
    · cases failed
    · cases failed
      rfl
  | settled kind small =>
    rw [resolveValue_of_lt small] at failed
    cases failed
  | other kind noInt =>
    cases v with
    | int n => exact absurd rfl (noInt n)
    | _ => cases failed

end Told

section Blocks

theorem countOf_eq {count : Token} {n : Int} (read : Action.integerOf? count.lexeme = some n) :
    countOf count = n.toNat := by
  rw [countOf, read, Option.getD_some]

theorem told_resolveWithin (carries : l.Carries (inside ++ behind)) (fits : l.Fits)
    {statements : List Statement} {block : List Instruction}
    (length : inside.length = block.length)
    (made : List.Forall₂ (fun s x => Statement.Makes s (Told l) x) statements block) :
    List.Forall₂ (fun s x => Statement.Makes s (Told l) x) statements (l.resolveWithin block) := by
  refine forall₂_resolveWithin made fun k place s x makes => makes.mapValues fun t v told => ?_
  rw [← length]
  exact told.localValue carries fits (length ▸ place)

/-- A block makes its statements, each as often as it stands there. -/
theorem Block.Spells.translate_told {b : Block} {ts : List Token} (h : b.Spells ts)
    (carries : l.Carries names) (fits : l.Fits) {is : List Instruction}
    (run : b.translate.run l = (.ok is, l')) :
    (∃ own : List (List String), own.length = is.length ∧ l'.Carries (own ++ names)) ∧
      l.Extends l' ∧ l'.Fits ∧
      List.Forall₂ (fun s x => Statement.Makes s (Told l') x) b.statements is := by
  induction h generalizing l l' names is with
  | done =>
    obtain ⟨rfl, rfl⟩ := run_pure_eq_ok.mp run
    exact ⟨⟨[], rfl, carries⟩, .refl _, fits, .nil⟩
  | @statement s stop rest front ts line _ _ ih =>
    obtain ⟨tail, m, i, number, last, first, rfl⟩ := Block.translate_statement_eq_ok run
    obtain ⟨⟨own, length, carried⟩, kept, _, made⟩ := ih carries fits last
    obtain ⟨carried', kept', fits', one⟩ := line.translate_spec (Told.records front) carried first
    refine ⟨⟨s.carried :: own, congrArg (· + 1) length, carried'⟩, kept.trans kept', fits', ?_⟩
    exact .cons one (made.imp fun s x makes => makes.imp fun t v => Told.extend kept')
  | @loop key opens count closes left right body rest inside ts _ _ kind _ _ _ _ _ ihb ih =>
    obtain ⟨tail, m₁, inner, m₂, times, m₃, unrolled, last, within, counted, expanded, rfl⟩ :=
      Block.translate_loop_eq_ok run
    obtain ⟨⟨own, length, carried⟩, kept, fits₁, made⟩ := ih carries fits last
    obtain ⟨⟨own', length', carried'⟩, kept', fits₂, made'⟩ := ihb carried fits₁ within
    obtain ⟨rfl, n, read, _, rfl⟩ := (run_count_eq_ok kind).mp counted
    obtain ⟨carried₄, kept₄, fits₄, rfl⟩ :=
      carried'.expandRepeat fits₂ length'.symm expanded
    have repeated := forall₂_replicate (told_resolveWithin carried' fits₂ length' made') n.toNat
    refine ⟨⟨unrolledNames own' n.toNat ++ own, ?_, ?_⟩, (kept.trans kept').trans kept₄, fits₄, ?_⟩
    · rw [List.length_append, List.length_append, length_unrolledNames, length, length',
        List.length_flatten, List.map_replicate, List.sum_replicate_nat, length_resolveWithin]
    · rw [List.append_assoc]
      exact carried₄
    · rw [Block.statements, countOf_eq read]
      refine List.rel_append (repeated.imp fun s x makes => makes.imp fun t v => Told.extend kept₄)
        (made.imp fun s x makes => makes.imp fun t v => Told.extend (kept'.trans kept₄))

/-- When all is resolved, the literals of a block are kept, and where that fails over a label that
is missing, a word stands for it or a literal that clashes. -/
theorem Block.Spells.assemble_told {b : Block} {ts : List Token} (h : b.Spells ts) :
    (∀ p, b.assemble = .ok p →
      List.Forall₂ (fun s x => Statement.Makes s KeepsLiteral x) b.statements p) ∧
    ∀ name position, b.assemble = .error (.label (.neverDefined name position)) →
      ∃ s ∈ b.statements, ∃ t ∈ s.written, (t.kind = "IDENTIFIER" ∧ t.lexeme = name) ∨
        (t.kind = "I_LITERAL" ∧ ∃ n, Action.integerOf? t.lexeme = some n ∧ Clashes n) := by
  constructor
  · intro p assembled
    obtain ⟨is, l, run, resolved⟩ := Block.assemble_eq_ok.mp assembled
    obtain ⟨⟨own, _, carries⟩, _, _, made⟩ := h.translate_told carries_new fits_new run
    obtain ⟨length, each⟩ := resolve_eq_ok resolved
    rw [List.forall₂_iff_get] at made ⊢
    obtain ⟨same, makes⟩ := made
    refine ⟨same.trans length.symm, fun k short short' => ?_⟩
    have place : k < is.length := same ▸ short
    obtain ⟨y, at_k, step⟩ := each k _ (List.getElem?_eq_getElem place)
    obtain ⟨_, rfl⟩ := List.getElem?_eq_some_iff.mp at_k
    obtain ⟨name, marks, operands, properties⟩ := resolveInstruction_eq_ok step
    exact (makes k short place).trans name marks operands properties fun t v w told ok =>
      told.resolved carries.sound ok
  · intro name position failed
    rcases b.assemble_eq_error failed with early | ⟨is, l, q, e', run, resolved, same⟩
    · exact early.elim
    · cases same
      obtain ⟨⟨own, _, carries⟩, _, _, made⟩ := h.translate_told carries_new fits_new run
      obtain ⟨k, x, found, v, mem, failing⟩ := resolve_eq_error resolved
      obtain ⟨place, rfl⟩ := List.getElem?_eq_some_iff.mp found
      have short : k < b.statements.length := made.length_eq ▸ place
      obtain ⟨t, written, told⟩ := (made.get short place).exists_written mem
      exact ⟨_, List.getElem_mem short, t, written, told.blamed carries.sound failing⟩

end Blocks

section Reading

def InRange (t : Token) : Prop :=
  t.kind = "I_LITERAL" → ∃ n, Action.integerOf? t.lexeme = some n

theorem InRange.of_other {kind : String} (same : t.kind = kind) (other : kind ≠ "I_LITERAL") :
    InRange t := fun literal => absurd (same.symm.trans literal) other

theorem inRange_of_value (run : (value t).run l = (.ok v, l')) : InRange t := by
  intro kind
  have notWord : t.kind ≠ "IDENTIFIER" := by rw [kind]; decide
  rw [value, if_neg notWord, if_pos kind] at run
  obtain ⟨_, n, read, _⟩ := run_literal_eq_ok.mp run
  exact ⟨n, read⟩

theorem inRange_of_values {ts : List Token} {vs : List Value}
    (run : (values ts).run l = (.ok vs, l')) : ∀ t ∈ ts, InRange t := by
  induction ts generalizing vs l' with
  | nil =>
    intro t mem
    cases mem
  | cons t ts ih =>
    obtain ⟨_, _, rest, run⟩ := run_bind_eq_ok.mp run
    obtain ⟨_, _, first, _⟩ := run_bind_eq_ok.mp run
    intro u mem
    rcases List.mem_cons.mp mem with rfl | mem
    · exact inRange_of_value first
    · exact ih rest u mem

theorem SpellsFurther.inRange {vs ts : List Token} (h : SpellsFurther vs ts)
    (each : ∀ t ∈ vs, InRange t) : ∀ t ∈ ts, InRange t := by
  induction h with
  | none =>
    intro t mem
    cases mem
  | value comma _ _ ih =>
    intro t mem
    rcases List.mem_cons.mp mem with rfl | mem
    · exact .of_other comma (by decide)
    · rcases List.mem_cons.mp mem with rfl | mem
      · exact each _ List.mem_cons_self
      · exact ih (fun t mem => each t (List.mem_cons_of_mem _ mem)) t mem

theorem SpellsValues.inRange {vs ts : List Token} (h : SpellsValues vs ts)
    (each : ∀ t ∈ vs, InRange t) : ∀ t ∈ ts, InRange t := by
  cases h with
  | none =>
    intro t mem
    cases mem
  | value _ further =>
    intro t mem
    rcases List.mem_cons.mp mem with rfl | mem
    · exact each _ List.mem_cons_self
    · exact further.inRange (fun t mem => each t (List.mem_cons_of_mem _ mem)) t mem

theorem Mark.Spells.inRange {m : Mark} {front : List Token} (h : m.Spells front)
    {i j : Instruction} {number : Int} (run : (m.apply i number).run l = (.ok j, l')) :
    ∀ t ∈ front, InRange t := by
  cases h with
  | label kind =>
    rintro t (_ | ⟨_, mem⟩)
    · exact .of_other kind (by decide)
    · cases mem
  | annotation isAt isKey kind =>
    rintro t (_ | ⟨_, _ | ⟨_, _ | ⟨_, mem⟩⟩⟩)
    · exact .of_other isAt (by decide)
    · exact .of_other isKey (by decide)
    · exact .of_other kind (by decide)
    · cases mem
  | property isAt isKey kind _ =>
    obtain ⟨_, _, valued, _⟩ := run_bind_eq_ok.mp run
    rintro t (_ | ⟨_, _ | ⟨_, _ | ⟨_, _ | ⟨_, mem⟩⟩⟩⟩)
    · exact .of_other isAt (by decide)
    · exact .of_other isKey (by decide)
    · exact .of_other kind (by decide)
    · exact inRange_of_value valued
    · cases mem

theorem Statement.Spells.inRange_of_marks {s : Statement} {ts : List Token} (h : s.Spells ts)
    {i j : Instruction} {number : Int} (operands : ∀ t ∈ s.operands, InRange t)
    (run : (applyMarks s.marks i number).run l = (.ok j, l')) : ∀ t ∈ ts, InRange t := by
  induction h generalizing j l' with
  | instruction kind values =>
    intro t mem
    rcases List.mem_cons.mp mem with rfl | mem
    · exact .of_other kind (by decide)
    · exact values.inRange operands t mem
  | marked mark _ ih =>
    obtain ⟨_, _, behind, first⟩ := run_bind_eq_ok.mp run
    intro t mem
    rcases List.mem_append.mp mem with mem | mem
    · exact mark.inRange first t mem
    · exact ih operands behind t mem

/-- The literals of a block have all been read when it is translated, those that the program does
not have as well. -/
theorem Block.Spells.inRange {b : Block} {ts : List Token} (h : b.Spells ts)
    {is : List Instruction} (run : b.translate.run l = (.ok is, l')) : ∀ t ∈ ts, InRange t := by
  induction h generalizing l l' is with
  | done =>
    intro t mem
    cases mem
  | @statement s stop rest front ts line kind _ ih =>
    obtain ⟨_, _, _, _, last, first, _⟩ := Block.translate_statement_eq_ok run
    obtain ⟨_, _, valued, first⟩ := run_bind_eq_ok.mp first
    obtain ⟨_, _, _, first⟩ := run_bind_eq_ok.mp first
    obtain ⟨_, _, _, first⟩ := run_bind_eq_ok.mp first
    obtain ⟨_, _, applied, _⟩ := run_bind_eq_ok.mp first
    intro t mem
    rcases List.mem_append.mp mem with mem | mem
    · exact line.inRange_of_marks (inRange_of_values valued) applied t mem
    · rcases List.mem_cons.mp mem with rfl | mem
      · exact .of_other kind (by decide)
      · exact ih last t mem
  | @loop key opens count closes left right body rest inside ts isKey isOpen _ isClose isLeft _ isRight _ ihb ih =>
    obtain ⟨_, _, _, _, _, _, _, last, within, counted, _⟩ := Block.translate_loop_eq_ok run
    obtain ⟨_, _, valued, _⟩ := run_bind_eq_ok.mp counted
    intro t mem
    simp only [List.mem_cons, List.mem_append] at mem
    rcases mem with rfl | rfl | rfl | rfl | rfl | mem | rfl | mem
    · exact .of_other isKey (by decide)
    · exact .of_other isOpen (by decide)
    · exact inRange_of_value valued
    · exact .of_other isClose (by decide)
    · exact .of_other isLeft (by decide)
    · exact ihb within t mem
    · exact .of_other isRight (by decide)
    · exact ih last t mem

/-- Whatever the lexicon is, the tokens that the grammar accepts are assembled by the syntax that
they spell. -/
theorem exists_block_of_readProgram {f : FrontEnd} {source : String} {tokens : List Token}
    (built : Grammar.ofRules rules = .ok f.grammar) (cut : f.tokenize source = .ok tokens)
    (success : (f.grammar.parse tokens).error = none) :
    ∃ b : Block, b.Spells (accepted (f.grammar.parse tokens).events) ∧
      f.readProgram source = b.assemble.mapError .assembly := by
  obtain ⟨b, spells, made⟩ := exists_block_of_success built success
  refine ⟨b, spells, ?_⟩
  rw [FrontEnd.readProgram, cut]
  simp only [FrontEnd.parseTree, success]
  rw [made.assemble_eq]

theorem accepted_rules {lexiconText : String} {f : FrontEnd}
    (loaded : FrontEnd.ofTexts lexiconText grammarText = .ok f) :
    Grammar.ofRules rules = .ok f.grammar := by
  obtain ⟨_, others, read, built⟩ := FrontEnd.parts_of_ofTexts loaded
  obtain rfl := Except.ok.inj (rules_loaded.symm.trans read)
  exact built

/-- Whatever the lexicon is, a literal that is too large keeps a program from being read, and one
that does not clash is its number in every copy of its statement. A label that is missing is
missed for a word that stands where a value does, or for a literal that clashes. -/
theorem readProgram_keeps_literals {lexiconText : String} {f : FrontEnd}
    (loaded : FrontEnd.ofTexts lexiconText grammarText = .ok f) {source : String}
    {tokens : List Token} (cut : f.tokenize source = .ok tokens)
    (success : (f.grammar.parse tokens).error = none) :
    ∃ b : Block, b.Spells (accepted (f.grammar.parse tokens).events) ∧
      (∀ p, f.readProgram source = .ok p →
        (∀ t ∈ accepted (f.grammar.parse tokens).events, InRange t) ∧
          List.Forall₂ (fun s x => Statement.Makes s KeepsLiteral x) b.statements p) ∧
      ∀ name position,
        f.readProgram source = .error (.assembly (.label (.neverDefined name position))) →
        ∃ s ∈ b.statements, ∃ t ∈ s.written, (t.kind = "IDENTIFIER" ∧ t.lexeme = name) ∨
          (t.kind = "I_LITERAL" ∧ ∃ n, Action.integerOf? t.lexeme = some n ∧ Clashes n) := by
  obtain ⟨b, spells, same⟩ := exists_block_of_readProgram (accepted_rules loaded) cut success
  obtain ⟨keeps, blames⟩ := spells.assemble_told
  refine ⟨b, spells, fun p read => ?_, fun name position failed => ?_⟩
  · rw [same] at read
    cases made : b.assemble with
    | error e =>
      rw [made] at read
      cases read
    | ok q =>
      rw [made] at read
      obtain rfl := Except.ok.inj read
      obtain ⟨is, l, run, _⟩ := Block.assemble_eq_ok.mp made
      exact ⟨spells.inRange run, keeps q made⟩
  · rw [same] at failed
    cases made : b.assemble with
    | error e =>
      rw [made] at failed
      cases failed
      exact blames name position made
    | ok q =>
      rw [made] at failed
      cases failed

def signedText : String := "IDENTIFIER [a-z]+\nI_LITERAL -?[0-9]*\n;\n^SPACE \\s+\n"

theorem readProgram_keeps_literals_small :
    ∃ f tokens, FrontEnd.ofTexts signedText grammarText = .ok f ∧
      f.tokenize "x -5;" = .ok tokens ∧ (f.grammar.parse tokens).error = none ∧
      ∃ b : Block, b.Spells (accepted (f.grammar.parse tokens).events) ∧
        (∀ p, f.readProgram "x -5;" = .ok p →
          (∀ t ∈ accepted (f.grammar.parse tokens).events, InRange t) ∧
            List.Forall₂ (fun s x => Statement.Makes s KeepsLiteral x) b.statements p) ∧
        ∀ name position,
          f.readProgram "x -5;" = .error (.assembly (.label (.neverDefined name position))) →
          ∃ s ∈ b.statements, ∃ t ∈ s.written, (t.kind = "IDENTIFIER" ∧ t.lexeme = name) ∨
            (t.kind = "I_LITERAL" ∧ ∃ n, Action.integerOf? t.lexeme = some n ∧ Clashes n) := by
  obtain ⟨f, loaded, cut, success⟩ := exists_loaded signedText "x -5;"
    [⟨"IDENTIFIER", "x", ⟨1, 1⟩⟩, ⟨"I_LITERAL", "-5", ⟨1, 3⟩⟩, ⟨";", ";", ⟨1, 5⟩⟩]
    (by decide +kernel) (.statement (.instruction rfl (.value (by decide) .none)) rfl .done)
  exact ⟨f, _, loaded, cut, success, readProgram_keeps_literals loaded cut success⟩

/-- One word and minus the unit, which is the placeholder of the word. -/
def clashingTokens : List Token :=
  [⟨"IDENTIFIER", "x", ⟨1, 1⟩⟩, ⟨"I_LITERAL", "-281474976710656", ⟨1, 3⟩⟩, ⟨";", ";", ⟨1, 19⟩⟩]

def clashingLine : Block :=
  .statement ⟨[], ⟨"IDENTIFIER", "x", ⟨1, 1⟩⟩, [⟨"I_LITERAL", "-281474976710656", ⟨1, 3⟩⟩]⟩ .done

theorem clashingLine_spells : clashingLine.Spells clashingTokens :=
  .statement (.instruction rfl (.value (by decide) .none)) rfl .done

theorem clashingLine_assemble :
    clashingLine.assemble = .error (.label (.neverDefined "x" (some ⟨1, 1⟩))) := by
  have read : Action.integerOf? "-281474976710656" = some (placeholderAt 0) := by decide
  -- only the look-up in the index has to be rewritten; all else computes
  simp only [Block.assemble, clashingLine, Block.translate, Statement.translate, values, value,
    applyMarks, Translation.reference, Translation.literal, run_bind, run_pure,
    Translation.run_onLabels, Labels.reference, Labels.new, Labels.place, read, String.reduceEq,
    ↓reduceIte, Std.HashMap.getElem?_empty, List.size_toArray, List.length_nil]
  rfl

/-- A literal is taken for the name of its own instruction, which is no label. -/
theorem readProgram_mistakes_literal :
    ∃ f, FrontEnd.ofTexts signedText grammarText = .ok f ∧
      f.tokenize "x -281474976710656;" = .ok clashingTokens ∧
      Action.integerOf? "-281474976710656" = some (-281474976710656) ∧
      f.readProgram "x -281474976710656;" =
        .error (.assembly (.label (.neverDefined "x" (some ⟨1, 1⟩)))) := by
  obtain ⟨f, loaded, cut, success⟩ := exists_loaded signedText "x -281474976710656;"
    clashingTokens (by decide +kernel) clashingLine_spells
  have built := accepted_rules loaded
  obtain ⟨b, spells, same⟩ := exists_block_of_readProgram built cut success
  rw [Grammar.accepted_of_parse (Grammar.tableOf_accepted built) success,
    List.takeWhile_eq_self_iff.mpr (by decide)] at spells
  rw [clashingLine_spells.eq spells, clashingLine_assemble] at same
  exact ⟨f, loaded, cut, by decide, same⟩

end Reading

end TableAsm.Language
