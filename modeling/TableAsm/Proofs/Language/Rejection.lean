import TableAsm.Proofs.Labels.Distances
import TableAsm.Proofs.Language.Acceptance

/-! Which programs of the built-in language are rejected for their labels or their length. Both are
judged while a program is unrolled from its end. A label is not seen from before a repeat that has
dropped it, and instructions that are to be dropped are counted until then. -/
namespace TableAsm.Language

open Labels

variable {b : Block} {name : String} {ts : List Token}

/-- A name is a label twice: on one line, or on two of which the first sees the second. -/
def Block.Doubles (b : Block) (name : String) : Prop :=
  (∃ s ∈ b.sites 0, 1 < s.statement.labels.count name) ∨
    ∃ s s', [s, s'].Sublist (b.sites 0) ∧ s.Sees s' ∧ name ∈ s.statement.labels ∧
      name ∈ s'.statement.labels

theorem doubles_iff : b.Doubles name ↔ ¬b.Once name 0 [] := by
  rw [once_iff, List.pairwise_iff_forall_sublist]
  simp only [Block.Doubles, ApartIn, List.not_mem_nil, false_imp_iff, implies_true, and_true]
  constructor
  · rintro (⟨s, written, twice⟩ | ⟨s, s', order, sees, label, label'⟩) ⟨single, apart⟩
    · exact absurd (single s written) (by omega)
    · exact apart order sees label label'
  · intro again
    by_contra none
    apply again
    constructor
    · intro s written
      by_contra twice
      exact none (Or.inl ⟨s, written, by omega⟩)
    · intro s s' order sees label label'
      exact none (Or.inr ⟨s, s', order, sees, label, label'⟩)

section Assembled

theorem Block.Spells.met (h : b.Spells ts) (lexed : Lexed ts) {p : Program}
    (assembled : b.assemble = .ok p) : b.peak 0 ≤ maxLength ∧ ∀ name, b.Once name 0 [] := by
  obtain ⟨is, l, ran, _⟩ := Block.assemble_eq_ok.mp assembled
  exact (h.demands lexed 0 carries_new fits_new).met is l ran

/-- A block that is not assembled has missed what it demands, unless a token is to blame or a label
is missing. -/
theorem Block.Spells.missed (h : b.Spells ts) (lexed : Lexed ts) {e : AssemblyError}
    (failed : b.assemble = .error e) :
    Refused (b.peak 0) (fun name => b.Once name 0 []) e ∨
      ∃ name p, e = .label (.neverDefined name p) := by
  rcases b.exists_run_of_error failed with ⟨l, ran⟩ | ⟨is, l, q, e', _, resolved, rfl⟩
  · exact Or.inl ((h.demands lexed 0 carries_new fits_new).missed _ l ran)
  · obtain ⟨k, i, _, v, _, failing⟩ := resolve_eq_error resolved
    obtain ⟨n, entry, _, _, _, rfl⟩ := resolveValue_eq_error_iff.mp failing
    exact Or.inr ⟨entry.name, entry.firstUse, rfl⟩

end Assembled

section Reading

variable {f : FrontEnd} {source : String} {tokens : List Token}

/-- The source is at fault. -/
def BadProgram (f : FrontEnd) (source : String) : Prop :=
  ∃ e, f.readProgram source = .error e ∧
    ∃ position near message, e.diagnostic = .badProgram position near message

/-- A source of the language is read as the block is assembled that its tokens spell. -/
theorem exists_block_of_mem_language (builtin : FrontEnd.builtin = .ok f)
    (cut : f.tokenize source = .ok tokens)
    (derives : tokens.map (·.kind) ∈ (contextFree rules).language) :
    ∃ b : Block, b.Spells tokens ∧ f.readProgram source = b.assemble.mapError .assembly := by
  obtain ⟨_, accepted⟩ := builtin_eq builtin
  have success := Grammar.parse_of_mem_language accepted (by decide) derives
  exact readProgram_eq builtin cut success

theorem badProgram_of_refused (read : f.readProgram source = b.assemble.mapError .assembly)
    (refused : ∀ p, b.assemble ≠ .ok p) : BadProgram f source := by
  cases made : b.assemble with
  | ok p => exact absurd made (refused p)
  | error e =>
    rw [made] at read
    refine ⟨_, read, ?_⟩
    cases e with
    | shape e => exact absurd made (b.assemble_ne_shape e)
    | literal e => exact ⟨_, _, _, rfl⟩
    | label e => exact ⟨_, _, _, rfl⟩

theorem assemble_of_error (read : f.readProgram source = b.assemble.mapError .assembly)
    {e : AssemblyError} (failed : f.readProgram source = .error (.assembly e)) :
    b.assemble = .error e := by
  rw [failed] at read
  cases made : b.assemble with
  | ok p =>
    rw [made] at read
    cases read
  | error e' =>
    rw [made] at read
    cases read
    rfl

theorem exists_program_of_sensible (each : ∀ t ∈ tokens, IsToken t) (spells : b.Spells tokens)
    (sensible : Sensible tokens b) (once : ∀ name, b.Once name 0 []) :
    ∃ p, b.assemble = .ok p := by
  have peak := peak_le_extent b 0
  have extent : b.extent ≤ maxLength := sensible.extent
  exact spells.exists_program (lexed_of_tokens each)
    (wellSpelled_of_tokens each sensible.integers sensible.strings) sensible.names (by omega) once
    sensible.grounded

/-- A source of the language is rejected if it defines a label twice and the second definition can
be seen from the first. No other label is reported to be defined twice, and a sensible source
without such a label is read. -/
theorem readProgram_refuses_doubles (builtin : FrontEnd.builtin = .ok f)
    (cut : f.tokenize source = .ok tokens)
    (derives : tokens.map (·.kind) ∈ (contextFree rules).language) :
    ∃ b : Block, b.Spells tokens ∧ ((∃ name, b.Doubles name) → BadProgram f source) ∧
      (∀ name position,
        f.readProgram source = .error (.assembly (.label (.definedTwice name position))) →
          b.Doubles name) ∧
      (Sensible tokens b → (∀ name, ¬b.Doubles name) → ∃ p, f.readProgram source = .ok p) := by
  obtain ⟨b, spells, read⟩ := exists_block_of_mem_language builtin cut derives
  have each := isToken_of_tokenize builtin cut
  refine ⟨b, spells, ?_, fun name position failed => ?_, fun sensible none => ?_⟩
  · rintro ⟨name, twice⟩
    apply badProgram_of_refused read
    intro p assembled
    exact doubles_iff.mp twice ((spells.met (lexed_of_tokens each) assembled).2 name)
  · rw [doubles_iff]
    rcases spells.missed (lexed_of_tokens each) (assemble_of_error read failed) with
      refused | ⟨_, _, other⟩
    · cases refused with
      | token fault => exact fault.elim
      | twice again => exact again
    · cases other
  · have once : ∀ name, b.Once name 0 [] := fun name =>
      Classical.not_not.mp fun twice => none name (doubles_iff.mpr twice)
    obtain ⟨p, assembled⟩ := exists_program_of_sensible each spells sensible once
    rw [assembled] at read
    exact ⟨p, read⟩

section Doubled

/-- A line that starts in a column and defines `A`. -/
def labelledLine (column : Nat) : Statement :=
  ⟨[.label ⟨"LABEL", "A:", ⟨1, column⟩⟩], ⟨"IDENTIFIER", "nop", ⟨1, column + 3⟩⟩, []⟩

def labelledTokens (column : Nat) : List Token :=
  [⟨"LABEL", "A:", ⟨1, column⟩⟩, ⟨"IDENTIFIER", "nop", ⟨1, column + 3⟩⟩,
    ⟨";", ";", ⟨1, column + 6⟩⟩]

/-- Such a line in a repeat that starts in a column and drops it. -/
def droppedBefore (column : Nat) (rest : Block) : Block :=
  .loop ⟨"I_LITERAL", "0", ⟨1, column + 7⟩⟩ (.statement (labelledLine (column + 12)) .done) rest

def droppedTokens (column : Nat) : List Token :=
  ⟨"KW_repeat", "repeat", ⟨1, column⟩⟩ :: ⟨"(", "(", ⟨1, column + 6⟩⟩ ::
    ⟨"I_LITERAL", "0", ⟨1, column + 7⟩⟩ :: ⟨")", ")", ⟨1, column + 8⟩⟩ ::
    ⟨"\x7b", "\x7b", ⟨1, column + 10⟩⟩ :: (labelledTokens (column + 12) ++
    [⟨"\x7d", "\x7d", ⟨1, column + 20⟩⟩])

theorem labelledLine_spells (column : Nat) {rest : Block} (h : rest.Spells ts) :
    (Block.statement (labelledLine column) rest).Spells (labelledTokens column ++ ts) :=
  .statement (.marked (.label rfl) (.instruction rfl .none)) rfl h

theorem droppedBefore_spells (column : Nat) {rest : Block} (h : rest.Spells ts) :
    (droppedBefore column rest).Spells (droppedTokens column ++ ts) :=
  .loop rfl rfl rfl rfl rfl (labelledLine_spells _ .done) rfl h

@[simp] theorem labelledLine_labels (column : Nat) : (labelledLine column).labels = ["A"] := by
  simp [Statement.labels, labelledLine, Mark.label?]

/-- The line behind the repeat can be seen from within. -/
theorem readProgram_refuses_droppedBefore :
    ∃ f, FrontEnd.builtin = .ok f ∧
      f.tokenize "repeat(0) \x7b A: nop; \x7d A: nop;" = .ok (droppedTokens 1 ++ labelledTokens 23) ∧
      ((droppedTokens 1 ++ labelledTokens 23).map (·.kind)) ∈ (contextFree rules).language ∧
      (droppedBefore 1 (.statement (labelledLine 23) .done)).Doubles "A" ∧
      BadProgram f "repeat(0) \x7b A: nop; \x7d A: nop;" := by
  obtain ⟨f, builtin, cut, success⟩ := exists_builtin "repeat(0) \x7b A: nop; \x7d A: nop;"
    (droppedTokens 1 ++ labelledTokens 23) (by decide +kernel)
    (droppedBefore_spells 1 (labelledLine_spells 23 .done))
  have derives := mem_language_of_builtin builtin cut success
  obtain ⟨b, spells, refuses, _⟩ := readProgram_refuses_doubles builtin cut derives
  have own := droppedBefore_spells 1 (labelledLine_spells 23 .done)
  obtain rfl := own.eq spells
  have doubles : (droppedBefore 1 (.statement (labelledLine 23) .done)).Doubles "A" := by
    refine Or.inr ⟨_, _, List.Sublist.refl _, fun f around => absurd around List.not_mem_nil, ?_, ?_⟩
    all_goals simp [Site.within]
  exact ⟨f, builtin, cut, derives, doubles, refuses ⟨"A", doubles⟩⟩

theorem droppedBehind_sensible :
    Sensible (labelledTokens 1 ++ droppedTokens 9)
      (.statement (labelledLine 1) (droppedBefore 9 .done)) := by
  have unquoted : ∀ t ∈ labelledTokens 1 ++ droppedTokens 9, t.kind ≠ "S_LITERAL" := by decide
  refine ⟨by decide, fun t mem kind => absurd kind (unquoted t mem), by decide, ?_, by decide⟩
  intro use found t written _
  obtain rfl | found := List.mem_cons.mp found
  · cases written
  · obtain rfl := List.mem_singleton.mp found
    cases written

/-- It is not enough that a label is defined on two lines: one of them may be dropped by then. -/
theorem exists_double_read :
    ¬ ∀ {f : FrontEnd}, FrontEnd.builtin = .ok f → ∀ {source : String} {tokens : List Token},
      f.tokenize source = .ok tokens → tokens.map (·.kind) ∈ (contextFree rules).language →
      ∀ {b : Block}, b.Spells tokens → ∀ {s s' : Site} {name : String},
        [s, s'].Sublist (b.sites 0) → name ∈ s.statement.labels → name ∈ s'.statement.labels →
          BadProgram f source := by
  intro refuses
  have own : (Block.statement (labelledLine 1) (droppedBefore 9 .done)).Spells
      (labelledTokens 1 ++ (droppedTokens 9 ++ [])) :=
    labelledLine_spells 1 (droppedBefore_spells 9 .done)
  rw [List.append_nil] at own
  obtain ⟨f, builtin, cut, success⟩ := exists_builtin "A: nop; repeat(0) \x7b A: nop; \x7d"
    (labelledTokens 1 ++ droppedTokens 9) (by decide +kernel) own
  have once : ∀ name, Block.Once name 0 [] (.statement (labelledLine 1) (droppedBefore 9 .done)) := by
    intro name
    have single : ["A"].count name ≤ 1 := List.count_le_length
    have none : (droppedBefore 9 .done).copies 0 = [] := rfl
    rw [Block.Once, none, labelledLine_labels]
    refine ⟨⟨trivial, trivial, ?_, ?_⟩, single, fun _ here placed => absurd placed List.not_mem_nil⟩
    · rw [labelledLine_labels]
      exact single
    · exact fun _ here placed => absurd placed List.not_mem_nil
  obtain ⟨p, assembled⟩ := exists_program_of_sensible (isToken_of_tokenize builtin cut) own
    droppedBehind_sensible once
  obtain ⟨b, spells, read⟩ := readProgram_eq builtin cut success
  rw [own.eq spells, assembled] at read
  have defined : ∀ column, "A" ∈ (labelledLine column).labels := by simp
  obtain ⟨e, failed, _⟩ := refuses builtin cut (mem_language_of_builtin builtin cut success) own
    (List.Sublist.refl _) (defined 1) (defined 21)
  rw [failed] at read
  cases read

end Doubled

/-- A source of the language is rejected if at some time there are too many instructions, and only
then for its length. There are as many in the end, and no more at any time if all statements have
copies; a count of zero is worth one at most. -/
theorem readProgram_refuses_peaks (builtin : FrontEnd.builtin = .ok f)
    (cut : f.tokenize source = .ok tokens)
    (derives : tokens.map (·.kind) ∈ (contextFree rules).language) :
    ∃ b : Block, b.Spells tokens ∧ (2 ^ 24 < b.peak 0 → BadProgram f source) ∧
      (∀ e, f.readProgram source = .error (.assembly (.label e)) →
        e = .programTooLong ∨ e = .repeatTooLong → 2 ^ 24 < b.peak 0) ∧
      (b.copies 0).length ≤ b.peak 0 ∧ b.peak 0 ≤ b.extent ∧
      ((∀ s ∈ b.sites 0, s.Live) → b.peak 0 = (b.copies 0).length) := by
  obtain ⟨b, spells, read⟩ := exists_block_of_mem_language builtin cut derives
  have lexed := lexed_of_tokens (isToken_of_tokenize builtin cut)
  have least := length_le_peak b 0
  have most := peak_le_extent b 0
  rw [Nat.zero_add] at least most
  rw [← length_copies b 0] at least
  refine ⟨b, spells, fun long => ?_, fun e failed kind => ?_, least, most, fun live => ?_⟩
  · apply badProgram_of_refused read
    intro p assembled
    exact absurd (spells.met lexed assembled).1 (Nat.not_le.mpr long)
  · rcases spells.missed lexed (assemble_of_error read failed) with refused | ⟨_, _, other⟩
    · cases refused with
      | token fault =>
        rcases kind with rfl | rfl
        · exact fault.elim
        · exact fault.elim
      | long excess => exact excess
      | repeated excess => exact excess
      | twice _ => simp at kind
    · cases other
      simp at kind
  · rw [peak_eq_length live, length_copies, Nat.zero_add]

section Overlong

/-- A repeat that is as long as a program can be, and a line behind it, both dropped. -/
def droppedLength : Block :=
  .loop ⟨"I_LITERAL", "0", ⟨1, 8⟩⟩
    (.loop ⟨"I_LITERAL", "16777216", ⟨1, 20⟩⟩
      (.statement ⟨[], ⟨"IDENTIFIER", "nop", ⟨1, 32⟩⟩, []⟩ .done)
      (.statement ⟨[], ⟨"IDENTIFIER", "nop", ⟨1, 39⟩⟩, []⟩ .done)) .done

def droppedLengthTokens : List Token :=
  [⟨"KW_repeat", "repeat", ⟨1, 1⟩⟩, ⟨"(", "(", ⟨1, 7⟩⟩, ⟨"I_LITERAL", "0", ⟨1, 8⟩⟩,
    ⟨")", ")", ⟨1, 9⟩⟩, ⟨"\x7b", "\x7b", ⟨1, 11⟩⟩, ⟨"KW_repeat", "repeat", ⟨1, 13⟩⟩,
    ⟨"(", "(", ⟨1, 19⟩⟩, ⟨"I_LITERAL", "16777216", ⟨1, 20⟩⟩, ⟨")", ")", ⟨1, 28⟩⟩,
    ⟨"\x7b", "\x7b", ⟨1, 30⟩⟩, ⟨"IDENTIFIER", "nop", ⟨1, 32⟩⟩, ⟨";", ";", ⟨1, 35⟩⟩,
    ⟨"\x7d", "\x7d", ⟨1, 37⟩⟩, ⟨"IDENTIFIER", "nop", ⟨1, 39⟩⟩, ⟨";", ";", ⟨1, 42⟩⟩,
    ⟨"\x7d", "\x7d", ⟨1, 44⟩⟩]

def droppedLengthSource : String :=
  "repeat(0) \x7b repeat(16777216) \x7b nop; \x7d nop; \x7d"

theorem droppedLength_spells : droppedLength.Spells droppedLengthTokens :=
  .loop rfl rfl rfl rfl rfl
    (.loop rfl rfl rfl rfl rfl (.statement (.instruction rfl .none) rfl .done) rfl
      (.statement (.instruction rfl .none) rfl .done)) rfl .done

theorem exists_droppedLength : ∃ f, FrontEnd.builtin = .ok f ∧
    f.tokenize droppedLengthSource = .ok droppedLengthTokens ∧
    droppedLengthTokens.map (·.kind) ∈ (contextFree rules).language := by
  obtain ⟨f, builtin, cut, success⟩ := exists_builtin droppedLengthSource droppedLengthTokens
    (by decide +kernel) droppedLength_spells
  exact ⟨f, builtin, cut, mem_language_of_builtin builtin cut success⟩

theorem readProgram_refuses_droppedLength :
    ∃ f, FrontEnd.builtin = .ok f ∧ f.tokenize droppedLengthSource = .ok droppedLengthTokens ∧
      droppedLengthTokens.map (·.kind) ∈ (contextFree rules).language ∧
      droppedLength.peak 0 = 2 ^ 24 + 1 ∧ BadProgram f droppedLengthSource := by
  obtain ⟨f, builtin, cut, derives⟩ := exists_droppedLength
  obtain ⟨b, spells, refuses, _⟩ := readProgram_refuses_peaks builtin cut derives
  obtain rfl := droppedLength_spells.eq spells
  have peak : droppedLength.peak 0 = 2 ^ 24 + 1 := by decide
  exact ⟨f, builtin, cut, derives, peak, refuses (peak ▸ Nat.lt_succ_self _)⟩

theorem droppedLength_assemble : droppedLength.assemble = .error (.label .repeatTooLong) := by
  have read : Action.integerOf? "16777216" = some 16777216 := by decide
  simp [Block.assemble, droppedLength, Block.translate, Statement.translate, values, value,
    applyMarks, repeatCount, Translation.reference, Translation.literal, run_bind,
    Translation.run_onLabels, Labels.reference, Labels.new, Labels.place, Labels.expandRepeat,
    Labels.maxNames, Labels.maxLength, read]

/-- A program that is rejected for its length may be short when it is unrolled. -/
theorem exists_short_refused :
    ¬ ∀ {f : FrontEnd}, FrontEnd.builtin = .ok f → ∀ {source : String} {tokens : List Token},
      f.tokenize source = .ok tokens → tokens.map (·.kind) ∈ (contextFree rules).language →
      ∀ {b : Block}, b.Spells tokens → ∀ {e : LabelError},
        f.readProgram source = .error (.assembly (.label e)) →
          e = .programTooLong ∨ e = .repeatTooLong → 2 ^ 24 < (b.copies 0).length := by
  intro long
  obtain ⟨f, builtin, cut, derives⟩ := exists_droppedLength
  obtain ⟨b, spells, read⟩ := exists_block_of_mem_language builtin cut derives
  rw [droppedLength_spells.eq spells, droppedLength_assemble] at read
  have none := long builtin cut derives droppedLength_spells read (Or.inr rfl)
  rw [length_copies] at none
  exact absurd none (by decide)

end Overlong

end Reading

end TableAsm.Language
