import TableAsm.Proofs.Grammar.Coverage
import TableAsm.Proofs.Language.Loading
import TableAsm.Proofs.Language.Simulation

/-! Programs of the built-in language. A source whose tokens are accepted has one syntax, and its
program, if it has one, is that unrolled. -/
namespace TableAsm.Language

section Reading

variable {f : FrontEnd} {source : String} {tokens : List Token}

theorem isToken_of_tokenize (builtin : FrontEnd.builtin = .ok f)
    (cut : f.tokenize source = .ok tokens) : ∀ t ∈ tokens, IsToken t := by
  have cut := FrontEnd.tokenize_eq_ok.mp cut
  rw [(builtin_eq builtin).1] at cut
  exact fun t mem => Lexicon.exists_entry_of_tokenize cut mem

theorem mem_language_of_builtin (builtin : FrontEnd.builtin = .ok f)
    (cut : f.tokenize source = .ok tokens) (success : (f.grammar.parse tokens).error = none) :
    tokens.map (·.kind) ∈ (contextFree rules).language := by
  apply Grammar.mem_language_of_parse (builtin_eq builtin).2 (by decide) _ success
  exact fun t mem => (isToken_of_tokenize builtin cut t mem).unmarked

/-- Tokens that the grammar accepts are assembled by the syntax that they spell. -/
theorem readProgram_eq (builtin : FrontEnd.builtin = .ok f) (cut : f.tokenize source = .ok tokens)
    (success : (f.grammar.parse tokens).error = none) :
    ∃ b : Block, b.Spells tokens ∧ f.readProgram source = b.assemble.mapError .assembly := by
  obtain ⟨b, spells, made⟩ := exists_block_of_parse (builtin_eq builtin).2
    (fun t mem => (isToken_of_tokenize builtin cut t mem).unmarked) success
  refine ⟨b, spells, ?_⟩
  rw [FrontEnd.readProgram, cut]
  simp only [FrontEnd.parseTree, success]
  rw [made.assemble_eq]

/-- A source has tokens that the grammar accepts, or a part of it is to blame. -/
theorem exists_tokens_or_error (f : FrontEnd) (source : String) :
    (∃ tokens, f.tokenize source = .ok tokens ∧ (f.grammar.parse tokens).error = none) ∨
      (∃ e, f.readProgram source = .error (.lex e)) ∨
        ∃ e, f.readProgram source = .error (.parse e) := by
  unfold FrontEnd.readProgram FrontEnd.tokenize
  cases cut : f.lexicon.tokenize source with
  | error e => exact Or.inr (Or.inl ⟨e, rfl⟩)
  | ok tokens =>
    simp only [FrontEnd.parseTree, Except.mapError]
    cases outcome : (f.grammar.parse tokens).error with
    | some e => exact Or.inr (Or.inr ⟨e, rfl⟩)
    | none => exact Or.inl ⟨tokens, rfl, outcome⟩

/-- A source that is read has tokens that the grammar accepts. -/
theorem exists_tokens_of_readProgram {p : Program} (read : f.readProgram source = .ok p) :
    ∃ tokens, f.tokenize source = .ok tokens ∧ (f.grammar.parse tokens).error = none := by
  rcases exists_tokens_or_error f source with accepted | ⟨e, failed⟩ | ⟨e, failed⟩
  · exact accepted
  · rw [read] at failed
    cases failed
  · rw [read] at failed
    cases failed

/-- A block is the only one that its tokens spell. -/
theorem Block.Spells.eq {b b' : Block} (h : b.Spells tokens) (h' : b'.Spells tokens) : b' = b :=
  have ends : Ends [] := fun t rest none => by cases none
  (h'.unique h ends ends rfl).1

/-- A program that the built-in front end reads is not too long, and is the one block that the
tokens of the source spell, unrolled. -/
theorem readProgram_unrolls (builtin : FrontEnd.builtin = .ok f) {p : Program}
    (read : f.readProgram source = .ok p) :
    ∃ tokens b, f.tokenize source = .ok tokens ∧ Block.Spells b tokens ∧
      (∀ b' : Block, b'.Spells tokens → b' = b) ∧ p.length ≤ 2 ^ 24 ∧ b.Unrolls p := by
  obtain ⟨tokens, cut, success⟩ := exists_tokens_of_readProgram read
  obtain ⟨b, spells, same⟩ := readProgram_eq builtin cut success
  have lexed := lexed_of_tokens (isToken_of_tokenize builtin cut)
  rw [same] at read
  cases made : b.assemble with
  | error e =>
    rw [made] at read
    cases read
  | ok q =>
    rw [made] at read
    obtain rfl := Except.ok.inj read
    obtain ⟨short, unrolls⟩ := spells.assemble_spec lexed made
    exact ⟨tokens, b, cut, spells, fun b' other => spells.eq other, short, unrolls⟩

end Reading

section Sample

/-- A repeated line that refers to its own label. -/
def loopedLine : Block :=
  .loop ⟨"I_LITERAL", "2", ⟨1, 8⟩⟩
    (.statement ⟨[.label ⟨"LABEL", "A:", ⟨1, 13⟩⟩], ⟨"IDENTIFIER", "x", ⟨1, 16⟩⟩,
      [⟨"IDENTIFIER", "A", ⟨1, 18⟩⟩]⟩ .done) .done

def loopedTokens : List Token :=
  [⟨"KW_repeat", "repeat", ⟨1, 1⟩⟩, ⟨"(", "(", ⟨1, 7⟩⟩, ⟨"I_LITERAL", "2", ⟨1, 8⟩⟩,
    ⟨")", ")", ⟨1, 9⟩⟩, ⟨"\x7b", "\x7b", ⟨1, 11⟩⟩, ⟨"LABEL", "A:", ⟨1, 13⟩⟩,
    ⟨"IDENTIFIER", "x", ⟨1, 16⟩⟩, ⟨"IDENTIFIER", "A", ⟨1, 18⟩⟩, ⟨";", ";", ⟨1, 19⟩⟩,
    ⟨"\x7d", "\x7d", ⟨1, 21⟩⟩]

theorem loopedLine_spells : loopedLine.Spells loopedTokens :=
  .loop rfl rfl rfl rfl rfl
    (.statement (.marked (.label rfl) (.instruction rfl (.value (by decide) .none))) rfl .done)
    rfl .done

theorem exists_loopedLine : ∃ f, FrontEnd.builtin = .ok f ∧
    f.tokenize "repeat(2) \x7b A: x A; \x7d" = .ok loopedTokens ∧
    (f.grammar.parse loopedTokens).error = none :=
  exists_builtin _ loopedTokens (by decide +kernel) loopedLine_spells

theorem loopedLine_assemble :
    loopedLine.assemble = .ok [⟨"x", [.int 0], ∅, ∅⟩, ⟨"x", [.int 0], ∅, ∅⟩] := by
  have named : Action.labelName "A:" = "A" := by decide
  have twice : Action.integerOf? "2" = some 2 := by decide
  -- Only the look-ups in the index have to be rewritten; all else computes.
  simp only [Block.assemble, loopedLine, Block.translate, Statement.translate, values, value,
    applyMarks, Mark.apply, repeatCount, Translation.reference, Translation.literal, run_bind,
    run_pure, Translation.run_onLabels, Labels.reference, Labels.define, Labels.new, Labels.place,
    Labels.maxNames, Labels.maxLength, named, twice, Std.HashMap.getElem?_empty, Std.HashMap.getElem?_insert,
    Labels.placeOf?_placeholderAt, Labels.entryOf?_placeholderAt, List.push_toArray,
    List.size_toArray, List.nil_append, List.cons_append, List.length_nil, List.length_cons,
    zero_add, Nat.cast_ofNat, Int.reduceNeg, Int.reduceLE, Nat.reduceSub, Nat.reduceShiftLeft, Nat.reduceLeDiff, String.reduceEq,
    String.reduceBEq, Bool.false_eq_true, ↓reduceIte]
  rfl

theorem readProgram_unrolls_loopedLine :
    ∃ f p, FrontEnd.builtin = .ok f ∧
      f.readProgram "repeat(2) \x7b A: x A; \x7d" = .ok p ∧
      ∃ tokens b, f.tokenize "repeat(2) \x7b A: x A; \x7d" = .ok tokens ∧
        Block.Spells b tokens ∧ (∀ b' : Block, b'.Spells tokens → b' = b) ∧
        p.length ≤ 2 ^ 24 ∧ b.Unrolls p := by
  obtain ⟨f, builtin, cut, success⟩ := exists_loopedLine
  obtain ⟨b, spells, same⟩ := readProgram_eq builtin cut success
  rw [loopedLine_spells.eq spells, loopedLine_assemble] at same
  exact ⟨f, _, builtin, same, readProgram_unrolls builtin same⟩

end Sample

end TableAsm.Language
