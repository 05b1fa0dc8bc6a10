import TableAsm.Proofs.Grammar.Prefixes
import TableAsm.Proofs.Language.Places
import TableAsm.Proofs.Language.Program
import TableAsm.Proofs.Lexicon.Printing
import TableAsm.Proofs.Pattern.Characters

/-! Layout of a source in the built-in language. A line feed ends every token and is thrown away,
and the places of tokens decide nothing about a program. So a source can be laid out with each
token on a line of its own. -/
namespace TableAsm.Language

section LineFeeds

variable {e : Entry} {w : List Char}

theorem accepts_of_classify (classified : Lexicon.classify ⟨entries⟩ w = some e) :
    e ∈ entries ∧ e.matcher.accepts w = true :=
  ⟨List.mem_of_find?_eq_some classified,
    List.find?_some (p := fun e : Entry => e.matcher.accepts w) classified⟩

/-- A text with a line feed in it is accepted only as one of blanks. -/
theorem blank_of_newline (mem : e ∈ entries) (accepted : e.matcher.accepts w = true)
    (newline : '\n' ∈ w) : ∀ c ∈ w, blanks.contains c = true := by
  have spaced : ∀ e ∈ entries,
      e.matcher.avoids '\n' = true ∨ e.matcher = .pattern spacePattern.whole := by decide
  rcases spaced e mem with avoids | space
  · exact absurd newline (Matcher.not_mem_of_accepts avoids accepted)
  · rw [space, Matcher.accepts_pattern] at accepted
    obtain ⟨u, _, rfl, ⟨ws, rfl, each, -, -⟩, -, rfl⟩ :=
      (Pattern.foundIn_whole (q := spacePattern) rfl w).mp accepted
    rw [List.append_nil]
    intro c inside
    obtain ⟨x, turn, inside⟩ := List.mem_flatten.mp inside
    obtain ⟨d, rfl, blank⟩ := each x turn
    obtain rfl := List.mem_singleton.mp inside
    exact blank

theorem head_of_kept (mem : e ∈ entries) (kept : e.ignored = false)
    (accepted : e.matcher.accepts w = true) :
    ∃ c rest, w = c :: rest ∧ blanks.contains c = false := by
  have outside : ∀ e ∈ entries, e.ignored = true ∨ e.matcher.beginsOutside blanks = true := by
    decide
  rcases outside e mem with ignored | outside
  · rw [kept] at ignored
    cases ignored
  · exact Matcher.head_of_accepts outside accepted

theorem lineWise : Lexicon.LineWise ⟨entries⟩ := by
  have refused : ∀ w c, '\n' ∈ w → c ∈ w → blanks.contains c = false →
      Lexicon.classify ⟨entries⟩ w = none := by
    intro w c newline inside outside
    cases classified : Lexicon.classify ⟨entries⟩ w with
    | none => rfl
    | some e =>
      obtain ⟨mem, accepted⟩ := accepts_of_classify classified
      rw [blank_of_newline mem accepted newline c inside] at outside
      cases outside
  refine ⟨⟨patternEntry "WHITESPACE" spacePattern true, by decide +kernel, rfl⟩,
    fun w e classified kept newline => ?_, fun w e classified kept => ?_,
    fun c w e classified kept => ?_⟩
  -- a kept text begins with a character that is no blank, so none goes with a line feed
  all_goals
    obtain ⟨mem, accepted⟩ := accepts_of_classify classified
    obtain ⟨d, rest, same, outside⟩ := head_of_kept mem kept accepted
  · rw [refused w d newline (by simp [same]) outside] at classified
    cases classified
  · exact refused _ d (by simp) (by simp [same]) outside
  · obtain ⟨rfl, -⟩ := List.cons.inj same
    exact refused _ c (by simp) (by simp) outside

end LineFeeds

section Reading

variable {f : FrontEnd} {source text : String} {tokens others : List Token}

theorem read_of_same_tokens (builtin : FrontEnd.builtin = .ok f)
    (cut : f.tokenize source = .ok tokens) (cut' : f.tokenize text = .ok others)
    (same : others.map Token.atStart = tokens.map Token.atStart) {p : Program}
    (read : f.readProgram source = .ok p) : f.readProgram text = .ok p := by
  obtain ⟨_, again, success⟩ := exists_tokens_of_readProgram read
  obtain rfl := Except.ok.inj (cut.symm.trans again)
  have kinds : others.map (·.kind) = tokens.map (·.kind) := by
    simpa [List.map_map, Function.comp_def, Token.atStart] using
      congrArg (List.map fun t : Token => t.kind) same
  have derives := mem_language_of_builtin builtin cut success
  have success' : (f.grammar.parse others).error = none :=
    Grammar.parse_of_mem_language (builtin_eq builtin).2 (by decide) (kinds ▸ derives)
  obtain ⟨b, spells, made⟩ := readProgram_eq builtin cut success
  obtain ⟨b', spells', made'⟩ := readProgram_eq builtin cut' success'
  -- both blocks are one when their tokens are moved to the start
  have moved : b'.atStart = b.atStart := by
    have spelled := spells'.atStart
    rw [same] at spelled
    exact spells.atStart.eq spelled
  have outcome := b'.assemble_atStart
  rw [moved, b.assemble_atStart] at outcome
  rw [made] at read
  rw [made']
  cases first : b.assemble <;> cases second : b'.assemble <;> simp_all [Except.mapError]

/-- Sources whose tokens differ in their places only stand for the same programs. -/
theorem readProgram_eq_ok_iff (builtin : FrontEnd.builtin = .ok f)
    (cut : f.tokenize source = .ok tokens) (cut' : f.tokenize text = .ok others)
    (same : others.map Token.atStart = tokens.map Token.atStart) (p : Program) :
    f.readProgram text = .ok p ↔ f.readProgram source = .ok p :=
  ⟨read_of_same_tokens builtin cut' cut same.symm, read_of_same_tokens builtin cut cut' same⟩

/-- The tokens of a source that are printed one to a line are its tokens again, each at the start
of its line, and the printed text stands for the same programs. -/
theorem tokenize_joinLines (builtin : FrontEnd.builtin = .ok f)
    (cut : f.tokenize source = .ok tokens) :
    f.tokenize (joinLines (tokens.map (·.lexeme))) =
        .ok (tokens.mapIdx fun k t => { t with position := ⟨k + 1, 1⟩ }) ∧
      ∀ p, f.readProgram (joinLines (tokens.map (·.lexeme))) = .ok p ↔
        f.readProgram source = .ok p := by
  have printed : f.tokenize (joinLines (tokens.map (·.lexeme))) =
      .ok (tokens.mapIdx fun k t => { t with position := ⟨k + 1, 1⟩ }) := by
    have text : (joinLines (tokens.map (·.lexeme))).toList = Lexicon.lines tokens := by
      rw [toList_joinLines, List.flatMap_map]
      rfl
    have lexicon := (builtin_eq builtin).1
    rw [FrontEnd.tokenize, lexicon] at cut ⊢
    cases raw : Lexicon.tokenize ⟨entries⟩ source with
    | error e =>
      rw [raw] at cut
      cases cut
    | ok ts =>
      rw [raw] at cut
      obtain rfl := Except.ok.inj cut
      rw [lineWise.tokenize_lines raw text]
      rfl
  refine ⟨printed, readProgram_eq_ok_iff builtin cut printed ?_⟩
  refine List.ext_getElem? fun k => ?_
  simp only [List.getElem?_map, List.getElem?_mapIdx]
  cases tokens[k]? <;> rfl

theorem tokenize_joinLines_loopedLine :
    ∃ f, FrontEnd.builtin = .ok f ∧
      f.tokenize "repeat(2) \x7b A: x A; \x7d" = .ok loopedTokens ∧
      f.tokenize (joinLines ["repeat", "(", "2", ")", "\x7b", "A:", "x", "A", ";", "\x7d"]) =
        .ok (loopedTokens.mapIdx fun k t => { t with position := ⟨k + 1, 1⟩ }) ∧
      f.readProgram (joinLines ["repeat", "(", "2", ")", "\x7b", "A:", "x", "A", ";", "\x7d"]) =
        .ok [⟨"x", [.int 0], ∅, ∅⟩, ⟨"x", [.int 0], ∅, ∅⟩] := by
  obtain ⟨f, builtin, cut, success⟩ := exists_loopedLine
  obtain ⟨b, spells, read⟩ := readProgram_eq builtin cut success
  rw [loopedLine_spells.eq spells, loopedLine_assemble] at read
  obtain ⟨printed, same⟩ := tokenize_joinLines builtin cut
  exact ⟨f, builtin, cut, printed, (same _).mpr read⟩

end Reading

end TableAsm.Language
