import TableAsm.Grammar.Description
import TableAsm.Proofs.Lexicon.Stream

/-! The language of grammar descriptions. A description is a row of statements, and reading gives
one rule for each alternative, in their order. The name that is reserved for no symbol is not told
from a name that is yet to come: where a statement begins, a word spelled like it is passed over. -/
namespace TableAsm.RuleText

structure Statement where
  name : String
  alternatives : List (List String)

def Statement.rules (s : Statement) : List Rule := s.alternatives.map (Rule.make s.name)

inductive SpellsSymbols : List String → List Token → Prop where
  | none : SpellsSymbols [] []
  | word {t : Token} {symbols : List String} {ts : List Token} : t.kind = "IDENTIFIER" →
      SpellsSymbols symbols ts → SpellsSymbols (t.lexeme :: symbols) (t :: ts)
  | quoted {t : Token} {name : String} {symbols : List String} {ts : List Token} :
      t.kind = "LITERAL" → t.lexeme = "\"" ++ name ++ "\"" → name ≠ "" →
      SpellsSymbols symbols ts → SpellsSymbols (name :: symbols) (t :: ts)

inductive SpellsAlternatives : List (List String) → List Token → Prop where
  | last {symbols : List String} {stop : Token} {ts : List Token} : SpellsSymbols symbols ts →
      stop.kind = ";" → SpellsAlternatives [symbols] (ts ++ [stop])
  | further {symbols : List String} {bar : Token} {others : List (List String)}
      {ts us : List Token} : SpellsSymbols symbols ts → bar.kind = "|" →
      SpellsAlternatives others us → SpellsAlternatives (symbols :: others) (ts ++ bar :: us)

inductive Statement.Spells : Statement → List Token → Prop where
  | named {name equals : Token} {alternatives : List (List String)} {ts : List Token} :
      name.kind = "IDENTIFIER" → name.lexeme ≠ Symbol.undefined → name.lexeme ≠ Symbol.empty →
      equals.kind = "=" → SpellsAlternatives alternatives ts →
      Spells ⟨name.lexeme, alternatives⟩ (name :: equals :: ts)

/-- Tokens are statements in a row, apart from some that are passed over between them. -/
inductive Describes : List Token → List Statement → List Token → Prop where
  | done : Describes [] [] []
  | passed {t : Token} {dropped ts : List Token} {ss : List Statement} : t.kind = "IDENTIFIER" →
      t.lexeme = Symbol.undefined → Describes dropped ss ts → Describes (t :: dropped) ss (t :: ts)
  | statement {s : Statement} {dropped front ts : List Token} {ss : List Statement} :
      s.Spells front → Describes dropped ss ts → Describes dropped (s :: ss) (front ++ ts)

/-- With nothing passed over, the tokens are those of the statements one after the other. -/
theorem describes_nil_iff {ss : List Statement} {ts : List Token} : Describes [] ss ts ↔
    ∃ pieces, List.Forall₂ Statement.Spells ss pieces ∧ ts = pieces.flatten := by
  constructor
  · intro h
    generalize none : ([] : List Token) = dropped at h
    induction h with
    | done => exact ⟨[], .nil, rfl⟩
    | passed _ _ _ _ => cases none
    | statement spells _ ih =>
      obtain ⟨pieces, each, rfl⟩ := ih none
      exact ⟨_ :: pieces, .cons spells each, rfl⟩
  · rintro ⟨pieces, each, rfl⟩
    induction each with
    | nil => exact .done
    | cons spells _ ih => exact .statement spells ih

theorem Describes.sublist {dropped ts : List Token} {ss : List Statement}
    (h : Describes dropped ss ts) : dropped.Sublist ts := by
  induction h with
  | done => exact .slnil
  | passed _ _ _ ih => exact ih.cons_cons _
  | statement _ _ ih => exact ih.trans (List.sublist_append_right _ _)

theorem Describes.spelled {dropped ts : List Token} {ss : List Statement}
    (h : Describes dropped ss ts) {t : Token} (mem : t ∈ dropped) :
    t.kind = "IDENTIFIER" ∧ t.lexeme = Symbol.undefined := by
  induction h with
  | done => cases mem
  | passed kind spelled _ ih =>
    obtain rfl | later := List.mem_cons.mp mem
    · exact ⟨kind, spelled⟩
    · exact ih later
  | statement _ _ ih => exact ih mem

theorem quoted_injective {name other : String}
    (same : "\"" ++ name ++ "\"" = "\"" ++ other ++ "\"") : name = other := by
  have names := congrArg String.toList same
  simp only [String.toList_append, List.append_cancel_right_eq,
    List.append_cancel_left_eq] at names
  exact String.toList_injective names

section Uniqueness

variable {ts ts' u u' : List Token}

/-- Tokens that a row of symbols cannot go on with. -/
def Stops (ts : List Token) : Prop :=
  ∃ t rest, ts = t :: rest ∧ t.kind ≠ "IDENTIFIER" ∧ t.kind ≠ "LITERAL"

theorem SpellsSymbols.unique {symbols symbols' : List String} (h : SpellsSymbols symbols ts)
    (h' : SpellsSymbols symbols' ts') (stops : Stops u) (stops' : Stops u')
    (same : ts ++ u = ts' ++ u') : symbols = symbols' ∧ u = u' := by
  obtain ⟨stop, rest, rfl, notWord, notQuoted⟩ := stops
  obtain ⟨stop', rest', rfl, notWord', notQuoted'⟩ := stops'
  induction h generalizing symbols' ts' with
  | none =>
    cases h' with
    | none => exact ⟨rfl, same⟩
    | word kind _ =>
      obtain ⟨rfl, _⟩ := List.cons.inj same
      exact absurd kind notWord
    | quoted kind _ _ _ =>
      obtain ⟨rfl, _⟩ := List.cons.inj same
      exact absurd kind notQuoted
  | word kind _ ih =>
    cases h' with
    | none =>
      obtain ⟨rfl, _⟩ := List.cons.inj same
      exact absurd kind notWord'
    | word _ tail =>
      obtain ⟨rfl, behind⟩ := List.cons.inj same
      obtain ⟨rfl, others⟩ := ih tail behind
      exact ⟨rfl, others⟩
    | quoted kind' _ _ _ =>
      obtain ⟨rfl, _⟩ := List.cons.inj same
      rw [kind] at kind'
      exact absurd kind' (by decide)
  | quoted kind spelled _ _ ih =>
    cases h' with
    | none =>
      obtain ⟨rfl, _⟩ := List.cons.inj same
      exact absurd kind notQuoted'
    | word kind' _ =>
      obtain ⟨rfl, _⟩ := List.cons.inj same
      rw [kind] at kind'
      exact absurd kind' (by decide)
    | quoted _ spelled' _ tail =>
      obtain ⟨rfl, behind⟩ := List.cons.inj same
      obtain ⟨rfl, others⟩ := ih tail behind
      obtain rfl := quoted_injective (spelled.symm.trans spelled')
      exact ⟨rfl, others⟩

theorem stops_of_mark {mark : Token} (ends : mark.kind = ";" ∨ mark.kind = "|") :
    Stops (mark :: ts) := by
  refine ⟨mark, ts, rfl, ?_⟩
  rcases ends with kind | kind
  · rw [kind]
    decide
  · rw [kind]
    decide

/-- A row of symbols up to the mark that ends it, and the alternatives behind a bar. -/
theorem SpellsAlternatives.exists_first {alternatives : List (List String)}
    (h : SpellsAlternatives alternatives ts) :
    ∃ symbols others front mark back, alternatives = symbols :: others ∧
      ts = front ++ mark :: back ∧ SpellsSymbols symbols front ∧
      (mark.kind = ";" ∧ others = [] ∧ back = [] ∨
        mark.kind = "|" ∧ SpellsAlternatives others back) := by
  cases h with
  | last spells isStop => exact ⟨_, _, _, _, _, rfl, rfl, spells, .inl ⟨isStop, rfl, rfl⟩⟩
  | further spells isBar others => exact ⟨_, _, _, _, _, rfl, rfl, spells, .inr ⟨isBar, others⟩⟩

theorem SpellsAlternatives.unique {alternatives alternatives' : List (List String)}
    (h : SpellsAlternatives alternatives ts) (h' : SpellsAlternatives alternatives' ts')
    (same : ts ++ u = ts' ++ u') : alternatives = alternatives' ∧ u = u' := by
  induction h generalizing alternatives' ts' with
  | last spells isStop =>
    obtain ⟨_, _, _, _, _, rfl, rfl, spells', next⟩ := h'.exists_first
    rw [List.append_assoc, List.append_assoc] at same
    obtain ⟨rfl, behind⟩ := spells.unique spells' (stops_of_mark (.inl isStop))
      (stops_of_mark (next.imp And.left And.left)) same
    obtain ⟨rfl, rest⟩ := List.cons.inj behind
    rcases next with ⟨_, rfl, rfl⟩ | ⟨isBar, _⟩
    · exact ⟨rfl, rest⟩
    · exact absurd (isStop.symm.trans isBar) (by decide)
  | further spells isBar _ ih =>
    obtain ⟨_, _, _, _, _, rfl, rfl, spells', next⟩ := h'.exists_first
    rw [List.append_assoc, List.append_assoc] at same
    obtain ⟨rfl, behind⟩ := spells.unique spells' (stops_of_mark (.inr isBar))
      (stops_of_mark (next.imp And.left And.left)) same
    obtain ⟨rfl, rest⟩ := List.cons.inj behind
    rcases next with ⟨isStop, _, _⟩ | ⟨_, others⟩
    · exact absurd (isStop.symm.trans isBar) (by decide)
    · obtain ⟨rfl, later⟩ := ih others rest
      exact ⟨rfl, later⟩

/-- Tokens are described in one way at most, with the same tokens passed over. -/
theorem Describes.unique {dropped dropped' : List Token} {ss ss' : List Statement}
    (h : Describes dropped ss ts) (h' : Describes dropped' ss' ts) :
    dropped = dropped' ∧ ss = ss' := by
  induction h generalizing dropped' ss' with
  | done =>
    generalize none : ([] : List Token) = ts at h'
    cases h' with
    | done => exact ⟨rfl, rfl⟩
    | passed _ _ _ => cases none
    | statement spells _ =>
      cases spells
      cases none
  | @passed t dropped ts ss kind spelled _ ih =>
    generalize same : t :: ts = us at h'
    cases h' with
    | done => cases same
    | passed _ _ tail =>
      obtain ⟨rfl, rfl⟩ := List.cons.inj same
      obtain ⟨rfl, rfl⟩ := ih tail
      exact ⟨rfl, rfl⟩
    | statement spells _ =>
      cases spells with
      | named _ other _ _ _ =>
        obtain ⟨rfl, _⟩ := List.cons.inj same
        exact absurd spelled other
  | @statement s dropped front ts ss spells _ ih =>
    generalize same : front ++ ts = us at h'
    cases spells with
    | named _ other _ _ alternatives =>
      cases h' with
      | done => cases same
      | passed _ spelled _ =>
        obtain ⟨rfl, _⟩ := List.cons.inj same
        exact absurd spelled other
      | statement spells' tail =>
        cases spells' with
        | named _ _ _ _ alternatives' =>
          simp only [List.cons_append, List.cons.injEq] at same
          obtain ⟨rfl, _, same⟩ := same
          obtain ⟨rfl, rest⟩ := alternatives.unique alternatives' same
          subst rest
          obtain ⟨rfl, rfl⟩ := ih tail
          exact ⟨rfl, rfl⟩

end Uniqueness

section Steps

variable {stage next : Stage} {t : Token} {rule : Option Rule} {ts : List Token} {rs : List Rule}

theorem unquote?_eq_some {lexeme name : List Char} :
    unquote? lexeme = some name ↔ lexeme = '"' :: (name ++ ['"']) ∧ name ≠ [] := by
  constructor
  · intro found
    unfold unquote? at found
    split at found
    · rename_i rest
      split at found
      · rename_i closed
        simp only [Bool.and_eq_true, decide_eq_true_eq] at closed
        cases Option.some.inj found
        obtain ⟨front, rfl⟩ := List.getLast?_eq_some_iff.mp closed.1
        rw [List.dropLast_concat]
        refine ⟨rfl, fun none => ?_⟩
        simp [none] at closed
      · cases found
    · cases found
  · rintro ⟨rfl, some⟩
    have pos := List.length_pos_iff.mpr some
    simp [unquote?, pos]

theorem toList_quoted (name : String) :
    ("\"" ++ name ++ "\"").toList = '"' :: (name.toList ++ ['"']) := by
  simp only [String.toList_append]
  rfl

theorem isValid_make (lhs : String) (rhs : List String) : (Rule.make lhs rhs).isValid = true ↔
    lhs ≠ "" ∧ lhs ≠ Symbol.undefined ∧ lhs ≠ Symbol.empty ∧ lhs ≠ Symbol.endOfInput := by
  cases rhs <;> simp [Rule.isValid, Rule.make, and_assoc]

/-- What taking one token can do. -/
inductive Takes : Stage → Token → Stage → Option Rule → Prop where
  | passed {t : Token} : t.kind = "IDENTIFIER" → t.lexeme = Symbol.undefined →
      Takes .nameExpected t .nameExpected none
  | name {t : Token} : t.kind = "IDENTIFIER" → t.lexeme ≠ Symbol.undefined →
      Takes .nameExpected t (.equalsExpected t.lexeme) none
  | equals {t : Token} {lhs : String} : t.kind = "=" →
      Takes (.equalsExpected lhs) t (.alternative lhs []) none
  | word {t : Token} {lhs : String} {reversed : List String} : t.kind = "IDENTIFIER" →
      Takes (.alternative lhs reversed) t (.alternative lhs (t.lexeme :: reversed)) none
  | quoted {t : Token} {lhs name : String} {reversed : List String} : t.kind = "LITERAL" →
      t.lexeme = "\"" ++ name ++ "\"" → name ≠ "" →
      Takes (.alternative lhs reversed) t (.alternative lhs (name :: reversed)) none
  | stop {t : Token} {lhs : String} {reversed : List String} : t.kind = ";" →
      (Rule.make lhs reversed.reverse).isValid = true →
      Takes (.alternative lhs reversed) t .nameExpected (some (.make lhs reversed.reverse))
  | bar {t : Token} {lhs : String} {reversed : List String} : t.kind = "|" →
      (Rule.make lhs reversed.reverse).isValid = true →
      Takes (.alternative lhs reversed) t (.alternative lhs [])
        (some (.make lhs reversed.reverse))

theorem take_eq_ok_iff : take stage t = .ok (next, rule) ↔ Takes stage t next rule := by
  constructor
  · intro taken
    unfold take at taken
    split at taken
    · split at taken
      · rename_i kind
        split at taken
        · rename_i spelled
          cases taken
          exact .passed kind spelled
        · rename_i other
          cases taken
          exact .name kind other
      · cases taken
    · split at taken
      · rename_i kind
        cases taken
        exact .equals kind
      · cases taken
    · split at taken
      · rename_i kind
        cases taken
        exact .word kind
      · split at taken
        · rename_i kind
          split at taken
          · rename_i name inner
            cases taken
            obtain ⟨spelled, some⟩ := unquote?_eq_some.mp inner
            refine .quoted kind (String.toList_injective ?_) fun none => some ?_
            · rw [spelled, toList_quoted, String.toList_ofList]
            · rw [← String.toList_ofList (l := name), none]
              rfl
          · cases taken
        · split at taken
          · rename_i ends
            simp only at taken
            split at taken
            · cases taken
            · rename_i valid
              rw [Bool.not_eq_true, Bool.not_eq_false'] at valid
              split at taken
              · rename_i kind
                cases taken
                exact .stop kind valid
              · rename_i other
                cases taken
                simp only [Bool.or_eq_true, decide_eq_true_eq, other, or_false] at ends
                exact .bar ends valid
          · cases taken
  · intro h
    cases h with
    | passed kind spelled => simp [take, kind, spelled]
    | name kind other => simp [take, kind, other]
    | equals kind => simp [take, kind]
    | word kind => simp [take, kind]
    | @quoted _ _ name _ kind spelled some =>
      have inner : unquote? t.lexeme.toList = Option.some name.toList := by
        rw [unquote?_eq_some, spelled, toList_quoted]
        exact ⟨rfl, fun none => some (String.toList_injective none)⟩
      simp [take, kind, inner]
    | stop kind valid => simp [take, kind, valid]
    | bar kind valid => simp [take, kind, valid]

theorem read_cons_eq_ok_iff : read stage (t :: ts) = .ok rs ↔
    ∃ next rule later, Takes stage t next rule ∧ read next ts = .ok later ∧
      rs = rule.toList ++ later := by
  rw [read]
  constructor
  · intro made
    split at made
    · cases made
    · rename_i next rule taken
      cases rest : read next ts with
      | error e =>
        rw [rest] at made
        cases made
      | ok later =>
        rw [rest] at made
        cases made
        exact ⟨next, rule, later, take_eq_ok_iff.mp taken, rest, rfl⟩
  · rintro ⟨next, rule, later, taken, rest, rfl⟩
    rw [take_eq_ok_iff.mpr taken]
    simp only [rest]
    rfl

end Steps

section Reading

variable {stage next : Stage} {t : Token} {rule : Option Rule} {ts us : List Token}
  {rs later : List Rule} {lhs : String}

/-- Tokens describe rules, whatever is passed over. -/
def Gives (ts : List Token) (rs : List Rule) : Prop :=
  ∃ dropped ss, Describes dropped ss ts ∧ rs = ss.flatMap Statement.rules

/-- What the tokens left have to be at each stage, and the rules that they then give: a statement
that has begun is to be finished. -/
def Completes : Stage → List Token → List Rule → Prop
  | .nameExpected, ts, rs => Gives ts rs
  | .equalsExpected lhs, ts, rs => ∃ equals alternatives front back later, equals.kind = "=" ∧
      SpellsAlternatives alternatives front ∧ ts = equals :: (front ++ back) ∧
      lhs ≠ Symbol.empty ∧ Gives back later ∧
      rs = alternatives.map (Rule.make lhs) ++ later
  | .alternative lhs reversed, ts, rs => ∃ symbols others front back later,
      SpellsAlternatives (symbols :: others) front ∧ ts = front ++ back ∧ lhs ≠ Symbol.empty ∧
      Gives back later ∧
      rs = Rule.make lhs (reversed.reverse ++ symbols) :: (others.map (Rule.make lhs) ++ later)

theorem SpellsAlternatives.cons {symbol : String} {symbols : List String}
    {others : List (List String)}
    (first : ∀ {ts}, SpellsSymbols symbols ts → SpellsSymbols (symbol :: symbols) (t :: ts))
    (h : SpellsAlternatives (symbols :: others) ts) :
    SpellsAlternatives ((symbol :: symbols) :: others) (t :: ts) := by
  cases h with
  | last spells isStop => exact .last (first spells) isStop
  | further spells isBar rest => exact .further (first spells) isBar rest

/-- A token that is taken goes in front of what is to be finished behind it. -/
theorem Takes.completes (h : Takes stage t next rule) (rest : Completes next ts later) :
    Completes stage (t :: ts) (rule.toList ++ later) := by
  cases h with
  | passed kind spelled =>
    obtain ⟨dropped, ss, describes, rfl⟩ := rest
    exact ⟨t :: dropped, ss, .passed kind spelled describes, rfl⟩
  | name kind other =>
    obtain ⟨equals, alternatives, front, back, _, isEquals, spells, rfl, named, tail, rfl⟩ := rest
    obtain ⟨dropped, ss, describes, rfl⟩ := tail
    exact ⟨dropped, _, .statement (.named kind other named isEquals spells) describes, rfl⟩
  | equals kind =>
    obtain ⟨symbols, others, front, back, _, spells, rfl, named, tail, rfl⟩ := rest
    exact ⟨t, symbols :: others, front, back, _, kind, spells, rfl, named, tail, rfl⟩
  | @word _ lhs reversed kind =>
    obtain ⟨symbols, others, front, back, _, spells, rfl, named, tail, rfl⟩ := rest
    refine ⟨t.lexeme :: symbols, others, t :: front, back, _, spells.cons (.word kind), rfl, named,
      tail, ?_⟩
    simp
  | @quoted _ lhs name reversed kind spelled some =>
    obtain ⟨symbols, others, front, back, _, spells, rfl, named, tail, rfl⟩ := rest
    refine ⟨name :: symbols, others, t :: front, back, _, spells.cons (.quoted kind spelled some),
      rfl, named, tail, ?_⟩
    simp
  | stop kind valid =>
    obtain ⟨_, _, named, _⟩ := (isValid_make _ _).mp valid
    refine ⟨[], [], [t], ts, later, .last .none kind, rfl, named, rest, ?_⟩
    simp
  | bar kind valid =>
    obtain ⟨symbols, others, front, back, _, spells, rfl, named, tail, rfl⟩ := rest
    refine ⟨[], symbols :: others, t :: front, back, _, .further .none kind spells, rfl, named,
      tail, ?_⟩
    simp

theorem completes_of_read (made : read stage ts = .ok rs) : Completes stage ts rs := by
  induction ts generalizing stage rs with
  | nil =>
    cases stage with
    | nameExpected =>
      cases made
      exact ⟨[], [], .done, rfl⟩
    | equalsExpected lhs => cases made
    | alternative lhs reversed => cases made
  | cons t ts ih =>
    obtain ⟨next, rule, later, taken, rest, rfl⟩ := read_cons_eq_ok_iff.mp made
    exact taken.completes (ih rest)

theorem SpellsSymbols.read {symbols reversed : List String} (h : SpellsSymbols symbols ts)
    (rest : RuleText.read (.alternative lhs (symbols.reverse ++ reversed)) us = .ok rs) :
    RuleText.read (.alternative lhs reversed) (ts ++ us) = .ok rs := by
  induction h generalizing reversed with
  | none => exact rest
  | word kind _ ih =>
    refine read_cons_eq_ok_iff.mpr ⟨_, _, rs, .word kind, ih ?_, rfl⟩
    simpa using rest
  | quoted kind spelled some _ ih =>
    refine read_cons_eq_ok_iff.mpr ⟨_, _, rs, .quoted kind spelled some, ih ?_, rfl⟩
    simpa using rest

theorem SpellsAlternatives.read {alternatives : List (List String)}
    (h : SpellsAlternatives alternatives ts) (valid : ∀ rhs, (Rule.make lhs rhs).isValid = true)
    (rest : RuleText.read .nameExpected us = .ok rs) :
    RuleText.read (.alternative lhs []) (ts ++ us) =
      .ok (alternatives.map (Rule.make lhs) ++ rs) := by
  induction h with
  | last spells isStop =>
    rw [List.append_assoc]
    apply spells.read
    refine read_cons_eq_ok_iff.mpr ⟨_, _, rs, .stop isStop (valid _), rest, ?_⟩
    simp
  | further spells isBar _ ih =>
    rw [List.append_assoc]
    apply spells.read
    refine read_cons_eq_ok_iff.mpr ⟨_, _, _, .bar isBar (valid _), ih, ?_⟩
    simp

/-- Words of a description name something, and not the end of input. -/
def WellNamed (ts : List Token) : Prop :=
  ∀ t ∈ ts, t.kind = "IDENTIFIER" → t.lexeme ≠ "" ∧ t.lexeme ≠ Symbol.endOfInput

theorem Describes.read {dropped : List Token} {ss : List Statement} (h : Describes dropped ss ts)
    (named : WellNamed ts) :
    RuleText.read .nameExpected ts = .ok (ss.flatMap Statement.rules) := by
  induction h with
  | done => rfl
  | passed kind spelled _ ih =>
    have tail := ih fun t mem => named t (List.mem_cons_of_mem _ mem)
    exact read_cons_eq_ok_iff.mpr ⟨_, _, _, .passed kind spelled, tail, rfl⟩
  | statement spells _ ih =>
    have tail := ih fun t mem => named t (List.mem_append_right _ mem)
    cases spells with
    | named kind other notEmpty isEquals alternatives =>
      obtain ⟨some, notEnd⟩ := named _ List.mem_cons_self kind
      have valid := fun rhs => (isValid_make _ rhs).mpr ⟨some, other, notEmpty, notEnd⟩
      have body := alternatives.read valid tail
      have opened := read_cons_eq_ok_iff.mpr ⟨_, _, _, .equals isEquals, body, rfl⟩
      exact read_cons_eq_ok_iff.mpr ⟨_, _, _, .name kind other, opened, rfl⟩

theorem read_eq_ok_iff (named : WellNamed ts) : read .nameExpected ts = .ok rs ↔ Gives ts rs := by
  constructor
  · exact completes_of_read
  · rintro ⟨dropped, ss, describes, rfl⟩
    exact describes.read named

end Reading

section Texts

variable {description : String} {tokens : List Token}

theorem wellNamed_of_tokenize (cut : lexicon.tokenize description = .ok tokens) :
    WellNamed tokens := by
  intro t mem kind
  obtain ⟨e, known, same, accepted⟩ := Lexicon.exists_entry_of_tokenize cut mem
  have refused : ∀ e ∈ lexicon.entries, e.kind = "IDENTIFIER" →
      e.matcher.accepts [] = false ∧ e.matcher.accepts ['$'] = false := by decide +kernel
  obtain ⟨noText, noMark⟩ := refused e known (same.trans kind)
  constructor
  · intro empty
    rw [empty] at accepted
    exact absurd (noText.symm.trans accepted) Bool.false_ne_true
  · intro mark
    rw [mark] at accepted
    exact absurd (noMark.symm.trans accepted) Bool.false_ne_true

/-- A text that is cut into tokens describes rules when they are statements in a row, one rule for
each alternative. Words for no symbol may stand between the statements, and these are all that is
passed over; which tokens they are, and what the statements are, is determined. -/
theorem rules_eq_ok_iff (cut : lexicon.tokenize description = .ok tokens) :
    (∀ rs, rules description = .ok rs ↔
      ∃ dropped ss, Describes dropped ss tokens ∧ rs = ss.flatMap Statement.rules) ∧
    (∀ dropped ss, Describes dropped ss tokens →
      (∀ dropped' ss', Describes dropped' ss' tokens → dropped' = dropped ∧ ss' = ss) ∧
      dropped.Sublist tokens ∧
      (∀ t ∈ dropped, t.kind = "IDENTIFIER" ∧ t.lexeme = Symbol.undefined) ∧
      (dropped = [] ↔
        ∃ pieces, List.Forall₂ Statement.Spells ss pieces ∧ tokens = pieces.flatten)) := by
  constructor
  · intro rs
    rw [rules, cut]
    exact read_eq_ok_iff (wellNamed_of_tokenize cut)
  · intro dropped ss describes
    refine ⟨fun _ _ other => other.unique describes, describes.sublist,
      fun _ => describes.spelled, ?_⟩
    rw [← describes_nil_iff]
    constructor
    · rintro rfl
      exact describes
    · intro whole
      exact (describes.unique whole).1

def twoLetters : Statement := ⟨"a", [["b"], ["c"]]⟩

/-- The tokens of a statement with two alternatives, of which the second is quoted. -/
def twoLettersTokens : List Token :=
  [⟨"IDENTIFIER", "a", ⟨1, 11⟩⟩, ⟨"=", "=", ⟨1, 13⟩⟩, ⟨"IDENTIFIER", "b", ⟨1, 15⟩⟩,
    ⟨"|", "|", ⟨1, 17⟩⟩, ⟨"LITERAL", "\"c\"", ⟨1, 19⟩⟩, ⟨";", ";", ⟨1, 23⟩⟩]

theorem twoLetters_spells : twoLetters.Spells twoLettersTokens := by
  have quoted : SpellsSymbols ["c"] [⟨"LITERAL", "\"c\"", ⟨1, 19⟩⟩] :=
    .quoted rfl rfl (by decide) .none
  have word := SpellsSymbols.word (t := ⟨"IDENTIFIER", "b", ⟨1, 15⟩⟩) rfl .none
  have last := SpellsAlternatives.last quoted (rfl : (⟨";", ";", ⟨1, 23⟩⟩ : Token).kind = _)
  have both := SpellsAlternatives.further word (rfl : (⟨"|", "|", ⟨1, 17⟩⟩ : Token).kind = _) last
  exact .named (rfl : (⟨"IDENTIFIER", "a", ⟨1, 11⟩⟩ : Token).kind = _) (by decide) (by decide)
    (rfl : (⟨"=", "=", ⟨1, 13⟩⟩ : Token).kind = _) both

theorem rules_eq_ok_iff_twoLetters :
    lexicon.tokenize "UNDEFINED a = b | \"c\" ;" =
        .ok (⟨"IDENTIFIER", "UNDEFINED", ⟨1, 1⟩⟩ :: twoLettersTokens) ∧
      rules "UNDEFINED a = b | \"c\" ;" = .ok [⟨"a", ["b"]⟩, ⟨"a", ["c"]⟩] := by
  have cut : lexicon.tokenize "UNDEFINED a = b | \"c\" ;" =
    .ok (⟨"IDENTIFIER", "UNDEFINED", ⟨1, 1⟩⟩ :: twoLettersTokens) := by decide +kernel
  exact ⟨cut, ((rules_eq_ok_iff cut).1 _).mpr
    ⟨_, _, .passed rfl rfl (.statement twoLetters_spells .done), rfl⟩⟩

/-- A word in front of the only statement leaves no trace in the rules. -/
theorem exists_word_dropped :
    ¬ ∀ (description : String) (tokens : List Token), lexicon.tokenize description = .ok tokens →
      ∀ rs, rules description = .ok rs ↔ ∃ ss pieces,
        List.Forall₂ Statement.Spells ss pieces ∧ tokens = pieces.flatten ∧
          rs = ss.flatMap Statement.rules := by
  intro whole
  have cut : lexicon.tokenize "UNDEFINED start = \"a\" ;" =
    .ok [⟨"IDENTIFIER", "UNDEFINED", ⟨1, 1⟩⟩, ⟨"IDENTIFIER", "start", ⟨1, 11⟩⟩,
      ⟨"=", "=", ⟨1, 17⟩⟩, ⟨"LITERAL", "\"a\"", ⟨1, 19⟩⟩, ⟨";", ";", ⟨1, 23⟩⟩] := by
    decide +kernel
  have made : rules "UNDEFINED start = \"a\" ;" = .ok [⟨"start", ["a"]⟩] := by
    decide +kernel
  obtain ⟨ss, pieces, each, tokens, _⟩ := (whole _ _ cut _).mp made
  cases each with
  | nil => cases tokens
  | cons spells _ =>
    cases spells with
    | named _ other _ _ _ =>
      obtain ⟨rfl, _⟩ := List.cons.inj tokens
      exact other rfl

end Texts

end TableAsm.RuleText
