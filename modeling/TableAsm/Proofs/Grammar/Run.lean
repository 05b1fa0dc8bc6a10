import TableAsm.Grammar.Parse

/-! Runs of the parser. `Move` lists what one step can do; `Reaches` chains steps and collects
their events. A run that halts within its fuel gives the events and the outcome of the only chain
that ends where no step follows. -/
namespace TableAsm

/-- The token at which a parse cannot go on. -/
def ParseError.found? : ParseError → Option Token
  | noRule _ found | endExpected found | kindExpected _ found => some found
  | exhausted _ | cutOff _ => none

namespace Parser

variable {g : Grammar} {mark : Token}

/-- What a step can do: the empty symbol is dropped, a nonterminal expanded, a token matched. -/
inductive Move (g : Grammar) (mark : Token) : Parser → Option ParseEvent → Parser → Prop where
  | erase (below : List String) (rest : List Token) :
      Move g mark ⟨Symbol.empty :: below, rest⟩ none ⟨below, rest⟩
  | expand {s : String} {below : List String} {rest : List Token} {r : Rule} :
      s ≠ Symbol.empty → g.isNonterminal s = true →
        g.ruleFor s (lookahead ⟨s :: below, rest⟩ mark).kind = some r →
        Move g mark ⟨s :: below, rest⟩ (some (.expand r)) ⟨r.rhs ++ below, rest⟩
  | accept {t : Token} (below : List String) (rest : List Token) :
      t.kind ≠ Symbol.empty → g.isNonterminal t.kind = false → t.kind ≠ Symbol.endOfInput →
        Move g mark ⟨t.kind :: below, t :: rest⟩ (some (.accept t)) ⟨below, rest⟩

theorem Move.step_eq {p q : Parser} {event : Option ParseEvent} (h : Move g mark p event q) :
    p.step g mark = .next q event := by
  cases h with
  | erase below rest => simp [step]
  | expand ne named rule => simp [step, ne, named, rule]
  | accept below rest ne terminal notEnd =>
    simp [step, ne, terminal, notEnd, lookahead]

theorem step_erase (g : Grammar) (mark : Token) (below : List String) (rest : List Token) :
    step g mark ⟨Symbol.empty :: below, rest⟩ = .next ⟨below, rest⟩ none :=
  (Move.erase below rest).step_eq

theorem step_expand (below : List String) (rest : List Token) {s : String} {r : Rule}
    (ne : s ≠ Symbol.empty) (named : g.isNonterminal s = true)
    (rule : g.ruleFor s (lookahead ⟨s :: below, rest⟩ mark).kind = some r) :
    step g mark ⟨s :: below, rest⟩ = .next ⟨r.rhs ++ below, rest⟩ (some (.expand r)) :=
  (Move.expand ne named rule).step_eq

theorem step_accept (g : Grammar) (mark : Token) (below : List String) (rest : List Token)
    {t : Token} (ne : t.kind ≠ Symbol.empty) (terminal : g.isNonterminal t.kind = false)
    (notEnd : t.kind ≠ Symbol.endOfInput) :
    step g mark ⟨t.kind :: below, t :: rest⟩ = .next ⟨below, rest⟩ (some (.accept t)) :=
  (Move.accept below rest ne terminal notEnd).step_eq

theorem move_of_step (marked : mark.kind = Symbol.endOfInput) {p q : Parser}
    {event : Option ParseEvent} (h : p.step g mark = .next q event) : Move g mark p event q := by
  obtain ⟨stack, rest⟩ := p
  cases stack with
  | nil => cases h
  | cons top below =>
    simp only [step] at h
    split at h
    · rename_i empty
      cases h
      exact empty ▸ .erase below rest
    · rename_i ne
      split at h
      · rename_i named
        split at h
        · rename_i r found
          cases h
          exact .expand ne named found
        · cases h
      · rename_i terminal
        split at h
        · split at h <;> cases h
        · rename_i notEnd
          split at h
          · rename_i same
            cases h
            cases rest with
            | nil => exact absurd (same.trans marked) notEnd
            | cons t rest =>
              have top_eq : top = t.kind := same
              subst top_eq
              exact .accept below rest ne (by simpa using terminal) notEnd
          · cases h

/-- A parse succeeds where the end mark is on top and next. -/
theorem success_iff {p : Parser} : p.step g mark = .stop none ↔
    ∃ below, p.stack = Symbol.endOfInput :: below ∧ g.isNonterminal Symbol.endOfInput = false ∧
      (p.lookahead mark).kind = Symbol.endOfInput := by
  constructor
  · intro h
    obtain ⟨stack, rest⟩ := p
    cases stack with
    | nil => cases h
    | cons top below =>
      simp only [step] at h
      split at h
      · cases h
      · split at h
        · split at h <;> cases h
        · rename_i terminal
          split at h
          · rename_i isMark
            split at h
            · rename_i ended
              subst isMark
              exact ⟨below, rfl, Bool.eq_false_iff.mpr terminal, of_decide_eq_true ended⟩
            · cases h
          · split at h <;> cases h
  · rintro ⟨below, stack, terminal, ended⟩
    obtain ⟨_, rest⟩ := p
    obtain rfl : _ = Symbol.endOfInput :: below := stack
    have ne : Symbol.endOfInput ≠ Symbol.empty := by decide
    have isEnd : (lookahead ⟨Symbol.endOfInput :: below, rest⟩ mark).isEndOfInput = true :=
      decide_eq_true ended
    simp [step, ne, terminal, isEnd]

/-- Why no step follows where something is left to derive, by what is on the stack and next. -/
inductive Refuses (g : Grammar) : List String → Token → ParseError → Prop where
  | noRule {s : String} {below : List String} {found : Token} : s ≠ Symbol.empty →
      g.isNonterminal s = true → g.ruleFor s found.kind = none →
      Refuses g (s :: below) found (.noRule s found)
  | endExpected {below : List String} {found : Token} :
      g.isNonterminal Symbol.endOfInput = false → found.isEndOfInput = false →
      Refuses g (Symbol.endOfInput :: below) found (.endExpected found)
  | kindExpected {s : String} {below : List String} {found : Token} : s ≠ Symbol.empty →
      g.isNonterminal s = false → s ≠ Symbol.endOfInput → s ≠ found.kind →
      Refuses g (s :: below) found (.kindExpected s found)

theorem refuses_iff {p : Parser} {e : ParseError} (nonempty : p.stack ≠ []) :
    p.step g mark = .stop (some e) ↔ Refuses g p.stack (p.lookahead mark) e := by
  obtain ⟨stack, rest⟩ := p
  constructor
  · intro h
    cases stack with
    | nil => exact absurd rfl nonempty
    | cons top below =>
      simp only [step] at h
      split at h
      · cases h
      · rename_i ne
        split at h
        · rename_i named
          split at h
          · cases h
          · rename_i missing
            cases h
            exact .noRule ne named missing
        · rename_i terminal
          split at h
          · rename_i isMark
            split at h
            · cases h
            · rename_i more
              cases h
              subst isMark
              exact .endExpected (Bool.eq_false_iff.mpr terminal) (Bool.eq_false_iff.mpr more)
          · rename_i notEnd
            split at h
            · cases h
            · rename_i other
              cases h
              exact .kindExpected ne (Bool.eq_false_iff.mpr terminal) notEnd other
  · intro h
    generalize next : lookahead ⟨stack, rest⟩ mark = found at h
    cases h with
    | noRule ne named missing => simp [step, next, ne, named, missing]
    | endExpected terminal more =>
      have ne : Symbol.endOfInput ≠ Symbol.empty := by decide
      simp [step, next, ne, terminal, more]
    | kindExpected ne terminal notEnd other => simp [step, next, ne, terminal, notEnd, other]

/-- A parse that has something left to derive fails at the next token. -/
theorem found_of_failure {p : Parser} {e : ParseError} (h : p.step g mark = .stop (some e))
    (nonempty : p.stack ≠ []) : e.found? = some (p.lookahead mark) := by
  have refused := (refuses_iff nonempty).mp h
  generalize p.stack = stack, p.lookahead mark = found at refused ⊢
  cases refused <;> rfl

/-- A chain of steps and the events on the way. -/
inductive Reaches (g : Grammar) (mark : Token) : Parser → List ParseEvent → Parser → Prop where
  | refl (p : Parser) : Reaches g mark p [] p
  | step {p q r : Parser} {event : Option ParseEvent} {events : List ParseEvent} :
      p.step g mark = .next q event → Reaches g mark q events r →
        Reaches g mark p (event.toList ++ events) r

theorem Reaches.trans {p q r : Parser} {before after : List ParseEvent}
    (first : Reaches g mark p before q) (second : Reaches g mark q after r) :
    Reaches g mark p (before ++ after) r := by
  induction first with
  | refl p => exact second
  | step h _ ih =>
    rw [List.append_assoc]
    exact .step h (ih second)

theorem Reaches.one {p q : Parser} {event : Option ParseEvent}
    (h : p.step g mark = .next q event) : Reaches g mark p event.toList q := by
  have chain := Reaches.step h (.refl q)
  rwa [List.append_nil] at chain

/-- A chain has a place before each of its events. -/
theorem Reaches.split {p r : Parser} {before after : List ParseEvent} {event : ParseEvent}
    (chain : Reaches g mark p (before ++ event :: after) r) :
    ∃ q q', Reaches g mark p before q ∧ q.step g mark = .next q' (some event) ∧
      Reaches g mark q' after r := by
  generalize all : before ++ event :: after = events at chain
  induction chain generalizing before with
  | refl p => cases before <;> cases all
  | @step p p' r first later moved rest ih =>
    cases first with
    | none =>
      obtain ⟨q, q', chain, next, tail⟩ := ih all
      have front := Reaches.step moved chain
      exact ⟨q, q', front, next, tail⟩
    | some e =>
      cases before with
      | nil =>
        obtain ⟨rfl, rfl⟩ := List.cons.inj all
        exact ⟨p, p', .refl p, moved, rest⟩
      | cons b before =>
        obtain ⟨rfl, others⟩ := List.cons.inj all
        obtain ⟨q, q', chain, next, tail⟩ := ih others
        have front := Reaches.step moved chain
        exact ⟨q, q', front, next, tail⟩

/-- Two chains from one place that both end where no step follows are the same. -/
theorem Reaches.stop_unique {p q r : Parser} {before after : List ParseEvent}
    {failure other : Option ParseError} (first : Reaches g mark p before q)
    (stopped : q.step g mark = .stop failure) (second : Reaches g mark p after r)
    (ended : r.step g mark = .stop other) : before = after ∧ failure = other := by
  induction first generalizing after with
  | refl p =>
    cases second with
    | refl => exact ⟨rfl, Step.stop.inj (stopped.symm.trans ended)⟩
    | step h _ => cases stopped.symm.trans h
  | step h _ ih =>
    cases second with
    | refl => cases h.symm.trans ended
    | step h' chain =>
      obtain ⟨rfl, rfl⟩ := Step.next.inj (h.symm.trans h')
      obtain ⟨rfl, same⟩ := ih stopped chain
      exact ⟨rfl, same⟩

/-- A run takes no more than a number of steps, the last of which stops it. -/
inductive HaltsWithin (g : Grammar) (mark : Token) : Nat → Parser → Prop where
  | stop {n : Nat} {p : Parser} {failure : Option ParseError} :
      p.step g mark = .stop failure → HaltsWithin g mark (n + 1) p
  | next {n : Nat} {p q : Parser} {event : Option ParseEvent} :
      p.step g mark = .next q event → HaltsWithin g mark n q → HaltsWithin g mark (n + 1) p

theorem HaltsWithin.mono {n m : Nat} {p : Parser} (h : HaltsWithin g mark n p) (le : n ≤ m) :
    HaltsWithin g mark m p := by
  induction h generalizing m with
  | stop stopped =>
    obtain ⟨m, rfl⟩ : ∃ k, m = k + 1 := ⟨m - 1, by omega⟩
    exact .stop stopped
  | next moved _ ih =>
    obtain ⟨m, rfl⟩ : ∃ k, m = k + 1 := ⟨m - 1, by omega⟩
    exact .next moved (ih (by omega))

/-- A step costs one unit of fuel, whatever it does. -/
theorem HaltsWithin.of_next {n : Nat} {p : Parser}
    (h : ∀ q event, p.step g mark = .next q event → HaltsWithin g mark n q) :
    HaltsWithin g mark (n + 1) p := by
  cases moved : p.step g mark with
  | stop failure => exact .stop moved
  | next q event => exact .next moved (h q event moved)

theorem HaltsWithin.run_eq {n : Nat} {p : Parser} (h : HaltsWithin g mark n p) :
    ∃ events q failure, Reaches g mark p events q ∧ q.step g mark = .stop failure ∧
      ∀ reversed, run g mark reversed p n = ⟨reversed.reverse ++ events, failure⟩ := by
  induction h with
  | @stop n p failure stopped =>
    refine ⟨[], p, failure, .refl p, stopped, fun reversed => ?_⟩
    rw [run, stopped]
    simp
  | @next n p q event moved _ ih =>
    obtain ⟨events, last, failure, chain, stopped, same⟩ := ih
    refine ⟨event.toList ++ events, last, failure, .step moved chain, stopped,
      fun reversed => ?_⟩
    rw [run, moved]
    cases event <;> simp [same]

end Parser

end TableAsm
