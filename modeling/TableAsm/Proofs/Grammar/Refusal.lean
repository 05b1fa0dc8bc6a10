import TableAsm.Proofs.Grammar.Editing
import TableAsm.Proofs.Grammar.Reordering

/-! What a refused rule leaves behind. It stays among the rules and keeps all later ones from being
accepted that do not go with it. The table knows nothing of it. An invalid rule changes nothing
else; after a conflict the sets are those of all rules, and a symbol may have become a nonterminal
that the table has no row for, so that a parse stops where it comes to this symbol. -/
namespace TableAsm

namespace Parser

variable {g g' : Grammar} {mark : Token} {name : String}

/-- A grammar takes one more symbol for a nonterminal than another does, and has no rule for it. -/
structure Obstructs (name : String) (g g' : Grammar) : Prop where
  ne_empty : name ≠ Symbol.empty
  named_iff : ∀ s, g'.isNonterminal s = true ↔ g.isNonterminal s = true ∨ s = name
  ruleFor_eq : ∀ x t, g'.ruleFor x t = g.ruleFor x t
  ruleFor_none : ∀ t, g.ruleFor name t = none

theorem Obstructs.step_eq (h : Obstructs name g g') {p : Parser}
    (other : ∀ below, p.stack ≠ name :: below) : p.step g' mark = p.step g mark := by
  obtain ⟨stack, rest⟩ := p
  cases stack with
  | nil => rfl
  | cons top below =>
    have ne : top ≠ name := by
      rintro rfl
      exact other below rfl
    have named : g'.isNonterminal top = g.isNonterminal top :=
      Bool.eq_iff_iff.mpr (by simp [h.named_iff, ne])
    simp only [step, named, h.ruleFor_eq]

theorem Obstructs.step_stop (h : Obstructs name g g') (below : List String) (rest : List Token) :
    step g' mark ⟨name :: below, rest⟩ =
      .stop (some (.noRule name (lookahead ⟨name :: below, rest⟩ mark))) := by
  have named : g'.isNonterminal name = true := (h.named_iff name).mpr (Or.inr rfl)
  simp [step, h.ne_empty, named, h.ruleFor_eq, h.ruleFor_none]

/-- A chain is followed to its end, or up to where the new nonterminal comes up. -/
theorem Obstructs.follow (h : Obstructs name g g') {p last : Parser} {events : List ParseEvent}
    {failure : Option ParseError} (chain : Reaches g mark p events last)
    (stopped : last.step g mark = .stop failure) :
    (Reaches g' mark p events last ∧ last.step g' mark = .stop failure) ∨
      ∃ before q found, before <+: events ∧ Reaches g' mark p before q ∧
        q.step g' mark = .stop (some (.noRule name found)) := by
  induction chain with
  | refl p =>
    by_cases blocked : ∃ below, p.stack = name :: below
    · obtain ⟨stack, rest⟩ := p
      obtain ⟨below, rfl⟩ := blocked
      exact Or.inr ⟨[], _, _, List.nil_prefix, .refl _, h.step_stop below rest⟩
    · have free : ∀ below, p.stack ≠ name :: below := fun below same => blocked ⟨below, same⟩
      exact Or.inl ⟨.refl p, (h.step_eq free).trans stopped⟩
  | @step p q r event events moved _ ih =>
    by_cases blocked : ∃ below, p.stack = name :: below
    · obtain ⟨stack, rest⟩ := p
      obtain ⟨below, rfl⟩ := blocked
      exact Or.inr ⟨[], _, _, List.nil_prefix, .refl _, h.step_stop below rest⟩
    · have free : ∀ below, p.stack ≠ name :: below := fun below same => blocked ⟨below, same⟩
      have moved' := (h.step_eq free).trans moved
      rcases ih stopped with ⟨reached, ended⟩ | ⟨before, q', found, front, reached, ended⟩
      · exact Or.inl ⟨.step moved' reached, ended⟩
      · exact Or.inr ⟨event.toList ++ before, q', found, (List.prefix_append_right_inj _).mpr front,
          .step moved' reached, ended⟩

end Parser

namespace Grammar

variable {g g' : Grammar} {rule : Rule} {e : RuleSetError}

/-- Some rule has the start symbol, and the nonterminals are those of the rules unless one of these
is invalid. -/
structure Settled (g : Grammar) : Prop where
  started : Symbol.start ∈ nonterminalsOf g.rules
  named : (∀ r ∈ g.rules, r.isValid = true) → g.nonterminals = nonterminalsOf g.rules

theorem mem_nonterminalsOf_concat {rules : List Rule} {s : String} :
    s ∈ nonterminalsOf (rules ++ [rule]) ↔ s ∈ nonterminalsOf rules ∨ s = rule.lhs := by
  simp only [mem_nonterminalsOf, List.mem_append, List.mem_singleton]
  grind

/-- What an addition does: an invalid rule, new or old, ends it at once; rules that conflict get
their nonterminals and sets, and the old table; all others make the grammar that they make from
the start. -/
theorem addRule_cases (g : Grammar) (started : Symbol.start ∈ nonterminalsOf g.rules)
    (rule : Rule) :
    (∃ r ∈ g.rules ++ [rule], r.isValid = false ∧ g.addRule rule =
        ({ g with rules := g.rules ++ [rule] }, some (.invalidRule r))) ∨
      ((∀ r ∈ g.rules ++ [rule], r.isValid = true) ∧
        ((∃ c, Table.build (nonterminalsOf (g.rules ++ [rule]))
              (Sets.ofRules (nonterminalsOf (g.rules ++ [rule])) (g.rules ++ [rule]))
              (g.rules ++ [rule]) = .error c ∧
            g.addRule rule = (⟨g.rules ++ [rule], nonterminalsOf (g.rules ++ [rule]),
              Sets.ofRules (nonterminalsOf (g.rules ++ [rule])) (g.rules ++ [rule]), g.table⟩,
              some (.conflict c))) ∨
          ∃ h, ofRules (g.rules ++ [rule]) = .ok h ∧ g.addRule rule = (h, none))) := by
  have started' : Symbol.start ∈ nonterminalsOf (g.rules ++ [rule]) :=
    mem_nonterminalsOf_concat.mpr (Or.inl started)
  rw [addRule, rebuild]
  cases bad : (g.rules ++ [rule]).find? (!·.isValid) with
  | some r =>
    have invalid : r.isValid = false := by simpa using List.find?_some bad
    exact Or.inl ⟨r, List.mem_of_find?_eq_some bad, invalid, rfl⟩
  | none =>
    have valid : ∀ r ∈ g.rules ++ [rule], r.isValid = true := by
      simpa using List.find?_eq_none.mp bad
    refine Or.inr ⟨valid, ?_⟩
    simp only [recompute]
    rw [show NameSet.ofList ((g.rules ++ [rule]).map (·.lhs)) = nonterminalsOf (g.rules ++ [rule])
      from rfl, if_pos started']
    cases built : Table.build (nonterminalsOf (g.rules ++ [rule]))
        (Sets.ofRules (nonterminalsOf (g.rules ++ [rule])) (g.rules ++ [rule]))
        (g.rules ++ [rule]) with
    | error c => exact Or.inl ⟨c, rfl, rfl⟩
    | ok table =>
      exact Or.inr ⟨_, (ofRules_eq_ok_iff _ _).mpr ⟨valid, started', table, built, rfl⟩, rfl⟩

theorem rules_addRule (g : Grammar) (started : Symbol.start ∈ nonterminalsOf g.rules)
    (rule : Rule) : (g.addRule rule).1.rules = g.rules ++ [rule] := by
  rcases g.addRule_cases started rule with ⟨r, _, _, eq⟩ | ⟨_, ⟨c, _, eq⟩ | ⟨h, made, eq⟩⟩
  · rw [eq]
  · rw [eq]
  · obtain ⟨_, _, table, _, rfl⟩ := (ofRules_eq_ok_iff _ _).mp made
    rw [eq]

theorem Settled.addRule (settled : g.Settled) (rule : Rule) : (g.addRule rule).1.Settled := by
  have started : Symbol.start ∈ nonterminalsOf (g.rules ++ [rule]) :=
    mem_nonterminalsOf_concat.mpr (Or.inl settled.started)
  refine ⟨by rwa [rules_addRule g settled.started], fun valid => ?_⟩
  rw [rules_addRule g settled.started] at valid ⊢
  rcases g.addRule_cases settled.started rule with
    ⟨r, mem, invalid, _⟩ | ⟨_, ⟨c, _, eq⟩ | ⟨h, made, eq⟩⟩
  · simp [valid r mem] at invalid
  · rw [eq]
  · obtain ⟨_, _, table, _, rfl⟩ := (ofRules_eq_ok_iff _ _).mp made
    rw [eq]

theorem Grown.settled (grown : g.Grown) : g.Settled := by
  induction grown with
  | ofRules accepted =>
    obtain ⟨_, started, _, _, rfl⟩ := (ofRules_eq_ok_iff _ _).mp accepted
    exact ⟨started, fun _ => rfl⟩
  | addRule rule _ ih => exact ih.addRule rule
  | recompute _ ih => exact ⟨ih.started, ih.named⟩

/-- An addition goes through when all rules together are accepted, and then nothing tells the
grammar from the one that they make from the start. -/
theorem addRule_eq_ok_iff (settled : g.Settled) (rule : Rule) (h : Grammar) :
    g.addRule rule = (h, none) ↔ ofRules (g.rules ++ [rule]) = .ok h := by
  rcases g.addRule_cases settled.started rule with
    ⟨r, mem, invalid, eq⟩ | ⟨valid, ⟨c, built, eq⟩ | ⟨h', made, eq⟩⟩
  · have refused : ofRules (g.rules ++ [rule]) ≠ .ok h := by
      intro made
      simp [valid_of_accepted made r mem] at invalid
    simp [eq, refused]
  · have refused : ofRules (g.rules ++ [rule]) ≠ .ok h := by
      intro made
      obtain ⟨_, _, table, other, _⟩ := (ofRules_eq_ok_iff _ _).mp made
      simp [built] at other
    simp [eq, refused]
  · simp [eq, made]

theorem ruleFor_addRule (grown : g.Grown) (refused : (g.addRule rule).2 = some e) (x t : String) :
    (g.addRule rule).1.ruleFor x t = g.ruleFor x t := by
  obtain ⟨rules, tabled⟩ := grown.tabled
  have kept := ruleFor_concat tabled.placed rule x t
  rcases g.addRule_cases grown.settled.started rule with
    ⟨r, _, _, eq⟩ | ⟨_, ⟨c, _, eq⟩ | ⟨h, _, eq⟩⟩
  · rw [eq]
    exact kept
  · rw [eq]
    exact kept
  · simp [eq] at refused

/-- Among rules that are all valid, the one that is refused makes its name a nonterminal. -/
theorem isNonterminal_addRule (settled : g.Settled)
    (valid : ∀ r ∈ g.rules ++ [rule], r.isValid = true) (s : String) :
    (g.addRule rule).1.isNonterminal s = true ↔ g.isNonterminal s = true ∨ s = rule.lhs := by
  have rules := rules_addRule g settled.started rule
  have after := (settled.addRule rule).named (by rwa [rules])
  have before := settled.named fun r mem => valid r (List.mem_append_left _ mem)
  simp only [isNonterminal, decide_eq_true_eq, after, before, rules, mem_nonterminalsOf_concat]

/-- A nonterminal without a row in the table stops the parses that come to it, and no others. -/
theorem parse_obstructed {name : String} {rules rules' : List Rule} (tabled : g.TableOf rules)
    (tabled' : g'.TableOf rules') (h : Parser.Obstructs name g g') (tokens : List Token) :
    g'.parse tokens = g.parse tokens ∨
      ∃ found, (g'.parse tokens).error = some (.noRule name found) ∧
        (g'.parse tokens).events <+: (g.parse tokens).events := by
  obtain ⟨last, chain, stopped⟩ := parse_run tabled tokens
  rcases h.follow chain stopped with ⟨reached, ended⟩ | ⟨before, q, found, front, reached, ended⟩
  · exact Or.inl (parse_eq_of_reaches tabled' reached ended)
  · have same := parse_eq_of_reaches tabled' reached ended
    exact Or.inr ⟨found, by rw [same], by rwa [same]⟩

/-- A rule that is refused stays, and the table is the old one. If a rule is invalid, nothing else
changes. If two rules conflict, the left-hand side becomes a nonterminal, the sets are those of all
rules, and parses are the same but for those that come to a nonterminal that is new. A later rule
is accepted when it is together with the refused one. -/
theorem addRule_refused (grown : g.Grown) (refused : (g.addRule rule).2 = some e) :
    let after := (g.addRule rule).1
    after.rules = g.rules ++ [rule] ∧
      (∀ x t, after.ruleFor x t = g.ruleFor x t) ∧
      ((∃ r ∈ after.rules, r.isValid = false) →
        (∃ r ∈ after.rules, r.isValid = false ∧ e = .invalidRule r) ∧
          after.nonterminals = g.nonterminals ∧
          (∀ s, after.first s = g.first s ∧ after.follow s = g.follow s) ∧
          ∀ tokens, after.parse tokens = g.parse tokens) ∧
      ((∀ r ∈ after.rules, r.isValid = true) →
        (∃ c, e = .conflict c) ∧
          (∀ s, after.isNonterminal s = true ↔ g.isNonterminal s = true ∨ s = rule.lhs) ∧
          after.sets = .ofRules after.nonterminals after.rules ∧
          ∀ tokens, after.parse tokens = g.parse tokens ∨
            g.isNonterminal rule.lhs = false ∧
              ∃ found, (after.parse tokens).error = some (.noRule rule.lhs found) ∧
                (after.parse tokens).events <+: (g.parse tokens).events) ∧
      ∀ later h, after.addRule later = (h, none) ↔ ofRules (g.rules ++ [rule, later]) = .ok h := by
  intro after
  have settled := grown.settled
  have rules : after.rules = g.rules ++ [rule] := rules_addRule g settled.started rule
  have ruleFor : ∀ x t, after.ruleFor x t = g.ruleFor x t := ruleFor_addRule grown refused
  obtain ⟨old, tabled⟩ := grown.tabled
  obtain ⟨new, tabled'⟩ := tabled.addRule rule
  refine ⟨rules, ruleFor, fun invalid => ?_, fun valid => ?_, fun later h => ?_⟩
  · rcases g.addRule_cases settled.started rule with ⟨r, mem, bad, eq⟩ | ⟨valid, _⟩
    · have parts : after = { g with rules := g.rules ++ [rule] } := congrArg Prod.fst eq
      rw [eq] at refused
      refine ⟨⟨r, rules ▸ mem, bad, (Option.some.inj refused).symm⟩, by rw [parts], fun s => ?_,
        fun tokens => ?_⟩
      · rw [parts]
        exact ⟨rfl, rfl⟩
      · -- the nonterminals are the old ones too, so every step is the same
        refine parse_congr tabled' tabled (fun s => ?_) ruleFor tokens
        show after.isNonterminal s = _
        rw [parts]
        rfl
    · obtain ⟨r, mem, bad⟩ := invalid
      simp [valid r (rules ▸ mem)] at bad
  · have named := isNonterminal_addRule settled (rules ▸ valid)
    rcases g.addRule_cases settled.started rule with
      ⟨r, mem, bad, _⟩ | ⟨all, ⟨c, _, eq⟩ | ⟨h, _, eq⟩⟩
    · simp [valid r (rules ▸ mem)] at bad
    · have parts := congrArg Prod.fst eq
      rw [eq] at refused
      refine ⟨⟨c, (Option.some.inj refused).symm⟩, named, by simp only [after, parts],
        fun tokens => ?_⟩
      cases known : g.isNonterminal rule.lhs with
      | true =>
        refine Or.inl (parse_congr tabled' tabled (fun s => Bool.eq_iff_iff.mpr ?_) ruleFor tokens)
        rw [named]
        grind
      | false =>
        -- the table is that of rules which do not know the name
        have without : ∀ t, g.ruleFor rule.lhs t = none := by
          intro t
          cases found : g.ruleFor rule.lhs t with
          | none => rfl
          | some r =>
            obtain ⟨mem, lhs, _⟩ := (tabled.ruleFor_iff _ _ _).mp found
            have has := tabled.named r.lhs (lhs_mem_nonterminalsOf mem)
            rw [lhs, known] at has
            cases has
        have obstructs : Parser.Obstructs rule.lhs g after :=
          ⟨Rule.lhs_ne_empty (all rule (by simp)), named, ruleFor, without⟩
        exact (parse_obstructed tabled tabled' obstructs tokens).imp_right fun blocked =>
          ⟨rfl, blocked⟩
    · simp [eq] at refused
  · rw [addRule_eq_ok_iff (settled.addRule rule), rules, List.append_assoc]
    rfl

section Sample

/-- Two alternatives, each a name that has no rule yet. -/
def eitherName : List Rule := [⟨Symbol.start, ["a"]⟩, ⟨Symbol.start, ["b"]⟩]

/-- With a rule that makes the one name begin with the other, the alternatives conflict. -/
def nameByName : Rule := ⟨"a", ["b"]⟩

theorem addRule_refused_nameByName :
    ∃ g c, ofRules eitherName = .ok g ∧ (g.addRule nameByName).2 = some (.conflict c) ∧
      let after := (g.addRule nameByName).1
      after.rules = eitherName ++ [nameByName] ∧
        (∀ x t, after.ruleFor x t = g.ruleFor x t) ∧
        (∀ s, after.isNonterminal s = true ↔ g.isNonterminal s = true ∨ s = "a") ∧
        (∀ tokens, after.parse tokens = g.parse tokens ∨ g.isNonterminal "a" = false ∧
          ∃ found, (after.parse tokens).error = some (.noRule "a" found) ∧
            (after.parse tokens).events <+: (g.parse tokens).events) ∧
        ∀ later h, after.addRule later = (h, none) ↔
          ofRules (eitherName ++ [nameByName, later]) = .ok h := by
  have refused : ((ofRules eitherName).toOption.map fun g =>
      (g.rules, (g.addRule nameByName).2.isSome)) = some (eitherName, true) := by decide +kernel
  cases built : ofRules eitherName with
  | error e =>
    rw [built] at refused
    cases refused
  | ok g =>
    rw [built] at refused
    obtain ⟨rules, some⟩ := Prod.mk.inj (Option.some.inj refused)
    obtain ⟨e, failed⟩ := Option.isSome_iff_exists.mp some
    obtain ⟨kept, table, _, conflict, later⟩ := addRule_refused (.ofRules built) failed
    rw [rules] at kept later
    have valid : ∀ r ∈ eitherName ++ [nameByName], r.isValid = true := by decide
    obtain ⟨⟨c, rfl⟩, named, _, parses⟩ := conflict (kept ▸ valid)
    exact ⟨g, c, rfl, failed, kept, table, named, parses, later⟩

/-- A refused rule can be told by what the grammar holds, parses and accepts from then on. -/
theorem exists_refused_kept :
    ∃ g, ofRules eitherName = .ok g ∧ (g.addRule nameByName).2 ≠ none ∧
      let after := (g.addRule nameByName).1
      let tokens := [⟨"a", "a", .start⟩]
      after.rules ≠ g.rules ∧ after.nonterminals ≠ g.nonterminals ∧
        after.first Symbol.start ≠ g.first Symbol.start ∧
        (g.parse tokens).error = none ∧ (after.parse tokens).error ≠ none ∧
        (g.addRule ⟨"c", ["d"]⟩).2 = none ∧ (after.addRule ⟨"c", ["d"]⟩).2 ≠ none := by
  have told : ((ofRules eitherName).toOption.map fun g =>
      let after := (g.addRule nameByName).1
      let tokens := [⟨"a", "a", .start⟩]
      decide ((g.addRule nameByName).2 ≠ none ∧ after.rules ≠ g.rules ∧
        after.nonterminals ≠ g.nonterminals ∧
        after.first Symbol.start ≠ g.first Symbol.start ∧
        (g.parse tokens).error = none ∧ (after.parse tokens).error ≠ none ∧
        (g.addRule ⟨"c", ["d"]⟩).2 = none ∧ (after.addRule ⟨"c", ["d"]⟩).2 ≠ none)) =
      some true := by decide +kernel
  cases built : ofRules eitherName with
  | error e =>
    rw [built] at told
    cases told
  | ok g =>
    rw [built] at told
    exact ⟨g, rfl, of_decide_eq_true (Option.some.inj told)⟩

end Sample

end Grammar

end TableAsm
