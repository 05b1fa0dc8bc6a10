import Mathlib.Computability.ContextFreeGrammar
import TableAsm.Proofs.Grammar.Forest

/-! The language of a list of rules. The empty symbol stands for the empty text, so a right-hand
side is read without it. Derivations in any order, leftmost derivations and valid forests say the
same of a list of token kinds, and a leftmost derivation is the preorder of its forest. -/
namespace TableAsm

/-- A name among symbols: a nonterminal when some rule expands it. -/
def symbolOf (rules : List Rule) (s : String) : Symbol String String :=
  if s ∈ nonterminalsOf rules then .nonterminal s else .terminal s

/-- A row of names as a sentential form. -/
def form (rules : List Rule) (w : List String) : List (Symbol String String) :=
  (w.filter (· ≠ Symbol.empty)).map (symbolOf rules)

/-- The rules as a context-free grammar over token kinds. -/
def contextFree (rules : List Rule) : ContextFreeGrammar String :=
  ⟨String, Symbol.start, (rules.map fun r => ⟨r.lhs, form rules r.rhs⟩).toFinset⟩

/-- A derivation that expands the leftmost nonterminal each time, by the listed rules in order. -/
inductive LeftmostDerivation (rules : List Rule) :
    List (Symbol String String) → List Rule → List (Symbol String String) → Prop where
  | done (w : List (Symbol String String)) : LeftmostDerivation rules w [] w
  | expand {front : List String} {r : Rule} {behind w : List (Symbol String String)}
      {applied : List Rule} : r ∈ rules →
      LeftmostDerivation rules (front.map .terminal ++ (form rules r.rhs ++ behind)) applied w →
      LeftmostDerivation rules (front.map .terminal ++ .nonterminal r.lhs :: behind)
        (r :: applied) w

section Forms

variable {rules : List Rule}

theorem form_append (v w : List String) : form rules (v ++ w) = form rules v ++ form rules w := by
  simp [form]

theorem form_cons_empty (w : List String) : form rules (Symbol.empty :: w) = form rules w := by
  simp [form]

theorem form_cons_terminal {s : String} (ne : s ≠ Symbol.empty) (terminal : s ∉ nonterminalsOf rules)
    (w : List String) : form rules (s :: w) = .terminal s :: form rules w := by
  simp [form, symbolOf, ne, terminal]

theorem form_cons_nonterminal {s : String} (ne : s ≠ Symbol.empty)
    (named : s ∈ nonterminalsOf rules) (w : List String) :
    form rules (s :: w) = .nonterminal s :: form rules w := by
  simp [form, symbolOf, ne, named]

/-- A form is cut at a nonterminal where the row of names has it. -/
theorem form_eq_append_cons {w : List String} {before behind : List (Symbol String String)}
    {s : String} (h : form rules w = before ++ .nonterminal s :: behind) :
    ∃ front back, w = front ++ s :: back ∧ form rules front = before ∧
      form rules back = behind := by
  induction w generalizing before with
  | nil => simp [form] at h
  | cons x w ih =>
    by_cases empty : x = Symbol.empty
    · subst empty
      rw [form_cons_empty] at h
      obtain ⟨front, back, rfl, same, rest⟩ := ih h
      exact ⟨Symbol.empty :: front, back, rfl, by rw [form_cons_empty, same], rest⟩
    · by_cases named : x ∈ nonterminalsOf rules
      · rw [form_cons_nonterminal empty named] at h
        cases before with
        | nil =>
          obtain ⟨top, rest⟩ := List.cons.inj h
          cases top
          exact ⟨[], w, rfl, rfl, rest⟩
        | cons b before =>
          obtain ⟨rfl, tail⟩ := List.cons.inj h
          obtain ⟨front, back, rfl, same, rest⟩ := ih tail
          exact ⟨x :: front, back, rfl, by rw [form_cons_nonterminal empty named, same], rest⟩
      · rw [form_cons_terminal empty named] at h
        cases before with
        | nil => cases (List.cons.inj h).1
        | cons b before =>
          obtain ⟨rfl, tail⟩ := List.cons.inj h
          obtain ⟨front, back, rfl, same, rest⟩ := ih tail
          exact ⟨x :: front, back, rfl, by rw [form_cons_terminal empty named, same], rest⟩

end Forms

theorem contextFree_produces_iff (rules : List Rule) (v w : List (Symbol String String)) :
    (contextFree rules).Produces v w ↔ ∃ r ∈ rules, ∃ before behind,
      v = before ++ .nonterminal r.lhs :: behind ∧ w = before ++ (form rules r.rhs ++ behind) := by
  have mem_rules : ∀ rule : ContextFreeRule String String,
      rule ∈ (contextFree rules).rules ↔ ∃ r ∈ rules, ⟨r.lhs, form rules r.rhs⟩ = rule := by
    intro rule
    exact List.mem_toFinset.trans List.mem_map
  constructor
  · rintro ⟨rule, mem, rewrites⟩
    obtain ⟨r, known, rfl⟩ := (mem_rules rule).mp mem
    obtain ⟨before, behind, first, next⟩ := rewrites.exists_parts
    rw [List.append_assoc] at first next
    exact ⟨r, known, before, behind, first, next⟩
  · rintro ⟨r, known, before, behind, rfl, rfl⟩
    refine ⟨_, (mem_rules _).mpr ⟨r, known, rfl⟩, ContextFreeRule.rewrites_iff.mpr ?_⟩
    exact ⟨before, behind, List.append_cons _ _ _, (List.append_assoc _ _ _).symm⟩

namespace LeftmostDerivation

variable {rules : List Rule}

theorem derives {v w : List (Symbol String String)} {applied : List Rule}
    (h : LeftmostDerivation rules v applied w) : (contextFree rules).Derives v w := by
  induction h with
  | done w => exact Relation.ReflTransGen.refl
  | @expand front r behind w applied mem _ ih =>
    have produced := (contextFree_produces_iff rules _ _).mpr
      ⟨r, mem, front.map .terminal, behind, rfl, rfl⟩
    exact produced.trans_derives ih

end LeftmostDerivation

namespace Forest

variable {rules : List Rule}

/-- A valid forest is a leftmost derivation of its tokens from its roots. -/
theorem Valid.leftmost_into (reserved : Symbol.empty ∉ nonterminalsOf rules) {f : Forest}
    (valid : f.Valid rules) (front : List String) (behind w : List (Symbol String String))
    (applied : List Rule)
    (rest : LeftmostDerivation rules
      ((front ++ f.tokens.map (·.kind)).map .terminal ++ behind) applied w) :
    LeftmostDerivation rules (front.map .terminal ++ (form rules f.roots ++ behind))
      (f.rules ++ applied) w := by
  induction f generalizing front behind applied with
  | nil => simpa [form] using rest
  | empty f ih =>
    rw [roots, form_cons_empty]
    exact ih valid front behind applied rest
  | token t f ih =>
    obtain ⟨ne, terminal, tail⟩ := valid
    have shifted := ih tail (front ++ [t.kind]) behind applied (by simpa using rest)
    rw [roots, form_cons_terminal ne terminal]
    simpa using shifted
  | node r children f ihc ih =>
    obtain ⟨mem, rhs, below, tail⟩ := valid
    have named := lhs_mem_nonterminalsOf mem
    have ne : r.lhs ≠ Symbol.empty := fun eq => reserved (eq ▸ named)
    have after := ih tail (front ++ children.tokens.map (·.kind)) behind applied
      (by simpa using rest)
    have inside := ihc below front (form rules f.roots ++ behind) (f.rules ++ applied) after
    rw [rhs] at inside
    rw [roots, form_cons_nonterminal ne named]
    simpa using LeftmostDerivation.expand mem inside

theorem Valid.leftmost (reserved : Symbol.empty ∉ nonterminalsOf rules) {f : Forest}
    (valid : f.Valid rules) :
    LeftmostDerivation rules (form rules f.roots) f.rules
      ((f.tokens.map (·.kind)).map .terminal) := by
  have h := valid.leftmost_into reserved [] [] _ [] (by simpa using .done _)
  simpa using h

/-- A row of names that is a row of terminals already is a forest without nodes. -/
theorem exists_of_terminals {w : List String} {tokens : List Token}
    (h : form rules w = (tokens.map (·.kind)).map .terminal) :
    ∃ f : Forest, f.Valid rules ∧ f.roots = w ∧ f.tokens = tokens ∧ f.rules = [] := by
  induction w generalizing tokens with
  | nil =>
    have none : tokens = [] := by simpa [form] using h.symm
    exact ⟨nil, trivial, rfl, none.symm, rfl⟩
  | cons s w ih =>
    by_cases empty : s = Symbol.empty
    · subst empty
      rw [form_cons_empty] at h
      obtain ⟨f, valid, roots, same, rules⟩ := ih h
      exact ⟨.empty f, valid, congrArg _ roots, same, rules⟩
    · by_cases named : s ∈ nonterminalsOf rules
      · rw [form_cons_nonterminal empty named] at h
        cases tokens <;> cases h
      · rw [form_cons_terminal empty named] at h
        cases tokens with
        | nil => cases h
        | cons t tokens =>
          obtain ⟨kind, tail⟩ := List.cons.inj h
          have kind : s = t.kind := Symbol.terminal.inj kind
          subst kind
          obtain ⟨f, valid, roots, same, rules⟩ := ih tail
          exact ⟨.token t f, ⟨empty, named, valid⟩, congrArg _ roots, congrArg _ same, rules⟩

/-- In a forest over a right-hand side and what stands around it, a node can take the place of the
right-hand side. -/
theorem Valid.fold {f : Forest} (valid : f.Valid rules) {r : Rule} (mem : r ∈ rules)
    {front back : List String} (roots : f.roots = front ++ (r.rhs ++ back)) :
    ∃ before after h : Forest, h.Valid rules ∧ h.roots = front ++ r.lhs :: back ∧
      h.tokens = f.tokens ∧ before.Valid rules ∧ before.roots = front ∧
      f.rules = before.rules ++ after.rules ∧ h.rules = before.rules ++ r :: after.rules := by
  obtain ⟨before, after, rfl, rfl, tail⟩ := split_append roots
  obtain ⟨children, rest, rfl, rhs, rfl⟩ := split_append tail
  simp only [valid_append] at valid
  refine ⟨before, children.append rest, before.append (.node r children rest), ?_, ?_, ?_,
    valid.1, rfl, ?_, ?_⟩
  · simp [valid, mem, rhs]
  · simp
  · simp
  · simp
  · simp

/-- A forest over terminals has no nodes. -/
theorem Valid.rules_eq_nil (reserved : Symbol.empty ∉ nonterminalsOf rules) {f : Forest}
    (valid : f.Valid rules) {front : List String} (h : form rules f.roots = front.map .terminal) :
    f.rules = [] := by
  induction f generalizing front with
  | nil => rfl
  | empty f ih => exact ih valid (by rwa [roots, form_cons_empty] at h)
  | token t f ih =>
    rw [roots, form_cons_terminal valid.1 valid.2.1] at h
    cases front with
    | nil => cases h
    | cons s front => exact ih valid.2.2 (List.cons.inj h).2
  | node r children f =>
    have named := lhs_mem_nonterminalsOf valid.1
    rw [roots, form_cons_nonterminal (fun eq => reserved (eq ▸ named)) named] at h
    cases front <;> cases h

/-- A leftmost derivation of token kinds is a valid forest over the tokens. -/
theorem exists_of_leftmost (reserved : Symbol.empty ∉ nonterminalsOf rules)
    {v w : List (Symbol String String)} {applied : List Rule}
    (h : LeftmostDerivation rules v applied w) (tokens : List Token)
    (last : w = (tokens.map (·.kind)).map .terminal) (names : List String)
    (first : form rules names = v) :
    ∃ f : Forest, f.Valid rules ∧ f.roots = names ∧ f.tokens = tokens ∧ f.rules = applied := by
  induction h generalizing names with
  | done w => exact exists_of_terminals (first.trans last)
  | @expand front r behind w applied mem _ ih =>
    obtain ⟨left, right, rfl, leftForm, rightForm⟩ := form_eq_append_cons first
    obtain ⟨f, valid, roots, same, order⟩ := ih last (left ++ (r.rhs ++ right))
      (by rw [form_append, form_append, leftForm, rightForm])
    obtain ⟨before, after, h, validH, rootsH, tokensH, validB, rootsB, rulesF, rulesH⟩ :=
      valid.fold mem roots
    -- what stands before the leftmost nonterminal holds no node
    have none : before.rules = [] := validB.rules_eq_nil reserved (rootsB ▸ leftForm)
    refine ⟨h, validH, rootsH, tokensH.trans same, ?_⟩
    rw [rulesH, ← order, rulesF, none]
    rfl

/-- A derivation of token kinds in any order is a valid forest over the tokens. -/
theorem exists_of_derives {v : List (Symbol String String)} (tokens : List Token)
    (h : (contextFree rules).Derives v ((tokens.map (·.kind)).map .terminal))
    (names : List String) (first : form rules names = v) :
    ∃ f : Forest, f.Valid rules ∧ f.roots = names ∧ f.tokens = tokens := by
  induction h using Relation.ReflTransGen.head_induction_on generalizing names with
  | refl =>
    obtain ⟨f, valid, roots, same, _⟩ := exists_of_terminals first
    exact ⟨f, valid, roots, same⟩
  | head produced _ ih =>
    obtain ⟨r, known, before, behind, rfl, rfl⟩ := (contextFree_produces_iff rules _ _).mp produced
    obtain ⟨left, right, rfl, leftForm, rightForm⟩ := form_eq_append_cons first
    obtain ⟨f, valid, roots, same⟩ := ih (left ++ (r.rhs ++ right))
      (by rw [form_append, form_append, leftForm, rightForm])
    obtain ⟨_, _, h, validH, rootsH, tokensH, _⟩ := valid.fold known roots
    exact ⟨h, validH, rootsH, tokensH.trans same⟩

end Forest

/-- Token kinds are in the language exactly when some valid forest derives the tokens. -/
theorem mem_language_iff_forest {rules : List Rule}
    (reserved : Symbol.empty ∉ nonterminalsOf rules) (started : Symbol.start ∈ nonterminalsOf rules)
    (tokens : List Token) :
    tokens.map (·.kind) ∈ (contextFree rules).language ↔
      ∃ f : Forest, f.Valid rules ∧ f.roots = [Symbol.start] ∧ f.tokens = tokens := by
  have initial : form rules [Symbol.start] = [.nonterminal Symbol.start] :=
    form_cons_nonterminal (by decide) started []
  rw [ContextFreeGrammar.mem_language_iff]
  constructor
  · exact fun h => Forest.exists_of_derives tokens h [Symbol.start] initial
  · rintro ⟨f, valid, roots, rfl⟩
    have h := (valid.leftmost reserved).derives
    rwa [roots, initial] at h

end TableAsm
