import TableAsm.Proofs.Grammar.Derivation

/-! FIRST and FOLLOW as derivations have them. A derivation leads from one row of names to another;
what the last row opens with, that it vanishes, or what stands behind a nonterminal in it, is traced
back to the first one rule at a time. -/
namespace TableAsm

open Relation (ReflTransGen)

variable {rules : List Rule} {s t : String} {w w' : List String}

/-- A form derives another one by the rules. -/
abbrev Derives (rules : List Rule) (u v : List (Symbol String String)) : Prop :=
  (contextFree rules).Derives u v

/-- One rule is applied in a row of names. -/
inductive Rewrites (rules : List Rule) : List String → List String → Prop where
  | apply {r : Rule} (front back : List String) : r ∈ rules →
      Rewrites rules (front ++ r.lhs :: back) (front ++ (r.rhs ++ back))

/-- The forms that are derived from a row of names are rows of names as well. -/
theorem derives_form_iff (reserved : Symbol.empty ∉ nonterminalsOf rules)
    {v : List (Symbol String String)} : Derives rules (form rules w) v ↔
      ∃ w', ReflTransGen (Rewrites rules) w w' ∧ form rules w' = v := by
  constructor
  · intro derived
    induction derived with
    | refl => exact ⟨w, .refl, rfl⟩
    | tail _ produced ih =>
      obtain ⟨w', chain, rfl⟩ := ih
      obtain ⟨r, known, before, behind, first, rfl⟩ :=
        (contextFree_produces_iff rules _ _).mp produced
      obtain ⟨front, back, rfl, rfl, rfl⟩ := form_eq_append_cons first
      exact ⟨_, chain.tail (.apply front back known), by simp [form_append]⟩
  · rintro ⟨w', chain, rfl⟩
    induction chain with
    | refl => exact .refl _
    | tail _ step ih =>
      obtain @⟨r, front, back, known⟩ := step
      have named := lhs_mem_nonterminalsOf known
      have ne : r.lhs ≠ Symbol.empty := fun eq => reserved (eq ▸ named)
      apply ih.trans_produces
      apply (contextFree_produces_iff rules _ _).mpr
      refine ⟨r, known, form rules front, form rules back, ?_, by simp [form_append]⟩
      rw [form_append, form_cons_nonterminal ne named]

theorem derives_within {u v p q : List (Symbol String String)}
    (h : Derives rules u v) (front back : List (Symbol String String))
    (first : p = front ++ (u ++ back)) (last : q = front ++ (v ++ back)) :
    Derives rules p q := by
  subst first last
  exact (h.append_right back).append_left front

section First

theorem vanish_of_form_nil (none : form rules w = []) : ∀ s ∈ w, Vanishes rules s := by
  intro s mem
  have all : ∀ x ∈ w, x = Symbol.empty := by simpa [form] using none
  exact all s mem ▸ vanishes_empty

theorem Rewrites.vanish (step : Rewrites rules w w') (h : ∀ s ∈ w', Vanishes rules s) :
    ∀ s ∈ w, Vanishes rules s := by
  obtain ⟨front, back, known⟩ := step
  simp only [List.forall_mem_append, List.forall_mem_cons] at h ⊢
  exact ⟨h.1, vanishes_of_rule known h.2.1, h.2.2⟩

theorem derives_nil_of_each (each : ∀ s ∈ w, Derives rules (form rules [s]) []) :
    Derives rules (form rules w) [] := by
  induction w with
  | nil => exact .refl _
  | cons s w ih =>
    obtain ⟨first, behind⟩ := List.forall_mem_cons.mp each
    have split : form rules (s :: w) = form rules [s] ++ form rules w := form_append [s] w
    rw [split]
    exact (first.append_right _).trans (ih behind)

theorem derives_nil_of_within (reserved : Symbol.empty ∉ nonterminalsOf rules) {n : Nat}
    (h : VanishesWithin rules n s) : Derives rules (form rules [s]) [] := by
  induction n generalizing s with
  | zero =>
    obtain rfl : s = Symbol.empty := h
    exact .refl _
  | succ n ih =>
    rcases h with rfl | ⟨r, known, rfl, rhs⟩
    · exact .refl _
    · have below := derives_nil_of_each fun x mem => ih (rhs x mem)
      obtain ⟨w', chain, none⟩ := (derives_form_iff reserved).mp below
      apply (derives_form_iff reserved).mpr
      refine ⟨w', .head ?_ chain, none⟩
      simpa using Rewrites.apply [] [] known

/-- A row of names vanishes when its form derives the empty text. -/
theorem vanish_iff_derives (reserved : Symbol.empty ∉ nonterminalsOf rules) :
    (∀ s ∈ w, Vanishes rules s) ↔ Derives rules (form rules w) [] := by
  constructor
  · intro h
    apply derives_nil_of_each
    intro s mem
    obtain ⟨n, within⟩ := h s mem
    exact derives_nil_of_within reserved within
  · intro derived
    obtain ⟨w', chain, none⟩ := (derives_form_iff reserved).mp derived
    induction chain using ReflTransGen.head_induction_on with
    | refl => exact vanish_of_form_nil none
    | head step chain ih => exact step.vanish (ih ((derives_form_iff reserved).mpr ⟨w', chain, none⟩))

theorem opensSequence_append {u : List String} : OpensSequence rules t (u ++ w) ↔
    OpensSequence rules t u ∨ (∀ s ∈ u, Vanishes rules s) ∧ OpensSequence rules t w := by
  induction u with
  | nil => simp [not_opensSequence_nil]
  | cons s u ih =>
    simp only [List.cons_append, opensSequence_cons, ih, List.forall_mem_cons]
    tauto

theorem opensSequence_of_form {rest : List (Symbol String String)}
    (first : form rules w = .terminal t :: rest) : OpensSequence rules t w := by
  induction w with
  | nil => cases first
  | cons s w ih =>
    rw [opensSequence_cons]
    by_cases empty : s = Symbol.empty
    · subst empty
      exact Or.inr ⟨vanishes_empty, ih (by rwa [form_cons_empty] at first)⟩
    · by_cases named : s ∈ nonterminalsOf rules
      · rw [form_cons_nonterminal empty named] at first
        cases first
      · rw [form_cons_terminal empty named] at first
        cases first
        exact Or.inl (opens_self named empty)

theorem Rewrites.opens (step : Rewrites rules w w') (h : OpensSequence rules t w') :
    OpensSequence rules t w := by
  obtain ⟨front, back, known⟩ := step
  simp only [opensSequence_append, opensSequence_cons] at h ⊢
  rcases h with before | ⟨vanish, inside | ⟨empty, behind⟩⟩
  · exact Or.inl before
  · exact Or.inr ⟨vanish, Or.inl (opens_of_rule known inside)⟩
  · exact Or.inr ⟨vanish, Or.inr ⟨vanishes_of_rule known empty, behind⟩⟩

/-- What a name derives comes first where all before it vanishes. -/
theorem derives_first (reserved : Symbol.empty ∉ nonterminalsOf rules) {before : List String}
    (vanish : ∀ b ∈ before, Vanishes rules b) {rest : List (Symbol String String)}
    (opens : Derives rules (form rules [s]) (.terminal t :: rest))
    (after : List String) : Derives rules (form rules (before ++ s :: after))
      (.terminal t :: (rest ++ form rules after)) := by
  have split : form rules (before ++ s :: after) =
      form rules before ++ (form rules [s] ++ form rules after) := by
    rw [← form_append, ← form_append]
    rfl
  rw [split]
  have empty := (vanish_iff_derives reserved).mp vanish
  exact (empty.append_right _).trans (opens.append_right _)

theorem exists_derives_of_within (reserved : Symbol.empty ∉ nonterminalsOf rules)
    (ne : t ≠ Symbol.empty) (terminal : t ∉ nonterminalsOf rules) {n : Nat}
    (h : OpensWithin rules t n s) :
    ∃ rest, Derives rules (form rules [s]) (.terminal t :: rest) := by
  have self : form rules [t] = [.terminal t] := form_cons_terminal ne terminal []
  induction n generalizing s with
  | zero =>
    obtain rfl : s = t := h
    exact ⟨[], self ▸ .refl _⟩
  | succ n ih =>
    rcases h with rfl | ⟨r, known, rfl, before, x, after, rhs, vanish, opens⟩
    · exact ⟨[], self ▸ .refl _⟩
    · obtain ⟨rest, derived⟩ := ih opens
      have below := derives_first reserved vanish derived after
      rw [← rhs] at below
      obtain ⟨w', chain, first⟩ := (derives_form_iff reserved).mp below
      refine ⟨_, (derives_form_iff reserved).mpr ⟨w', .head ?_ chain, first⟩⟩
      simpa using Rewrites.apply [] [] known

/-- A row of names opens with a terminal when its form derives one that begins with it. -/
theorem opensSequence_iff_derives (reserved : Symbol.empty ∉ nonterminalsOf rules) :
    OpensSequence rules t w ↔
      ∃ rest, Derives rules (form rules w) (.terminal t :: rest) := by
  constructor
  · rintro ⟨before, x, after, rfl, vanish, ne, terminal, n, within⟩
    obtain ⟨rest, derived⟩ := exists_derives_of_within reserved ne terminal within
    exact ⟨_, derives_first reserved vanish derived after⟩
  · rintro ⟨rest, derived⟩
    obtain ⟨w', chain, first⟩ := (derives_form_iff reserved).mp derived
    clear derived
    induction chain using ReflTransGen.head_induction_on with
    | refl => exact opensSequence_of_form first
    | head step _ ih => exact step.opens ih

end First

section Follow

/-- A terminal can stand directly behind a nonterminal in what some nonterminal derives, or the end
of input behind one that comes last in what the start symbol derives. -/
def CanFollow (rules : List Rule) (t x : String) : Prop :=
  (∃ s ∈ nonterminalsOf rules, ∃ before behind : List (Symbol String String),
      Derives rules [.nonterminal s]
        (before ++ .nonterminal x :: .terminal t :: behind)) ∨
    t = Symbol.endOfInput ∧ ∃ before : List (Symbol String String),
      Derives rules [.nonterminal Symbol.start] (before ++ [.nonterminal x])

/-- A terminal comes next at the row `back` at the end of what `s` derives. -/
def ComesNext (rules : List Rule) (s t : String) (back : List String) : Prop :=
  OpensSequence rules t back ∨ (∀ x ∈ back, Vanishes rules x) ∧ Follows rules t s

theorem comesNext_append {front back : List String} : ComesNext rules s t (front ++ back) ↔
    OpensSequence rules t front ∨ (∀ x ∈ front, Vanishes rules x) ∧ ComesNext rules s t back := by
  simp only [ComesNext, opensSequence_append, List.forall_mem_append]
  tauto

theorem Rewrites.comesNext (step : Rewrites rules w w') (h : ComesNext rules s t w') :
    ComesNext rules s t w := h.imp step.opens fun ⟨vanish, follows⟩ => ⟨step.vanish vanish, follows⟩

theorem append_eq_append_cons {α : Type} {xs ys front back : List α} {a : α}
    (h : xs ++ ys = front ++ a :: back) : (∃ u, xs = front ++ a :: u ∧ back = u ++ ys) ∨
      ∃ v, front = xs ++ v ∧ ys = v ++ a :: back := by
  rcases List.append_eq_append_iff.mp h with ⟨v, rfl, rfl⟩ | ⟨u, rfl, tail⟩
  · exact Or.inr ⟨v, rfl, rfl⟩
  · rcases List.cons_eq_append_iff.mp tail with ⟨rfl, rfl⟩ | ⟨u', rfl, rfl⟩
    · exact Or.inr ⟨[], by simp, rfl⟩
    · exact Or.inl ⟨u', rfl, rfl⟩

theorem follows_of_rewrites (chain : ReflTransGen (Rewrites rules) [s] w) {front back : List String}
    {x : String} (split : w = front ++ x :: back) (named : x ∈ nonterminalsOf rules)
    (next : ComesNext rules s t back) : Follows rules t x := by
  induction chain generalizing front back x with
  | refl =>
    obtain ⟨rfl, same⟩ : front = [] ∧ s :: [] = x :: back := by
      cases front with
      | nil => exact ⟨rfl, split⟩
      | cons b front => simp at split
    obtain ⟨rfl, rfl⟩ := List.cons.inj same
    rcases next with opens | ⟨_, follows⟩
    · exact absurd opens not_opensSequence_nil
    · exact follows
  | tail _ step ih =>
    obtain @⟨r, left, right, known⟩ := step
    -- the nonterminal stands before the right-hand side, within it or behind it
    rcases append_eq_append_cons split with ⟨u, rfl, rfl⟩ | ⟨v, rfl, inside⟩
    · exact ih (List.append_assoc _ _ _) named ((Rewrites.apply u right known).comesNext next)
    · rcases append_eq_append_cons inside with ⟨u, rhs, rfl⟩ | ⟨v', rfl, rfl⟩
      · rcases comesNext_append.mp next with opens | ⟨vanish, behind⟩
        · exact .opening known rhs named opens
        · exact .inherited known rhs named vanish (ih rfl (lhs_mem_nonterminalsOf known) behind)
      · exact ih (List.append_assoc left (r.lhs :: v') _).symm named next

theorem mem_of_rewrites (chain : ReflTransGen (Rewrites rules) [s] w) {x : String} (mem : x ∈ w) :
    x = s ∨ ∃ r ∈ rules, x ∈ r.rhs := by
  induction chain with
  | refl => exact Or.inl (List.mem_singleton.mp mem)
  | tail _ step ih =>
    obtain @⟨r, front, back, known⟩ := step
    simp only [List.mem_append] at mem
    rcases mem with before | inside | behind
    · exact ih (List.mem_append_left _ before)
    · exact Or.inr ⟨r, known, inside⟩
    · exact ih (List.mem_append_right _ (List.mem_cons_of_mem _ behind))

theorem mem_of_terminal_mem_form (mem : Symbol.terminal t ∈ form rules w) :
    t ∈ w ∧ t ∉ nonterminalsOf rules := by
  simp only [form, List.mem_map, List.mem_filter] at mem
  obtain ⟨x, ⟨inside, _⟩, same⟩ := mem
  by_cases named : x ∈ nonterminalsOf rules
  · simp [symbolOf, named] at same
  · obtain rfl : x = t := by simpa [symbolOf, named] using same
    exact ⟨inside, named⟩

variable (reserved : Symbol.empty ∉ nonterminalsOf rules)

include reserved

theorem derives_nonterminal_iff {x : String} (named : x ∈ nonterminalsOf rules)
    {v : List (Symbol String String)} : Derives rules [.nonterminal x] v ↔
      ∃ w', ReflTransGen (Rewrites rules) [x] w' ∧ form rules w' = v := by
  have same : form rules [x] = [.nonterminal x] :=
    form_cons_nonterminal (fun eq => reserved (eq ▸ named)) named []
  rw [← derives_form_iff reserved, same]

/-- A terminal in what a nonterminal derives stands on some right-hand side. -/
theorem exists_rhs_of_derives {x : String} (named : x ∈ nonterminalsOf rules)
    {v : List (Symbol String String)} (derived : Derives rules [.nonterminal x] v)
    (mem : .terminal t ∈ v) : ∃ r ∈ rules, t ∈ r.rhs := by
  obtain ⟨w, chain, rfl⟩ := (derives_nonterminal_iff reserved named).mp derived
  obtain ⟨inside, terminal⟩ := mem_of_terminal_mem_form mem
  rcases mem_of_rewrites chain inside with rfl | found
  · exact absurd named terminal
  · exact found

theorem derives_rhs {r : Rule} (known : r ∈ rules) {before after : List String} {x : String}
    (rhs : r.rhs = before ++ x :: after) (named : x ∈ nonterminalsOf rules) :
    Derives rules [.nonterminal r.lhs]
      (form rules before ++ .nonterminal x :: form rules after) := by
  apply (derives_nonterminal_iff reserved (lhs_mem_nonterminalsOf known)).mpr
  refine ⟨before ++ x :: after, .single ?_, ?_⟩
  · have step := Rewrites.apply [] [] known
    rwa [List.append_nil, rhs] at step
  · rw [form_append, form_cons_nonterminal (fun eq => reserved (eq ▸ named)) named]

/-- The terminals that follow a nonterminal by the rules are those that can stand behind it in a
derivation. -/
theorem follows_iff_canFollow (started : Symbol.start ∈ nonterminalsOf rules) {x : String}
    (named : x ∈ nonterminalsOf rules) : Follows rules t x ↔ CanFollow rules t x := by
  constructor
  · intro follows
    induction follows with
    | start eq => exact Or.inr ⟨eq, [], .refl _⟩
    | @opening r before x after known rhs named opens =>
      obtain ⟨rest, derived⟩ := (opensSequence_iff_derives reserved).mp opens
      have first := derives_rhs reserved known rhs named
      refine Or.inl ⟨r.lhs, lhs_mem_nonterminalsOf known, form rules before, rest, first.trans ?_⟩
      exact (derived.append_left [.nonterminal x]).append_left _
    | @inherited r before x after known rhs named vanish _ ih =>
      have first := derives_rhs reserved known rhs named
      have empty := (vanish_iff_derives reserved).mp vanish
      have last : Derives rules [.nonterminal r.lhs]
          (form rules before ++ [.nonterminal x]) :=
        first.trans ((empty.append_left [.nonterminal x]).append_left _)
      rcases ih (lhs_mem_nonterminalsOf known) with
        ⟨s, named', front, behind, derived⟩ | ⟨eq, front, derived⟩
      · refine Or.inl ⟨s, named', front ++ form rules before, behind, derived.trans ?_⟩
        exact derives_within last front (.terminal t :: behind) rfl (by simp)
      · refine Or.inr ⟨eq, front ++ form rules before, derived.trans ?_⟩
        exact derives_within last front [] rfl (by simp)
  · rintro (⟨s, named', before, behind, derived⟩ | ⟨rfl, before, derived⟩)
    · obtain ⟨w, chain, split⟩ := (derives_nonterminal_iff reserved named').mp derived
      obtain ⟨front, back, rfl, _, next⟩ := form_eq_append_cons split
      exact follows_of_rewrites chain rfl named (Or.inl (opensSequence_of_form next))
    · obtain ⟨w, chain, split⟩ := (derives_nonterminal_iff reserved started).mp derived
      obtain ⟨front, back, rfl, _, none⟩ := form_eq_append_cons split
      exact follows_of_rewrites chain rfl named (Or.inr ⟨vanish_of_form_nil none, .start rfl⟩)

end Follow

end TableAsm
