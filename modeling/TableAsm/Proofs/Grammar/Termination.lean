import Mathlib.Data.Finset.Card
import Mathlib.Algebra.Order.Ring.Nat
import Mathlib.Tactic.Linarith
import Mathlib.Tactic.Ring
import TableAsm.Proofs.Grammar.Prediction
import TableAsm.Proofs.Grammar.Run

/-! Every parse ends. While one token is next, the table sends a nonterminal into a rule that
either vanishes or opens with the token. Both are derivations of a height bounded by the number of
nonterminals, so a symbol leaves the stack, or the token is matched, after boundedly many steps.
`parse_halts` says that the fuel of a parse is never used up. The end mark stays at the bottom of
the stack, so a parse that fails does so at a token. -/
namespace TableAsm

/-- A property that grows in stages, and that no longer grows once a stage adds nothing, is
complete after as many stages as there are candidates. -/
theorem stage_bound (candidates : List String) (P : Nat → String → Prop)
    (grows : ∀ n s, P n s → P (n + 1) s)
    (settles : ∀ n, (∀ s ∈ candidates, P (n + 1) s → P n s) →
      ∀ s ∈ candidates, P (n + 2) s → P (n + 1) s)
    (s : String) (mem : s ∈ candidates) (n : Nat) (h : P n s) : P candidates.length s := by
  classical
  have mono : ∀ {j k x}, j ≤ k → P j x → P k x := by
    intro j k x le hx
    induction le with
    | refl => exact hx
    | step _ ih => exact grows _ _ ih
  let Settled (k : Nat) : Prop := ∀ x ∈ candidates, P (k + 1) x → P k x
  have later : ∀ {j k}, j ≤ k → Settled j → Settled k := by
    intro j k le settled
    induction le with
    | refl => exact settled
    | step _ ih => exact settles _ ih
  have down : ∀ {j k x}, x ∈ candidates → Settled j → j ≤ k → P k x → P j x := by
    intro j k x hx settled le
    induction le with
    | refl => exact id
    | step le ih => exact fun hk => ih (later le settled x hx hk)
  let stage (k : Nat) : Finset String := candidates.toFinset.filter (P k)
  have count : ∀ k, (∃ j, j ≤ k ∧ Settled j) ∨ k ≤ (stage k).card := by
    intro k
    induction k with
    | zero => exact Or.inr (Nat.zero_le _)
    | succ k ih =>
      rcases ih with ⟨j, le, settled⟩ | enough
      · exact Or.inl ⟨j, by omega, settled⟩
      · by_cases settled : Settled k
        · exact Or.inl ⟨k, by omega, settled⟩
        · right
          have more : stage k ⊂ stage (k + 1) := by
            refine ⟨?_, ?_⟩
            · intro x hx
              obtain ⟨cand, hp⟩ := Finset.mem_filter.mp hx
              exact Finset.mem_filter.mpr ⟨cand, grows k x hp⟩
            · intro back
              refine settled fun x hx hp => ?_
              have inStage := back (Finset.mem_filter.mpr ⟨List.mem_toFinset.mpr hx, hp⟩)
              exact (Finset.mem_filter.mp inStage).2
          have lt := Finset.card_lt_card more
          omega
  rcases count candidates.length with ⟨j, le, settled⟩ | full
  · rcases Nat.le_total n candidates.length with before | after
    · exact mono before h
    · exact mono le (down mem settled (Nat.le_trans le after) h)
  · have sub : stage candidates.length ⊆ candidates.toFinset := Finset.filter_subset _ _
    have eq := Finset.eq_of_subset_of_card_le sub
      (Nat.le_trans candidates.toFinset_card_le full)
    have inStage : s ∈ stage candidates.length := eq ▸ List.mem_toFinset.mpr mem
    exact (Finset.mem_filter.mp inStage).2

section Heights

variable {rules : List Rule} {names : List String}

/-- What vanishes does so within a height of the number of nonterminals. -/
theorem VanishesWithin.bounded (named : ∀ s ∈ nonterminalsOf rules, s ∈ names) {n : Nat}
    {s : String} (h : VanishesWithin rules n s) : VanishesWithin rules names.length s := by
  by_cases empty : s = Symbol.empty
  · exact VanishesWithin.mono (n := 0) empty (Nat.zero_le _)
  · have settles : ∀ n, (∀ x ∈ names, VanishesWithin rules (n + 1) x → VanishesWithin rules n x) →
        ∀ x ∈ names, VanishesWithin rules (n + 2) x → VanishesWithin rules (n + 1) x := by
      intro n settled x _ hx
      rcases hx with hx | ⟨r, mem, lhs, rhs⟩
      · exact Or.inl hx
      · refine Or.inr ⟨r, mem, lhs, fun y hy => ?_⟩
        have above := rhs y hy
        rcases above with eq | ⟨r', mem', lhs', _⟩
        · exact VanishesWithin.mono (n := 0) eq (Nat.zero_le _)
        · exact settled y (named y (mem_nonterminalsOf.mpr ⟨r', mem', lhs'⟩)) (rhs y hy)
    have isNamed : s ∈ names := by
      cases n with
      | zero => exact absurd h empty
      | succ n =>
        rcases h with h | ⟨r, mem, lhs, _⟩
        · exact absurd h empty
        · exact named s (mem_nonterminalsOf.mpr ⟨r, mem, lhs⟩)
    exact stage_bound names (VanishesWithin rules) (fun _ _ hx => hx.succ) settles s isNamed n h

/-- What opens with a terminal does so within as many rules as there are nonterminals. -/
theorem OpensWithin.bounded (named : ∀ s ∈ nonterminalsOf rules, s ∈ names) {t : String} {n : Nat}
    {s : String} (h : OpensWithin rules t n s) : OpensWithin rules t names.length s := by
  have atOnce : ∀ m, OpensWithin rules t m t := by
    intro m
    cases m with
    | zero => rfl
    | succ m => exact Or.inl rfl
  by_cases same : s = t
  · exact same ▸ atOnce _
  · have settles : ∀ n, (∀ x ∈ names, OpensWithin rules t (n + 1) x → OpensWithin rules t n x) →
        ∀ x ∈ names, OpensWithin rules t (n + 2) x → OpensWithin rules t (n + 1) x := by
      intro n settled x _ hx
      rcases hx with hx | ⟨r, mem, lhs, before, y, after, rhs, vanish, opens⟩
      · exact Or.inl hx
      · refine Or.inr ⟨r, mem, lhs, before, y, after, rhs, vanish, ?_⟩
        rcases id opens with eq | ⟨r', mem', lhs', _⟩
        · exact eq ▸ atOnce _
        · exact settled y (named y (mem_nonterminalsOf.mpr ⟨r', mem', lhs'⟩)) opens
    have isNamed : s ∈ names := by
      cases n with
      | zero => exact absurd h same
      | succ n =>
        rcases h with h | ⟨r, mem, lhs, _⟩
        · exact absurd h same
        · exact named s (mem_nonterminalsOf.mpr ⟨r, mem, lhs⟩)
    exact stage_bound names (OpensWithin rules t) (fun _ _ hx => hx.succ) settles s isNamed n h

end Heights

namespace Parser

/-- Steps to take a symbol off the stack that vanishes within a height, in rules of at most the
given width. -/
def vanishCost (width : Nat) : Nat → Nat
  | 0 => 1
  | n + 1 => 1 + width * vanishCost width n

theorem vanishCost_pos (width n : Nat) : 0 < vanishCost width n := by
  cases n with
  | zero => exact Nat.one_pos
  | succ n => exact Nat.add_pos_left Nat.one_pos _

theorem vanishCost_le (width n : Nat) : vanishCost width n ≤ (width + 2) ^ (n + 1) := by
  induction n with
  | zero => simp [vanishCost]
  | succ n ih =>
    have one : 1 ≤ (width + 2) ^ (n + 1) := Nat.one_le_pow _ _ (by omega)
    calc vanishCost width (n + 1) = 1 + width * vanishCost width n := rfl
      _ ≤ (width + 2) ^ (n + 1) + width * (width + 2) ^ (n + 1) :=
        Nat.add_le_add one (Nat.mul_le_mul_left width ih)
      _ ≤ (width + 2) ^ (n + 1) * (width + 2) := by
        rw [Nat.mul_add, Nat.mul_comm width]
        omega
      _ = (width + 2) ^ (n + 2) := (Nat.pow_succ (width + 2) (n + 1)).symm

/-- Steps to match a token, from a symbol that opens with it within a height. -/
def openCost (width height : Nat) : Nat := (height + 1) * (1 + width * vanishCost width height)

/-- Steps for so many tokens and symbols on the stack. A token can leave behind it, for each rule
on the way to it, what stands after it there. -/
def budget (width height tokens symbols : Nat) : Nat :=
  tokens * (openCost width height + height * width * vanishCost width height) +
    symbols * vanishCost width height + openCost width height + 1

theorem budget_symbol (width height tokens symbols : Nat) :
    1 * vanishCost width height + budget width height tokens symbols =
      budget width height tokens (symbols + 1) := by
  unfold budget
  rw [Nat.add_mul symbols 1]
  omega

theorem budget_token (width height tokens symbols : Nat) :
    openCost width height + budget width height tokens (height * width + symbols) ≤
      budget width height (tokens + 1) (symbols + 1) := by
  unfold budget
  rw [Nat.add_mul (height * width), Nat.add_mul tokens 1, Nat.add_mul symbols 1]
  omega

theorem budget_le (width height tokens : Nat) :
    budget width height tokens 2 ≤ (tokens + 2) * ((tokens + 2) * (height + 1) * (width + 2)) *
      (width + 2) ^ (height + 2) := by
  have cost := vanishCost_le width height
  have one : 1 ≤ (width + 2) ^ (height + 1) := Nat.one_le_pow _ _ (by omega)
  generalize power : (width + 2) ^ (height + 1) = total at cost one
  have opened : openCost width height ≤ (height + 1) * (width + 2) * total := by
    unfold openCost
    rw [Nat.mul_assoc]
    refine Nat.mul_le_mul_left _ ?_
    nlinarith
  have left : height * width * vanishCost width height ≤ (height + 1) * (width + 2) * total :=
    Nat.mul_le_mul (Nat.mul_le_mul (by omega) (by omega)) cost
  have unit : 1 ≤ (height + 1) * (width + 2) * total :=
    Nat.mul_pos (Nat.mul_pos (by omega) (by omega)) one
  have small : total ≤ (height + 1) * (width + 2) * total :=
    Nat.le_mul_of_pos_left total (Nat.mul_pos (by omega) (by omega))
  generalize area : (height + 1) * (width + 2) * total = unitCost at opened left unit small
  calc budget width height tokens 2
      ≤ tokens * (unitCost + unitCost) + 2 * unitCost + unitCost + unitCost := by
        unfold budget
        have scaled := Nat.mul_le_mul_left tokens (Nat.add_le_add opened left)
        omega
    _ = (2 * tokens + 4) * unitCost := by ring
    _ ≤ ((tokens + 2) * (tokens + 2) * (width + 2)) * unitCost := by
        refine Nat.mul_le_mul_right _ ?_
        nlinarith
    _ = (tokens + 2) * ((tokens + 2) * (height + 1) * (width + 2)) *
          (width + 2) ^ (height + 2) := by
        rw [← area, ← power, Nat.pow_succ (width + 2) (height + 1)]
        ring

section Halting

variable {g : Grammar} {rules : List Rule} {mark : Token} {width : Nat}

/-- Symbols that vanish, over a place from which the parser halts. -/
theorem halts_vanishing (tabled : g.TableOf rules) (wide : ∀ r ∈ rules, r.rhs.length ≤ width)
    (rest : List Token) (n : Nat) :
    ∀ (w below : List String) (k : Nat), (∀ s ∈ w, VanishesWithin rules n s) →
      (∀ s ∈ w, s ∈ nonterminalsOf rules →
        (lookahead ⟨below, rest⟩ mark).kind ≠ Symbol.empty ∧
          Follows rules (lookahead ⟨below, rest⟩ mark).kind s) →
      HaltsWithin g mark k ⟨below, rest⟩ →
      HaltsWithin g mark (w.length * vanishCost width n + k) ⟨w ++ below, rest⟩ := by
  induction n with
  | zero =>
    intro w below k vanish follows halts
    induction w with
    | nil => exact halts.mono (by omega)
    | cons s w ih =>
      have empty : s = Symbol.empty := vanish s List.mem_cons_self
      subst empty
      have tail := ih (fun x hx => vanish x (List.mem_cons_of_mem _ hx))
        (fun x hx => follows x (List.mem_cons_of_mem _ hx))
      have moved := step_erase g mark (w ++ below) rest
      refine (HaltsWithin.next moved tail).mono ?_
      simp only [vanishCost, List.length_cons, Nat.mul_one]
      omega
  | succ n ihn =>
    intro w below k vanish follows halts
    induction w with
    | nil => exact halts.mono (by omega)
    | cons s w ih =>
      have tail := ih (fun x hx => vanish x (List.mem_cons_of_mem _ hx))
        (fun x hx => follows x (List.mem_cons_of_mem _ hx))
      have positive := vanishCost_pos width (n + 1)
      rcases vanish s List.mem_cons_self with empty | ⟨r, mem, lhs, rhs⟩
      · subst empty
        have moved := step_erase g mark (w ++ below) rest
        exact (HaltsWithin.next moved tail).mono (by
          simp only [List.length_cons, Nat.add_mul]
          omega)
      · have named : s ∈ nonterminalsOf rules := mem_nonterminalsOf.mpr ⟨r, mem, lhs⟩
        obtain ⟨ne, behind⟩ := follows s List.mem_cons_self named
        have all : ∀ x ∈ r.rhs, Vanishes rules x := fun x hx => ⟨n, rhs x hx⟩
        have rule : g.ruleFor s (lookahead ⟨s :: (w ++ below), rest⟩ mark).kind = some r :=
          (tabled.ruleFor_iff s _ r).mpr ⟨mem, lhs, Or.inr ⟨all, ne, by rw [lhs]; exact behind⟩⟩
        have notEmpty : s ≠ Symbol.empty := fun eq => tabled.empty_reserved (eq ▸ named)
        have moved := step_expand (w ++ below) rest notEmpty (tabled.named s named) rule
        -- inside the rule, the next token follows each nonterminal as it follows the left side
        have inside := ihn r.rhs (w ++ below) _ rhs (fun x hx namedX => by
          obtain ⟨before, after, split⟩ := List.append_of_mem hx
          refine ⟨ne, .inherited mem split namedX ?_ (by rw [lhs]; exact behind)⟩
          exact fun y hy => all y (by rw [split]; simp [hy])) tail
        refine (HaltsWithin.next moved inside).mono ?_
        have narrow : r.rhs.length * vanishCost width n ≤ width * vanishCost width n :=
          Nat.mul_le_mul_right _ (wide r mem)
        simp only [List.length_cons, Nat.add_mul, vanishCost] at narrow ⊢
        omega

/-- A symbol that opens with the next token, over a place from which the parser halts once the
token is matched, whatever symbols have come on top meanwhile. -/
theorem halts_opening (tabled : g.TableOf rules) (marked : mark.kind = Symbol.endOfInput)
    (wide : ∀ r ∈ rules, r.rhs.length ≤ width) (height : Nat)
    (flat : ∀ s, Vanishes rules s → VanishesWithin rules height s) (rest : List Token) (t : String)
    (next : ∀ stack, (lookahead ⟨stack, rest⟩ mark).kind = t) (ne : t ≠ Symbol.empty)
    (terminal : t ∉ nonterminalsOf rules) (n : Nat) :
    ∀ (s : String) (below : List String) (k : Nat), OpensWithin rules t n s →
      (∀ token later, rest = token :: later → ∀ above : List String, above.length ≤ n * width →
        HaltsWithin g mark k ⟨above ++ below, later⟩) →
      HaltsWithin g mark ((n + 1) * (1 + width * vanishCost width height) + k)
        ⟨s :: below, rest⟩ := by
  have matched : ∀ (m : Nat) (below : List String) (k : Nat),
      (∀ token later, rest = token :: later → ∀ above : List String, above.length ≤ m * width →
        HaltsWithin g mark k ⟨above ++ below, later⟩) →
      HaltsWithin g mark (k + 1) ⟨t :: below, rest⟩ := by
    intro m below k halts
    refine HaltsWithin.of_next fun q event moved => ?_
    have move := move_of_step marked moved
    generalize start : (⟨t :: below, rest⟩ : Parser) = p at move
    cases move with
    | erase => exact absurd (List.cons.inj (Parser.mk.inj start).1).1 ne
    | @expand s' below' rest' r notEmpty named rule =>
      obtain ⟨stack, rfl⟩ := Parser.mk.inj start
      obtain ⟨rfl, rfl⟩ := List.cons.inj stack
      obtain ⟨mem, lhs, _⟩ := (tabled.ruleFor_iff _ _ _).mp rule
      exact absurd (mem_nonterminalsOf.mpr ⟨r, mem, lhs⟩) terminal
    | accept below' later =>
      obtain ⟨stack, same⟩ := Parser.mk.inj start
      obtain ⟨_, rfl⟩ := List.cons.inj stack
      exact halts _ _ same [] (Nat.zero_le _)
  induction n with
  | zero =>
    intro s below k opens halts
    have eq : s = t := opens
    subst eq
    exact (matched 0 below k halts).mono (by omega)
  | succ n ih =>
    intro s below k opens halts
    rcases opens with eq | ⟨r, mem, lhs, before, x, after, rhs, vanish, opens⟩
    · subst eq
      refine (matched (n + 1) below k halts).mono ?_
      simp only [Nat.add_mul, Nat.one_mul]
      omega
    · have named : s ∈ nonterminalsOf rules := mem_nonterminalsOf.mpr ⟨r, mem, lhs⟩
      have opensX : Opens rules t x := ⟨ne, terminal, n, opens⟩
      have predicted : Predicts rules r t :=
        Or.inl ⟨before, x, after, rhs, vanish, opensX⟩
      have rule : g.ruleFor s (lookahead ⟨s :: below, rest⟩ mark).kind = some r := by
        rw [next]
        exact (tabled.ruleFor_iff s t r).mpr ⟨mem, lhs, predicted⟩
      have notEmpty : s ≠ Symbol.empty := fun eq => tabled.empty_reserved (eq ▸ named)
      have moved := step_expand below rest notEmpty (tabled.named s named) rule
      have length : before.length + (after.length + 1) ≤ width := by
        have h := wide r mem
        rw [rhs] at h
        simpa using h
      have opened := ih x (after ++ below) k opens fun token later eq above short => by
        have h := halts token later eq (above ++ after) (by
          simp only [List.length_append, Nat.add_mul, Nat.one_mul]
          omega)
        rwa [List.append_assoc] at h
      have inFront := halts_vanishing tabled wide rest height before
        (x :: (after ++ below)) _ (fun b hb => flat b (vanish b hb)) (fun b hb namedB => by
          obtain ⟨front, back, split⟩ := List.append_of_mem hb
          rw [next]
          have place : r.rhs = front ++ b :: (back ++ x :: after) := by
            rw [rhs, split]
            simp
          refine ⟨ne, .opening mem place namedB ⟨back, x, after, rfl, ?_, opensX⟩⟩
          exact fun y hy => vanish y (by rw [split]; simp [hy]))
        opened
      have stack : r.rhs ++ below = before ++ x :: (after ++ below) := by
        rw [rhs]
        simp
      rw [stack] at moved
      refine (HaltsWithin.next moved inFront).mono ?_
      have narrow : before.length * vanishCost width height ≤ width * vanishCost width height :=
        Nat.mul_le_mul_right _ (by omega)
      have split : (n + 1 + 1) * (1 + width * vanishCost width height) =
          (n + 1) * (1 + width * vanishCost width height) +
            (1 + width * vanishCost width height) := Nat.succ_mul _ _
      omega

/-- If the parser halts once the next token is matched, it halts. -/
theorem halts_before_token (tabled : g.TableOf rules) (marked : mark.kind = Symbol.endOfInput)
    (wide : ∀ r ∈ rules, r.rhs.length ≤ width) (height : Nat)
    (flat : ∀ s, Vanishes rules s → VanishesWithin rules height s)
    (near : ∀ t n s, OpensWithin rules t n s → OpensWithin rules t height s) (rest : List Token)
    (after : ∀ token later, rest = token :: later → ∀ stack : List String,
      HaltsWithin g mark (budget width height later.length stack.length) ⟨stack, later⟩)
    (stack : List String) :
    HaltsWithin g mark (budget width height rest.length stack.length) ⟨stack, rest⟩ := by
  induction stack with
  | nil => exact .stop rfl
  | cons s below ih =>
    have below_budget := budget_symbol width height rest.length below.length
    have positive := vanishCost_pos width height
    by_cases empty : s = Symbol.empty
    · subst empty
      have moved := step_erase g mark below rest
      exact (HaltsWithin.next moved ih).mono (by simp only [List.length_cons]; omega)
    · cases rule : g.ruleFor s (lookahead ⟨s :: below, rest⟩ mark).kind with
      | none =>
        -- no rule: the parser stops here, unless the symbol is the next token
        refine HaltsWithin.mono (n := budget width height rest.length below.length + 1) ?_
          (by simp only [List.length_cons]; omega)
        refine HaltsWithin.of_next fun q event moved => ?_
        have move := move_of_step marked moved
        generalize start : (⟨s :: below, rest⟩ : Parser) = p at move
        cases move with
        | erase => exact absurd (List.cons.inj (Parser.mk.inj start).1).1 empty
        | expand _ _ found =>
          rw [← start] at found
          obtain ⟨stack, rfl⟩ := Parser.mk.inj start
          obtain ⟨rfl, rfl⟩ := List.cons.inj stack
          cases rule.symm.trans found
        | @accept token below' later =>
          obtain ⟨stack, same⟩ := Parser.mk.inj start
          obtain ⟨_, rfl⟩ := List.cons.inj stack
          refine (after token later same below).mono ?_
          rw [same, List.length_cons]
          unfold budget
          rw [Nat.add_mul later.length 1]
          omega
      | some r =>
        obtain ⟨mem, lhs, predicted⟩ := (tabled.ruleFor_iff _ _ _).mp rule
        subst lhs
        rcases predicted with opens | ⟨vanish, ne, follows⟩
        · obtain ⟨ne, terminal, n, opens⟩ := opens_of_rule mem opens
          cases rest with
          | nil =>
            have h := halts_opening (k := 0) tabled marked wide height flat [] _ (fun _ => rfl) ne
              terminal height r.lhs below (near _ n _ opens) (fun token later eq => nomatch eq)
            exact h.mono (by simp only [budget, openCost]; omega)
          | cons token later =>
            have h := halts_opening (k := budget width height later.length
                (height * width + below.length)) tabled marked wide height flat (token :: later) _
              (fun _ => rfl) ne terminal height r.lhs below (near _ n _ opens)
              (fun token' later' eq above short => by
                obtain ⟨rfl, rfl⟩ := List.cons.inj eq
                refine (after token later rfl (above ++ below)).mono ?_
                unfold budget
                rw [List.length_append]
                have more := Nat.mul_le_mul_right (vanishCost width height)
                  (Nat.add_le_add_right short below.length)
                omega)
            exact h.mono (budget_token width height later.length below.length)
        · have h := halts_vanishing tabled wide rest height [r.lhs] below _
            (fun x hx => List.mem_singleton.mp hx ▸ flat _ (vanishes_of_rule mem vanish))
            (fun x hx _ => List.mem_singleton.mp hx ▸ ⟨ne, follows⟩) ih
          exact h.mono (Nat.le_of_eq below_budget)

/-- From any stack the parser halts. -/
theorem halts (tabled : g.TableOf rules) (marked : mark.kind = Symbol.endOfInput)
    (wide : ∀ r ∈ rules, r.rhs.length ≤ width) (height : Nat)
    (flat : ∀ s, Vanishes rules s → VanishesWithin rules height s)
    (near : ∀ t n s, OpensWithin rules t n s → OpensWithin rules t height s)
    (rest : List Token) (stack : List String) :
    HaltsWithin g mark (budget width height rest.length stack.length) ⟨stack, rest⟩ := by
  induction rest generalizing stack with
  | nil =>
    exact halts_before_token tabled marked wide height flat near [] (fun _ _ eq => nomatch eq) stack
  | cons token later ih =>
    refine halts_before_token tabled marked wide height flat near (token :: later) ?_ stack
    intro token' later' eq stack'
    obtain ⟨rfl, rfl⟩ := List.cons.inj eq
    exact ih stack'

end Halting

section Bottom

variable {g : Grammar} {rules : List Rule} {mark : Token} {p q : Parser}

/-- What a step does to the symbols above the end mark. -/
inductive Above (g : Grammar) (rules : List Rule) :
    List String → List Token → Option ParseEvent → List String → List Token → Prop where
  | erase (w : List String) (rest : List Token) :
      Above g rules (Symbol.empty :: w) rest none w rest
  | expand {r : Rule} (w : List String) (rest : List Token) : r ∈ rules →
      r.lhs ≠ Symbol.empty → Above g rules (r.lhs :: w) rest (some (.expand r)) (r.rhs ++ w) rest
  | accept {t : Token} (w : List String) (rest : List Token) : t.kind ≠ Symbol.empty →
      g.isNonterminal t.kind = false → t.kind ≠ Symbol.endOfInput →
      Above g rules (t.kind :: w) (t :: rest) (some (.accept t)) w rest

/-- No step takes the end mark off the stack. -/
theorem Move.above (tabled : g.TableOf rules) {event : Option ParseEvent}
    (move : Move g mark p event q) {w : List String}
    (stack : p.stack = w ++ [Symbol.endOfInput]) :
    ∃ w', q.stack = w' ++ [Symbol.endOfInput] ∧ Above g rules w p.rest event w' q.rest := by
  cases move with
  | erase below rest =>
    cases w with
    | nil => exact absurd (List.cons.inj stack).1 (by decide)
    | cons s w =>
      obtain ⟨rfl, rfl⟩ := List.cons.inj stack
      exact ⟨w, rfl, .erase w rest⟩
  | @expand s below rest r ne _ rule =>
    obtain ⟨mem, rfl, _⟩ := (tabled.ruleFor_iff _ _ _).mp rule
    cases w with
    | nil =>
      have top := (List.cons.inj stack).1
      exact absurd (top ▸ lhs_mem_nonterminalsOf mem) tabled.end_reserved
    | cons s w =>
      obtain ⟨rfl, rfl⟩ := List.cons.inj stack
      exact ⟨r.rhs ++ w, (List.append_assoc _ _ _).symm, .expand w rest mem ne⟩
  | accept below rest ne terminal notEnd =>
    cases w with
    | nil => exact absurd (List.cons.inj stack).1 notEnd
    | cons s w =>
      obtain ⟨rfl, rfl⟩ := List.cons.inj stack
      exact ⟨w, rfl, .accept w rest ne terminal notEnd⟩

theorem bottom_of_reaches (tabled : g.TableOf rules) (marked : mark.kind = Symbol.endOfInput)
    {events : List ParseEvent} (chain : Reaches g mark p events q) {w : List String}
    (stack : p.stack = w ++ [Symbol.endOfInput]) : ∃ w', q.stack = w' ++ [Symbol.endOfInput] := by
  induction chain generalizing w with
  | refl p => exact ⟨w, stack⟩
  | step moved _ ih =>
    obtain ⟨w', stack', _⟩ := (move_of_step marked moved).above tabled stack
    exact ih stack'

end Bottom

end Parser

theorem endMark_kind (tokens : List Token) : (endMark tokens).kind = Symbol.endOfInput := by
  unfold endMark
  split <;> rfl

namespace Grammar

theorem length_le_longestRule (g : Grammar) (r : Rule) (mem : r ∈ g.rules) :
    r.rhs.length ≤ g.longestRule := by
  have general : ∀ (ns : List Nat) (start n : Nat), n = start ∨ n ∈ ns → n ≤ ns.foldl max start := by
    intro ns
    induction ns with
    | nil =>
      intro start n h
      rcases h with rfl | h
      · exact Nat.le_refl n
      · cases h
    | cons m ns ih =>
      intro start n h
      rcases h with rfl | h
      · exact Nat.le_trans (Nat.le_max_left n m) (ih _ _ (Or.inl rfl))
      · rcases List.mem_cons.mp h with rfl | h
        · exact Nat.le_trans (Nat.le_max_right start n) (ih _ _ (Or.inl rfl))
        · exact ih _ _ (Or.inr h)
  exact general _ 0 _ (Or.inr (List.mem_map.mpr ⟨r, mem, rfl⟩))

/-- A parse halts within its fuel, from its first configuration. -/
theorem parse_halts {g : Grammar} {rules : List Rule} (tabled : g.TableOf rules)
    (tokens : List Token) :
    Parser.HaltsWithin g (endMark tokens) (g.stepBound tokens) (.initial tokens) := by
  have named : ∀ s ∈ nonterminalsOf rules, s ∈ g.nonterminals.toList := by
    intro s mem
    exact of_decide_eq_true (tabled.named s mem)
  have h := Parser.halts tabled (endMark_kind tokens)
    (fun r mem => g.length_le_longestRule r (tabled.known r mem)) g.nonterminals.size
    (fun s vanish => by
      obtain ⟨n, hn⟩ := vanish
      exact hn.bounded named)
    (fun t n s opens => opens.bounded named) tokens [Symbol.start, Symbol.endOfInput]
  exact h.mono (Parser.budget_le g.longestRule g.nonterminals.size tokens.length)

/-- A parse is the one chain of steps from its first configuration to where no step follows. -/
theorem parse_run {g : Grammar} {rules : List Rule} (tabled : g.TableOf rules)
    (tokens : List Token) :
    ∃ last, Parser.Reaches g (endMark tokens) (.initial tokens) (g.parse tokens).events last ∧
      last.step g (endMark tokens) = .stop (g.parse tokens).error := by
  obtain ⟨events, last, failure, chain, stopped, same⟩ := (parse_halts tabled tokens).run_eq
  have eq : g.parse tokens = ⟨events, failure⟩ := by
    rw [parse, same []]
    simp
  rw [eq]
  exact ⟨last, chain, stopped⟩

/-- A parse that fails does so at the token that is next where it ends. -/
theorem found_of_parse {g : Grammar} {rules : List Rule} (tabled : g.TableOf rules)
    {tokens : List Token} {e : ParseError} (failed : (g.parse tokens).error = some e) :
    ∃ last, Parser.Reaches g (endMark tokens) (.initial tokens) (g.parse tokens).events last ∧
      last.step g (endMark tokens) = .stop (some e) ∧
      e.found? = some (last.lookahead (endMark tokens)) := by
  obtain ⟨last, chain, stopped⟩ := parse_run tabled tokens
  rw [failed] at stopped
  have start : (Parser.initial tokens).stack = [Symbol.start] ++ [Symbol.endOfInput] := rfl
  obtain ⟨w, stack⟩ := Parser.bottom_of_reaches tabled (endMark_kind tokens) chain start
  refine ⟨last, chain, stopped, Parser.found_of_failure stopped ?_⟩
  rw [stack]
  exact List.append_ne_nil_of_right_ne_nil w (List.cons_ne_nil _ _)

/-- A chain of steps that ends where no step follows is the parse. -/
theorem parse_eq_of_reaches {g : Grammar} {rules : List Rule} (tabled : g.TableOf rules)
    {tokens : List Token} {events : List ParseEvent} {last : Parser} {failure : Option ParseError}
    (chain : Parser.Reaches g (endMark tokens) (.initial tokens) events last)
    (stopped : last.step g (endMark tokens) = .stop failure) :
    g.parse tokens = ⟨events, failure⟩ := by
  obtain ⟨other, reached, ended⟩ := parse_run tabled tokens
  obtain ⟨same, outcome⟩ := chain.stop_unique stopped reached ended
  rw [same, outcome]

end Grammar

end TableAsm
