import TableAsm.Grammar.Basic
import TableAsm.Proofs.Grammar.Family

/-! What FIRST sets mean. A symbol vanishes when it derives the empty text, and opens with a
terminal when a derivation of it begins with that terminal; both are counted by the height of the
derivation. `mem_firstOfSequence_computed` says that the computed FIRST sets hold just that. -/
namespace TableAsm

/-- The symbols that some rule expands. -/
def nonterminalsOf (rules : List Rule) : NameSet := .ofList (rules.map (·.lhs))

theorem mem_nonterminalsOf {rules : List Rule} {s : String} :
    s ∈ nonterminalsOf rules ↔ ∃ r ∈ rules, r.lhs = s := by
  simp [nonterminalsOf]

theorem lhs_mem_nonterminalsOf {rules : List Rule} {r : Rule} (mem : r ∈ rules) :
    r.lhs ∈ nonterminalsOf rules := mem_nonterminalsOf.mpr ⟨r, mem, rfl⟩

/-- A symbol derives the empty text by trees of at most the given height. -/
def VanishesWithin (rules : List Rule) : Nat → String → Prop
  | 0, s => s = Symbol.empty
  | n + 1, s =>
    s = Symbol.empty ∨ ∃ r ∈ rules, r.lhs = s ∧ ∀ x ∈ r.rhs, VanishesWithin rules n x

def Vanishes (rules : List Rule) (s : String) : Prop := ∃ n, VanishesWithin rules n s

/-- A symbol derives a text that begins with `t`, which is reached from the symbol by at most the
given number of rules. -/
def OpensWithin (rules : List Rule) (t : String) : Nat → String → Prop
  | 0, s => s = t
  | n + 1, s =>
    s = t ∨ ∃ r ∈ rules, r.lhs = s ∧ ∃ before x after, r.rhs = before ++ x :: after ∧
      (∀ b ∈ before, Vanishes rules b) ∧ OpensWithin rules t n x

/-- A symbol derives a text that begins with the terminal `t`. -/
def Opens (rules : List Rule) (t s : String) : Prop :=
  t ≠ Symbol.empty ∧ t ∉ nonterminalsOf rules ∧ ∃ n, OpensWithin rules t n s

/-- A sequence of symbols derives a text that begins with the terminal `t`. -/
def OpensSequence (rules : List Rule) (t : String) (w : List String) : Prop :=
  ∃ before x after, w = before ++ x :: after ∧ (∀ b ∈ before, Vanishes rules b) ∧ Opens rules t x

section Heights

variable {rules : List Rule} {s t : String} {n m : Nat}

theorem VanishesWithin.succ (h : VanishesWithin rules n s) : VanishesWithin rules (n + 1) s := by
  induction n generalizing s with
  | zero => exact Or.inl h
  | succ n ih =>
    rcases h with h | ⟨r, mem, lhs, rhs⟩
    · exact Or.inl h
    · exact Or.inr ⟨r, mem, lhs, fun x hx => ih (rhs x hx)⟩

theorem VanishesWithin.mono (h : VanishesWithin rules n s) (le : n ≤ m) :
    VanishesWithin rules m s := by
  induction le with
  | refl => exact h
  | step _ ih => exact ih.succ

theorem OpensWithin.succ (h : OpensWithin rules t n s) : OpensWithin rules t (n + 1) s := by
  induction n generalizing s with
  | zero => exact Or.inl h
  | succ n ih =>
    rcases h with h | ⟨r, mem, lhs, before, x, after, rhs, vanish, opens⟩
    · exact Or.inl h
    · exact Or.inr ⟨r, mem, lhs, before, x, after, rhs, vanish, ih opens⟩

/-- Symbols that all vanish do so within a common height. -/
theorem vanish_within_common (w : List String) (h : ∀ s ∈ w, Vanishes rules s) :
    ∃ n, ∀ s ∈ w, VanishesWithin rules n s := by
  induction w with
  | nil => exact ⟨0, fun s mem => absurd mem List.not_mem_nil⟩
  | cons s w ih =>
    obtain ⟨n, hn⟩ := h s List.mem_cons_self
    obtain ⟨m, hm⟩ := ih fun x hx => h x (List.mem_cons_of_mem _ hx)
    refine ⟨max n m, ?_⟩
    intro x hx
    rcases List.mem_cons.mp hx with rfl | hx
    · exact hn.mono (Nat.le_max_left n m)
    · exact (hm x hx).mono (Nat.le_max_right n m)

theorem vanishes_empty : Vanishes rules Symbol.empty := ⟨0, rfl⟩

theorem vanishes_of_rule {r : Rule} (mem : r ∈ rules) (h : ∀ x ∈ r.rhs, Vanishes rules x) :
    Vanishes rules r.lhs := by
  obtain ⟨n, hn⟩ := vanish_within_common r.rhs h
  exact ⟨n + 1, Or.inr ⟨r, mem, rfl, hn⟩⟩

theorem opens_self (terminal : t ∉ nonterminalsOf rules) (ne : t ≠ Symbol.empty) :
    Opens rules t t := ⟨ne, terminal, 0, rfl⟩

theorem opens_of_rule {r : Rule} (mem : r ∈ rules) (h : OpensSequence rules t r.rhs) :
    Opens rules t r.lhs := by
  obtain ⟨before, x, after, rhs, vanish, ne, terminal, n, opens⟩ := h
  exact ⟨ne, terminal, n + 1, Or.inr ⟨r, mem, rfl, before, x, after, rhs, vanish, opens⟩⟩

theorem opensSequence_cons {w : List String} :
    OpensSequence rules t (s :: w) ↔
      Opens rules t s ∨ (Vanishes rules s ∧ OpensSequence rules t w) := by
  constructor
  · rintro ⟨before, x, after, eq, vanish, opens⟩
    cases before with
    | nil =>
      obtain ⟨rfl, _⟩ := List.cons.inj eq
      exact Or.inl opens
    | cons b before =>
      obtain ⟨rfl, rfl⟩ := List.cons.inj eq
      exact Or.inr ⟨vanish s List.mem_cons_self, before, x, after, rfl,
        fun y hy => vanish y (List.mem_cons_of_mem _ hy), opens⟩
  · rintro (opens | ⟨vanish, before, x, after, rfl, all, opens⟩)
    · exact ⟨[], s, w, rfl, fun b mem => absurd mem List.not_mem_nil, opens⟩
    · refine ⟨s :: before, x, after, rfl, ?_, opens⟩
      intro b mem
      rcases List.mem_cons.mp mem with rfl | mem
      · exact vanish
      · exact all b mem

theorem not_opensSequence_nil : ¬ OpensSequence rules t [] := by
  rintro ⟨before, x, after, eq, _⟩
  cases before <;> cases eq

/-- A terminal with which another symbol opens stands on some right-hand side. -/
theorem OpensWithin.eq_or_mem (h : OpensWithin rules t n s) :
    s = t ∨ t ∈ rules.flatMap (·.rhs) := by
  induction n generalizing s with
  | zero => exact Or.inl h
  | succ n ih =>
    rcases h with h | ⟨r, mem, _, before, x, after, rhs, _, opens⟩
    · exact Or.inl h
    · right
      rcases ih opens with rfl | found
      · exact List.mem_flatMap.mpr ⟨r, mem, by rw [rhs]; simp⟩
      · exact found

end Heights

section Sequences

variable {nonterminals : NameSet} {first : SetFamily}

theorem mem_firstOf (s a : String) :
    a ∈ firstOf nonterminals first s ↔
      (s ∈ nonterminals ∧ a ∈ first.row s) ∨ (s ∉ nonterminals ∧ a = s) := by
  unfold firstOf
  split
  · rename_i h
    simp [h]
  · rename_i h
    simp [h]

theorem mem_firstOfSequence_cons (s a : String) (w : List String) :
    a ∈ firstOfSequence nonterminals first (s :: w) ↔
      (a ∈ firstOf nonterminals first s ∧ a ≠ Symbol.empty) ∨
        (Symbol.empty ∈ firstOf nonterminals first s ∧
          a ∈ firstOfSequence nonterminals first w) := by
  rw [firstOfSequence]
  split
  · rename_i h
    simp [h]
  · rename_i h
    constructor
    · intro mem
      refine Or.inl ⟨mem, ?_⟩
      rintro rfl
      exact h mem
    · rintro (⟨mem, _⟩ | ⟨empty, _⟩)
      · exact mem
      · exact absurd empty h

theorem mem_firstOfSequence_nil (a : String) :
    a ∈ firstOfSequence nonterminals first [] ↔ a = Symbol.empty := by
  simp [firstOfSequence]

theorem firstOfSequence_mono {f g : SetFamily} (within : f.Within g) (w : List String) (a : String)
    (mem : a ∈ firstOfSequence nonterminals f w) : a ∈ firstOfSequence nonterminals g w := by
  have grow : ∀ s x, x ∈ firstOf nonterminals f s → x ∈ firstOf nonterminals g s := by
    intro s x hx
    rw [mem_firstOf] at hx ⊢
    exact hx.imp_left fun h => ⟨h.1, within s x h.2⟩
  induction w with
  | nil => exact mem
  | cons s w ih =>
    rw [mem_firstOfSequence_cons] at mem ⊢
    rcases mem with ⟨h, ne⟩ | ⟨h, rest⟩
    · exact Or.inl ⟨grow s a h, ne⟩
    · exact Or.inr ⟨grow s _ h, ih rest⟩

end Sequences

section Meaning

variable {rules : List Rule} {first : SetFamily}

/-- Every member of a FIRST family is there for a reason. -/
def FirstSound (rules : List Rule) (first : SetFamily) : Prop :=
  ∀ s a, a ∈ first.row s → s ∈ nonterminalsOf rules ∧
    if a = Symbol.empty then Vanishes rules s else Opens rules a s

/-- A FIRST family has what each rule asks for. -/
def FirstClosed (rules : List Rule) (first : SetFamily) : Prop :=
  ∀ r ∈ rules, ∀ a, a ∈ firstOfSequence (nonterminalsOf rules) first r.rhs → a ∈ first.row r.lhs

theorem FirstSound.of_mem_firstOf (sound : FirstSound rules first) (s a : String)
    (mem : a ∈ firstOf (nonterminalsOf rules) first s) :
    if a = Symbol.empty then Vanishes rules s else Opens rules a s := by
  rcases (mem_firstOf s a).mp mem with ⟨_, h⟩ | ⟨terminal, rfl⟩
  · exact (sound s a h).2
  · split
    · rename_i h
      exact h ▸ vanishes_empty
    · rename_i h
      exact opens_self terminal h

theorem FirstSound.of_mem_firstOfSequence (sound : FirstSound rules first) (w : List String)
    (a : String) (mem : a ∈ firstOfSequence (nonterminalsOf rules) first w) :
    if a = Symbol.empty then ∀ s ∈ w, Vanishes rules s else OpensSequence rules a w := by
  induction w with
  | nil =>
    rw [mem_firstOfSequence_nil] at mem
    rw [if_pos mem]
    exact fun s h => absurd h List.not_mem_nil
  | cons s w ih =>
    rcases (mem_firstOfSequence_cons s a w).mp mem with ⟨head, ne⟩ | ⟨empty, rest⟩
    · have opens := sound.of_mem_firstOf s a head
      rw [if_neg ne] at opens ⊢
      exact opensSequence_cons.mpr (Or.inl opens)
    · have vanish := sound.of_mem_firstOf s _ empty
      rw [if_pos rfl] at vanish
      have tail := ih rest
      split
      · rename_i h
        rw [if_pos h] at tail
        intro x hx
        rcases List.mem_cons.mp hx with rfl | hx
        · exact vanish
        · exact tail x hx
      · rename_i h
        rw [if_neg h] at tail
        exact opensSequence_cons.mpr (Or.inr ⟨vanish, tail⟩)

theorem FirstClosed.empty_mem_of_all (w : List String)
    (all : ∀ s ∈ w, Symbol.empty ∈ firstOf (nonterminalsOf rules) first s) :
    Symbol.empty ∈ firstOfSequence (nonterminalsOf rules) first w := by
  induction w with
  | nil => exact (mem_firstOfSequence_nil _).mpr rfl
  | cons s w ih =>
    refine (mem_firstOfSequence_cons s _ w).mpr (Or.inr ⟨all s List.mem_cons_self, ?_⟩)
    exact ih fun x hx => all x (List.mem_cons_of_mem _ hx)

theorem FirstClosed.empty_mem (closed : FirstClosed rules first)
    (reserved : Symbol.empty ∉ nonterminalsOf rules) {n : Nat} {s : String}
    (h : VanishesWithin rules n s) : Symbol.empty ∈ firstOf (nonterminalsOf rules) first s := by
  induction n generalizing s with
  | zero => exact (mem_firstOf s _).mpr (Or.inr ⟨h ▸ reserved, h.symm⟩)
  | succ n ih =>
    rcases h with h | ⟨r, mem, rfl, rhs⟩
    · exact (mem_firstOf s _).mpr (Or.inr ⟨h ▸ reserved, h.symm⟩)
    · have all := FirstClosed.empty_mem_of_all r.rhs fun x hx => ih (rhs x hx)
      exact (mem_firstOf _ _).mpr
        (Or.inl ⟨lhs_mem_nonterminalsOf mem, closed r mem _ all⟩)

theorem FirstClosed.mem_of_split (closed : FirstClosed rules first)
    (reserved : Symbol.empty ∉ nonterminalsOf rules) (before : List String) (x : String)
    (after : List String) (a : String) (ne : a ≠ Symbol.empty)
    (vanish : ∀ b ∈ before, Vanishes rules b)
    (mem : a ∈ firstOf (nonterminalsOf rules) first x) :
    a ∈ firstOfSequence (nonterminalsOf rules) first (before ++ x :: after) := by
  induction before with
  | nil => exact (mem_firstOfSequence_cons x a after).mpr (Or.inl ⟨mem, ne⟩)
  | cons b before ih =>
    obtain ⟨n, hn⟩ := vanish b List.mem_cons_self
    refine (mem_firstOfSequence_cons b a _).mpr (Or.inr ⟨closed.empty_mem reserved hn, ?_⟩)
    exact ih fun y hy => vanish y (List.mem_cons_of_mem _ hy)

theorem FirstClosed.opening_mem (closed : FirstClosed rules first)
    (reserved : Symbol.empty ∉ nonterminalsOf rules) {t : String} (ne : t ≠ Symbol.empty)
    (terminal : t ∉ nonterminalsOf rules) {n : Nat} {s : String} (h : OpensWithin rules t n s) :
    t ∈ firstOf (nonterminalsOf rules) first s := by
  induction n generalizing s with
  | zero => exact (mem_firstOf s t).mpr (Or.inr ⟨h ▸ terminal, h.symm⟩)
  | succ n ih =>
    rcases h with h | ⟨r, mem, rfl, before, x, after, rhs, vanish, opens⟩
    · exact (mem_firstOf s t).mpr (Or.inr ⟨h ▸ terminal, h.symm⟩)
    · have found := closed.mem_of_split reserved before x after t ne vanish (ih opens)
      rw [← rhs] at found
      exact (mem_firstOf _ _).mpr (Or.inl ⟨lhs_mem_nonterminalsOf mem, closed r mem t found⟩)

/-- In a family that is sound and closed, FIRST of a sequence says what the sequence opens with
and whether it vanishes. -/
theorem mem_firstOfSequence_iff (sound : FirstSound rules first) (closed : FirstClosed rules first)
    (reserved : Symbol.empty ∉ nonterminalsOf rules) (w : List String) (a : String) :
    a ∈ firstOfSequence (nonterminalsOf rules) first w ↔
      if a = Symbol.empty then ∀ s ∈ w, Vanishes rules s else OpensSequence rules a w := by
  constructor
  · exact sound.of_mem_firstOfSequence w a
  · intro h
    split at h
    · rename_i eq
      subst eq
      refine FirstClosed.empty_mem_of_all w fun s hs => ?_
      obtain ⟨n, hn⟩ := h s hs
      exact closed.empty_mem reserved hn
    · rename_i ne
      obtain ⟨before, x, after, rfl, vanish, _, terminal, n, opens⟩ := h
      exact closed.mem_of_split reserved before x after a ne vanish
        (closed.opening_mem reserved ne terminal opens)

end Meaning

section Computed

variable {rules : List Rule}

theorem FirstSound.total_le (first : SetFamily) (sound : FirstSound rules first) :
    first.total ≤ growthBound rules := by
  have le := first.total_le (rules.map (·.lhs)) (Symbol.empty :: rules.flatMap (·.rhs)) ?_
  · have lengths : (rules.flatMap (·.rhs)).length = (rules.map (·.rhs.length)).foldr (· + ·) 0 :=
      List.length_flatMap
    simp only [List.length_map, List.length_cons, lengths] at le
    refine le.trans ?_
    unfold growthBound
    exact Nat.mul_le_mul (Nat.le_succ _) (Nat.le_succ _)
  · intro s a mem
    obtain ⟨named, why⟩ := sound s a mem
    refine ⟨by simpa [nonterminalsOf] using named, ?_⟩
    split at why
    · rename_i eq
      exact eq ▸ List.mem_cons_self
    · obtain ⟨_, terminal, n, opens⟩ := why
      rcases opens.eq_or_mem with rfl | found
      · exact absurd named terminal
      · exact List.mem_cons_of_mem _ found

theorem FirstSound.step {first : SetFamily} (sound : FirstSound rules first) {r : Rule}
    (mem : r ∈ rules) :
    FirstSound rules (first.add r.lhs (firstOfSequence (nonterminalsOf rules) first r.rhs)) := by
  intro s a h
  rcases (first.mem_row_add r.lhs _ s a).mp h with old | ⟨rfl, new⟩
  · exact sound s a old
  · refine ⟨lhs_mem_nonterminalsOf mem, ?_⟩
    have why := sound.of_mem_firstOfSequence r.rhs a new
    split
    · rename_i eq
      rw [if_pos eq] at why
      exact vanishes_of_rule mem why
    · rename_i ne
      rw [if_neg ne] at why
      exact opens_of_rule mem why

theorem firstPass_grows (rules : List Rule) (f : SetFamily) (r : Rule) :
    f.Within (f.add r.lhs (firstOfSequence (nonterminalsOf rules) f r.rhs)) := f.within_add _ _

theorem within_firstPass (rules : List Rule) (f : SetFamily) :
    f.Within (firstPass (nonterminalsOf rules) rules f) :=
  SetFamily.within_foldl _ (firstPass_grows rules) rules f

theorem FirstSound.pass {first : SetFamily} (sound : FirstSound rules first) :
    FirstSound rules (firstPass (nonterminalsOf rules) rules first) :=
  SetFamily.foldl_keeps _ (FirstSound rules) rules (fun _ _ mem h => h.step mem) first sound

theorem firstSound_empty : FirstSound rules ∅ :=
  fun s a mem => absurd mem (SetFamily.not_mem_row_empty s a)

/-- The passes for FIRST come to an end, and the computed family is what they end with. -/
theorem first_stabilizes (rules : List Rule) :
    let sets := Sets.ofRules (nonterminalsOf rules) rules
    SetFamily.Stabilizes (firstPass (nonterminalsOf rules) rules) ∅ sets.first sets.firstPasses :=
  SetFamily.stabilizes_saturate (within_firstPass rules) (fun _ sound => FirstSound.pass sound)
    FirstSound.total_le (growthBound rules + 1) firstSound_empty (by omega)

/-- The computed FIRST family is sound and closed. -/
theorem first_computed (rules : List Rule) :
    FirstSound rules (Sets.ofRules (nonterminalsOf rules) rules).first ∧
      FirstClosed rules (Sets.ofRules (nonterminalsOf rules) rules).first := by
  obtain ⟨sound, _, last, _, result, fixed⟩ := (first_stabilizes rules).stable
    (within_firstPass rules) (fun _ sound => FirstSound.pass sound) firstSound_empty
  refine ⟨sound, ?_⟩
  intro r mem a found
  -- the last pass added nothing, so what it added at `r` it found in the result
  obtain ⟨g, before, after⟩ := SetFamily.foldl_acts
    (fun f r => f.add r.lhs (firstOfSequence (nonterminalsOf rules) f r.rhs))
    (firstPass_grows rules) rules last r mem
  have inPass := firstOfSequence_mono (fixed.trans before) r.rhs a found
  have added := (g.mem_row_add r.lhs _ r.lhs a).mpr (Or.inr ⟨rfl, inPass⟩)
  rw [result]
  exact after r.lhs a added

/-- The computed FIRST of a sequence holds the terminals that the sequence opens with, and the
empty symbol when the sequence vanishes. -/
theorem mem_firstOfSequence_computed (reserved : Symbol.empty ∉ nonterminalsOf rules)
    (w : List String) (a : String) :
    a ∈ firstOfSequence (nonterminalsOf rules)
        (Sets.ofRules (nonterminalsOf rules) rules).first w ↔
      if a = Symbol.empty then ∀ s ∈ w, Vanishes rules s else OpensSequence rules a w := by
  obtain ⟨sound, closed⟩ := first_computed rules
  exact mem_firstOfSequence_iff sound closed reserved w a

end Computed

end TableAsm
