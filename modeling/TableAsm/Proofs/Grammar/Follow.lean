import TableAsm.Proofs.Grammar.First

/-! What FOLLOW sets mean. A terminal follows a nonterminal when it opens what stands behind it in
some rule, or follows the left-hand side of a rule in which nothing but vanishing symbols stands
behind it; the end of input follows the start symbol. `mem_follow_computed` says that the computed
FOLLOW sets hold just that. -/
namespace TableAsm

/-- A terminal can stand directly behind a nonterminal. -/
inductive Follows (rules : List Rule) (t : String) : String → Prop where
  | start : t = Symbol.endOfInput → Follows rules t Symbol.start
  | opening {r : Rule} {before : List String} {x : String} {after : List String} :
      r ∈ rules → r.rhs = before ++ x :: after → x ∈ nonterminalsOf rules →
        OpensSequence rules t after → Follows rules t x
  | inherited {r : Rule} {before : List String} {x : String} {after : List String} :
      r ∈ rules → r.rhs = before ++ x :: after → x ∈ nonterminalsOf rules →
        (∀ s ∈ after, Vanishes rules s) → Follows rules t r.lhs → Follows rules t x

section Passes

variable {nonterminals : NameSet} {first : SetFamily}

theorem mem_followAdditions (follow : SetFamily) (lhs : String) (behind : List String)
    (a : String) :
    a ∈ followAdditions nonterminals first follow lhs behind ↔
      (a ∈ firstOfSequence nonterminals first behind ∧ a ≠ Symbol.empty) ∨
        (Symbol.empty ∈ firstOfSequence nonterminals first behind ∧ a ∈ follow.row lhs) := by
  simp only [followAdditions]
  split
  · rename_i h
    simp [h]
  · rename_i h
    simp [h]

theorem within_followAlong (lhs : String) (rhs : List String) (follow : SetFamily) :
    follow.Within (followAlong nonterminals first lhs follow rhs) := by
  induction rhs generalizing follow with
  | nil => exact SetFamily.Within.refl follow
  | cons x behind ih =>
    rw [followAlong]
    split
    · exact (follow.within_add _ _).trans (ih _)
    · exact ih follow

/-- What a pass adds at one place of a right-hand side is in the result. -/
theorem followAlong_acts (lhs : String) (before : List String) (x : String) (after : List String)
    (named : x ∈ nonterminals) (follow : SetFamily) :
    ∃ g, follow.Within g ∧ (g.add x (followAdditions nonterminals first g lhs after)).Within
      (followAlong nonterminals first lhs follow (before ++ x :: after)) := by
  induction before generalizing follow with
  | nil =>
    refine ⟨follow, SetFamily.Within.refl follow, ?_⟩
    rw [List.nil_append, followAlong, if_pos named]
    exact within_followAlong lhs after _
  | cons b before ih =>
    rw [List.cons_append, followAlong]
    split
    · obtain ⟨g, within, added⟩ :=
        ih (follow.add b (followAdditions nonterminals first follow lhs (before ++ x :: after)))
      exact ⟨g, (follow.within_add _ _).trans within, added⟩
    · exact ih follow

end Passes

variable {rules : List Rule} {first : SetFamily}

/-- Every member of a FOLLOW family is there for a reason. -/
def FollowSound (rules : List Rule) (follow : SetFamily) : Prop :=
  ∀ x a, a ∈ follow.row x → a ≠ Symbol.empty ∧ Follows rules a x

theorem Follows.bounds {t x : String} (h : Follows rules t x) :
    x ∈ Symbol.start :: rules.map (·.lhs) ∧
      t ∈ Symbol.endOfInput :: rules.flatMap (·.rhs) := by
  have named : ∀ {s}, s ∈ nonterminalsOf rules → s ∈ Symbol.start :: rules.map (·.lhs) := by
    intro s hs
    exact List.mem_cons_of_mem _ (by simpa [nonterminalsOf] using hs)
  induction h with
  | start eq => exact ⟨List.mem_cons_self, eq ▸ List.mem_cons_self⟩
  | opening mem rhs hx opens =>
    refine ⟨named hx, List.mem_cons_of_mem _ ?_⟩
    obtain ⟨front, y, back, eq, _, _, _, n, reach⟩ := opens
    rcases reach.eq_or_mem with rfl | found
    · exact List.mem_flatMap.mpr ⟨_, mem, by rw [rhs, eq]; simp⟩
    · exact found
  | inherited _ _ hx _ _ ih => exact ⟨named hx, ih.2⟩

theorem FollowSound.total_le {follow : SetFamily} (sound : FollowSound rules follow) :
    follow.total ≤ growthBound rules := by
  have le := follow.total_le (Symbol.start :: rules.map (·.lhs))
    (Symbol.endOfInput :: rules.flatMap (·.rhs)) fun x a mem => (sound x a mem).2.bounds
  have lengths : (rules.flatMap (·.rhs)).length = (rules.map (·.rhs.length)).foldr (· + ·) 0 :=
    List.length_flatMap
  simp only [List.length_map, List.length_cons, lengths] at le
  exact le.trans (Nat.mul_le_mul (Nat.le_refl _) (Nat.le_succ _))

theorem FollowSound.along (firstSound : FirstSound rules first) {r : Rule} (mem : r ∈ rules)
    (before rhs : List String) (eq : r.rhs = before ++ rhs) {follow : SetFamily}
    (sound : FollowSound rules follow) :
    FollowSound rules (followAlong (nonterminalsOf rules) first r.lhs follow rhs) := by
  induction rhs generalizing before follow with
  | nil => exact sound
  | cons x behind ih =>
    rw [followAlong]
    have rest : r.rhs = (before ++ [x]) ++ behind := by rw [eq]; simp
    split
    · rename_i named
      refine ih (before ++ [x]) rest ?_
      intro y a h
      rcases (follow.mem_row_add x _ y a).mp h with old | ⟨rfl, new⟩
      · exact sound y a old
      · rcases (mem_followAdditions follow r.lhs behind a).mp new with ⟨opens, ne⟩ | ⟨empty, up⟩
        · have why := firstSound.of_mem_firstOfSequence behind a opens
          rw [if_neg ne] at why
          exact ⟨ne, .opening mem eq named why⟩
        · have why := firstSound.of_mem_firstOfSequence behind _ empty
          rw [if_pos rfl] at why
          have above := sound r.lhs a up
          exact ⟨above.1, .inherited mem eq named why above.2⟩
    · exact ih (before ++ [x]) rest sound

section Computed

variable (rules : List Rule)

/-- The family that the passes for FOLLOW start with. -/
theorem mem_followSeed (x a : String) :
    a ∈ (SetFamily.add ∅ Symbol.start (.singleton Symbol.endOfInput)).row x ↔
      x = Symbol.start ∧ a = Symbol.endOfInput := by
  simp [SetFamily.mem_row_add]

theorem followSound_seed :
    FollowSound rules (SetFamily.add ∅ Symbol.start (.singleton Symbol.endOfInput)) := by
  intro x a mem
  obtain ⟨rfl, rfl⟩ := (mem_followSeed x a).mp mem
  exact ⟨by decide, .start rfl⟩

theorem followPass_grows (first f : SetFamily) (r : Rule) :
    f.Within (followAlong (nonterminalsOf rules) first r.lhs f r.rhs) :=
  within_followAlong r.lhs r.rhs f

theorem within_followPass (first f : SetFamily) :
    f.Within (followPass (nonterminalsOf rules) first rules f) :=
  SetFamily.within_foldl _ (followPass_grows rules first) rules f

variable {rules} in
theorem FollowSound.pass (firstSound : FirstSound rules first) {follow : SetFamily}
    (sound : FollowSound rules follow) :
    FollowSound rules (followPass (nonterminalsOf rules) first rules follow) :=
  SetFamily.foldl_keeps _ (FollowSound rules) rules
    (fun _ r mem h => h.along firstSound mem [] r.rhs rfl) follow sound

/-- The passes for FOLLOW come to an end, and the computed family is what they end with. -/
theorem follow_stabilizes :
    let sets := Sets.ofRules (nonterminalsOf rules) rules
    SetFamily.Stabilizes (followPass (nonterminalsOf rules) sets.first rules)
      (SetFamily.add ∅ Symbol.start (.singleton Symbol.endOfInput)) sets.follow
      sets.followPasses :=
  SetFamily.stabilizes_saturate (within_followPass rules _)
    (fun _ sound => FollowSound.pass (first_computed rules).1 sound)
    (fun _ sound => sound.total_le) (growthBound rules + 1) (followSound_seed rules) (by omega)

/-- The computed FOLLOW family is sound, and has what each rule asks for. -/
theorem follow_computed :
    let sets := Sets.ofRules (nonterminalsOf rules) rules
    FollowSound rules sets.follow ∧
      Symbol.endOfInput ∈ sets.follow.row Symbol.start ∧
      ∀ r ∈ rules, ∀ before x after, r.rhs = before ++ x :: after → x ∈ nonterminalsOf rules →
        ∀ a, a ∈ followAdditions (nonterminalsOf rules) sets.first sets.follow r.lhs after →
          a ∈ sets.follow.row x := by
  intro sets
  obtain ⟨sound, within, last, _, result, fixed⟩ := (follow_stabilizes rules).stable
    (within_followPass rules _) (fun _ sound => FollowSound.pass (first_computed rules).1 sound)
    (followSound_seed rules)
  refine ⟨sound, within _ _ ((mem_followSeed _ _).mpr ⟨rfl, rfl⟩), ?_⟩
  intro r mem before x after rhs named a found
  obtain ⟨g, fromLast, toResult⟩ := SetFamily.foldl_acts
    (fun f r => followAlong (nonterminalsOf rules) sets.first r.lhs f r.rhs)
    (followPass_grows rules sets.first) rules last r mem
  obtain ⟨h, fromG, added⟩ := @followAlong_acts _ sets.first r.lhs before x after named g
  have inPass : a ∈ followAdditions (nonterminalsOf rules) sets.first h r.lhs after := by
    rw [mem_followAdditions] at found ⊢
    refine found.imp_right fun up => ⟨up.1, ?_⟩
    exact ((fixed.trans fromLast).trans fromG) _ _ up.2
  have placed := added x a ((h.mem_row_add x _ x a).mpr (Or.inr ⟨rfl, inPass⟩))
  show a ∈ sets.follow.row x
  rw [result]
  exact toResult x a (by rw [rhs]; exact placed)

end Computed

/-- The computed FOLLOW sets hold the terminals that can stand directly behind a nonterminal. -/
theorem mem_follow_computed (reserved : Symbol.empty ∉ nonterminalsOf rules) (x a : String) :
    a ∈ (Sets.ofRules (nonterminalsOf rules) rules).follow.row x ↔
      a ≠ Symbol.empty ∧ Follows rules a x := by
  obtain ⟨sound, seeded, closed⟩ := follow_computed rules
  constructor
  · exact sound x a
  · rintro ⟨ne, follows⟩
    induction follows with
    | start eq => exact eq ▸ seeded
    | @opening r before x after mem rhs named opens =>
      refine closed r mem before x after rhs named a ((mem_followAdditions _ _ _ _).mpr (Or.inl ?_))
      rw [mem_firstOfSequence_computed reserved, if_neg ne]
      exact ⟨opens, ne⟩
    | @inherited r before x after mem rhs named vanish _ ih =>
      refine closed r mem before x after rhs named a ((mem_followAdditions _ _ _ _).mpr (Or.inr ?_))
      rw [mem_firstOfSequence_computed reserved, if_pos rfl]
      exact ⟨vanish, ih⟩

end TableAsm
