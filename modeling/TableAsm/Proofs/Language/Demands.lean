import TableAsm.Proofs.Labels.Limits
import TableAsm.Proofs.Language.Faults
import TableAsm.Proofs.Language.Sites

/-! What a block demands of the labels when it is translated: room for the instructions that there
are at one time, and that no name is defined where it is a label already. A translation that goes
through has had what it demands; one that fails, and not over a token, has missed it. -/
namespace TableAsm.Language

open Labels Translation

section Once

variable {b : Block} {before : Nat} {name : String} {names : List (List String)}

theorem absent_iff : (∀ here ∈ (b.copies before).map Copy.names, name ∉ here) ↔
    ∀ s ∈ b.sites before, s.Live → name ∉ s.statement.labels := by
  have named := @exists_names_iff b before name
  simpa using not_congr named

theorem absent_of_labels (absent : name ∉ b.labels) :
    ∀ here ∈ (b.copies before).map Copy.names, name ∉ here := by
  simp only [List.forall_mem_map]
  exact fun c copied on => absent (labels_subset copied (mem_names.mp on).1)

/-- A name is not defined where it is a label already. A block is translated from its end, so that
the names of the instructions behind are there. -/
def Block.Once (name : String) (before : Nat) (names : List (List String)) : Block → Prop
  | .done => True
  | .statement s rest =>
    rest.Once name before names ∧ s.labels.count name ≤ 1 ∧
      (name ∈ s.labels → ∀ here ∈ (rest.copies before).map Copy.names ++ names, name ∉ here)
  | .loop _ body rest =>
    rest.Once name (before + 1 + body.loops) names ∧ body.Once name (before + 1)
      ((rest.copies (before + 1 + body.loops)).map Copy.names ++ names)

/-- Two sites do not share a name if the first one sees the second. -/
def ApartIn (name : String) (s s' : Site) : Prop :=
  s.Sees s' → name ∈ s.statement.labels → name ∉ s'.statement.labels

/-- In terms of sites, the name is not there again on the same line, on a line that is seen, or
behind. -/
theorem once_iff : b.Once name before names ↔
    (∀ s ∈ b.sites before, s.statement.labels.count name ≤ 1) ∧
      (b.sites before).Pairwise (ApartIn name) ∧
      ∀ s ∈ b.sites before, name ∈ s.statement.labels → ∀ here ∈ names, name ∉ here := by
  induction b generalizing before names with
  | done => simp [Block.Once, Block.sites]
  | statement s rest ih =>
    have seen : ∀ s', Site.Sees ⟨s, []⟩ s' ↔ s'.Live := fun s' =>
      Site.sees_iff_live fun f _ => List.not_mem_nil
    simp only [Block.Once, Block.sites, ih, List.forall_mem_cons, List.pairwise_cons,
      List.forall_mem_append, absent_iff, ApartIn, seen]
    constructor
    · rintro ⟨⟨single, apart, behind⟩, one, free⟩
      refine ⟨⟨one, single⟩, ⟨?_, apart⟩, ?_, behind⟩
      · exact fun s' mem live label => (free label).1 s' mem live
      · exact fun label => (free label).2
    · rintro ⟨⟨one, single⟩, ⟨ahead, apart⟩, free, behind⟩
      refine ⟨⟨single, apart, behind⟩, one, fun label => ⟨?_, free label⟩⟩
      exact fun s' mem live => ahead s' mem live label
  | loop count body rest ihb ih =>
    have inner : ∀ s ∈ body.sites (before + 1), ∀ s' ∈ body.sites (before + 1),
        (s.within ⟨before, timesOf count⟩).Sees (s'.within ⟨before, timesOf count⟩) ↔
          s.Sees s' := by
      intro s _ s' mem
      apply Site.sees_within
      intro around
      have bounds := frame_bounds mem around
      simp only at bounds
      omega
    have outer : ∀ s ∈ body.sites (before + 1), ∀ s' ∈ rest.sites (before + 1 + body.loops),
        (s.within ⟨before, timesOf count⟩).Sees s' ↔ s'.Live := by
      intro s mem s' mem'
      apply Site.sees_iff_live
      intro f around around'
      have above := frame_bounds mem' around
      rcases List.mem_cons.mp around' with rfl | around'
      · simp only at above
        omega
      · have below := frame_bounds mem around'
        omega
    have pairs : ((body.sites (before + 1)).Pairwise fun s s' =>
        ApartIn name (s.within ⟨before, timesOf count⟩) (s'.within ⟨before, timesOf count⟩)) ↔
          (body.sites (before + 1)).Pairwise (ApartIn name) :=
      List.Pairwise.iff_of_mem fun mem mem' => imp_congr_left (inner _ mem _ mem')
    simp only [Block.Once, Block.sites, ih, ihb, List.pairwise_append, List.pairwise_map, pairs,
      List.forall_mem_append, absent_iff]
    simp only [List.forall_mem_map]
    constructor
    · rintro ⟨⟨single, apart, behind⟩, single', apart', free⟩
      refine ⟨⟨single', single⟩, ⟨apart', apart, ?_⟩, fun s mem label => (free s mem label).2, behind⟩
      intro s mem s' mem' sees label
      exact (free s mem label).1 s' mem' ((outer s mem s' mem').mp sees)
    · rintro ⟨⟨single', single⟩, ⟨apart', apart, across⟩, free, behind⟩
      refine ⟨⟨single, apart, behind⟩, single', apart', fun s mem label => ⟨?_, free s mem label⟩⟩
      intro s' mem' live
      exact across s mem s' mem' ((outer s mem s' mem').mpr live) label

/-- Names that are written once are defined once, if they are new. -/
theorem once_of_nodup (nodup : b.labels.Nodup)
    (fresh : ∀ name ∈ b.labels, ∀ here ∈ names, name ∉ here) (name : String) :
    b.Once name before names := by
  induction b generalizing before names with
  | done => trivial
  | statement s rest ih =>
    obtain ⟨nodupS, nodupR, apart⟩ := List.nodup_append.mp nodup
    refine ⟨ih nodupR fun name mem => fresh name (List.mem_append_right _ mem),
      List.nodup_iff_count_le_one.mp nodupS name, fun label => ?_⟩
    refine List.forall_mem_append.mpr ⟨?_, ?_⟩
    · exact absent_of_labels fun mem => apart name label name mem rfl
    · exact fresh name (List.mem_append_left _ label)
  | loop count body rest ihb ih =>
    obtain ⟨nodupB, nodupR, apart⟩ := List.nodup_append.mp nodup
    refine ⟨ih nodupR fun name mem => fresh name (List.mem_append_right _ mem),
      ihb nodupB fun name mem => List.forall_mem_append.mpr ⟨?_, ?_⟩⟩
    · exact absent_of_labels fun other => apart name mem name other rfl
    · exact fresh name (List.mem_append_left _ mem)

end Once

theorem length_names_append (b : Block) (before : Nat) (names : List (List String)) :
    ((b.copies before).map Copy.names ++ names).length = names.length + b.length := by
  rw [List.length_append, List.length_map, length_copies, Nat.add_comm]

section Demands

variable {α β : Type} {l l' : Labels} {peak peak' : Nat} {once once' : String → Prop}
  {m : Translation α} {e : AssemblyError} {names inside behind : List (List String)}

/-- What is missing when a translation fails. -/
inductive Refused (peak : Nat) (once : String → Prop) : AssemblyError → Prop where
  | token {e : AssemblyError} : TokenFault e → Refused peak once e
  | long : maxLength < peak → Refused peak once (.label .programTooLong)
  | repeated : maxLength < peak → Refused peak once (.label .repeatTooLong)
  | twice {name : String} {p : Option Position} : ¬once name →
      Refused peak once (.label (.definedTwice name p))

theorem Refused.mono (h : Refused peak once e) (room : peak ≤ peak')
    (more : ∀ name, once' name → once name) : Refused peak' once' e := by
  cases h with
  | token fault => exact .token fault
  | long excess => exact .long (Nat.lt_of_lt_of_le excess room)
  | repeated excess => exact .repeated (Nat.lt_of_lt_of_le excess room)
  | twice again => exact .twice fun single => again (more _ single)

/-- A translation demands room for some instructions, and of each name that it is not defined
twice. Where it goes through the demands are met, and where it fails one is not, if no token is to
blame. -/
structure Demands (l : Labels) (peak : Nat) (once : String → Prop) (m : Translation α) : Prop where
  met : ∀ a l', m.run l = (.ok a, l') → peak ≤ maxLength ∧ ∀ name, once name
  missed : ∀ e l', m.run l = (.error e, l') → Refused peak once e

theorem Demands.pure (room : peak ≤ maxLength) (all : ∀ name, once name) (a : α) :
    Demands l peak once (pure a : Translation α) := by
  constructor
  · exact fun _ _ _ => ⟨room, all⟩
  · intro e l' failed
    cases failed

theorem Demands.bind {f : α → Translation β} (first : Demands l peak once m)
    (next : ∀ a l', m.run l = (.ok a, l') → Demands l' peak' once' (f a)) :
    Demands l (max peak peak') (fun name => once name ∧ once' name) (m >>= f) := by
  constructor
  · intro b l' ran
    obtain ⟨a, between, ran, ran'⟩ := run_bind_eq_ok.mp ran
    obtain ⟨room, all⟩ := first.met a between ran
    obtain ⟨room', all'⟩ := (next a between ran).met b l' ran'
    exact ⟨Nat.max_le.mpr ⟨room, room'⟩, fun name => ⟨all name, all' name⟩⟩
  · intro e l' failed
    rcases run_bind_eq_error.mp failed with failed | ⟨a, between, ran, failed⟩
    · have missed := first.missed e l' failed
      exact missed.mono (Nat.le_max_left _ _) fun name => And.left
    · have missed := (next a between ran).missed e l' failed
      exact missed.mono (Nat.le_max_right _ _) fun name => And.right

theorem Demands.congr (h : Demands l peak once m) (room : peak = peak')
    (same : ∀ name, once name ↔ once' name) : Demands l peak' once' m := by
  obtain rfl := room
  obtain rfl : once = once' := funext fun name => propext (same name)
  exact h

/-- Tokens that are read first demand nothing. -/
theorem Demands.after {f : α → Translation β} (first : FailsWith TokenFault m)
    (next : ∀ a l', m.run l = (.ok a, l') → Demands l' peak once (f a)) :
    Demands l peak once (m >>= f) := by
  constructor
  · intro b l' ran
    obtain ⟨a, between, ran, ran'⟩ := run_bind_eq_ok.mp ran
    exact (next a between ran).met b l' ran'
  · intro e l' failed
    rcases run_bind_eq_error.mp failed with failed | ⟨a, between, ran, failed⟩
    · exact .token (first l l' e failed)
    · exact (next a between ran).missed e l' failed

theorem Demands.map (h : Demands l peak once m) (f : α → β) :
    Demands l peak once (m >>= fun a => Pure.pure (f a)) := by
  constructor
  · intro b l' ran
    obtain ⟨a, between, ran, _⟩ := run_bind_eq_ok.mp ran
    exact h.met a between ran
  · intro e l' failed
    rcases run_bind_eq_error.mp failed with failed | ⟨a, between, _, failed⟩
    · exact h.missed e l' failed
    · cases failed

theorem FailsWith.demands (h : FailsWith TokenFault m) : Demands l 0 (fun _ => True) m := by
  constructor
  · exact fun _ _ _ => ⟨Nat.zero_le _, fun _ => trivial⟩
  · exact fun e l' failed => .token (h l l' e failed)

theorem demands_define (carries : l.Carries names) (name : String) (number : Int)
    (p : Option Position) : Demands l 0 (fun other => other = name → ∀ here ∈ names, other ∉ here)
      (onLabels (·.define name number p)) := by
  constructor
  · intro _ l' ran
    obtain ⟨_, _, _, free, _⟩ := define_target carries.sound (run_onLabels_eq_ok.mp ran)
    refine ⟨Nat.zero_le _, ?_⟩
    rintro _ rfl here placed on
    have taken := carries.isSome_target?_iff.mpr ⟨here, placed, on⟩
    simp [free] at taken
  · intro e l' failed
    obtain ⟨e, step, rfl⟩ := run_onLabels_eq_error.mp failed
    rcases define_eq_error carries.sound step with rfl | ⟨rfl, taken⟩
    · exact .token trivial
    · obtain ⟨here, placed, on⟩ := carries.isSome_target?_iff.mp taken
      exact .twice fun free => free rfl here placed on

theorem demands_place (carries : l.Carries names) :
    Demands l (names.length + 1) (fun _ => True) (onLabels (·.place)) := by
  constructor
  · intro n l' ran
    obtain ⟨carried, _, fits, _⟩ := carries.place (run_onLabels_eq_ok.mp ran)
    exact ⟨carried.length_le fits, fun _ => trivial⟩
  · intro e l' failed
    obtain ⟨e, step, rfl⟩ := run_onLabels_eq_error.mp failed
    obtain ⟨rfl, full⟩ := carries.place_eq_error step
    exact .long (Nat.lt_succ_of_le full)

theorem demands_expandRepeat (carries : l.Carries (inside ++ behind)) (fits : l.Fits)
    {block : List Instruction} (length : block.length = inside.length) {times : Nat}
    (few : times ≤ maxCopies) : Demands l (behind.length + times * block.length) (fun _ => True)
      (onLabels (·.expandRepeat block times)) := by
  constructor
  · intro unrolled l' ran
    obtain ⟨carried, _, fits', _⟩ :=
      carries.expandRepeat fits length (run_onLabels_eq_ok.mp ran)
    have room := carried.length_le fits'
    rw [List.length_append, length_unrolledNames, ← length, Nat.add_comm] at room
    exact ⟨room, fun _ => trivial⟩
  · intro e l' failed
    obtain ⟨e, step, rfl⟩ := run_onLabels_eq_error.mp failed
    obtain ⟨rfl, excess⟩ := carries.expandRepeat_eq_error length few step
    exact .repeated excess

end Demands

section Spelled

variable {l l' : Labels} {names : List (List String)} {ts front : List Token}

theorem Mark.Spells.demands {m : Mark} (h : m.Spells front) (carries : l.Carries names)
    (i : Instruction) (number : Int) :
    Demands l 0 (fun name => name ∈ m.carried? → ∀ here ∈ names, name ∉ here)
      (m.apply i number) := by
  cases h with
  | @label t _ =>
    apply Demands.after (failsWith_reference _ t)
    intro _ l₁ referred
    obtain ⟨grows, _⟩ := reference_spec carries.sound referred
    have defines := demands_define (carries.grows grows) (Action.labelName t.lexeme) number
      (some t.position)
    exact (defines.map fun _ => i).congr rfl (by simp [Mark.carried?, eq_comm])
  | annotation isAt isKey kind =>
    rename_i n
    have fails := (failsWith_reference n.lexeme n).bind fun _ => .pure (i.annotate n.lexeme)
    exact fails.demands.congr rfl (by simp [Mark.carried?])
  | @property _ _ k v _ _ _ _ =>
    have fails := (failsWith_value v).bind fun w => (failsWith_reference k.lexeme k).bind fun _ =>
      .pure (i.putProperty k.lexeme w)
    exact fails.demands.congr rfl (by simp [Mark.carried?])

/-- A name can be put in front of others if it is new to them and to what is behind. -/
theorem new_cons_iff {own : Option String} {others : List String} {name : String} :
    ((others.count name ≤ 1 ∧ (name ∈ others → ∀ here ∈ names, name ∉ here)) ∧
      (name ∈ own → ∀ here ∈ others :: names, name ∉ here)) ↔
    (own.toList ++ others).count name ≤ 1 ∧
      (name ∈ own.toList ++ others → ∀ here ∈ names, name ∉ here) := by
  cases own with
  | none => simp
  | some x =>
    by_cases same : name = x
    · subst same
      have absent : others.count name = 0 ↔ name ∉ others := List.count_eq_zero
      simp only [Option.toList_some, List.singleton_append, List.count_cons_self, Option.mem_def,
        List.mem_cons, true_or, true_imp_iff, forall_eq_or_imp, ← absent]
      constructor
      · rintro ⟨_, new, free⟩
        exact ⟨by omega, free⟩
      · rintro ⟨single, free⟩
        exact ⟨⟨by omega, fun _ => free⟩, by omega, free⟩
    · have other : x ≠ name := fun eq => same eq.symm
      simp [same, other]

theorem Statement.Spells.demands_applyMarks {s : Statement} (h : s.Spells ts) (lexed : Lexed ts)
    (carries : l.Carries ([] :: names)) {vs : List Value}
    (values : List.Forall₂ (Fresh l) s.operands vs) :
    Demands l 0 (fun name => s.carried.count name ≤ 1 ∧
        (name ∈ s.carried → ∀ here ∈ names, name ∉ here))
      (applyMarks s.marks (.bare s.name.lexeme vs) l.counter) := by
  induction h with
  | instruction _ _ =>
    apply Demands.pure (Nat.zero_le _)
    simp [Statement.carried]
  | @marked m marks word ops front ts mark behind ih =>
    have inner : Lexed ts := lexed.mono fun t mem => List.mem_append_right _ mem
    have applied := (ih inner values).bind fun i l₁ ran => mark.demands
      (behind.applyMarks_spec (Fresh.records inner) carries values ran).1 i l.counter
    apply applied.congr rfl
    intro name
    rw [Statement.carried_cons m ⟨marks, word, ops⟩, new_cons_iff]

theorem Statement.Spells.demands {s : Statement} (h : s.Spells ts) (lexed : Lexed ts)
    (carries : l.Carries names) :
    Demands l (names.length + 1) (fun name => s.labels.count name ≤ 1 ∧
      (name ∈ s.labels → ∀ here ∈ names, name ∉ here)) s.translate := by
  have inside := h.operands_mem
  apply Demands.after (failsWith_values s.operands)
  intro vs l₁ valued
  obtain ⟨grows, told⟩ := values_spec carries.sound (fun t mem => (inside t mem).1)
    ((Fresh.records lexed).mono fun t mem => (inside t mem).2) valued
  apply Demands.after (failsWith_reference s.name.lexeme s.name)
  intro _ l₂ referred
  obtain ⟨grows', _⟩ := reference_spec grows.sound referred
  have carries₂ := carries.grows (grows.trans grows')
  have marked : ∀ number l₃, (onLabels (·.place)).run l₂ = (.ok number, l₃) →
      Demands l₃ 0 (fun name => s.carried.count name ≤ 1 ∧
        (name ∈ s.carried → ∀ here ∈ names, name ∉ here)) (do
          let i ← applyMarks s.marks (.bare s.name.lexeme vs) number
          return (i, number)) := by
    intro number l₃ placed
    obtain ⟨carries₃, kept, _, rfl⟩ := carries₂.place (run_onLabels_eq_ok.mp placed)
    have told₃ := told.imp fun t v made => made.extend (grows'.kept.trans kept)
    exact (h.demands_applyMarks lexed carries₃ told₃).map fun i => (i, l₃.counter)
  apply ((demands_place carries₂).bind marked).congr (Nat.max_zero _)
  intro name
  rw [h.carried_eq lexed, true_and]

theorem integerOf?_lt {raw : String} {n : Int} (read : Action.integerOf? raw = some n) :
    n < literalLimit := by
  obtain ⟨m, _, bounded⟩ := Option.bind_eq_some_iff.mp read
  split at bounded
  · rename_i inside
    obtain rfl := Option.some.inj bounded
    exact inside.2
  · cases bounded

theorem demands_repeat {inside behind : List (List String)} (carries : l.Carries (inside ++ behind))
    (fits : l.Fits) {body : List Instruction} (length : body.length = inside.length) {count : Token}
    (kind : count.kind = "I_LITERAL") (lexed : Lexed [count]) (tail : List Instruction) :
    Demands l (behind.length + timesOf count * inside.length) (fun _ => True) (do
      let times ← repeatCount count (← value count)
      let unrolled ← onLabels (·.expandRepeat body times)
      return unrolled ++ tail) := by
  have counts : FailsWith TokenFault (do repeatCount count (← value count)) :=
    (failsWith_value count).bind fun v => failsWith_repeatCount count v
  rw [← bind_assoc]
  apply Demands.after counts
  intro times l₁ ran
  obtain ⟨_, n, read, nonneg, numeral⟩ := (run_count_eq_ok kind).mp ran
  -- a literal is too small for its copies to be more than can be counted
  have few : times ≤ maxCopies := by
    have below := integerOf?_lt read
    have room : literalLimit < maxCopies := by decide
    omega
  obtain ⟨rfl, rfl⟩ := count_spec kind lexed ran
  rw [← length]
  exact (demands_expandRepeat carries fits length few).map fun unrolled => unrolled ++ tail

/-- A block demands room for its peak, and of each name that it is defined once. -/
theorem Block.Spells.demands {b : Block} (h : b.Spells ts) (lexed : Lexed ts) (before : Nat)
    (carries : l.Carries names) (fits : l.Fits) :
    Demands l (b.peak names.length) (fun name => b.Once name before names) b.translate := by
  induction h generalizing l names before with
  | done => exact .pure (carries.length_le fits) (fun _ => trivial) []
  | @statement s stop rest front ts line _ tail ih =>
    have own : Lexed front := lexed.mono fun t mem => by simp [mem]
    have others : Lexed ts := lexed.mono fun t mem => by simp [mem]
    refine (ih others before carries fits).bind fun is l₁ ran => ?_
    obtain ⟨carries₁, _, _, _⟩ := tail.translate_spec others before carries fits ran
    have demanded := (line.demands own carries₁).map fun made => made.1 :: is
    rw [length_names_append] at demanded
    exact demanded
  | @loop key opens count closes left right body rest inside ts _ _ kind _ _ spells _ tail ihb ih =>
    have own : Lexed inside := lexed.mono fun t mem => by simp [mem]
    have others : Lexed ts := lexed.mono fun t mem => by simp [mem]
    have digits : Lexed [count] := lexed.mono fun t mem => by simp_all
    have repeated : ∀ is l₁, rest.translate.run l = (.ok is, l₁) →
        Demands l₁ (max (body.peak (names.length + rest.length))
            (names.length + rest.length + timesOf count * body.length))
          (fun name => body.Once name (before + 1)
            ((rest.copies (before + 1 + body.loops)).map Copy.names ++ names) ∧ True) (do
          let inner ← body.translate
          let times ← repeatCount count (← value count)
          let unrolled ← onLabels (·.expandRepeat inner times)
          return unrolled ++ is) := by
      intro is l₁ ran
      obtain ⟨carries₁, _, fits₁, _⟩ :=
        tail.translate_spec others (before + 1 + body.loops) carries fits ran
      rw [← length_names_append rest (before + 1 + body.loops)]
      apply (ihb own (before + 1) carries₁ fits₁).bind
      intro inner l₂ ran₂
      obtain ⟨carries₂, _, fits₂, laid⟩ := spells.translate_spec own (before + 1) carries₁ fits₁ ran₂
      have length : ((body.copies (before + 1)).map Copy.names).length = body.length := by
        rw [List.length_map, length_copies]
      rw [← length]
      apply demands_repeat carries₂ fits₂ _ kind digits
      rw [laid.length, List.length_map]
    have whole := (ih others (before + 1 + body.loops) carries fits).bind repeated
    exact whole.congr rfl fun name => by rw [and_true, Block.Once]

end Spelled

end TableAsm.Language
