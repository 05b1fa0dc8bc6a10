import Mathlib.Data.List.Basic
import TableAsm.Pattern.Matching

/-! The texts that a pattern stands for whose only conditions are that a match begins and ends
where the text does, and what matches under way can still be completed with. Reading a character
takes it off the completions, as a derivative does. -/
namespace TableAsm.Pattern

/-- Whether a pattern looks at the place of a match nowhere. -/
def isPlain : Pattern → Bool
  | empty => true
  | text _ => true
  | chars _ => true
  | anchor _ => false
  | times _ _ p => p.isPlain
  | group _ p => p.isPlain
  | seq p q => p.isPlain && q.isPlain
  | alt p q => p.isPlain && q.isPlain

/-- The texts that a pattern stands for, with the end of the text as its only condition. The empty
text, where it stands for one turn of a repetition, stands for all that are required. -/
def Matches : Pattern → List Char → Prop
  | empty, w => w = []
  | text cs, w => w = cs
  | chars s, w => ∃ c, w = [c] ∧ s.contains c = true
  | anchor a, w => a = .textEnd ∧ w = []
  | times least most p, w => ∃ ws : List (List Char), w = ws.flatten ∧ (∀ x ∈ ws, p.Matches x) ∧
      (least ≤ ws.length ∨ p.Matches []) ∧ ∀ m, most = some m → ws.length ≤ m
  | group _ p, w => p.Matches w
  | seq p q, w => ∃ u v, w = u ++ v ∧ p.Matches u ∧ q.Matches v
  | alt p q, w => p.Matches w ∨ q.Matches w

/-- The texts that complete one of the matches under way. -/
def Completes : Pattern → Course → List Char → Prop
  | empty, _, _ => False
  | text _, course, w => w ∈ course.texts
  | chars _, course, w => course.isDone = true ∧ w = []
  | anchor _, _, _ => False
  | times _ _ p, course, w => ∃ left a, (left, a) ∈ course.inTurns ∧
      ∃ u v, w = u ++ v ∧ p.Completes a u ∧ (times left.least left.most p).Matches v
  | group _ p, course, w => p.Completes course w
  | seq p q, course, w => (∃ u v, w = u ++ v ∧ p.Completes course.first u ∧ q.Matches v) ∨
      q.Completes course.second w
  | alt p q, course, w => p.Completes course.first w ∨ q.Completes course.second w

variable {p q : Pattern} {course : Course} {fresh : Bool} {before after : Option Char} {c : Char}
  {w : List Char}

theorem not_completes_none (p : Pattern) (w : List Char) : ¬p.Completes .none w := by
  induction p generalizing w with
  | empty => exact id
  | text cs => exact List.not_mem_nil
  | chars s => exact fun h => nomatch h.1
  | anchor a => exact id
  | times least most p _ =>
    rintro ⟨left, a, mem, _⟩
    cases mem
  | group n p ih => exact ih w
  | seq p q ihp ihq =>
    rintro (⟨u, v, _, inside, _⟩ | behind)
    · exact ihp u inside
    · exact ihq w behind
  | alt p q ihp ihq =>
    rintro (left | right)
    · exact ihp w left
    · exact ihq w right

theorem isNone_eq_true : course.isNone = true ↔ course = .none := by
  cases course <;> simp [Course.isNone]

/-- A match begins or is under way. -/
def Reaches (p : Pattern) (course : Course) (fresh : Bool) (w : List Char) : Prop :=
  p.Completes course w ∨ (fresh = true ∧ p.Matches w)

@[simp] theorem reaches_none_true : p.Reaches .none true w ↔ p.Matches w := by
  simp [Reaches, not_completes_none]

@[simp] theorem reaches_false : p.Reaches course false w ↔ p.Completes course w := by
  simp [Reaches]

section Splits

variable {P Q : List Char → Prop}

theorem exists_split_nil : (∃ u v, [] = u ++ v ∧ P u ∧ Q v) ↔ P [] ∧ Q [] := by
  constructor
  · rintro ⟨u, v, eq, first, second⟩
    obtain ⟨rfl, rfl⟩ := List.append_eq_nil_iff.mp eq.symm
    exact ⟨first, second⟩
  · rintro ⟨first, second⟩
    exact ⟨[], [], rfl, first, second⟩

theorem exists_split_cons : (∃ u v, c :: w = u ++ v ∧ P u ∧ Q v) ↔
    (P [] ∧ Q (c :: w)) ∨ ∃ u v, w = u ++ v ∧ P (c :: u) ∧ Q v := by
  constructor
  · rintro ⟨u, v, eq, first, second⟩
    cases u with
    | nil =>
      obtain rfl : v = c :: w := eq.symm
      exact Or.inl ⟨first, second⟩
    | cons d u =>
      obtain ⟨rfl, rfl⟩ := List.cons.inj eq
      exact Or.inr ⟨u, v, rfl, first, second⟩
  · rintro (⟨first, second⟩ | ⟨u, v, rfl, first, second⟩)
    · exact ⟨[], c :: w, rfl, first, second⟩
    · exact ⟨c :: u, v, rfl, first, second⟩

end Splits

section Ends

theorem ends_idle (p : Pattern) : p.ends before after .none false = false := by
  rw [ends.eq_def]
  exact if_pos rfl

/-- What `ends` does needs no look at whether anything is under way. -/
theorem ends_eq (p : Pattern) : p.ends before after course fresh =
    match p with
    | empty => fresh
    | text cs => course.texts.any (·.isEmpty) || (fresh && cs.isEmpty)
    | chars _ => course.isDone
    | anchor a => fresh && a.holds before after
    | times least _ p =>
      (fresh && (least = 0 || p.nullable before after)) ||
        course.inTurns.any fun (left, a) =>
          p.ends before after a false && (left.least = 0 || p.nullable before after)
    | group _ p => p.ends before after course fresh
    | seq p q => q.ends before after course.second (p.ends before after course.first fresh)
    | alt p q =>
      p.ends before after course.first fresh || q.ends before after course.second fresh := by
  by_cases idle : (course.isNone && !fresh) = true
  · simp only [Bool.and_eq_true, isNone_eq_true, Bool.not_eq_true'] at idle
    obtain ⟨rfl, rfl⟩ := idle
    cases p <;> simp [ends_idle, Course.texts, Course.isDone, Course.inTurns, Course.first,
      Course.second]
  · rw [ends.eq_def, if_neg idle]
    rfl

theorem matches_times_nil {least : Nat} {most : Option Nat} :
    (times least most p).Matches [] ↔ least = 0 ∨ p.Matches [] := by
  constructor
  · rintro ⟨ws, eq, each, enough | free, _⟩
    · cases ws with
      | nil => exact Or.inl (Nat.le_zero.mp enough)
      | cons x ws =>
        obtain ⟨rfl, _⟩ := List.append_eq_nil_iff.mp eq.symm
        exact Or.inr (each [] List.mem_cons_self)
    · exact Or.inr free
  · intro h
    refine ⟨[], rfl, ?_, h.imp (fun zero => Nat.le_of_eq zero) id, fun m _ => Nat.zero_le m⟩
    intro x mem
    cases mem

/-- A pattern ends where the empty text completes a match. -/
theorem ends_iff (plain : p.isPlain = true) :
    p.ends before after course fresh = true ↔ p.Reaches course fresh [] := by
  induction p generalizing course fresh with
  | empty =>
    rw [ends_eq]
    simp [Reaches, Completes, Matches]
  | text cs =>
    rw [ends_eq]
    simp only [Bool.or_eq_true, List.any_eq_true, List.isEmpty_iff, exists_eq_right,
      Bool.and_eq_true, Reaches, Completes, Matches]
    rw [eq_comm (a := cs)]
  | chars s =>
    rw [ends_eq]
    constructor
    · exact fun done => Or.inl ⟨done, rfl⟩
    · rintro (⟨done, _⟩ | ⟨_, c, none, _⟩)
      · exact done
      · cases none
  | anchor a => cases plain
  | times least most p ih =>
    rw [ends_eq, Reaches, Completes]
    simp only [Bool.or_eq_true, Bool.and_eq_true, decide_eq_true_eq, List.any_eq_true, Prod.exists,
      nullable, ih plain, reaches_none_true, reaches_false, exists_split_nil, matches_times_nil]
    exact or_comm
  | group n p ih =>
    rw [ends_eq]
    exact ih plain
  | seq p q ihp ihq =>
    obtain ⟨plainp, plainq⟩ := Bool.and_eq_true_iff.mp plain
    rw [ends_eq]
    simp only [ihq plainq, Reaches, ihp plainp, Completes, Matches, exists_split_nil]
    grind
  | alt p q ihp ihq =>
    obtain ⟨plainp, plainq⟩ := Bool.and_eq_true_iff.mp plain
    rw [ends_eq]
    simp only [Bool.or_eq_true, ihp plainp, ihq plainq, Reaches, Completes, Matches]
    grind

end Ends

section Turns

/-- Whether a text is matched by as many turns as are left. -/
def Turns.Match (p : Pattern) (t : Turns) (w : List Char) : Prop :=
  (times t.least t.most p).Matches w

/-- Behind empty pieces there is one that begins with the first character. -/
theorem exists_first_piece {ws : List (List Char)} (eq : c :: w = ws.flatten) :
    ∃ empties u rest, ws = empties ++ (c :: u) :: rest ∧ (∀ x ∈ empties, x = []) ∧
      w = u ++ rest.flatten := by
  induction ws with
  | nil => cases eq
  | cons x ws ih =>
    cases x with
    | nil =>
      obtain ⟨empties, u, rest, rfl, empty, same⟩ := ih eq
      refine ⟨[] :: empties, u, rest, rfl, fun y mem => ?_, same⟩
      rcases List.mem_cons.mp mem with rfl | mem
      · rfl
      · exact empty y mem
    | cons d u =>
      obtain ⟨rfl, same⟩ := List.cons.inj eq
      exact ⟨[], u, ws, rfl, (fun y mem => nomatch mem), same⟩

/-- The first turn that is not empty reads the first character. -/
theorem turns_match_cons {t : Turns} {free : Bool} (null : free = true ↔ p.Matches []) :
    t.Match p (c :: w) ↔ ∃ next, t.next? free = some next ∧
      ∃ u v, w = u ++ v ∧ p.Matches (c :: u) ∧ next.Match p v := by
  obtain ⟨least, most⟩ := t
  constructor
  · rintro ⟨ws, eq, each, enough, few⟩
    obtain ⟨empties, u, rest, rfl, empty, same⟩ := exists_first_piece eq
    simp only [List.length_append, List.length_cons] at enough few
    have some_turn : most ≠ some 0 := by
      intro zero
      have none := few 0 zero
      omega
    refine ⟨_, if_neg some_turn, u, rest.flatten, same, each _ (by simp), rest, rfl,
      fun x mem => each x (by simp [mem]), ?_, fun m eq => ?_⟩
    · by_cases h : p.Matches []
      · exact Or.inr h
      · obtain rfl : empties = [] := by
          refine List.eq_nil_iff_forall_not_mem.mpr fun x mem => h ?_
          rw [← empty x mem]
          exact each x (List.mem_append_left _ mem)
        have required := enough.resolve_right h
        rw [List.length_nil] at required
        rw [if_neg (null.not.mpr h)]
        exact Or.inl (show least - 1 ≤ rest.length by omega)
    · obtain ⟨n, rfl, rfl⟩ := Option.map_eq_some_iff.mp eq
      have bound := few n rfl
      omega
  · rintro ⟨next, begun, u, v, rfl, first, ws, rfl, each, enough, few⟩
    unfold Turns.next? at begun
    split at begun
    · cases begun
    · rename_i some_turn
      cases begun
      refine ⟨(c :: u) :: ws, rfl, fun x mem => ?_, ?_, fun m eq => ?_⟩
      · rcases List.mem_cons.mp mem with rfl | mem
        · exact first
        · exact each x mem
      · refine enough.elim (fun bound => ?_) Or.inr
        by_cases h : free = true
        · exact Or.inr (null.mp h)
        · rw [if_neg h] at bound
          have bound : least - 1 ≤ ws.length := bound
          exact Or.inl (show least ≤ ws.length + 1 by omega)
      · simp only at eq some_turn few
        subst eq
        have bound := few (m - 1) rfl
        have pos : m ≠ 0 := fun zero => some_turn (congrArg some zero)
        rw [List.length_cons]
        omega

theorem mem_foldr_cons {t : Turns} {ts : List Turns} : t ∈ ts.foldr Turns.cons [] ↔ t ∈ ts := by
  induction ts with
  | nil => rfl
  | cons s ts ih =>
    rw [List.foldr_cons, Turns.cons, List.mem_cons, ← ih]
    split
    · rename_i first
      have listed := List.mem_of_head? first
      exact ⟨Or.inr, fun h => h.elim (fun same => same ▸ listed) id⟩
    · exact List.mem_cons

/-- Beginning turns adds them to the matches under way, in whatever order. -/
theorem exists_begin {courses : List (Turns × Course)} {starts : List Turns}
    {under : Turns → Course → Prop} {begins : Turns → Prop} (idle : ∀ t, ¬under t .none) :
    (∃ x ∈ Course.begin courses starts, under x.1 x.2.1 ∨ (x.2.2 = true ∧ begins x.1)) ↔
      (∃ x ∈ courses, under x.1 x.2) ∨ ∃ t ∈ starts, begins t := by
  induction courses, starts using Course.begin.induct with
  | case1 starts =>
    rw [Course.begin]
    simp [idle]
  | case2 courses nonempty =>
    rw [Course.begin]
    · simp
    · exact nonempty
  | case3 a courses start starts ih =>
    rw [Course.begin, if_pos rfl]
    simp only [List.exists_mem_cons_iff, ih, true_and]
    exact or_or_or_comm
  | case4 t a courses start starts other earlier ih =>
    rw [Course.begin, if_neg other, if_pos earlier, List.exists_mem_cons_iff, ih]
    simp only [List.exists_mem_cons_iff, Bool.false_eq_true, false_and, or_false, or_assoc]
  | case5 t a courses start starts other later ih =>
    rw [Course.begin, if_neg other, if_neg later, List.exists_mem_cons_iff, ih]
    simp only [List.exists_mem_cons_iff, idle, true_and, false_or]
    exact or_left_comm

theorem mem_inTurns_ofTurns {courses : List (Turns × Course)} {t : Turns} {a : Course} :
    (t, a) ∈ (Course.ofTurns courses).inTurns ↔ (t, a) ∈ courses ∧ a ≠ .none := by
  have listed : (Course.ofTurns courses).inTurns = courses.filter (!·.2.isNone) := by
    unfold Course.ofTurns
    split
    · rename_i none
      exact none.symm
    · rfl
  rw [listed, List.mem_filter]
  simp [← isNone_eq_true]

theorem exists_inTurns_ofTurns {courses : List (Turns × Course)} {under : Turns → Course → Prop}
    (idle : ∀ t, ¬under t .none) :
    (∃ t a, (t, a) ∈ (Course.ofTurns courses).inTurns ∧ under t a) ↔
      ∃ x ∈ courses, under x.1 x.2 := by
  simp only [mem_inTurns_ofTurns]
  constructor
  · rintro ⟨t, a, ⟨mem, _⟩, h⟩
    exact ⟨(t, a), mem, h⟩
  · rintro ⟨⟨t, a⟩, mem, h⟩
    exact ⟨t, a, ⟨mem, fun none => idle t (none ▸ h)⟩, h⟩

end Turns

section Advance

theorem advance_idle (p : Pattern) : p.advance before c .none false = .none := by
  rw [advance.eq_def]
  exact if_pos rfl

/-- The turns left after those that have ended before a character. -/
def ended (before : Option Char) (c : Char) (p : Pattern) (course : Course) : List Turns :=
  course.inTurns.filterMap fun (left, a) =>
    if p.ends before (some c) a false then some left else none

/-- What `advance` does needs no look at whether anything is under way. -/
theorem advance_eq (p : Pattern) : p.advance before c course fresh =
    match p with
    | empty => .none
    | text cs =>
      .ofTexts ((if fresh then cs :: course.texts else course.texts).filterMap fun
        | d :: ds => if c = d then some ds else none
        | [] => none)
    | chars s => if fresh && s.contains c then .done else .none
    | anchor _ => .none
    | times least most p =>
      .ofTurns ((Course.begin course.inTurns
        (((if fresh then ⟨least, most⟩ :: p.ended before c course
            else p.ended before c course).filterMap
          (·.next? (p.nullable before (some c)))).foldr Turns.cons [])).map
        fun (left, a, begins) => (left, p.advance before c a begins))
    | group _ p => p.advance before c course fresh
    | seq p q =>
      .ofParts (p.advance before c course.first fresh)
        (q.advance before c course.second (p.ends before (some c) course.first fresh))
    | alt p q =>
      .ofParts (p.advance before c course.first fresh)
        (q.advance before c course.second fresh) := by
  by_cases idle : (course.isNone && !fresh) = true
  · simp only [Bool.and_eq_true, isNone_eq_true, Bool.not_eq_true'] at idle
    obtain ⟨rfl, rfl⟩ := idle
    rw [advance_idle]
    cases p <;> simp [ended, ends_idle, advance_idle, Course.texts, Course.inTurns, Course.first,
      Course.second, Course.ofTexts, Course.ofParts, Course.isNone, Course.begin, Course.ofTurns]
  · rw [advance.eq_def, if_neg idle]
    rfl

@[simp] theorem texts_ofTexts (texts : List (List Char)) : (Course.ofTexts texts).texts = texts := by
  cases texts <;> rfl

@[simp] theorem first_ofParts (a b : Course) : (Course.ofParts a b).first = a := by
  cases a <;> cases b <;> rfl

@[simp] theorem second_ofParts (a b : Course) : (Course.ofParts a b).second = b := by
  cases a <;> cases b <;> rfl

theorem mem_ended (plain : p.isPlain = true) {t : Turns} :
    t ∈ p.ended before c course ↔ ∃ a, (t, a) ∈ course.inTurns ∧ p.Completes a [] := by
  rw [ended, List.mem_filterMap]
  constructor
  · rintro ⟨⟨s, a⟩, mem, eq⟩
    simp only at eq
    split at eq
    · rename_i done
      obtain rfl := Option.some.inj eq
      exact ⟨a, mem, reaches_false.mp ((ends_iff plain).mp done)⟩
    · cases eq
  · rintro ⟨a, mem, done⟩
    exact ⟨(t, a), mem, if_pos ((ends_iff plain).mpr (reaches_false.mpr done))⟩

/-- One turn more reads the character that follows. -/
theorem exists_started {free : Bool} (null : free = true ↔ p.Matches []) (ts : List Turns) :
    (∃ t ∈ (ts.filterMap (·.next? free)).foldr Turns.cons [],
      ∃ u v, w = u ++ v ∧ p.Matches (c :: u) ∧ t.Match p v) ↔ ∃ t ∈ ts, t.Match p (c :: w) := by
  simp only [mem_foldr_cons, List.mem_filterMap, turns_match_cons null]
  grind

/-- A repetition goes on in the turns under way, and in those that begin where others end. -/
theorem advance_times_iff {least : Nat} {most : Option Nat} (plain : p.isPlain = true)
    (ih : ∀ course fresh w,
      p.Completes (p.advance before c course fresh) w ↔ p.Reaches course fresh (c :: w)) :
    (times least most p).Completes ((times least most p).advance before c course fresh) w ↔
      (times least most p).Reaches course fresh (c :: w) := by
  have null : p.nullable before (some c) = true ↔ p.Matches [] :=
    (ends_iff plain).trans reaches_none_true
  have behind : (∃ t ∈ if fresh then ⟨least, most⟩ :: p.ended before c course
      else p.ended before c course, t.Match p (c :: w)) ↔
      (fresh = true ∧ Turns.Match p ⟨least, most⟩ (c :: w)) ∨
        ∃ t ∈ p.ended before c course, t.Match p (c :: w) := by
    cases fresh <;> simp
  have either : ∀ x : Turns × Course × Bool, (∃ u v, w = u ++ v ∧
      (p.Completes x.2.1 (c :: u) ∨ x.2.2 = true ∧ p.Matches (c :: u)) ∧ x.1.Match p v) ↔
      (∃ u v, w = u ++ v ∧ p.Completes x.2.1 (c :: u) ∧ x.1.Match p v) ∨
        (x.2.2 = true ∧ ∃ u v, w = u ++ v ∧ p.Matches (c :: u) ∧ x.1.Match p v) := by
    intro x
    grind
  have idle : ∀ t : Turns, ¬∃ u v, w = u ++ v ∧ p.Completes .none (c :: u) ∧ t.Match p v := by
    rintro t ⟨u, v, _, h, _⟩
    exact not_completes_none p _ h
  rw [advance_eq]
  show (∃ t a, (t, a) ∈ (Course.ofTurns _).inTurns ∧ ∃ u v, w = u ++ v ∧ p.Completes a u ∧
    t.Match p v) ↔ _
  rw [exists_inTurns_ofTurns (by rintro t ⟨u, v, _, h, _⟩; exact not_completes_none p u h)]
  simp only [List.mem_map, exists_exists_and_eq_and, ih, Reaches, either]
  rw [@exists_begin _ _ (fun t a => ∃ u v, w = u ++ v ∧ p.Completes a (c :: u) ∧ t.Match p v)
    (fun t => ∃ u v, w = u ++ v ∧ p.Matches (c :: u) ∧ t.Match p v) idle, exists_started null,
    behind]
  -- A match under way either ends here, so that another turn may begin, or reads the character.
  show _ ↔ (∃ t a, (t, a) ∈ course.inTurns ∧ ∃ u v, c :: w = u ++ v ∧ p.Completes a u ∧
    t.Match p v) ∨ (fresh = true ∧ Turns.Match p ⟨least, most⟩ (c :: w))
  simp only [exists_split_cons, mem_ended plain, Prod.exists]
  grind

/-- Reading a character takes it off the texts that complete a match. -/
theorem advance_iff (plain : p.isPlain = true) :
    p.Completes (p.advance before c course fresh) w ↔ p.Reaches course fresh (c :: w) := by
  induction p generalizing course fresh w with
  | empty => simp [Reaches, Completes, Matches]
  | text cs =>
    have read : ∀ texts : List (List Char), (w ∈ texts.filterMap fun
        | d :: ds => if c = d then some ds else none
        | [] => none) ↔ c :: w ∈ texts := by
      intro texts
      rw [List.mem_filterMap]
      constructor
      · rintro ⟨x, mem, step⟩
        split at step
        · split at step
          · rename_i same
            obtain rfl := Option.some.inj step
            exact same ▸ mem
          · cases step
        · cases step
      · exact fun mem => ⟨c :: w, mem, if_pos rfl⟩
    rw [advance_eq]
    simp only [Completes, texts_ofTexts, read, Reaches, Matches]
    cases fresh <;> simp [or_comm]
  | chars s =>
    rw [advance_eq]
    constructor
    · rintro ⟨done, rfl⟩
      simp only at done
      split at done
      · rename_i read
        obtain ⟨begins, inside⟩ := Bool.and_eq_true_iff.mp read
        exact Or.inr ⟨begins, c, rfl, inside⟩
      · cases done
    · rintro (⟨_, none⟩ | ⟨begins, d, eq, inside⟩)
      · cases none
      · obtain ⟨rfl, rfl⟩ := List.cons.inj eq
        simp only [begins, inside, Bool.and_self, if_true]
        exact ⟨rfl, rfl⟩
  | anchor a => cases plain
  | times least most p ih => exact advance_times_iff plain fun course fresh w => ih plain
  | group n p ih =>
    rw [advance_eq]
    exact ih plain
  | seq p q ihp ihq =>
    obtain ⟨plainp, plainq⟩ := Bool.and_eq_true_iff.mp plain
    rw [advance_eq]
    simp only [Completes, first_ofParts, second_ofParts, ihp plainp, ihq plainq, Reaches, Matches,
      ends_iff plainp, exists_split_cons]
    grind
  | alt p q ihp ihq =>
    obtain ⟨plainp, plainq⟩ := Bool.and_eq_true_iff.mp plain
    rw [advance_eq]
    simp only [Completes, first_ofParts, second_ofParts, ihp plainp, ihq plainq, Reaches, Matches]
    grind

end Advance

section Whole

/-- Whether a pattern has no condition but that it ends where the text does. -/
def isSealed : Pattern → Bool
  | anchor a => a = .textEnd
  | seq p q => p.isPlain && q.isSealed
  | _ => false

/-- A sealed pattern ends nowhere within a text. -/
theorem ends_sealed_within (closed : q.isSealed = true) :
    q.ends before (some c) course fresh = false := by
  induction q generalizing course fresh with
  | anchor a =>
    obtain rfl : a = .textEnd := by simpa [isSealed] using closed
    rw [ends_eq]
    exact Bool.and_false fresh
  | seq p q _ ih =>
    rw [ends_eq]
    exact ih (Bool.and_eq_true_iff.mp closed).2
  | _ => cases closed

theorem ends_sealed_iff (closed : q.isSealed = true) :
    q.ends before none course fresh = true ↔ q.Reaches course fresh [] := by
  induction q generalizing course fresh with
  | anchor a =>
    obtain rfl : a = .textEnd := by simpa [isSealed] using closed
    rw [ends_eq]
    simp [Reaches, Completes, Matches, Anchor.holds]
  | seq p q _ ih =>
    obtain ⟨plain, closed⟩ := Bool.and_eq_true_iff.mp closed
    rw [ends_eq]
    simp only [ih closed, Reaches, ends_iff plain, Completes, Matches, exists_split_nil]
    grind
  | _ => cases closed

theorem advance_sealed_iff (closed : q.isSealed = true) :
    q.Completes (q.advance before c course fresh) w ↔ q.Reaches course fresh (c :: w) := by
  induction q generalizing course fresh w with
  | anchor a => simp [Reaches, Completes, Matches]
  | seq p q _ ih =>
    obtain ⟨plain, closed⟩ := Bool.and_eq_true_iff.mp closed
    rw [advance_eq]
    simp only [Completes, first_ofParts, second_ofParts, advance_iff plain, ih closed, Reaches,
      Matches, ends_iff plain, exists_split_cons]
    grind
  | _ => cases closed

/-- A pattern that has to begin where the text does. -/
def whole (q : Pattern) : Pattern := seq (anchor .textStart) q

/-- The state of a search for a whole pattern after a text. -/
structure Searched (q : Pattern) (text : List Char) (s : Scan) : Prop where
  pattern : s.pattern = q.whole
  before : s.before = text.getLast?
  hit : s.hit = false
  under : ∀ w, q.Completes s.course.second w ↔ text ≠ [] ∧ q.Matches (text ++ w)

theorem ends_whole : q.whole.ends before after course true =
    q.ends before after course.second before.isNone := by
  rw [whole, ends_eq]
  simp only [ends_eq (anchor _), Bool.true_and]
  rfl

theorem Searched.reaches {text : List Char} {s : Scan} (h : Searched q text s) (w : List Char) :
    q.Reaches s.course.second s.before.isNone w ↔ q.Matches (text ++ w) := by
  rw [Reaches, h.under, h.before]
  cases text with
  | nil => simp
  | cons c cs => simp

theorem searched_start (q : Pattern) : Searched q [] (.start q.whole) :=
  ⟨rfl, rfl, rfl, fun w => ⟨fun h => absurd h (not_completes_none q w), fun h => absurd rfl h.1⟩⟩

theorem Searched.step {text : List Char} {s : Scan} (closed : q.isSealed = true)
    (h : Searched q text s) (c : Char) : Searched q (text ++ [c]) (s.step c) := by
  have stepped : s.step c = { s with
      before := some c
      course := s.pattern.advance s.before c s.course true
      hit := s.endsHere (some c) } := by
    rw [Scan.step, h.hit]
    rfl
  rw [stepped]
  refine ⟨h.pattern, by simp, ?_, fun w => ?_⟩
  · show s.pattern.ends s.before (some c) s.course true = false
    rw [h.pattern, ends_whole]
    exact ends_sealed_within closed
  · simp only [h.pattern]
    rw [whole, advance_eq]
    simp only [second_ofParts, ends_eq (anchor _), Bool.true_and]
    rw [advance_sealed_iff closed,
      show Anchor.textStart.holds s.before (some c) = s.before.isNone from rfl, h.reaches]
    simp

/-- A whole pattern is found in the texts that it stands for. -/
theorem foundIn_whole (closed : q.isSealed = true) (text : List Char) :
    q.whole.foundIn text = true ↔ q.Matches text := by
  have searched : Searched q text (text.foldl Scan.step (.start q.whole)) := by
    suffices along : ∀ (rest front : List Char) (s : Scan), Searched q front s →
        Searched q (front ++ rest) (rest.foldl Scan.step s) from along text [] _ (searched_start q)
    intro rest
    induction rest with
    | nil =>
      intro front s h
      rwa [List.append_nil]
    | cons c rest ih =>
      intro front s h
      have behind := ih (front ++ [c]) (s.step c) (h.step closed c)
      rwa [List.append_assoc] at behind
  rw [foundIn]
  generalize text.foldl Scan.step (.start q.whole) = s at searched
  rw [Scan.accepts, searched.hit, Bool.false_or, Scan.endsHere, searched.pattern, ends_whole,
    ends_sealed_iff closed, searched.reaches, List.append_nil]

end Whole

end TableAsm.Pattern
