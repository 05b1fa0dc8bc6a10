import Mathlib.Data.List.TakeWhile
import TableAsm.Proofs.Language.Demands
import TableAsm.Proofs.Language.Program

/-! Which programs of the built-in language are read. Translating a block fails only for its
literals, the number of its names, its length or a label that is there twice; resolving it fails
only for a word that is no label. Each step is given the names that the source has, and goes on to
refer to no others. -/
namespace TableAsm.Language

open Labels Translation

variable {known : List String} {l l' : Labels} {ts : List Token} {t : Token}
  {names : List (List String)}

section Running

variable {α β : Type}

/-- A translation goes through, and refers to no names but some. -/
def Succeeds (known : List String) (l : Labels) (m : Translation α) : Prop :=
  ∃ a l', m.run l = (.ok a, l') ∧ l'.Among known

theorem Succeeds.pure (among : l.Among known) (a : α) : Succeeds known l (pure a) :=
  ⟨a, l, rfl, among⟩

theorem Succeeds.bind {m : Translation α} {f : α → Translation β} (first : Succeeds known l m)
    (next : ∀ a l', m.run l = (.ok a, l') → l'.Among known → Succeeds known l' (f a)) :
    Succeeds known l (m >>= f) := by
  obtain ⟨a, between, ran, among⟩ := first
  obtain ⟨b, l', ran', among'⟩ := next a between ran among
  exact ⟨b, l', run_bind_eq_ok.mpr ⟨a, between, ran, ran'⟩, among'⟩

theorem Succeeds.onLabels {f : Labels → Labels × Except LabelError α} {a : α}
    (step : f l = (l', .ok a)) (among : l'.Among known) : Succeeds known l (onLabels f) :=
  ⟨a, l', run_onLabels_eq_ok.mpr step, among⟩

theorem succeeds_literal (among : l.Among known) (make : α → Value) {read : Option α}
    (some : read.isSome) (fault : LiteralFault) (t : Token) :
    Succeeds known l (literal make read fault t) := by
  obtain ⟨a, rfl⟩ := Option.isSome_iff_exists.mp some
  exact .pure among (make a)

end Running

/-- Tokens that can all be read: the literals stand for values, and the names are among some. -/
structure WellSpelled (known : List String) (ts : List Token) : Prop where
  integers : ∀ t ∈ ts, t.kind = "I_LITERAL" →
    Action.integerOf? t.lexeme = some (timesOf t : Int) ∧ timesOf t < unit
  floats : ∀ t ∈ ts, t.kind = "F_LITERAL" → (Decimal.readFloat? t.lexeme.toList).isSome
  strings : ∀ t ∈ ts, t.kind = "S_LITERAL" → (Action.stringOf? t.lexeme).isSome
  words : ∀ t ∈ ts, t.kind = "IDENTIFIER" → t.lexeme ∈ known
  labels : ∀ t ∈ ts, t.kind = "LABEL" → Action.labelName t.lexeme ∈ known

theorem WellSpelled.mono {us : List Token} (h : WellSpelled known us) (sub : ∀ t ∈ ts, t ∈ us) :
    WellSpelled known ts :=
  ⟨fun t mem => h.integers t (sub t mem), fun t mem => h.floats t (sub t mem),
    fun t mem => h.strings t (sub t mem), fun t mem => h.words t (sub t mem),
    fun t mem => h.labels t (sub t mem)⟩

section Progress

variable (few : known.dedup.length ≤ maxNames)

include few

theorem succeeds_reference (among : l.Among known) {name : String} (mem : name ∈ known)
    (t : Token) : Succeeds known l (reference name t) := by
  obtain ⟨l', n, step, among'⟩ := exists_reference among few mem (some t.position)
  exact .onLabels step among'

theorem succeeds_value (spelled : WellSpelled known ts) (among : l.Among known) (mem : t ∈ ts)
    (kind : t.kind ∈ valueKinds) : Succeeds known l (value t) := by
  unfold value
  split
  · rename_i word
    apply (succeeds_reference few among (spelled.words t mem word) t).bind
    intro n l' _ among'
    exact .pure among' _
  · rename_i notWord
    split
    · rename_i integer
      apply succeeds_literal among
      rw [(spelled.integers t mem integer).1]
      rfl
    · rename_i notInteger
      split
      · rename_i float
        exact succeeds_literal among _ (spelled.floats t mem float) _ t
      · rename_i notFloat
        have string : t.kind = "S_LITERAL" := by
          simpa [valueKinds, notWord, notInteger, notFloat] using kind
        exact succeeds_literal among _ (spelled.strings t mem string) _ t

theorem succeeds_values (spelled : WellSpelled known ts) {vs : List Token}
    (among : l.Among known) (inside : ∀ v ∈ vs, v.kind ∈ valueKinds ∧ v ∈ ts) :
    Succeeds known l (values vs) := by
  induction vs with
  | nil => exact .pure among []
  | cons v vs ih =>
    obtain ⟨kind, mem⟩ := inside v List.mem_cons_self
    apply (ih fun w later => inside w (List.mem_cons_of_mem v later)).bind
    intro ws l₁ _ among₁
    apply (succeeds_value few spelled among₁ mem kind).bind
    intro w l₂ _ among₂
    exact .pure among₂ _

theorem Mark.Spells.succeeds {m : Mark} {front : List Token} (h : m.Spells front)
    (spelled : WellSpelled known front) (carries : l.Carries names) (among : l.Among known)
    (fresh : ∀ name ∈ m.carried?, ∀ here ∈ names, name ∉ here) (i : Instruction) (number : Int) :
    Succeeds known l (m.apply i number) := by
  cases h with
  | @label x kind =>
    have mem := spelled.labels x List.mem_cons_self kind
    apply (succeeds_reference few among mem x).bind
    intro n l₁ ran among₁
    obtain ⟨grows, _⟩ := reference_spec among.sound ran
    have free : l₁.target? (Action.labelName x.lexeme) = none := by
      rw [← Option.not_isSome_iff_eq_none, (carries.grows grows).isSome_target?_iff]
      rintro ⟨here, placed, on⟩
      exact fresh _ rfl here placed on
    obtain ⟨l₂, step, among₂⟩ := exists_define among₁ few mem (some x.position) free number
    apply (Succeeds.onLabels step among₂).bind
    intro _ l₃ _ among₃
    exact .pure among₃ i
  | annotation isAt isKey kind =>
    rename_i n
    apply (succeeds_reference few among (spelled.words n (by simp) kind) n).bind
    intro _ l₁ _ among₁
    exact .pure among₁ _
  | @property _ _ n v _ _ kind kind' =>
    apply (succeeds_value few spelled among (by simp) kind').bind
    intro w l₁ _ among₁
    apply (succeeds_reference few among₁ (spelled.words n (by simp) kind) n).bind
    intro _ l₂ _ among₂
    exact .pure among₂ _

/-- The labels of a statement go on its instruction if they are new and different. -/
theorem Statement.Spells.succeeds_applyMarks {s : Statement} (h : s.Spells ts)
    (lexed : Lexed ts) (spelled : WellSpelled known ts) (carries : l.Carries ([] :: names))
    (among : l.Among known) (nodup : s.carried.Nodup)
    (fresh : ∀ name ∈ s.carried, ∀ here ∈ names, name ∉ here) {vs : List Value}
    (values : List.Forall₂ (Fresh l) s.operands vs) :
    Succeeds known l (applyMarks s.marks (.bare s.name.lexeme vs) l.counter) := by
  induction h with
  | instruction _ _ => exact .pure among _
  | @marked m marks word ops front ts mark behind ih =>
    have inner : Lexed ts := lexed.mono fun t mem => List.mem_append_right _ mem
    have split := Statement.carried_cons m ⟨marks, word, ops⟩
    rw [split] at nodup fresh
    obtain ⟨_, nodup, apart⟩ := List.nodup_append.mp nodup
    have later := ih inner (spelled.mono fun t mem => List.mem_append_right _ mem) nodup
      (fun name mem => fresh name (List.mem_append_right _ mem)) values
    apply later.bind
    intro i l₁ ran among₁
    obtain ⟨carries₁, _, _, _⟩ :=
      behind.applyMarks_spec (Fresh.records inner) carries values ran
    apply mark.succeeds few (spelled.mono fun t mem => List.mem_append_left _ mem) carries₁ among₁
    intro name mem here placed on
    have own : name ∈ m.carried?.toList := Option.mem_toList.mpr mem
    rcases List.mem_cons.mp placed with rfl | placed
    · exact apart name own name on rfl
    · exact fresh name (List.mem_append_left _ own) here placed on

omit few in
theorem Statement.Spells.name_mem {s : Statement} (h : s.Spells ts) :
    s.name.kind = "IDENTIFIER" ∧ s.name ∈ ts := by
  induction h with
  | instruction kind _ => exact ⟨kind, List.mem_cons_self⟩
  | marked _ _ ih => exact ⟨ih.1, List.mem_append_right _ ih.2⟩

theorem Statement.Spells.succeeds {s : Statement} (h : s.Spells ts) (lexed : Lexed ts)
    (spelled : WellSpelled known ts) (carries : l.Carries names) (among : l.Among known)
    (room : names.length < maxLength) (nodup : s.carried.Nodup)
    (fresh : ∀ name ∈ s.carried, ∀ here ∈ names, name ∉ here) :
    Succeeds known l s.translate := by
  have inside := h.operands_mem
  apply (succeeds_values few spelled among inside).bind
  intro vs l₁ valued among₁
  obtain ⟨grows, told⟩ := values_spec among.sound (fun t mem => (inside t mem).1)
    ((Fresh.records lexed).mono fun t mem => (inside t mem).2) valued
  obtain ⟨kind, mem⟩ := h.name_mem
  apply (succeeds_reference few among₁ (spelled.words s.name mem kind) s.name).bind
  intro _ l₂ referred among₂
  obtain ⟨grows', _⟩ := reference_spec among₁.sound referred
  have carries₂ := carries.grows (grows.trans grows')
  obtain ⟨l₃, n, step, among₃⟩ := carries₂.exists_place room among₂
  apply (Succeeds.onLabels step among₃).bind
  intro number l₄ placed among₄
  obtain ⟨carries₄, kept, _, rfl⟩ := carries₂.place (run_onLabels_eq_ok.mp placed)
  apply (h.succeeds_applyMarks few lexed spelled carries₄ among₄ nodup fresh
    (told.imp fun t v made => made.extend (grows'.kept.trans kept))).bind
  intro i l₅ _ among₅
  exact .pure among₅ _

/-- A block is translated if there is room for its peak and each name is defined once. -/
theorem Block.Spells.succeeds {b : Block} (h : b.Spells ts) (lexed : Lexed ts)
    (spelled : WellSpelled known ts) (before : Nat) (carries : l.Carries names) (fits : l.Fits)
    (among : l.Among known) (room : b.peak names.length ≤ maxLength)
    (once : ∀ name, b.Once name before names) : Succeeds known l b.translate := by
  induction h generalizing l names before with
  | done => exact .pure among []
  | @statement s stop rest front ts line _ behind ih =>
    have own : Lexed front := lexed.mono fun t mem => by simp [mem]
    have others : Lexed ts := lexed.mono fun t mem => by simp [mem]
    obtain ⟨roomR, roomS⟩ := Nat.max_le.mp room
    -- what is behind is translated first, so the statement must not have its labels again
    have later := ih others (spelled.mono fun t mem => by simp [mem]) before carries fits among
      roomR fun name => (once name).1
    apply later.bind
    intro tail l₁ ran among₁
    obtain ⟨carries₁, _, _, _⟩ := behind.translate_spec others before carries fits ran
    have size := length_names_append rest before names
    apply (line.succeeds few own (spelled.mono fun t mem => by simp [mem]) carries₁ among₁
      (by omega) ?_ ?_).bind
    · rintro ⟨i, number⟩ l₂ _ among₂
      exact .pure among₂ _
    · rw [line.carried_eq own]
      exact List.nodup_iff_count_le_one.mpr fun name => (once name).2.1
    · rw [line.carried_eq own]
      exact fun name => (once name).2.2
  | @loop key opens count closes left right body rest inside ts _ _ kind _ _ spells _ behind ihb ih =>
    have own : Lexed inside := lexed.mono fun t mem => by simp [mem]
    have others : Lexed ts := lexed.mono fun t mem => by simp [mem]
    obtain ⟨roomR, room⟩ := Nat.max_le.mp room
    obtain ⟨roomB, room⟩ := Nat.max_le.mp room
    have later := ih others (spelled.mono fun t mem => by simp [mem]) (before + 1 + body.loops)
      carries fits among roomR fun name => (once name).1
    apply later.bind
    intro tail l₁ ran among₁
    obtain ⟨carries₁, _, fits₁, _⟩ :=
      behind.translate_spec others (before + 1 + body.loops) carries fits ran
    have length := length_names_append rest (before + 1 + body.loops) names
    have within := ihb own (spelled.mono fun t mem => by simp [mem]) (before + 1) carries₁ fits₁
      among₁ (length ▸ roomB) fun name => (once name).2
    apply within.bind
    intro inner l₂ ran₂ among₂
    obtain ⟨carries₂, _, _, laid⟩ := spells.translate_spec own (before + 1) carries₁ fits₁ ran₂
    -- the count is read after its block, and is small enough for the block to be repeated
    obtain ⟨read, small⟩ := spelled.integers count (by simp) kind
    have counts : Succeeds known l₂ (do repeatCount count (← value count)) :=
      ⟨_, l₂, (run_count_eq_ok kind).mpr ⟨rfl, _, read, Int.natCast_nonneg _, rfl⟩, among₂⟩
    rw [← bind_assoc]
    apply counts.bind
    intro times l₃ ran₃ among₃
    obtain ⟨rfl, rfl⟩ := count_spec kind (lexed.mono fun t mem => by simp_all) ran₃
    have size : inner.length = ((body.copies (before + 1)).map Copy.names).length := by
      rw [laid.length, List.length_map]
    have whole : timesOf count * inner.length +
        ((rest.copies (before + 1 + body.loops)).map Copy.names ++ names).length ≤ maxLength := by
      rw [laid.length, length_copies, length]
      omega
    obtain ⟨l₄, is, step, among₄⟩ := carries₂.exists_expandRepeat size
      (Nat.le_trans (Nat.le_of_lt small) (by decide)) whole among₃
    apply (Succeeds.onLabels step among₄).bind
    intro unrolled l₅ _ among₅
    exact .pure among₅ _

end Progress

section Resolving

variable {b : Block}

/-- Where each word is a label that can be reached, the labels are there when it is resolved. -/
theorem Block.Grounded.exists_named (grounded : b.Grounded) {c : Copy} (mem : c ∈ b.copies 0)
    (written : t ∈ c.statement.written) (word : t.kind = "IDENTIFIER") :
    ∃ here ∈ (b.copies 0).map Copy.names, t.lexeme ∈ here := by
  -- the copy has a site whose counts are positive, so those around its labels are as well
  obtain ⟨use, found, same, live⟩ := exists_site mem
  obtain ⟨label, found', labelled, sees⟩ := grounded use found t (same ▸ written) word
  obtain ⟨c', copied, same'⟩ := exists_copy found' (live.of_sees sees)
  obtain ⟨there, copied', on⟩ := Language.exists_named copied (same' ▸ labelled)
  exact ⟨there.names, List.mem_map_of_mem copied', on⟩

theorem Laid.exists_resolveValue {is : Program} (laid : Laid l (b.copies 0) is)
    (carries : l.Carries ((b.copies 0).map Copy.names)) (room : (b.copies 0).length ≤ maxLength)
    (grounded : b.Grounded) {k : Nat} {i : Instruction} (place : is[k]? = some i) {v : Value}
    (mem : v ∈ i.values) : ∃ w, l.resolveValue k v = .ok w := by
  have short : k < (b.copies 0).length := laid.length ▸ (List.getElem?_eq_some_iff.mp place).1
  have found := List.getElem?_eq_getElem short
  obtain ⟨t, written, pending⟩ := (laid.each k _ i found place).exists_written mem
  cases pending with
  | literal reads => exact ⟨v, reads.resolveValue_eq l k⟩
  | settled _ target => exact ⟨_, resolveValue_of_lt (distance_gt _ short room) k⟩
  | waiting word seen _ =>
    exact carries.exists_resolveValue seen
      (grounded.exists_named (List.getElem_mem short) written word) k

theorem Block.Spells.exists_program (h : b.Spells ts) (lexed : Lexed ts)
    (spelled : WellSpelled known ts) (few : known.dedup.length ≤ maxNames)
    (room : b.peak 0 ≤ maxLength) (once : ∀ name, b.Once name 0 []) (grounded : b.Grounded) :
    ∃ p, b.assemble = .ok p := by
  obtain ⟨is, l, ran, _⟩ :=
    h.succeeds few lexed spelled 0 carries_new fits_new among_new room once
  obtain ⟨carries, _, _, laid⟩ := h.translate_spec lexed 0 carries_new fits_new ran
  rw [List.append_nil] at carries
  have short : (b.copies 0).length ≤ maxLength := by
    have below := length_le_peak b 0
    rw [length_copies]
    omega
  rcases resolved : l.resolve is with ⟨p, _ | e⟩
  · exact ⟨p, Block.assemble_eq_ok.mpr ⟨is, l, ran, resolved⟩⟩
  · obtain ⟨k, i, place, v, mem, failed⟩ := resolve_eq_error resolved
    obtain ⟨w, ok⟩ := laid.exists_resolveValue carries short grounded place mem
    rw [failed] at ok
    cases ok

/-- There is room for the peak if there is for the extent, and a name that is written once is
defined once. -/
theorem Block.Spells.exists_assemble (h : b.Spells ts) (lexed : Lexed ts)
    (spelled : WellSpelled known ts) (few : known.dedup.length ≤ maxNames)
    (room : b.extent ≤ maxLength) (nodup : b.labels.Nodup) (grounded : b.Grounded) :
    ∃ p, b.assemble = .ok p := by
  have peak := peak_le_extent b 0
  exact h.exists_program lexed spelled few (by omega)
    (once_of_nodup nodup fun _ _ here placed => absurd placed List.not_mem_nil) grounded

end Resolving

section Spelling

def wordOf? (t : Token) : Option String :=
  if t.kind = "IDENTIFIER" then some t.lexeme
  else if t.kind = "LABEL" then some (String.ofList t.lexeme.toList.dropLast)
  else none

theorem wordOf?_word {t : Token} (word : t.kind = "IDENTIFIER") : wordOf? t = some t.lexeme := by
  rw [wordOf?, if_pos word]

theorem wordOf?_label {t : Token} (label : t.kind = "LABEL")
    (colon : t.lexeme.toList.getLast? = some ':') :
    wordOf? t = some (Action.labelName t.lexeme) := by
  rw [wordOf?, if_neg (by rw [label]; decide), if_pos label, Action.labelName, if_pos colon]

theorem wordOf?_other {t : Token} {kind : String} (same : t.kind = kind)
    (other : kind ≠ "IDENTIFIER" ∧ kind ≠ "LABEL") : wordOf? t = none := by
  subst same
  rw [wordOf?, if_neg other.1, if_neg other.2]

theorem isSome_readNumeral? {us vs : List Char} (before : us.all Decimal.isDigit = true)
    (some : us ≠ []) (behind : vs.all Decimal.isDigit = true) (negative : Bool) :
    (Decimal.readNumeral? negative (us ++ '.' :: vs)).isSome := by
  have first := List.all_eq_true.mp before
  have second := List.all_eq_true.mp behind
  have point : Decimal.isDigit '.' = false := by decide
  simp only [Decimal.readNumeral?]
  rw [List.takeWhile_append_of_pos first, List.dropWhile_append_of_pos first]
  simp [point, some, List.dropWhile_eq_nil_iff.mpr second, Decimal.readExponent?]

theorem isSome_readFloat? {us vs : List Char} (before : us.all Decimal.isDigit = true)
    (some : us ≠ []) (behind : vs.all Decimal.isDigit = true) :
    (Decimal.readFloat? (us ++ '.' :: vs)).isSome := by
  have numeral := isSome_readNumeral? before some behind false
  obtain _ | ⟨u, us⟩ := us
  · exact absurd rfl some
  have digit := ((Bool.and_eq_true _ _).mp (List.all_cons ▸ before)).1
  rw [Decimal.readFloat?, Option.isSome_map, Decimal.read?, List.cons_append,
    takeSign_of_digit digit]
  simp only
  split
  · rfl
  · split
    · rfl
    · rw [Option.isSome_map]
      exact numeral

theorem isSome_stringOf? (s : String) : (Action.stringOf? ("\"" ++ s ++ "\"")).isSome := by
  have chars : ("\"" ++ s ++ "\"").toList = '"' :: (s.toList ++ ['"']) := by
    simp only [String.toList_append]
    rfl
  simp [Action.stringOf?, chars]

theorem integerOf?_eq_some {raw : String} (digits : raw.toList.all Decimal.isDigit = true)
    (some : raw.toList ≠ []) (small : Decimal.value raw.toList < unit) :
    Action.integerOf? raw = Option.some (Decimal.value raw.toList : Int) := by
  have spelled := readInt?_of_digits digits some
  have least : Action.leastInteger ≤ (Decimal.value raw.toList : Int) :=
    Int.le_trans (by decide) (Int.natCast_nonneg _)
  have bound : (Decimal.value raw.toList : Int) < literalLimit := Int.ofNat_lt.mpr small
  generalize (Decimal.value raw.toList : Int) = n at spelled least bound
  have inside := And.intro least bound
  refine Option.bind_eq_some_iff.mpr ⟨n, spelled, ?_⟩
  rw [if_pos inside]

/-- Tokens of the built-in lexicon are well spelled if their integers are small and their strings
are closed. -/
theorem wellSpelled_of_tokens {tokens : List Token} (each : ∀ t ∈ tokens, IsToken t)
    (integers : ∀ t ∈ tokens, t.kind = "I_LITERAL" → Decimal.value t.lexeme.toList < unit)
    (strings : ∀ t ∈ tokens, t.kind = "S_LITERAL" → ∃ s, t.lexeme = "\"" ++ s ++ "\"") :
    WellSpelled (tokens.filterMap wordOf?) tokens := by
  refine ⟨fun t mem kind => ?_, fun t mem kind => ?_, fun t mem kind => ?_, fun t mem kind => ?_,
    fun t mem kind => ?_⟩
  · obtain ⟨digits, some⟩ := (each t mem).digits kind
    have small := integers t mem kind
    exact ⟨integerOf?_eq_some digits some small, small⟩
  · obtain ⟨us, vs, chars, before, some, behind⟩ := (each t mem).point kind
    rw [chars]
    exact isSome_readFloat? before some behind
  · obtain ⟨s, closed⟩ := strings t mem kind
    rw [closed]
    exact isSome_stringOf? s
  · exact List.mem_filterMap.mpr ⟨t, mem, wordOf?_word kind⟩
  · exact List.mem_filterMap.mpr ⟨t, mem, wordOf?_label kind ((each t mem).colon kind)⟩

end Spelling

section Reading

/-- What a source has to be like, labels apart: its integers are small and its strings closed, its
names are not too many, its words are labels that can be reached, and there is room for it. -/
structure Sensible (tokens : List Token) (b : Block) : Prop where
  integers : ∀ t ∈ tokens, t.kind = "I_LITERAL" → Decimal.value t.lexeme.toList < 2 ^ 48
  strings : ∀ t ∈ tokens, t.kind = "S_LITERAL" → ∃ s, t.lexeme = "\"" ++ s ++ "\""
  names : (tokens.filterMap wordOf?).dedup.length ≤ 32767
  grounded : b.Grounded
  extent : b.extent ≤ 2 ^ 24

/-- The built-in front end reads every sensible source of the language that defines no label
twice. -/
theorem readProgram_accepts {f : FrontEnd} (builtin : FrontEnd.builtin = .ok f) {source : String}
    {tokens : List Token} (cut : f.tokenize source = .ok tokens)
    (derives : tokens.map (·.kind) ∈ (contextFree rules).language) {b : Block}
    (spells : b.Spells tokens) (sensible : Sensible tokens b) (once : b.labels.Nodup) :
    ∃ p, f.readProgram source = .ok p := by
  obtain ⟨_, accepted⟩ := builtin_eq builtin
  have each := isToken_of_tokenize builtin cut
  have success := Grammar.parse_of_mem_language accepted (by decide) derives
  obtain ⟨b', spells', read⟩ := readProgram_eq builtin cut success
  obtain rfl := spells.eq spells'
  obtain ⟨p, assembled⟩ := spells.exists_assemble (lexed_of_tokens each)
    (wellSpelled_of_tokens each sensible.integers sensible.strings) sensible.names
    sensible.extent once sensible.grounded
  rw [assembled] at read
  exact ⟨p, read⟩

theorem loopedLine_sensible : Sensible loopedTokens loopedLine := by
  have unquoted : ∀ t ∈ loopedTokens, t.kind ≠ "S_LITERAL" := by decide
  refine ⟨by decide, fun t mem kind => absurd kind (unquoted t mem), by decide, ?_, by decide⟩
  intro use found t written _
  obtain rfl := List.mem_singleton.mp found
  obtain rfl := List.mem_singleton.mp written
  exact ⟨_, List.mem_singleton_self _, by decide, fun f enclosing _ => enclosing⟩

theorem readProgram_accepts_loopedLine :
    ∃ f, FrontEnd.builtin = .ok f ∧
      f.tokenize "repeat(2) \x7b A: x A; \x7d" = .ok loopedTokens ∧
      loopedTokens.map (·.kind) ∈ (contextFree rules).language ∧
      loopedLine.Spells loopedTokens ∧ Sensible loopedTokens loopedLine ∧
      loopedLine.labels.Nodup ∧ ∃ p, f.readProgram "repeat(2) \x7b A: x A; \x7d" = .ok p := by
  obtain ⟨f, builtin, cut, success⟩ := exists_loopedLine
  have derives := mem_language_of_builtin builtin cut success
  have once : loopedLine.labels.Nodup := by decide
  exact ⟨f, builtin, cut, derives, loopedLine_spells, loopedLine_sensible, once,
    readProgram_accepts builtin cut derives loopedLine_spells loopedLine_sensible once⟩

def doubledLine : Block :=
  .statement ⟨[.label ⟨"LABEL", "A:", ⟨1, 1⟩⟩, .label ⟨"LABEL", "A:", ⟨1, 4⟩⟩],
    ⟨"IDENTIFIER", "nop", ⟨1, 7⟩⟩, []⟩ .done

def doubledTokens : List Token :=
  [⟨"LABEL", "A:", ⟨1, 1⟩⟩, ⟨"LABEL", "A:", ⟨1, 4⟩⟩, ⟨"IDENTIFIER", "nop", ⟨1, 7⟩⟩,
    ⟨";", ";", ⟨1, 10⟩⟩]

theorem doubledLine_spells : doubledLine.Spells doubledTokens :=
  .statement (.marked (.label rfl) (.marked (.label rfl) (.instruction rfl .none))) rfl .done

theorem doubledLine_sensible : Sensible doubledTokens doubledLine := by
  have unquoted : ∀ t ∈ doubledTokens, t.kind ≠ "S_LITERAL" := by decide
  refine ⟨by decide, fun t mem kind => absurd kind (unquoted t mem), by decide, ?_, by decide⟩
  intro use found t written _
  obtain rfl := List.mem_singleton.mp found
  cases written

theorem doubledLine_assemble :
    doubledLine.assemble = .error (.label (.definedTwice "A" (some ⟨1, 1⟩))) := by
  have named : Action.labelName "A:" = "A" := by decide
  simp only [Block.assemble, doubledLine, Block.translate, Statement.translate, values, applyMarks,
    Mark.apply, Translation.reference, run_bind, run_pure, Translation.run_onLabels, named]
  -- marks go on from the last one, so the first one finds the name taken
  simp [Labels.reference, Labels.define, Labels.new, Labels.place, Labels.maxNames,
    Labels.maxLength, Labels.placeOf?_placeholderAt, Labels.entryOf?_placeholderAt,
    LabelEntry.seenAt]

/-- It is not enough that no two lines define one label. -/
theorem exists_sensible_not_read :
    ¬ ∀ {f : FrontEnd}, FrontEnd.builtin = .ok f → ∀ {source : String} {tokens : List Token},
      f.tokenize source = .ok tokens → tokens.map (·.kind) ∈ (contextFree rules).language →
      ∀ {b : Block}, b.Spells tokens → Sensible tokens b →
        (b.sites 0).Pairwise (fun s s' => s.statement.labels.Disjoint s'.statement.labels) →
        ∃ p, f.readProgram source = .ok p := by
  intro accepts
  obtain ⟨f, builtin, cut, success⟩ := exists_builtin "A: A: nop;" doubledTokens
    (by decide +kernel) doubledLine_spells
  have derives := mem_language_of_builtin builtin cut success
  obtain ⟨b, spells, same⟩ := readProgram_eq builtin cut success
  rw [doubledLine_spells.eq spells, doubledLine_assemble] at same
  obtain ⟨p, read⟩ := accepts builtin cut derives doubledLine_spells doubledLine_sensible
    (List.pairwise_singleton _ _)
  rw [same] at read
  cases read

end Reading

end TableAsm.Language
