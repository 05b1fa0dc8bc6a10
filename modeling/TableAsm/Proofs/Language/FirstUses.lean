import TableAsm.Proofs.Labels.FirstUses
import TableAsm.Proofs.Language.Literals
import TableAsm.Proofs.Language.Rejection
import TableAsm.Proofs.Lexicon.Places

/-! Where a label that is missing is reported. Translating a block notes each word of it, whatever
it stands for, also within a repeat that is dropped. The place in the report is that of the first
token with the word; the first reference may stand behind it. -/
namespace TableAsm.Language

open Labels Translation

/-- The earliest place of a name in tokens, which are seen from the last one on, and before. -/
def firstUse (name : String) (known : Option Position) (ts : List Token) : Option Position :=
  ts.foldr (fun t known => if wordOf? t = some name then t.position.earliest known else known) known

section Folding

variable {name : String} {known : Option Position} {t : Token} {ts us : List Token}

@[simp] theorem firstUse_nil : firstUse name known [] = known := rfl

theorem firstUse_cons : firstUse name known (t :: ts) = if wordOf? t = some name then
    t.position.earliest (firstUse name known ts) else firstUse name known ts := rfl

theorem firstUse_append :
    firstUse name known (ts ++ us) = firstUse name (firstUse name known us) ts :=
  List.foldr_append

theorem firstUse_plain (plain : wordOf? t = none) :
    firstUse name known (t :: ts) = firstUse name known ts := by
  rw [firstUse_cons, if_neg (by simp [plain])]

theorem firstUse_word {word : String} (spelled : wordOf? t = some word) :
    firstUse name known [t] = if name = word then t.position.earliest known else known := by
  simp only [firstUse_cons, firstUse_nil, spelled, Option.some.injEq, eq_comm]

theorem firstUse_twice : firstUse name known [t, t] = firstUse name known [t] := by
  simp only [firstUse_cons, firstUse_nil]
  split
  · exact Position.earliest_twice _ _
  · rfl

/-- In tokens that stand one behind the other the first one with the name is the earliest. -/
theorem firstUse_eq_find? (ordered : ts.Pairwise fun s t => s.position.before t.position = true) :
    firstUse name none ts = (ts.find? (wordOf? · = some name)).map Token.position := by
  induction ts with
  | nil => rfl
  | cons t ts ih =>
    obtain ⟨first, others⟩ := List.pairwise_cons.mp ordered
    rw [firstUse_cons, ih others, List.find?_cons]
    by_cases found : wordOf? t = some name
    · simp only [found, if_true, decide_true, Option.map_some]
      cases later : ts.find? (wordOf? · = some name) with
      | none => rfl
      | some u =>
        have behind := first u (List.mem_of_find?_eq_some later)
        simp [Position.earliest, Position.earlier, behind]
    · simp [found]

end Folding

section Noting

variable {α β : Type} {ts us : List Token} {t : Token}

/-- A translation that goes through has noted the words of some tokens, and no others. -/
def Notes (m : Translation α) (ts : List Token) : Prop :=
  ∀ (l l' : Labels) a, l.Sound → m.run l = (.ok a, l') →
    l'.Sound ∧ ∀ name, l'.firstUse? name = firstUse name (l.firstUse? name) ts

theorem Notes.pure (a : α) : Notes (pure a) [] := by
  intro l l' b sound run
  obtain ⟨_, rfl⟩ := run_pure_eq_ok.mp run
  exact ⟨sound, fun name => rfl⟩

theorem notes_throw (e : AssemblyError) : Notes (throw e : Translation α) [] := by
  intro l l' a _ run
  cases run

theorem Notes.bind {m : Translation α} {f : α → Translation β} (first : Notes m us)
    (next : ∀ a, Notes (f a) ts) : Notes (m >>= f) (ts ++ us) := by
  intro l l' b sound run
  obtain ⟨a, between, ran, ran'⟩ := run_bind_eq_ok.mp run
  obtain ⟨sound₁, seen⟩ := first l between a sound ran
  obtain ⟨sound₂, seen'⟩ := next a between l' b sound₁ ran'
  refine ⟨sound₂, fun name => ?_⟩
  rw [seen', seen, firstUse_append]

theorem Notes.congr {m : Translation α} (h : Notes m us)
    (same : ∀ name known, firstUse name known ts = firstUse name known us) : Notes m ts := by
  intro l l' a sound run
  obtain ⟨sound', seen⟩ := h l l' a sound run
  exact ⟨sound', fun name => (seen name).trans (same name _).symm⟩

theorem notes_reference {name : String} (word : wordOf? t = some name) :
    Notes (reference name t) [t] := by
  intro l l' n sound run
  have step := run_onLabels_eq_ok.mp run
  refine ⟨(reference_grows sound step).1.sound, fun other => ?_⟩
  rw [firstUse?_reference sound step, firstUse_word word]

theorem notes_define {name : String} (word : wordOf? t = some name) (number : Int) :
    Notes (onLabels (·.define name number (some t.position))) [t] := by
  intro l l' n sound run
  have step := run_onLabels_eq_ok.mp run
  refine ⟨(define_target sound step).1, fun other => ?_⟩
  rw [firstUse?_define sound step, firstUse_word word]

theorem notes_place : Notes (onLabels (·.place)) [] := by
  intro l l' n sound run
  have step := run_onLabels_eq_ok.mp run
  unfold Labels.place at step
  split at step
  · cases step
  · cases step
    exact ⟨⟨sound.listed, sound.few⟩, fun name => rfl⟩

theorem notes_expandRepeat (block : List Instruction) (times : Nat) :
    Notes (onLabels (·.expandRepeat block times)) [] := by
  intro l l' is sound run
  have step := run_onLabels_eq_ok.mp run
  have sound' := sound.expandRepeat block times
  have kept := l.firstUse?_expandRepeat block times
  rw [step] at sound' kept
  exact ⟨sound', kept⟩

theorem notes_literal (make : α → Value) (read : Option α) (fault : LiteralFault) (t : Token) :
    Notes (literal make read fault t) [] := by
  cases read with
  | none => exact notes_throw _
  | some a => exact .pure (make a)

theorem notes_value (kind : t.kind ∈ valueKinds) : Notes (value t) [t] := by
  unfold value
  split
  · rename_i word
    exact (notes_reference (wordOf?_word word)).bind fun n => .pure (Value.int n)
  · rename_i notWord
    have plain : wordOf? t = none := by
      apply wordOf?_other rfl ⟨notWord, ?_⟩
      rintro label
      rw [label] at kind
      exact absurd kind (by decide)
    have unseen : ∀ name known, firstUse name known [t] = firstUse name known [] :=
      fun name known => firstUse_plain plain
    split
    · exact (notes_literal _ _ _ t).congr unseen
    · split
      · exact (notes_literal _ _ _ t).congr unseen
      · exact (notes_literal _ _ _ t).congr unseen

theorem notes_values {vs : List Token} (kinds : ∀ v ∈ vs, v.kind ∈ valueKinds) :
    Notes (values vs) vs := by
  induction vs with
  | nil => exact .pure []
  | cons v vs ih =>
    have rest := ih fun w mem => kinds w (List.mem_cons_of_mem v mem)
    have first := notes_value (kinds v List.mem_cons_self)
    exact rest.bind fun ws => first.bind fun w => .pure (w :: ws)

theorem notes_repeatCount (t : Token) (v : Value) : Notes (repeatCount t v) [] := by
  cases v with
  | int n =>
    rw [repeatCount]
    split
    · exact .pure n.toNat
    · exact notes_throw _
  | _ => exact notes_throw _

end Noting

section Spelling

variable {b : Block} {s : Statement} {m : Mark} {ts front : List Token}

theorem SpellsFurther.firstUse_eq {vs : List Token} (h : SpellsFurther vs ts) (name : String)
    (known : Option Position) : firstUse name known ts = firstUse name known vs := by
  induction h with
  | none => rfl
  | value comma _ _ ih =>
    rw [firstUse_plain (wordOf?_other comma (by decide)), firstUse_cons, firstUse_cons, ih]

theorem SpellsValues.notes {vs : List Token} (h : SpellsValues vs ts) :
    Notes (values vs) ts := by
  refine (notes_values fun v mem => (h.values_mem v mem).1).congr fun name known => ?_
  cases h with
  | none => rfl
  | value _ further =>
    rw [firstUse_cons, further.firstUse_eq]
    rfl

theorem Mark.Spells.notes (h : m.Spells front) (lexed : Lexed front) (i : Instruction)
    (number : Int) : Notes (m.apply i number) front := by
  cases h with
  | @label x kind =>
    have word := wordOf?_label kind (lexed.colon x List.mem_cons_self kind)
    have both : Notes (Mark.apply (.label x) i number) [x, x] :=
      (notes_reference word).bind fun _ => (notes_define word number).bind fun _ => .pure i
    exact both.congr fun name known => firstUse_twice.symm
  | annotation isAt isKey kind =>
    rename_i n
    have named : Notes (Mark.apply (Mark.annotation n) i number) [n] :=
      (notes_reference (wordOf?_word kind)).bind fun _ => .pure _
    refine named.congr fun name known => ?_
    rw [firstUse_plain (wordOf?_other isAt (by decide)),
      firstUse_plain (wordOf?_other isKey (by decide))]
  | @property _ _ n v isAt isKey kind kind' =>
    have both : Notes (Mark.apply (.property n v) i number) [n, v] :=
      (notes_value kind').bind fun w => (notes_reference (wordOf?_word kind)).bind fun _ => .pure _
    refine both.congr fun name known => ?_
    rw [firstUse_plain (wordOf?_other isAt (by decide)),
      firstUse_plain (wordOf?_other isKey (by decide))]

/-- In front of the name of a statement there are its marks, and its operands are behind it. -/
theorem Statement.Spells.exists_parts (h : s.Spells ts) (lexed : Lexed ts) :
    ∃ front back, ts = front ++ s.name :: back ∧ s.name.kind = "IDENTIFIER" ∧
      SpellsValues s.operands back ∧ ∀ i number, Notes (applyMarks s.marks i number) front := by
  induction h with
  | instruction kind values => exact ⟨[], _, rfl, kind, values, fun i _ => .pure i⟩
  | @marked m marks name vs front ts mark _ ih =>
    obtain ⟨marked, back, rfl, kind, values, notes⟩ :=
      ih (lexed.mono fun t mem => List.mem_append_right _ mem)
    have own := mark.notes (lexed.mono fun t mem => List.mem_append_left _ mem)
    refine ⟨front ++ marked, back, by rw [List.append_assoc], kind, values, fun i number => ?_⟩
    exact (notes i number).bind fun j => own j number

theorem Statement.Spells.notes (h : s.Spells ts) (lexed : Lexed ts) : Notes s.translate ts := by
  obtain ⟨front, back, rfl, kind, values, notes⟩ := h.exists_parts lexed
  have all : Notes s.translate (((([] ++ front) ++ []) ++ [s.name]) ++ back) :=
    values.notes.bind fun vs => (notes_reference (wordOf?_word kind)).bind fun _ =>
      notes_place.bind fun number => (notes _ number).bind fun i => .pure (i, number)
  simpa using all

theorem Block.Spells.notes (h : b.Spells ts) (lexed : Lexed ts) : Notes b.translate ts := by
  induction h with
  | done => exact .pure []
  | @statement s stop rest front ts line isStop _ ih =>
    have later := ih (lexed.mono fun t mem => by simp [mem])
    have first := line.notes (lexed.mono fun t mem => by simp [mem])
    have both : Notes (Block.statement s rest).translate (front ++ ts) :=
      later.bind fun tail => first.bind fun i => .pure (i.1 :: tail)
    refine both.congr fun name known => ?_
    rw [firstUse_append, firstUse_append, firstUse_plain (wordOf?_other isStop (by decide))]
  | @loop key opens count closes left right body rest inside ts isKey isOpen isCount isClose isLeft _
      isRight _ ihb ih =>
    have later := ih (lexed.mono fun t mem => by simp [mem])
    have within := ihb (lexed.mono fun t mem => by simp [mem])
    have all : Notes (Block.loop count body rest).translate (count :: (inside ++ ts)) :=
      later.bind fun tail => within.bind fun inner =>
        (notes_value (by rw [isCount]; decide)).bind fun v =>
          (notes_repeatCount count v).bind fun times =>
            (notes_expandRepeat inner times).bind fun unrolled => .pure (unrolled ++ tail)
    refine all.congr fun name known => ?_
    rw [firstUse_plain (wordOf?_other isKey (by decide)),
      firstUse_plain (wordOf?_other isOpen (by decide)),
      firstUse_plain (wordOf?_other isCount (by decide)),
      firstUse_plain (wordOf?_other isCount (by decide)),
      firstUse_plain (wordOf?_other isClose (by decide)),
      firstUse_plain (wordOf?_other isLeft (by decide)), firstUse_append, firstUse_append,
      firstUse_plain (wordOf?_other isRight (by decide))]

end Spelling

section References

variable {b : Block} {s : Statement} {m : Mark} {t : Token} {ts : List Token}

/-- The tokens of a block that stand for values, from left to right. -/
def Block.written : Block → List Token
  | .done => []
  | .statement s rest => s.marks.filterMap Mark.value? ++ s.operands ++ rest.written
  | .loop _ body rest => body.written ++ rest.written

/-- The words among them. -/
def Block.references (b : Block) : List Token := b.written.filter (·.kind = "IDENTIFIER")

theorem mem_written (mem : s ∈ b.statements) (written : t ∈ s.written) : t ∈ b.written := by
  induction b with
  | done => cases mem
  | statement s' rest ih =>
    rcases List.mem_cons.mp mem with rfl | mem
    · exact List.mem_append_left _ (List.mem_append.mpr (List.mem_append.mp written).symm)
    · exact List.mem_append_right _ (ih mem)
  | loop count body rest ihb ih =>
    rcases List.mem_append.mp mem with mem | mem
    · obtain ⟨copy, copied, inside⟩ := List.mem_flatten.mp mem
      obtain rfl := (List.mem_replicate.mp copied).2
      exact List.mem_append_left _ (ihb inside)
    · exact List.mem_append_right _ (ih mem)

theorem SpellsFurther.sublist {vs : List Token} (h : SpellsFurther vs ts) : vs.Sublist ts := by
  induction h with
  | none => exact .slnil
  | value _ _ _ ih => exact (ih.cons_cons _).cons _

theorem SpellsValues.sublist {vs : List Token} (h : SpellsValues vs ts) : vs.Sublist ts := by
  cases h with
  | none => exact .slnil
  | value _ further => exact further.sublist.cons_cons _

theorem Mark.Spells.sublist (h : m.Spells ts) : m.value?.toList.Sublist ts := by
  cases h with
  | label _ => exact List.nil_sublist _
  | annotation _ _ _ => exact List.nil_sublist _
  | property _ _ _ _ => exact List.sublist_append_right [_, _, _] [_]

theorem Statement.Spells.sublist (h : s.Spells ts) :
    (s.marks.filterMap Mark.value? ++ s.operands).Sublist ts := by
  induction h with
  | instruction _ values => exact values.sublist.cons _
  | @marked m marks _ _ _ _ mark _ ih =>
    have split : (m :: marks).filterMap Mark.value? =
        m.value?.toList ++ marks.filterMap Mark.value? := by
      rw [List.filterMap_cons]
      cases m.value? <;> rfl
    rw [split, List.append_assoc]
    exact mark.sublist.append ih

theorem Block.Spells.sublist (h : b.Spells ts) : b.written.Sublist ts := by
  induction h with
  | done => exact .slnil
  | statement line _ _ ih => exact line.sublist.append (ih.cons _)
  | loop _ _ _ _ _ _ _ _ ihb ih =>
    exact ((((((ihb.append (ih.cons _)).cons _).cons _).cons _).cons _).cons _)

end References

section Missing

variable {b : Block} {ts : List Token} {name : String} {p : Option Position}

theorem Block.Spells.firstUse_of_neverDefined (h : b.Spells ts) (lexed : Lexed ts)
    (failed : b.assemble = .error (.label (.neverDefined name p))) : p = firstUse name none ts := by
  rcases b.assemble_eq_error failed with early | ⟨is, l, q, e', ran, resolved, same⟩
  · exact early.elim
  · cases same
    obtain ⟨sound, noted⟩ := h.notes lexed .new l is sound_new ran
    obtain ⟨k, i, _, v, _, failing⟩ := resolve_eq_error resolved
    obtain ⟨n, e, _, entry, _, same⟩ := resolveValue_eq_error_iff.mp failing
    cases same
    rw [← sound.firstUse?_of_entryOf? entry, noted]
    simp [firstUse?, known?, new]

/-- Literals without a sign are no placeholders, so some statement refers to a missing label. -/
theorem Block.Spells.exists_reference_of_neverDefined (h : b.Spells ts) (lexed : Lexed ts)
    (failed : b.assemble = .error (.label (.neverDefined name p))) :
    ∃ t ∈ b.references, t.lexeme = name := by
  obtain ⟨s, mem, t, written, blamed⟩ := h.assemble_told.2 name p failed
  have inside := mem_written mem written
  rcases blamed with ⟨word, same⟩ | ⟨integer, n, read, i, _, clash⟩
  · exact ⟨t, List.mem_filter.mpr ⟨inside, by simp [word]⟩, same⟩
  · have digits := lexed.digits t (h.sublist.subset inside) integer
    have natural := integerOf?_of_digits digits read
    have negative := placeholderAt_le i
    have some := unit_pos
    omega

/-- The first of some tokens with a property is any other or stands before it. -/
theorem find?_before (P : Token → Prop) [DecidablePred P]
    (ordered : ts.Pairwise fun s t => s.position.before t.position = true) {t : Token} (mem : t ∈ ts)
    (has : P t) : ∃ first, ts.find? (P ·) = some first ∧
      (first = t ∨ first.position.before t.position = true) := by
  induction ts with
  | nil => cases mem
  | cons u ts ih =>
    obtain ⟨behind, others⟩ := List.pairwise_cons.mp ordered
    rw [List.find?_cons]
    by_cases found : P u
    · rw [decide_eq_true found]
      refine ⟨u, rfl, (List.mem_cons.mp mem).imp Eq.symm (behind t)⟩
    · rw [decide_eq_false found]
      rcases List.mem_cons.mp mem with rfl | later
      · exact absurd has found
      · exact ih others later

end Missing

section Reading

variable {f : FrontEnd} {source : String}

/-- A label that is missing is reported at the first token with its word, whether that is a label, a
name, a key or a value. Some token with the word stands for a value, and the place is that of the
first such token if no other token with the word stands before it. -/
theorem readProgram_blames_first_use (builtin : FrontEnd.builtin = .ok f) {name : String}
    {p : Option Position}
    (failed : f.readProgram source = .error (.assembly (.label (.neverDefined name p)))) :
    ∃ tokens b, f.tokenize source = .ok tokens ∧ Block.Spells b tokens ∧
      b.references.Sublist tokens ∧
      ∃ first use, tokens.find? (wordOf? · = some name) = some first ∧
        b.references.find? (·.lexeme = name) = some use ∧ p = some first.position ∧
        (first = use ∨ first.position.before use.position = true) ∧
        (p = some use.position ↔ first = use) := by
  rcases exists_tokens_or_error f source with ⟨tokens, cut, success⟩ | ⟨e, other⟩ | ⟨e, other⟩
  · obtain ⟨b, spells, read⟩ := readProgram_eq builtin cut success
    have lexed := lexed_of_tokens (isToken_of_tokenize builtin cut)
    have assembled := assemble_of_error read failed
    have ordered := Lexicon.pairwise_of_tokenize (FrontEnd.tokenize_eq_ok.mp cut)
    obtain ⟨t, mem, same⟩ := spells.exists_reference_of_neverDefined lexed assembled
    have sublist : b.references.Sublist tokens := List.filter_sublist.trans spells.sublist
    obtain ⟨use, found, _⟩ := find?_before (fun t => t.lexeme = name) (ordered.sublist sublist) mem same
    -- the first use is a token with the word, so the first such token is that one or before it
    have inside := List.mem_of_find?_eq_some found
    have word : use.kind = "IDENTIFIER" := by simpa using (List.mem_filter.mp inside).2
    have named : wordOf? use = some name := by
      have same := List.find?_some found
      rw [wordOf?_word word, of_decide_eq_true same]
    obtain ⟨first, foremost, order⟩ :=
      find?_before (fun t => wordOf? t = some name) ordered (sublist.subset inside) named
    have place : p = some first.position := by
      rw [spells.firstUse_of_neverDefined lexed assembled, firstUse_eq_find? ordered, foremost]
      rfl
    refine ⟨tokens, b, cut, spells, sublist, first, use, foremost, found, place, order, ?_⟩
    rw [place]
    constructor
    · intro together
      refine order.resolve_right fun apart => ?_
      rw [Option.some.inj together, Position.before_irrefl] at apart
      cases apart
    · rintro rfl
      rfl
  · rw [failed] at other
    cases other
  · rw [failed] at other
    cases other

/-- A line whose name is a word that the next line refers to. -/
def namedBefore : Block :=
  .statement ⟨[], ⟨"IDENTIFIER", "x", ⟨1, 1⟩⟩, []⟩
    (.statement ⟨[], ⟨"IDENTIFIER", "y", ⟨1, 4⟩⟩, [⟨"IDENTIFIER", "x", ⟨1, 6⟩⟩]⟩ .done)

def namedBeforeTokens : List Token :=
  [⟨"IDENTIFIER", "x", ⟨1, 1⟩⟩, ⟨";", ";", ⟨1, 2⟩⟩, ⟨"IDENTIFIER", "y", ⟨1, 4⟩⟩,
    ⟨"IDENTIFIER", "x", ⟨1, 6⟩⟩, ⟨";", ";", ⟨1, 7⟩⟩]

theorem namedBefore_spells : namedBefore.Spells namedBeforeTokens :=
  .statement (.instruction rfl .none) rfl
    (.statement (.instruction rfl (.value (by decide) .none)) rfl .done)

theorem namedBefore_assemble :
    namedBefore.assemble = .error (.label (.neverDefined "x" (some ⟨1, 1⟩))) := by
  -- only the look-ups in the index have to be rewritten; all else computes
  simp only [Block.assemble, namedBefore, Block.translate, Statement.translate, values, value,
    applyMarks, Translation.reference, run_bind, run_pure, Translation.run_onLabels,
    Labels.reference, Labels.new, Labels.place, Labels.maxNames, Labels.maxLength,
    Std.HashMap.getElem?_empty, Std.HashMap.getElem?_insert, List.push_toArray, List.size_toArray,
    List.nil_append, List.cons_append, List.length_nil, List.length_cons, zero_add,
    Nat.cast_ofNat, Int.reduceNeg, Int.reduceLE, Nat.reduceSub, Nat.reduceShiftLeft,
    Nat.reduceLeDiff, String.reduceBEq, Bool.false_eq_true, ↓reduceIte]
  rfl

theorem exists_namedBefore : ∃ f, FrontEnd.builtin = .ok f ∧
    f.tokenize "x; y x;" = .ok namedBeforeTokens ∧
    f.readProgram "x; y x;" = .error (.assembly (.label (.neverDefined "x" (some ⟨1, 1⟩)))) := by
  obtain ⟨f, builtin, cut, success⟩ := exists_builtin "x; y x;" namedBeforeTokens
    (by decide +kernel) namedBefore_spells
  obtain ⟨b, spells, read⟩ := readProgram_eq builtin cut success
  rw [namedBefore_spells.eq spells, namedBefore_assemble] at read
  exact ⟨f, builtin, cut, read⟩

theorem readProgram_blames_first_use_namedBefore :
    ∃ f, FrontEnd.builtin = .ok f ∧
      f.readProgram "x; y x;" = .error (.assembly (.label (.neverDefined "x" (some ⟨1, 1⟩)))) ∧
      ∃ first use, namedBeforeTokens.find? (wordOf? · = some "x") = some first ∧
        namedBefore.references.find? (·.lexeme = "x") = some use ∧ first.position = ⟨1, 1⟩ ∧
        (first = use ∨ first.position.before use.position = true) := by
  obtain ⟨f, builtin, cut, failed⟩ := exists_namedBefore
  obtain ⟨tokens, b, cut', spells, _, first, use, foremost, found, place, order, _⟩ :=
    readProgram_blames_first_use builtin failed
  obtain rfl := Except.ok.inj (cut.symm.trans cut')
  obtain rfl := namedBefore_spells.eq spells
  exact ⟨f, builtin, failed, first, use, foremost, found, (Option.some.inj place).symm, order⟩

/-- The name of a line is blamed in place of the reference behind it. -/
theorem exists_name_blamed :
    ¬ ∀ {f : FrontEnd}, FrontEnd.builtin = .ok f → ∀ {source name : String} {p : Option Position},
      f.readProgram source = .error (.assembly (.label (.neverDefined name p))) →
      ∀ {tokens : List Token} {b : Block}, f.tokenize source = .ok tokens → b.Spells tokens →
        ∃ use, b.references.find? (·.lexeme = name) = some use ∧ p = some use.position := by
  intro references
  obtain ⟨f, builtin, cut, failed⟩ := exists_namedBefore
  obtain ⟨use, found, place⟩ := references builtin failed cut namedBefore_spells
  have reference : namedBefore.references.find? (·.lexeme = "x") =
    some ⟨"IDENTIFIER", "x", ⟨1, 6⟩⟩ := by decide
  obtain rfl := Option.some.inj (reference.symm.trans found)
  exact absurd place (by decide)

end Reading

end TableAsm.Language
