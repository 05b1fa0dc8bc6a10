import TableAsm.Proofs.Lexicon.Cutting

/-! What a stream of tokens gives. However its state is spread over the piece that grows, an error
that has to wait and the mark that it is finished, the items are the tokens of the pieces in order,
then the error where the pieces stop short, and nothing from then on. -/
namespace TableAsm

namespace TokenStream

variable {l : Lexicon}

/-- What a call gives after so many calls before. -/
def item (l : Lexicon) : Nat → TokenStream → Option Item
  | 0, s => (s.next l).1
  | n + 1, s => item l n (s.next l).2

/-- A stream gives the items of a list, and nothing from then on. -/
def Gives (l : Lexicon) (s : TokenStream) (items : List Item) : Prop :=
  ∀ n, item l n s = items[n]?

theorem Gives.of_next {s u : TokenStream} {items : List Item} (same : s.next l = u.next l)
    (h : u.Gives l items) : s.Gives l items := by
  intro n
  rw [← h n]
  cases n with
  | zero => exact congrArg Prod.fst same
  | succ n => exact congrArg (fun step => item l n step.2) same

theorem Gives.cons {s u : TokenStream} {x : Item} {items : List Item}
    (first : s.next l = (some x, u)) (h : u.Gives l items) : s.Gives l (x :: items) := by
  intro n
  cases n with
  | zero => rw [item, first]; rfl
  | succ n => rw [item, first, List.getElem?_cons_succ]; exact h n

theorem Gives.exhausted {s u : TokenStream} (none : s.next l = (none, u)) (h : u.Gives l []) :
    s.Gives l [] := by
  intro n
  cases n with
  | zero => rw [item, none]; rfl
  | succ n => rw [item, none]; exact h n

/-- A finished stream with no error waiting stays as it is. -/
theorem gives_of_finished {s : TokenStream} (calm : s.pending = none) (done : s.finished = true) :
    s.Gives l [] := by
  have still : s.next l = (none, s) := by
    rw [next, calm]
    exact if_pos done
  intro n
  induction n with
  | zero => rw [item, still]; rfl
  | succ n ih => rw [item, still]; exact ih

theorem gives_of_pending {s : TokenStream} {e : LexError} (waits : s.pending = some e) :
    s.Gives l [.error e] := by
  refine Gives.cons (u := { s with pending := none, finished := true }) ?_
    (gives_of_finished rfl rfl)
  rw [next, waits]

end TokenStream

/-- The piece that grows is the text read since a place, and all its beginnings are accepted. -/
inductive Growing (l : Lexicon) (before : List Char) : List Char → Option Piece → Prop where
  | fresh : Growing l before [] none
  | begun {text : List Char} {p : Piece} : text ≠ [] → l.TakesAlong text →
      p.start = .behind before → p.reversed = text.reverse →
      p.trial = text.foldl Trial.step l.trial → l.classify text = some p.entry →
      Growing l before text (some p)

namespace Growing

variable {l : Lexicon} {before text : List Char} {p : Piece} {c : Char} {e : Entry}

theorem open?_eq (l : Lexicon) (c : Char) (place : Position) :
    l.open? c place = (l.classify [c]).map fun e => ⟨place, [c], l.trial.step c, e⟩ := by
  rw [← l.winner_trial_foldl [c]]
  rfl

theorem opened (l : Lexicon) (before : List Char) (accepted : l.classify [c] = some e) :
    ∃ q, l.open? c (.behind before) = some q ∧ Growing l before [c] (some q) := by
  refine ⟨⟨.behind before, [c], l.trial.step c, e⟩, ?_, ?_⟩
  · rw [open?_eq, accepted]
    rfl
  · have along : l.TakesAlong ([] ++ [c]) :=
      Lexicon.takesAlong_nil.concat (by rw [List.nil_append, accepted]; rfl)
    exact .begun (List.cons_ne_nil c []) along rfl rfl rfl accepted

theorem grow?_eq (h : Growing l before text (some p)) (c : Char) :
    p.grow? c = (l.classify (text ++ [c])).map fun e =>
      ⟨.behind before, c :: text.reverse, (text ++ [c]).foldl Trial.step l.trial, e⟩ := by
  cases h with
  | begun _ _ start reversed trial _ =>
    rw [Piece.grow?, ← l.winner_trial_foldl, start, reversed, trial, List.foldl_append]
    rfl

theorem grown (h : Growing l before text (some p)) (accepted : l.classify (text ++ [c]) = some e) :
    ∃ q, p.grow? c = some q ∧ Growing l before (text ++ [c]) (some q) := by
  refine ⟨_, by rw [h.grow?_eq, accepted]; rfl, ?_⟩
  cases h with
  | begun nonempty along start reversed trial _ =>
    refine .begun (by simp) (along.concat (by rw [accepted]; rfl)) rfl ?_ rfl accepted
    exact List.reverse_concat.symm

theorem token (h : Growing l before text (some p)) : p.token? = l.tokenOf before text := by
  cases h with
  | begun _ _ start reversed _ classified =>
    rw [Lexicon.tokenOf, classified, Piece.token?, start, reversed, List.reverse_reverse]
    rfl

end Growing

namespace TokenStream

variable {l : Lexicon}

/-- A stream in the middle of a source gives the tokens of the pieces that the text of the growing
piece and the characters left are cut into, and the error that is left behind them. -/
theorem gives_of_growing (rest : List Char) :
    ∀ (before text : List Char) (piece : Option Piece), Growing l before text piece →
      ∃ pieces left, l.Cut (text ++ rest) pieces left ∧
        Gives l ⟨rest, .behind (before ++ text), piece, none, false⟩
          (l.itemsOf before pieces left) := by
  simp only [Lexicon.itemsOf]
  induction rest with
  | nil =>
    intro before text piece growing
    have reading : next l ⟨[], .behind (before ++ text), piece, none, false⟩ =
        ((piece.bind Piece.token?).map .ok, ⟨[], .behind (before ++ text), none, none, true⟩) := rfl
    have ended : Gives l ⟨[], .behind (before ++ text), none, none, true⟩ [] :=
      gives_of_finished rfl rfl
    cases growing with
    | fresh =>
      exact ⟨[], [], .done, ended.exhausted reading⟩
    | @begun text p nonempty along start reversed trial classified =>
      have token := (Growing.begun nonempty along start reversed trial classified).token
      have isPiece : l.IsPiece text [] :=
        Lexicon.isPiece_of_broken nonempty along fun c rest empty => nomatch empty
      refine ⟨[text], [], .piece isPiece .done, ?_⟩
      rw [Option.bind_some, token] at reading
      simp only [Lexicon.tokensOf, Lexicon.errorOf, List.append_nil]
      cases given : l.tokenOf before text with
      | none =>
        rw [given] at reading
        exact ended.exhausted reading
      | some t =>
        rw [given] at reading
        exact ended.cons reading
  | cons c rest ih =>
    intro before text piece growing
    have place := Position.behind_concat (before ++ text) c
    have reading : next l ⟨c :: rest, .behind (before ++ text), piece, none, false⟩ =
        scan l piece (.behind (before ++ text)) (c :: rest) := rfl
    rw [scan, ← place] at reading
    cases growing with
    | fresh =>
      rw [List.append_nil] at place reading ⊢
      cases accepted : l.classify [c] with
      | none =>
        rw [Growing.open?_eq, accepted] at reading
        exact ⟨[], c :: rest, .stuck accepted, by
          rw [List.flatten_nil, List.append_nil]
          exact (gives_of_finished rfl rfl).cons reading⟩
      | some e =>
        obtain ⟨q, opened, growing⟩ := Growing.opened l before accepted
        rw [opened] at reading
        obtain ⟨pieces, left, cut, gives⟩ := ih before [c] (some q) growing
        refine ⟨pieces, left, cut, Gives.of_next ?_ gives⟩
        exact reading
    | @begun text p nonempty along start reversed trial classified =>
      have growing := Growing.begun nonempty along start reversed trial classified
      rw [Option.bind_some, Option.bind_some, growing.token] at reading
      cases accepted : l.classify (text ++ [c]) with
      | some e =>
        obtain ⟨q, grown, longer⟩ := growing.grown accepted
        rw [grown] at reading
        obtain ⟨pieces, left, cut, gives⟩ := ih before (text ++ [c]) (some q) longer
        rw [List.append_assoc] at cut
        rw [← List.append_assoc before text [c]] at gives
        refine ⟨pieces, left, cut, Gives.of_next ?_ gives⟩
        exact reading
      | none =>
        -- the character breaks the piece, which is one then, and opens the next or is refused
        have isPiece : l.IsPiece text (c :: rest) :=
          Lexicon.isPiece_of_broken nonempty along fun d others same => by
            obtain ⟨rfl, _⟩ := List.cons.inj same
            exact accepted
        rw [growing.grow?_eq, accepted] at reading
        cases first : l.classify [c] with
        | some e =>
          obtain ⟨q, opened, begun⟩ := Growing.opened l (before ++ text) first
          rw [opened] at reading
          obtain ⟨pieces, left, cut, gives⟩ := ih (before ++ text) [c] (some q) begun
          refine ⟨text :: pieces, left, .piece isPiece cut, ?_⟩
          rw [Lexicon.tokensOf, List.flatten_cons, ← List.append_assoc before]
          cases given : l.tokenOf before text with
          | none =>
            rw [given] at reading
            refine Gives.of_next ?_ gives
            exact reading
          | some t =>
            rw [given] at reading
            exact gives.cons reading
        | none =>
          rw [Growing.open?_eq, first] at reading
          refine ⟨[text], c :: rest, .piece isPiece (.stuck first), ?_⟩
          simp only [Lexicon.tokensOf, Lexicon.errorOf, List.append_nil, List.flatten_cons,
            List.flatten_nil]
          cases given : l.tokenOf before text with
          | none =>
            rw [given] at reading
            exact (gives_of_finished rfl rfl).cons reading
          | some t =>
            rw [given] at reading
            exact (gives_of_pending rfl).cons reading

/-- Taking items until there is none takes them all. -/
theorem drain_of_gives {s : TokenStream} {items : List Item} (h : s.Gives l items) (fuel : Nat)
    (enough : items.length < fuel) : (s.drain l fuel).1 = items := by
  induction fuel generalizing s items with
  | zero => exact absurd enough (Nat.not_lt_zero _)
  | succ fuel ih =>
    have first := h 0
    rw [item] at first
    rw [drain]
    cases step : s.next l with
    | mk given u =>
      rw [step] at first
      cases items with
      | nil =>
        obtain rfl : given = none := first
        rfl
      | cons x items =>
        obtain rfl : given = some x := first
        have tail : u.Gives l items := by
          intro n
          have later := h (n + 1)
          rwa [item, step, List.getElem?_cons_succ] at later
        exact congrArg (x :: ·) (ih tail (Nat.lt_of_succ_lt_succ enough))

end TokenStream

namespace Lexicon

variable {l : Lexicon}

theorem length_tokensOf_le (before : List Char) (pieces : List (List Char)) :
    (l.tokensOf before pieces).length ≤ pieces.length := by
  induction pieces generalizing before with
  | nil => exact Nat.le_refl _
  | cons piece pieces ih =>
    have tail := ih (before ++ piece)
    rw [tokensOf, List.length_append, List.length_cons]
    have one : (l.tokenOf before piece).toList.length ≤ 1 := by
      cases l.tokenOf before piece <;> simp
    omega

theorem Cut.length_le {source left : List Char} {pieces : List (List Char)}
    (h : l.Cut source pieces left) : pieces.length ≤ source.length := by
  induction h with
  | done => exact Nat.le_refl _
  | stuck _ => exact Nat.zero_le _
  | piece isPiece _ ih =>
    have some_chars := List.length_pos_iff.mpr isPiece.nonempty
    rw [List.length_cons, List.length_append]
    omega

theorem mapM_itemsOf (before : List Char) (pieces : List (List Char)) (left : List Char) :
    (l.itemsOf before pieces left).mapM id =
      match errorOf (before ++ pieces.flatten) left with
      | none => .ok (l.tokensOf before pieces)
      | some e => .error e := by
  unfold itemsOf
  generalize errorOf (before ++ pieces.flatten) left = failure
  induction l.tokensOf before pieces with
  | nil => cases failure <;> rfl
  | cons t tokens ih =>
    rw [List.map_cons, List.cons_append, List.mapM_cons, ih]
    cases failure <;> rfl

/-- A source is cut, and its stream gives what the pieces come to. -/
theorem exists_cut (l : Lexicon) (source : String) :
    ∃ pieces left, l.Cut source.toList pieces left ∧
      (TokenStream.ofText source).Gives l (l.itemsOf [] pieces left) ∧
      (l.tokens source).1 = l.itemsOf [] pieces left := by
  obtain ⟨pieces, left, cut, gives⟩ := TokenStream.gives_of_growing source.toList [] [] none .fresh
  have gives : (TokenStream.ofText source).Gives l (l.itemsOf [] pieces left) := gives
  have few : (l.itemsOf [] pieces left).length < source.length + 2 := by
    have bound := Nat.le_trans (length_tokensOf_le (l := l) [] pieces) cut.length_le
    have one : ((errorOf ([] ++ pieces.flatten) left).map
        (Except.error : LexError → Item)).toList.length ≤ 1 := by
      cases errorOf ([] ++ pieces.flatten) left <;> simp
    rw [itemsOf, List.length_append, List.length_map]
    rw [List.nil_append, String.length_toList] at bound
    omega
  exact ⟨pieces, left, cut, gives, TokenStream.drain_of_gives gives _ few⟩

/-- The items of a source are those of the one way to cut it: the tokens of its pieces in order,
then the error where it cannot be cut further, then nothing for ever. -/
theorem tokens_eq_itemsOf (l : Lexicon) (source : String) :
    ∃ pieces left, l.Cut source.toList pieces left ∧
      (∀ others rest, l.Cut source.toList others rest → others = pieces ∧ rest = left) ∧
      pieces.flatten ++ left = source.toList ∧
      (∀ n, (TokenStream.ofText source).item l n = (l.itemsOf [] pieces left)[n]?) ∧
      (l.tokens source).1 = l.itemsOf [] pieces left ∧
      l.tokenize source =
        match errorOf pieces.flatten left with
        | none => .ok (l.tokensOf [] pieces)
        | some e => .error e := by
  obtain ⟨pieces, left, cut, gives, all⟩ := l.exists_cut source
  refine ⟨pieces, left, cut, fun others rest other => other.unique cut, cut.tiles, gives, all, ?_⟩
  rw [tokenize, all]
  exact mapM_itemsOf [] pieces left

theorem classify_of_mem_tokensOf {before : List Char} {pieces : List (List Char)} {t : Token}
    (mem : t ∈ l.tokensOf before pieces) :
    ∃ e, l.classify t.lexeme.toList = some e ∧ e.kind = t.kind := by
  induction pieces generalizing before with
  | nil => cases mem
  | cons piece pieces ih =>
    rw [tokensOf, List.mem_append, Option.mem_toList] at mem
    rcases mem with first | later
    · obtain ⟨e, classified, kept⟩ := Option.bind_eq_some_iff.mp first
      split at kept
      · cases kept
      · obtain rfl := Option.some.inj kept
        exact ⟨e, by rw [String.toList_ofList]; exact classified, rfl⟩
    · exact ih later

/-- Every token has the kind of an entry that accepts its text. -/
theorem exists_entry_of_tokenize {source : String} {tokens : List Token}
    (cut : l.tokenize source = .ok tokens) {t : Token} (mem : t ∈ tokens) :
    ∃ e ∈ l.entries, e.kind = t.kind ∧ e.matcher.accepts t.lexeme.toList = true := by
  obtain ⟨pieces, left, _, _, all⟩ := l.exists_cut source
  rw [tokenize, all, mapM_itemsOf] at cut
  split at cut
  · obtain rfl := Except.ok.inj cut
    obtain ⟨e, classified, kind⟩ := classify_of_mem_tokensOf mem
    have accepted : e.matcher.accepts t.lexeme.toList = true :=
      List.find?_some (p := fun e : Entry => e.matcher.accepts t.lexeme.toList) classified
    exact ⟨e, List.mem_of_find?_eq_some classified, kind, accepted⟩
  · cases cut

end Lexicon

end TableAsm
