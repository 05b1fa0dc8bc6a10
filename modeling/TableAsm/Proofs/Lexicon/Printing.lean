import TableAsm.Proofs.Lexicon.Stream

/-! Tokens printed one to a line. Where a line feed goes with no token, neither at its end nor in
front of it, each line of the printed text is cut into the text of a token and the line feed. So
the printed text has the tokens again that it was printed from, each on a line of its own. -/
namespace TableAsm

theorem Position.behind_newline (text : List Char) :
    behind (text ++ ['\n']) = ⟨(behind text).line + 1, 1⟩ := by
  simp [behind_concat, next]

theorem Position.line_behind {text more : List Char} (free : '\n' ∉ more) :
    (behind (text ++ more)).line = (behind text).line := by
  simp [behind, List.count_eq_zero_of_not_mem free]

namespace Lexicon

variable {l : Lexicon}

/-- A line feed is thrown away and goes with no token. -/
structure LineWise (l : Lexicon) : Prop where
  dropped : ∃ e, l.classify ['\n'] = some e ∧ e.ignored = true
  free : ∀ w e, l.classify w = some e → e.ignored = false → '\n' ∉ w
  closed : ∀ w e, l.classify w = some e → e.ignored = false → l.classify (w ++ ['\n']) = none
  opened : ∀ c w e, l.classify (c :: w) = some e → e.ignored = false →
    l.classify ['\n', c] = none

/-- A token that its text alone is cut into. -/
structure IsWord (l : Lexicon) (t : Token) : Prop where
  taken : l.TakesAlong t.lexeme.toList
  kept : ∃ e, l.classify t.lexeme.toList = some e ∧ e.ignored = false ∧ e.kind = t.kind

theorem Cut.taken {source left : List Char} {pieces : List (List Char)}
    (h : l.Cut source pieces left) : ∀ piece ∈ pieces, l.TakesAlong piece := by
  induction h with
  | done => simp
  | stuck _ => simp
  | piece isPiece _ ih => simpa [isPiece.taken] using ih

theorem isWord_of_mem_tokensOf {before : List Char} {pieces : List (List Char)} {t : Token}
    (taken : ∀ piece ∈ pieces, l.TakesAlong piece) (mem : t ∈ l.tokensOf before pieces) :
    l.IsWord t := by
  induction pieces generalizing before with
  | nil => cases mem
  | cons piece pieces ih =>
    rw [tokensOf, List.mem_append, Option.mem_toList] at mem
    rcases mem with first | later
    · obtain ⟨e, classified, kept⟩ := Option.bind_eq_some_iff.mp first
      split at kept
      · cases kept
      · rename_i notIgnored
        obtain rfl := Option.some.inj kept
        have same : (String.ofList piece).toList = piece := String.toList_ofList
        exact ⟨same.symm ▸ taken piece List.mem_cons_self, e, same.symm ▸ classified,
          by simpa using notIgnored, rfl⟩
    · exact ih (fun piece mem => taken piece (List.mem_cons_of_mem _ mem)) later

/-- The text of tokens, each with a line feed at its end. -/
def lines (tokens : List Token) : List Char := tokens.flatMap fun t => t.lexeme.toList ++ ['\n']

section Lines

variable {t : Token} {tokens : List Token}

theorem LineWise.isPiece_word (h : l.LineWise) (word : l.IsWord t) (rest : List Char) :
    l.IsPiece t.lexeme.toList ('\n' :: rest) := by
  obtain ⟨e, classified, kept, -⟩ := word.kept
  have broken := h.closed _ e classified kept
  refine isPiece_of_broken (fun empty => ?_) word.taken fun c rest same => ?_
  · obtain ⟨e, newline, -⟩ := h.dropped
    rw [empty, List.nil_append, newline] at broken
    cases broken
  · obtain ⟨rfl, -⟩ := List.cons.inj same
    exact broken

theorem LineWise.isPiece_newline (h : l.LineWise) (words : ∀ t ∈ tokens, l.IsWord t) :
    l.IsPiece ['\n'] (lines tokens) := by
  obtain ⟨e, newline, -⟩ := h.dropped
  have taken : l.TakesAlong ([] ++ ['\n']) := takesAlong_nil.concat (by simp [newline])
  refine isPiece_of_broken (List.cons_ne_nil _ _) taken fun c rest same => ?_
  cases tokens with
  | nil => cases same
  | cons t tokens =>
    obtain ⟨nonempty, -, -⟩ := h.isPiece_word (words t List.mem_cons_self) []
    obtain ⟨e, classified, kept, -⟩ := (words t List.mem_cons_self).kept
    rw [lines, List.flatMap_cons, List.append_assoc] at same
    cases text : t.lexeme.toList with
    | nil => exact absurd text nonempty
    | cons d w =>
      rw [text] at same classified
      obtain ⟨rfl, -⟩ := List.cons.inj same
      exact h.opened d w e classified kept

/-- Each line is cut into the text of its token and the line feed. -/
theorem LineWise.cut_lines (h : l.LineWise) (words : ∀ t ∈ tokens, l.IsWord t) :
    l.Cut (lines tokens) (tokens.flatMap fun t => [t.lexeme.toList, ['\n']]) [] := by
  induction tokens with
  | nil => exact .done
  | cons t tokens ih =>
    have others : ∀ t ∈ tokens, l.IsWord t := fun t mem => words t (List.mem_cons_of_mem _ mem)
    have feed := Cut.piece (h.isPiece_newline others) (ih others)
    have line := Cut.piece (h.isPiece_word (words t List.mem_cons_self) (lines tokens)) feed
    simpa [lines] using line

theorem LineWise.tokensOf_lines (h : l.LineWise) (words : ∀ t ∈ tokens, l.IsWord t)
    {before : List Char} {line : Nat} (start : Position.behind before = ⟨line, 1⟩) :
    l.tokensOf before (tokens.flatMap fun t => [t.lexeme.toList, ['\n']]) =
      tokens.mapIdx fun k t => { t with position := ⟨line + k, 1⟩ } := by
  induction tokens generalizing before line with
  | nil => rfl
  | cons t tokens ih =>
    obtain ⟨e, classified, kept, kind⟩ := (words t List.mem_cons_self).kept
    obtain ⟨ignored, newline, dropped⟩ := h.dropped
    have next : Position.behind (before ++ t.lexeme.toList ++ ['\n']) = ⟨line + 1, 1⟩ := by
      rw [Position.behind_newline, Position.line_behind (h.free _ e classified kept), start]
    have others := ih (fun t mem => words t (List.mem_cons_of_mem _ mem)) next
    simp only [List.flatMap_cons, List.cons_append, List.nil_append, tokensOf, others]
    simp [tokenOf, classified, kept, kind, newline, dropped, start, Nat.add_assoc, Nat.add_comm 1]

/-- Tokens that are printed one to a line and cut again are the same but for their places. -/
theorem LineWise.tokenize_lines (h : l.LineWise) {source text : String}
    (cut : l.tokenize source = .ok tokens) (printed : text.toList = lines tokens) :
    l.tokenize text = .ok (tokens.mapIdx fun k t => { t with position := ⟨k + 1, 1⟩ }) := by
  have words : ∀ t ∈ tokens, l.IsWord t := by
    obtain ⟨pieces, left, tiled, -, all⟩ := l.exists_cut source
    rw [tokenize, all, mapM_itemsOf] at cut
    split at cut
    · cases cut
      exact fun t mem => isWord_of_mem_tokensOf tiled.taken mem
    · cases cut
  obtain ⟨pieces, left, tiled, -, all⟩ := l.exists_cut text
  rw [printed] at tiled
  obtain ⟨rfl, rfl⟩ := tiled.unique (h.cut_lines words)
  have relaid := h.tokensOf_lines words (show Position.behind [] = ⟨1, 1⟩ from rfl)
  rw [tokenize, all, mapM_itemsOf]
  simp only [errorOf, relaid, Nat.add_comm 1]

end Lines

end Lexicon

end TableAsm
