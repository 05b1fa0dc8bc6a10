import TableAsm.Proofs.Lexicon.Stream

/-! Where the tokens of a source stand. The text of a token is in the source behind the place that
the token tells, and of two tokens the first one stands before the other. -/
namespace TableAsm

namespace Position

theorem before_trans {p q r : Position} (first : p.before q = true) (second : q.before r = true) :
    p.before r = true := by
  simp only [before, Bool.or_eq_true, Bool.and_eq_true, decide_eq_true_eq, beq_iff_eq] at *
  omega

theorem before_irrefl (p : Position) : p.before p = false := by simp [before]

theorem before_next (p : Position) (c : Char) : p.before (p.next c) = true := by
  unfold next
  split <;> simp [before]

theorem behind_before {text more : List Char} (nonempty : more ≠ []) :
    (behind text).before (behind (text ++ more)) = true := by
  induction more using List.reverseRecOn with
  | nil => exact absurd rfl nonempty
  | append_singleton more c ih =>
    have last := before_next (behind (text ++ more)) c
    rw [← List.append_assoc, behind_concat]
    cases more with
    | nil =>
      rw [List.append_nil] at last ⊢
      exact last
    | cons d more => exact before_trans (ih (List.cons_ne_nil d more)) last

end Position

namespace Lexicon

variable {l : Lexicon} {before : List Char} {pieces : List (List Char)} {t : Token}

theorem tokenOf_eq_some {piece : List Char} (made : l.tokenOf before piece = some t) :
    t.lexeme.toList = piece ∧ t.position = .behind before := by
  obtain ⟨e, _, kept⟩ := Option.bind_eq_some_iff.mp made
  split at kept
  · cases kept
  · obtain rfl := Option.some.inj kept
    exact ⟨String.toList_ofList, rfl⟩

theorem exists_place (mem : t ∈ l.tokensOf before pieces) :
    ∃ front back, pieces.flatten = front ++ t.lexeme.toList ++ back ∧
      t.position = .behind (before ++ front) := by
  induction pieces generalizing before with
  | nil => cases mem
  | cons piece pieces ih =>
    rw [tokensOf, List.mem_append, Option.mem_toList] at mem
    rcases mem with first | later
    · obtain ⟨rfl, place⟩ := tokenOf_eq_some first
      exact ⟨[], pieces.flatten, rfl, by rw [List.append_nil, place]⟩
    · obtain ⟨front, back, text, place⟩ := ih later
      refine ⟨piece ++ front, back, ?_, ?_⟩
      · simp [text]
      · rw [place, List.append_assoc]

theorem Cut.nonempty {source left : List Char} (h : l.Cut source pieces left) :
    ∀ piece ∈ pieces, piece ≠ [] := by
  induction h with
  | done => simp
  | stuck _ => simp
  | piece isPiece _ ih => simpa [isPiece.nonempty] using ih

theorem pairwise_tokensOf (nonempty : ∀ piece ∈ pieces, piece ≠ []) :
    (l.tokensOf before pieces).Pairwise fun s t => s.position.before t.position = true := by
  induction pieces generalizing before with
  | nil => exact .nil
  | cons piece pieces ih =>
    have others := fun p mem => nonempty p (List.mem_cons_of_mem piece mem)
    refine List.pairwise_append.mpr ⟨?_, ih others, fun s first t later => ?_⟩
    · cases l.tokenOf before piece with
      | none => exact .nil
      | some s => exact List.pairwise_singleton _ s
    · obtain ⟨_, place⟩ := tokenOf_eq_some (Option.mem_toList.mp first)
      obtain ⟨front, _, _, place'⟩ := exists_place later
      rw [place, place', List.append_assoc]
      apply Position.behind_before
      simp [nonempty piece List.mem_cons_self]

section Sources

variable {source : String} {tokens : List Token}

theorem exists_pieces_of_tokenize (cut : l.tokenize source = .ok tokens) :
    ∃ pieces, l.Cut source.toList pieces [] ∧ tokens = l.tokensOf [] pieces := by
  obtain ⟨pieces, left, tiled, _, all⟩ := l.exists_cut source
  rw [tokenize, all, mapM_itemsOf] at cut
  cases left with
  | nil => exact ⟨pieces, tiled, (Except.ok.inj cut).symm⟩
  | cons c left => cases cut

theorem exists_place_of_tokenize (cut : l.tokenize source = .ok tokens) (mem : t ∈ tokens) :
    ∃ front back, source.toList = front ++ t.lexeme.toList ++ back ∧ t.position = .behind front := by
  obtain ⟨pieces, tiled, rfl⟩ := exists_pieces_of_tokenize cut
  obtain ⟨front, back, text, place⟩ := exists_place mem
  refine ⟨front, back, ?_, place⟩
  rw [← text, ← tiled.tiles, List.append_nil]

theorem pairwise_of_tokenize (cut : l.tokenize source = .ok tokens) :
    tokens.Pairwise fun s t => s.position.before t.position = true := by
  obtain ⟨pieces, tiled, rfl⟩ := exists_pieces_of_tokenize cut
  exact pairwise_tokensOf tiled.nonempty

end Sources

end Lexicon

end TableAsm
