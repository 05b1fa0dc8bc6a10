import Mathlib.Data.List.Induction
import TableAsm.Lexicon.Tokens

/-! What the pieces of a source are. A piece ends at the last place up to which every beginning of
it is accepted by some entry. Pieces tile a source up to its end, or up to a character that no
entry accepts, and there is one way to cut a source so. The tokens of a source are read off its
pieces, each with the place where it starts. -/
namespace TableAsm

namespace Position

/-- The place behind a text: lines are told by line feeds, columns by the characters since the
last of them. -/
def behind (text : List Char) : Position :=
  ⟨1 + text.count '\n', 1 + (text.reverse.takeWhile (· ≠ '\n')).length⟩

theorem behind_concat (text : List Char) (c : Char) :
    behind (text ++ [c]) = (behind text).next c := by
  unfold behind next
  by_cases newline : c = '\n'
  · subst newline
    simp
    omega
  · simp [newline]
    omega

end Position

namespace Lexicon

variable {l : Lexicon}

/-- Every beginning of a text that is not empty is accepted by some entry. -/
def TakesAlong (l : Lexicon) (text : List Char) : Prop :=
  ∀ n, 0 < n → n ≤ text.length → (l.classify (text.take n)).isSome = true

theorem TakesAlong.concat {text : List Char} (h : l.TakesAlong text) {c : Char}
    (more : (l.classify (text ++ [c])).isSome = true) : l.TakesAlong (text ++ [c]) := by
  intro n pos le
  rw [List.length_append, List.length_singleton] at le
  by_cases shorter : n ≤ text.length
  · rw [List.take_append_of_le_length shorter]
    exact h n pos shorter
  · have all : (text ++ [c]).length ≤ n := by
      rw [List.length_append, List.length_singleton]
      omega
    rwa [List.take_of_length_le all]

theorem takesAlong_nil : l.TakesAlong [] := by
  intro n pos le
  exact absurd le (Nat.not_le_of_lt pos)

/-- A text with what stands behind it is a piece when all its beginnings are accepted, and it is
the longest such. -/
structure IsPiece (l : Lexicon) (piece behind : List Char) : Prop where
  nonempty : piece ≠ []
  taken : l.TakesAlong piece
  longest : ∀ text, text <+: piece ++ behind → l.TakesAlong text → text.length ≤ piece.length

/-- A text that the next character breaks is a piece. -/
theorem isPiece_of_broken {piece : List Char} (nonempty : piece ≠ []) (taken : l.TakesAlong piece)
    {behind : List Char}
    (broken : ∀ c rest, behind = c :: rest → l.classify (piece ++ [c]) = none) :
    l.IsPiece piece behind := by
  refine ⟨nonempty, taken, fun text start all => ?_⟩
  by_contra longer
  obtain ⟨rest, split⟩ := start
  cases behind with
  | nil =>
    have lengths := congrArg List.length split
    simp only [List.length_append, List.length_nil] at lengths
    omega
  | cons c others =>
    have lengths := congrArg List.length split
    simp only [List.length_append, List.length_cons] at lengths
    have prefixes : text.take (piece.length + 1) = piece ++ [c] := by
      have cut := congrArg (List.take (piece.length + 1)) split
      rw [List.take_append_of_le_length (by omega), List.take_append] at cut
      rw [cut, List.take_of_length_le (by omega)]
      simp
    have accepted := all (piece.length + 1) (Nat.succ_pos _) (by omega)
    rw [prefixes, broken c others rfl] at accepted
    cases accepted

/-- A source is cut into pieces up to its end, or up to a character that no entry accepts. -/
inductive Cut (l : Lexicon) : List Char → List (List Char) → List Char → Prop where
  | done : Cut l [] [] []
  | stuck {c : Char} {rest : List Char} : l.classify [c] = none → Cut l (c :: rest) [] (c :: rest)
  | piece {piece behind rest : List Char} {pieces : List (List Char)} :
      l.IsPiece piece behind → Cut l behind pieces rest →
      Cut l (piece ++ behind) (piece :: pieces) rest

theorem Cut.tiles {source rest : List Char} {pieces : List (List Char)}
    (h : l.Cut source pieces rest) : pieces.flatten ++ rest = source := by
  induction h with
  | done => rfl
  | stuck _ => rfl
  | piece _ _ ih => rw [List.flatten_cons, List.append_assoc, ih]

theorem IsPiece.takes_first {c : Char} {piece behind rest : List Char}
    (h : l.IsPiece piece behind) (first : piece ++ behind = c :: rest) :
    (l.classify [c]).isSome = true := by
  obtain ⟨nonempty, taken, _⟩ := h
  cases piece with
  | nil => exact absurd rfl nonempty
  | cons d piece =>
    obtain ⟨rfl, _⟩ := List.cons.inj first
    exact taken 1 Nat.one_pos (Nat.succ_le_succ (Nat.zero_le _))

theorem IsPiece.unique {piece behind other others : List Char} (h : l.IsPiece piece behind)
    (h' : l.IsPiece other others) (same : piece ++ behind = other ++ others) :
    piece = other ∧ behind = others := by
  have le := h'.longest piece (same ▸ List.prefix_append piece behind) h.taken
  have ge := h.longest other (same ▸ List.prefix_append other others) h'.taken
  exact List.append_inj same (Nat.le_antisymm le ge)

/-- There is one way to cut a source. -/
theorem Cut.unique {source rest left : List Char} {pieces others : List (List Char)}
    (h : l.Cut source pieces rest) (h' : l.Cut source others left) :
    pieces = others ∧ rest = left := by
  induction h generalizing others left with
  | done =>
    generalize empty : ([] : List Char) = source at h'
    cases h' with
    | done => exact ⟨rfl, rfl⟩
    | stuck _ => cases empty
    | piece isPiece _ =>
      exact absurd (List.append_eq_nil_iff.mp empty.symm).1 isPiece.nonempty
  | @stuck c rest refused =>
    generalize same : c :: rest = source at h'
    cases h' with
    | done => cases same
    | stuck _ => exact ⟨rfl, rfl⟩
    | piece isPiece _ =>
      have takes := isPiece.takes_first same.symm
      rw [refused] at takes
      cases takes
  | @piece piece behind rest pieces isPiece _ ih =>
    generalize same : piece ++ behind = source at h'
    cases h' with
    | done => exact absurd (List.append_eq_nil_iff.mp same).1 isPiece.nonempty
    | stuck refused =>
      have takes := isPiece.takes_first same
      rw [refused] at takes
      cases takes
    | piece isPiece' tail =>
      obtain ⟨rfl, rfl⟩ := isPiece.unique isPiece' same
      obtain ⟨rfl, rfl⟩ := ih tail
      exact ⟨rfl, rfl⟩

/-- The token of a piece that starts behind a text: its kind is that of the first entry that
accepts all of the piece. An ignored piece has none. -/
def tokenOf (l : Lexicon) (before piece : List Char) : Option Token :=
  (l.classify piece).bind fun e =>
    if e.ignored then none else some ⟨e.kind, String.ofList piece, .behind before⟩

/-- The tokens of pieces in a row, the first of which starts behind a text. -/
def tokensOf (l : Lexicon) (before : List Char) : List (List Char) → List Token
  | [] => []
  | piece :: pieces => (l.tokenOf before piece).toList ++ l.tokensOf (before ++ piece) pieces

/-- The error behind a text, where something is left. -/
def errorOf (before : List Char) : List Char → Option LexError
  | [] => none
  | c :: _ => some ⟨c, .behind before⟩

/-- The items that pieces behind a text and what is left of the source come to. -/
def itemsOf (l : Lexicon) (before : List Char) (pieces : List (List Char)) (left : List Char) :
    List Item :=
  (l.tokensOf before pieces).map .ok ++
    ((errorOf (before ++ pieces.flatten) left).map .error).toList

end Lexicon

end TableAsm
