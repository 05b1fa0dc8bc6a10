import TableAsm.Lexicon.Basic
import TableAsm.Token

/-!
Cutting a source into tokens. A piece grows one character at a time for as long as some entry
accepts it; the character that breaks it opens the next piece. Ignored pieces are dropped, and
a character that no entry accepts by itself ends the stream with an error.
-/
namespace TableAsm

/-- No entry accepts the character at a place. -/
structure LexError where
  character : Char
  position : Position
deriving DecidableEq, Repr

/-- What a stream of tokens gives: a token, or the error that ends it. -/
abbrev Item := Except LexError Token

/-- A piece of the source that an entry accepts, while it grows. -/
structure Piece where
  start : Position
  /-- Its characters, last first. -/
  reversed : List Char
  trial : Trial
  entry : Entry

namespace Piece

/-- Grows a piece by a character, if an entry accepts the result. -/
def grow? (p : Piece) (c : Char) : Option Piece :=
  let trial := p.trial.step c
  trial.winner.map fun entry => ⟨p.start, c :: p.reversed, trial, entry⟩

/-- The token of a finished piece, unless its kind is ignored. -/
def token? (p : Piece) : Option Token :=
  if p.entry.ignored then none
  else some ⟨p.entry.kind, String.ofList p.reversed.reverse, p.start⟩

end Piece

namespace Lexicon

/-- Opens a piece with its first character, if an entry accepts that. -/
def open? (l : Lexicon) (c : Char) (position : Position) : Option Piece :=
  let trial := l.trial.step c
  trial.winner.map fun entry => ⟨position, [c], trial, entry⟩

end Lexicon

/-- A source that is cut on demand: the characters left and the place of the next one, the piece
that grows, and an error that was found behind a token and comes after it. -/
structure TokenStream where
  rest : List Char
  place : Position
  piece : Option Piece
  pending : Option LexError
  finished : Bool

namespace TokenStream

/-- A source of which nothing has been read. -/
def ofText (source : String) : TokenStream := ⟨source.toList, .start, none, none, false⟩

/-- Reads on from a place to the next item. `piece` is the piece that ends there; only at the very
start is there none. -/
def scan (l : Lexicon) (piece : Option Piece) (place : Position) :
    List Char → Option Item × TokenStream
  | [] => ((piece.bind Piece.token?).map .ok, ⟨[], place, none, none, true⟩)
  | c :: cs =>
    match piece.bind (·.grow? c) with
    | some p => scan l (some p) (place.next c) cs
    | none =>
      match l.open? c place, piece.bind Piece.token? with
      | some p, some t => (some (.ok t), ⟨cs, place.next c, some p, none, false⟩)
      | some p, none => scan l (some p) (place.next c) cs
      | none, some t => (some (.ok t), ⟨cs, place.next c, none, some ⟨c, place⟩, false⟩)
      | none, none => (some (.error ⟨c, place⟩), ⟨cs, place.next c, none, none, true⟩)

/-- The next item, if there is one, and the stream after it. -/
def next (l : Lexicon) (s : TokenStream) : Option Item × TokenStream :=
  match s.pending with
  | some e => (some (.error e), { s with pending := none, finished := true })
  | none => if s.finished then (none, s) else scan l s.piece s.place s.rest

/-- Takes items until there is none, and no more than `fuel`. -/
def drain (l : Lexicon) : Nat → TokenStream → List Item × TokenStream
  | 0, s => ([], s)
  | fuel + 1, s =>
    match s.next l with
    | (none, last) => ([], last)
    | (some item, s) =>
      let (items, last) := drain l fuel s
      (item :: items, last)

end TokenStream

namespace Lexicon

/-- The items of a source, and the stream that they leave. Every item but an error at the end
takes a character at least. -/
def tokens (l : Lexicon) (source : String) : List Item × TokenStream :=
  (TokenStream.ofText source).drain l (source.length + 2)

/-- All tokens of a source, or the first error. -/
def tokenize (l : Lexicon) (source : String) : Except LexError (List Token) :=
  (l.tokens source).1.mapM id

end Lexicon

end TableAsm
