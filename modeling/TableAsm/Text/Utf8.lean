import TableAsm.Text.CharSet

/-!
UTF-8: the bytes that a code point is written in, and spans of code points as sequences of byte
ranges. A sequence stands for all choices of one byte from each of its ranges; a span is cut
until each piece is one sequence. Main statement: `cut?_bounds`, by which the cutting ends.
-/
namespace TableAsm

/-- The bytes from `first` to `last`, both included. -/
structure ByteRange where
  first : Nat
  last : Nat
deriving DecidableEq, Repr, Inhabited

namespace Utf8

/-- The bytes of a code point: a leading one that tells how many follow, then six bits each. -/
def encode (n : Nat) : List Nat :=
  if n < 0x80 then [n]
  else if n < 0x800 then [0xC0 + n / 64, 0x80 + n % 64]
  else if n < 0x10000 then [0xE0 + n / 64 / 64, 0x80 + n / 64 % 64, 0x80 + n % 64]
  else [0xF0 + n / 64 / 64 / 64, 0x80 + n / 64 / 64 % 64, 0x80 + n / 64 % 64, 0x80 + n % 64]

/-- Where to cut a span that lies in several blocks of a size and does not fill the first or the
last of them. -/
def edge? (s : Span) (block : Nat) : Option Nat :=
  if s.first / block = s.last / block then none
  else if s.first % block ≠ 0 then some ((s.first / block + 1) * block - 1)
  else if s.last % block ≠ block - 1 then some (s.last / block * block - 1)
  else none

/-- The places to cut a span at: where codes grow longer, and at the edges of the blocks that the
bytes after the first one run through. -/
def edges (s : Span) : List Nat :=
  [0x7F, 0x7FF, 0xFFFF] ++
    (if s.last ≤ 0x7F then [] else [64, 4096, 262144].filterMap (edge? s))

/-- The end of the first part of a span that has to be cut. -/
def cut? (s : Span) : Option Nat :=
  (edges s).find? fun n => decide (s.first ≤ n) && decide (n < s.last)

theorem cut?_bounds {s : Span} {n : Nat} (h : cut? s = some n) : s.first ≤ n ∧ n < s.last := by
  simpa using List.find?_some h

/-- The sequences of byte ranges that make up a span, from its first code point on. -/
def sequences (s : Span) : List (List ByteRange) :=
  match h : cut? s with
  | some n =>
    have := cut?_bounds h
    sequences ⟨s.first, n⟩ ++ sequences ⟨n + 1, s.last⟩
  | none => [List.zipWith ByteRange.mk (encode s.first) (encode s.last)]
termination_by s.last - s.first

/-- The parts of a span below and above the code points that no character has. -/
def characters (s : Span) : List Span :=
  [⟨s.first, min s.last 0xD7FF⟩, ⟨max s.first 0xE000, s.last⟩].filter fun s =>
    decide (s.first ≤ s.last)

/-- The sequences of byte ranges that make up a set. -/
def ofSet (s : CharSet) : List (List ByteRange) :=
  (s.spans.flatMap characters).flatMap sequences

end Utf8

end TableAsm
