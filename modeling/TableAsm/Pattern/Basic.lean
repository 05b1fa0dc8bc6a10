import TableAsm.Text.Property

/-!
Patterns over characters: texts, single characters from a set, conditions on a place in the text,
sequence, choice and repetition. A condition looks at the characters on both sides of its place
and consumes nothing. Repetition keeps its counts, so that its size does not depend on them.
-/
namespace TableAsm

/-- A condition on a place in a text. `ascii` and `crlf` choose among two readings of what a
word or the end of a line is. -/
inductive Anchor where
  | textStart
  | textEnd
  | lineStart (crlf : Bool)
  | lineEnd (crlf : Bool)
  | wordBoundary (ascii : Bool)
  | noWordBoundary (ascii : Bool)
  | wordStart (ascii : Bool)
  | wordEnd (ascii : Bool)
  | wordStartHalf (ascii : Bool)
  | wordEndHalf (ascii : Bool)
deriving DecidableEq, Repr, Inhabited

namespace Anchor

/-- Letters, digits and the underscore. -/
def asciiWord : CharSet := ⟨[⟨0x30, 0x39⟩, ⟨0x41, 0x5A⟩, ⟨0x5F, 0x5F⟩, ⟨0x61, 0x7A⟩]⟩

/-- Whether a neighbour is there and belongs to a word. -/
def inWord (ascii : Bool) : Option Char → Bool
  | none => false
  | some c => if ascii then asciiWord.contains c else Property.word.contains c

/-- Whether the condition holds between two neighbours; none stands for the end of the text. -/
def holds (before after : Option Char) : Anchor → Bool
  | textStart => before.isNone
  | textEnd => after.isNone
  | lineStart false => before.isNone || before == some '\n'
  | lineStart true =>
    before.isNone || before == some '\n' || (before == some '\r' && after != some '\n')
  | lineEnd false => after.isNone || after == some '\n'
  | lineEnd true =>
    after.isNone || after == some '\r' || (after == some '\n' && before != some '\r')
  | wordBoundary ascii => inWord ascii before != inWord ascii after
  | noWordBoundary ascii => inWord ascii before == inWord ascii after
  | wordStart ascii => !inWord ascii before && inWord ascii after
  | wordEnd ascii => inWord ascii before && !inWord ascii after
  | wordStartHalf ascii => !inWord ascii before
  | wordEndHalf ascii => !inWord ascii after

end Anchor

inductive Pattern where
  | empty
  /-- The characters of a text, one after the other. -/
  | text (cs : List Char)
  /-- One character of a set. -/
  | chars (set : CharSet)
  | anchor (a : Anchor)
  /-- A pattern at least `least` and, if there is a `most`, at most `most` times over. -/
  | times (least : Nat) (most : Option Nat) (p : Pattern)
  /-- A group that counts, under its number. -/
  | group (number : Nat) (p : Pattern)
  | seq (p q : Pattern)
  | alt (p q : Pattern)
deriving DecidableEq, Repr, Inhabited

namespace Pattern

/-- Sequence that drops an empty part. -/
def append (p q : Pattern) : Pattern :=
  match p, q with
  | empty, q => q
  | p, empty => p
  | p, q => seq p q

/-- Whether a pattern can match nothing but the empty text. -/
def isVoid : Pattern → Bool
  | empty => true
  | text _ => false
  | chars _ => false
  | anchor _ => true
  | times _ most p => most.isSome && p.isVoid
  | group _ p => p.isVoid
  | seq p q => p.isVoid && q.isVoid
  | alt p q => p.isVoid && q.isVoid

/-- The length that a match has at least; nothing for a pattern with a part that cannot match. -/
def minLength : Pattern → Option Nat
  | empty => some 0
  | text cs => some cs.length
  | chars s => if s.spans.isEmpty then none else some 1
  | anchor _ => some 0
  | times least _ p => p.minLength.map (· * least)
  | group _ p => p.minLength
  | seq p q => p.minLength.bind fun m => q.minLength.map (m + ·)
  | alt p q => p.minLength.bind fun m => q.minLength.map (min m ·)

/-- Whether every match begins where the text does, as far as the parts in front tell. -/
def beginsText : Pattern → Bool
  | empty => false
  | text _ => false
  | chars _ => false
  | anchor a => a = .textStart
  | times least _ p => decide (0 < least) && p.beginsText
  | group _ p => p.beginsText
  | seq p q => p.beginsText || (p.isVoid && q.beginsText)
  | alt p q => p.beginsText && q.beginsText

/-- Whether every match ends where the text does, as far as the parts at the end tell. -/
def endsText : Pattern → Bool
  | empty => false
  | text _ => false
  | chars _ => false
  | anchor a => a = .textEnd
  | times least _ p => decide (0 < least) && p.endsText
  | group _ p => p.endsText
  | seq p q => q.endsText || (q.isVoid && p.endsText)
  | alt p q => p.endsText && q.endsText

end Pattern

end TableAsm
