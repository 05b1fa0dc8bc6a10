import TableAsm.Text.Later
import TableAsm.Text.Property

/-!
Quoted text. Quotes, backslashes and the common controls have short escapes; marks that would
join the character before them, and characters that show nothing, are written by code point.
All else stands for itself.
-/
namespace TableAsm.Quoted

/-- Characters that are written by their code point. The sound marks of half-width Katakana
extend the character before them and yet stand for themselves. -/
def hidden : CharSet :=
  (CharSet.unions [Category.other, Category.lineSeparator, Category.paragraphSeparator,
    Category.spaceSeparator, Property.graphemeExtend, Property.defaultIgnorableCodePoint]).diff
    (Later.visible.union (.ofChart ["FF9E-FF9F"]))

/-- Whether a character shows when it is printed by itself. -/
def isPlain (c : Char) : Bool :=
  if c < '\x7f' then decide (' ' ≤ c) else !hidden.contains c

/-- A code point in hexadecimal between braces. -/
def codePoint (c : Char) : List Char :=
  ['\\', 'u', '\x7b'] ++ Nat.toDigits 16 c.toNat ++ ['\x7d']

/-- One character as it is written between quotes. -/
def escape (c : Char) : List Char :=
  if c = '"' then ['\\', '"']
  else if c = '\\' then ['\\', '\\']
  else if c = '\n' then ['\\', 'n']
  else if c = '\r' then ['\\', 'r']
  else if c = '\t' then ['\\', 't']
  else if c = '\x00' then ['\\', '0']
  else if isPlain c then [c]
  else codePoint c

def encode (text : List Char) : List Char := '"' :: (text.flatMap escape ++ ['"'])

end TableAsm.Quoted

namespace TableAsm

/-- A text between quotes, with escapes. -/
def quoted (text : String) : String := String.ofList (Quoted.encode text.toList)

end TableAsm
