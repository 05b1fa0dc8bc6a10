/-!
Reading decimal numerals. A numeral is read to its exact value, a whole number of tenths of
some power, and is rounded to a binary number in one last step.
-/
namespace TableAsm.Decimal

def isDigit (c : Char) : Bool := decide ('0' ≤ c) && decide (c ≤ '9')

def digitValue (c : Char) : Nat := c.toNat - '0'.toNat

/-- The number that a row of digits spells. -/
def value (digits : List Char) : Nat := digits.foldl (fun n c => n * 10 + digitValue c) 0

/-- Takes an optional sign off a text; the flag tells whether it is a minus. -/
def takeSign : List Char → Bool × List Char
  | '-' :: cs => (true, cs)
  | '+' :: cs => (false, cs)
  | cs => (false, cs)

/-- The number that a non-empty row of digits spells. -/
def readNat? (text : List Char) : Option Nat :=
  if !text.isEmpty && text.all isDigit then some (value text) else none

/-- Reads an optional sign and digits, with nothing before or after them. -/
def readInt? (text : List Char) : Option Int :=
  let (negative, digits) := takeSign text
  (readNat? digits).map fun n => if negative then -(n : Int) else n

/-- A decimal numeral: its sign, and `digits` times ten to the power `exponent`. -/
structure Numeral where
  negative : Bool
  digits : Nat
  exponent : Int
deriving DecidableEq, Repr

/-- The exponent that ends a numeral; no text stands for zero. -/
def readExponent? : List Char → Option Int
  | [] => some 0
  | c :: cs => if c = 'e' || c = 'E' then readInt? cs else none

/-- Reads digits with an optional point among, before or after them, and an optional exponent. -/
def readNumeral? (negative : Bool) (text : List Char) : Option Numeral :=
  let whole := text.takeWhile isDigit
  let rest := text.dropWhile isDigit
  let (fraction, rest) :=
    match rest with
    | '.' :: cs => (cs.takeWhile isDigit, cs.dropWhile isDigit)
    | cs => ([], cs)
  if whole.isEmpty && fraction.isEmpty then none
  else
    (readExponent? rest).map fun e =>
      ⟨negative, value (whole ++ fraction), e - fraction.length⟩

/-- What the text of a binary number can stand for. -/
inductive Reading where
  | finite (numeral : Numeral)
  | infinite (negative : Bool)
  | notANumber
deriving DecidableEq, Repr

def lowerAscii (c : Char) : Char :=
  if 'A' ≤ c ∧ c ≤ 'Z' then Char.ofNat (c.toNat + 32) else c

/-- Reads a numeral or one of the words for infinity and for what is not a number. -/
def read? (text : List Char) : Option Reading :=
  let (negative, body) := takeSign text
  let word := String.ofList (body.map lowerAscii)
  if word = "inf" || word = "infinity" then some (.infinite negative)
  else if word = "nan" then some .notANumber
  else (readNumeral? negative body).map .finite

/-- Below the least and above the greatest decimal order of a finite non-zero binary number. -/
def orderBound : Int := 400

/-- The binary number closest to a numeral. Orders beyond `orderBound` need no arithmetic. -/
def Numeral.toFloat (n : Numeral) : Float :=
  let order : Int := n.exponent + (toString n.digits).length
  let magnitude : Float :=
    if n.digits = 0 || order < -orderBound then 0.0
    else if order > orderBound then 1.0 / 0.0
    else
      match n.exponent with
      | .ofNat e => Float.ofScientific n.digits false e
      | .negSucc e => Float.ofScientific n.digits true (e + 1)
  if n.negative then -magnitude else magnitude

def Reading.toFloat : Reading → Float
  | .finite n => n.toFloat
  | .infinite negative => if negative then -(1.0 / 0.0) else 1.0 / 0.0
  | .notANumber => 0.0 / 0.0

def readFloat? (text : List Char) : Option Float := (read? text).map Reading.toFloat

end TableAsm.Decimal
