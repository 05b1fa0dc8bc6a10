/-!
The shortest decimal text of a binary number: the fewest digits that read back to it, and of
those the nearest. Everything is exact arithmetic on the number's binary form.
-/
namespace TableAsm.Decimal

/-- A positive binary number `mantissa * 2 ^ exponent` among its neighbours. `narrowBelow`
says that the gap below it is half the gap above. -/
structure Binary where
  mantissa : Nat
  exponent : Int
  narrowBelow : Bool
deriving Repr

/-- A positive decimal number `digits * 10 ^ exponent`. -/
structure Scaled where
  digits : Nat
  exponent : Int
deriving DecidableEq, Repr

namespace Binary

/-- The binary form of the magnitude of a finite non-zero double, from its bits. -/
def ofBits (bits : UInt64) : Binary :=
  let field := ((bits >>> 52) &&& 0x7FF).toNat
  let fraction := (bits &&& 0xFFFFFFFFFFFFF).toNat
  if field = 0 then ⟨fraction, -1074, false⟩
  else ⟨fraction + 1 <<< 52, (field : Int) - 1075, fraction == 0 && decide (1 < field)⟩

/-- Quarters of the last binary place: the number, and the ends of the interval of numbers that
round to it. -/
def middle (b : Binary) : Nat := 4 * b.mantissa
def lower (b : Binary) : Nat := b.middle - (if b.narrowBelow then 1 else 2)
def upper (b : Binary) : Nat := b.middle + 2

/-- The factors that take quarters of the last binary place and units of `10 ^ k` to a common
scale. -/
def scales (b : Binary) (k : Int) : Nat × Nat :=
  let q := b.exponent - 2
  (Nat.pow 2 q.toNat * Nat.pow 10 (-k).toNat, Nat.pow 10 k.toNat * Nat.pow 2 (-q).toNat)

/-- Whether `d * 10 ^ k` reads back to the number. The ends of the interval do so when the
mantissa is even. -/
def accepts (b : Binary) (k : Int) (d : Nat) : Bool :=
  let (unit, ten) := b.scales k
  if b.mantissa % 2 = 0 then b.lower * unit ≤ d * ten && d * ten ≤ b.upper * unit
  else b.lower * unit < d * ten && d * ten < b.upper * unit

/-- The multiple of `10 ^ k` nearest to the number among the two around it that read back; a tie
goes up. -/
def onGrid? (b : Binary) (k : Int) : Option Nat :=
  let (unit, ten) := b.scales k
  let below := b.middle * unit / ten
  let above := below + 1
  match b.accepts k below, b.accepts k above with
  | true, true =>
    if b.middle * unit - below * ten < above * ten - b.middle * unit then some below
    else some above
  | true, false => some below
  | false, true => some above
  | false, false => none

/-- The decimal order of the number: it is at least `10 ^ order` and below `10 ^ (order + 1)`.
`guess` is too small by at most `fuel`. -/
def orderFrom (b : Binary) (guess : Int) : Nat → Int
  | 0 => guess
  | fuel + 1 =>
    let (unit, ten) := b.scales (guess + 1)
    if ten ≤ b.middle * unit then b.orderFrom (guess + 1) fuel else guess

def order (b : Binary) : Int :=
  let bitOrder : Int := b.exponent + b.mantissa.log2
  b.orderFrom (bitOrder * 30102 / 100000 - 2) 5

/-- Tries ever finer grids, from `10 ^ k` down. -/
def search (b : Binary) (k : Int) : Nat → Scaled
  | 0 => ⟨b.middle * (b.scales k).1 / (b.scales k).2, k⟩
  | fuel + 1 =>
    match b.onGrid? k with
    | some d => ⟨d, k⟩
    | none => b.search (k - 1) fuel

/-- The shortest decimal that reads back; seventeen digits always do. -/
def shortest (b : Binary) : Scaled := b.search b.order 17

end Binary

/-- How digits are laid out: positional for orders from `leastOrder` up to below
`greatestOrder`, else with one digit before the point and an exponent. -/
structure Layout where
  leastOrder : Int
  greatestOrder : Int

def Layout.usual : Layout := ⟨-4, 16⟩

/-- Digits and a point: the first of `digits` has the given order. At least one digit stands on
each side of the point. -/
def positional (digits : List Char) (order : Int) : List Char :=
  if order < 0 then
    ['0', '.'] ++ List.replicate (-order - 1).toNat '0' ++ digits
  else
    let whole := order.toNat + 1
    let fraction := digits.drop whole
    digits.take whole ++ List.replicate (whole - digits.length) '0' ++ ['.'] ++
      (if fraction.isEmpty then ['0'] else fraction)

/-- One digit, further digits after a point if there are any, and the order after an `e`. -/
def exponential (digits : List Char) (order : Int) : List Char :=
  digits.take 1 ++ (if digits.length ≤ 1 then [] else '.' :: digits.drop 1) ++
    'e' :: (toString order).toList

def Layout.render (layout : Layout) (s : Scaled) : List Char :=
  let all := (toString s.digits).toList
  let order := s.exponent + all.length - 1
  let digits := (all.reverse.dropWhile (· == '0')).reverse
  if layout.leastOrder ≤ order && order < layout.greatestOrder then positional digits order
  else exponential digits order

/-- The shortest text that reads back to a double. -/
def renderFloat (x : Float) : String :=
  if x.isNaN then "NaN"
  else
    let bits := x.toBits
    let sign := if bits >>> 63 = 1 then "-" else ""
    if x.isInf then sign ++ "inf"
    else if x == 0.0 then sign ++ "0.0"
    else sign ++ String.ofList (Layout.usual.render (Binary.ofBits bits).shortest)

end TableAsm.Decimal
