import TableAsm.Text.Quoted
import TableAsm.Decimal.Shortest

/-!
Operand and property values. The display form gives a value alone; the tagged form says its
kind as well.
-/
namespace TableAsm

inductive Value where
  | int (n : Int)
  | uint (n : Nat)
  | float (x : Float)
  | str (s : String)
deriving Inhabited

inductive ValueKind where
  | int | uint | float | str
deriving DecidableEq, Repr

def ValueKind.phrase : ValueKind → String
  | .int => "an integer"
  | .uint => "an unsigned integer"
  | .float => "a float"
  | .str => "a string"

/-- A value of one kind was asked for and one of another was there. -/
structure ValueMismatch where
  expected : ValueKind
  found : ValueKind
deriving DecidableEq, Repr

def ValueMismatch.message (m : ValueMismatch) : String :=
  "expected " ++ m.expected.phrase ++ " value, found " ++ m.found.phrase

namespace Value

/-- Values are equal when kind and content are; floats compare as numbers, so not a number
differs from itself and the two zeros are equal. -/
instance : BEq Value := ⟨fun
  | .int m, .int n => m == n
  | .uint m, .uint n => m == n
  | .float x, .float y => x == y
  | .str s, .str t => s == t
  | _, _ => false⟩

def kind : Value → ValueKind
  | .int _ => .int
  | .uint _ => .uint
  | .float _ => .float
  | .str _ => .str

def asInt : Value → Except ValueMismatch Int
  | .int n => .ok n
  | v => .error ⟨.int, v.kind⟩

def asUInt : Value → Except ValueMismatch Nat
  | .uint n => .ok n
  | v => .error ⟨.uint, v.kind⟩

def asFloat : Value → Except ValueMismatch Float
  | .float x => .ok x
  | v => .error ⟨.float, v.kind⟩

def asStr : Value → Except ValueMismatch String
  | .str s => .ok s
  | v => .error ⟨.str, v.kind⟩

def display : Value → String
  | .int n => toString n
  | .uint n => toString n
  | .float x => Decimal.renderFloat x
  | .str s => quoted s

def tag : Value → String
  | .int _ => "Int"
  | .uint _ => "UInt"
  | .float _ => "Float"
  | .str _ => "Str"

def tagged (v : Value) : String := v.tag ++ "(" ++ v.display ++ ")"

end Value

end TableAsm
