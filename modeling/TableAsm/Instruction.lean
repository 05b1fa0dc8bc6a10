import TableAsm.Names.Set
import TableAsm.Names.Map
import TableAsm.Value

/-!
Instructions of an assembled program: a name, operands in order, bare annotations, and
properties with a value each. The printed form lists all four parts.
-/
namespace TableAsm

structure Instruction where
  name : String
  operands : List Value
  annotations : NameSet
  properties : NameMap Value
deriving Inhabited

/-- A program, from the instruction that runs first. -/
abbrev Program := List Instruction

namespace Instruction

/-- An instruction without annotations and properties. -/
def bare (name : String) (operands : List Value) : Instruction := ⟨name, operands, ∅, ∅⟩

instance : BEq Instruction := ⟨fun i j =>
  i.name == j.name && i.operands == j.operands && i.annotations == j.annotations &&
    i.properties == j.properties⟩

def get? (i : Instruction) (index : Nat) : Option Value := i.operands[index]?

def annotate (i : Instruction) (name : String) : Instruction :=
  { i with annotations := i.annotations.insert name }

/-- Sets a property; an earlier value under the same key is replaced. -/
def putProperty (i : Instruction) (key : String) (v : Value) : Instruction :=
  { i with properties := i.properties.insert key v }

def isAnnotated (i : Instruction) (name : String) : Bool := decide (name ∈ i.annotations)

def hasProperty (i : Instruction) (key : String) : Bool := i.properties.contains key

def property? (i : Instruction) (key : String) : Option Value := i.properties.get? key

/-- Takes over the operands of another instruction, after its own. -/
def join (i other : Instruction) : Instruction :=
  { i with operands := i.operands ++ other.operands }

/-- Its values in reading order: operands first, then properties by key. -/
def values (i : Instruction) : List Value := i.operands ++ i.properties.values

/-- Applies a function to every operand and property value. -/
def mapValues (f : Value → Value) (i : Instruction) : Instruction :=
  { i with operands := i.operands.map f, properties := i.properties.map f }

/-- Items with commas between them and a mark at either end. -/
def enclose (opening closing : String) (items : List String) : String :=
  opening ++ ", ".intercalate items ++ closing

def renderProperty (b : String × Value) : String := quoted b.1 ++ ": " ++ b.2.tagged

def render (i : Instruction) : String :=
  "Instruction \x7b name: " ++ quoted i.name ++
  ", operands: " ++ enclose "[" "]" (i.operands.map Value.tagged) ++
  ", annotations: " ++ enclose "\x7b" "\x7d" (i.annotations.toList.map quoted) ++
  ", properties: " ++ enclose "\x7b" "\x7d" (i.properties.toList.map renderProperty) ++
  " \x7d"

end Instruction

end TableAsm
