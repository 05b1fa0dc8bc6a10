import TableAsm.Instruction
import TableAsm.Text.Position
import Std.Data.HashMap

/-!
Label bookkeeping for one program. A word cannot be told apart from a reference to a label when
it is read, so every name is given a placeholder, a large negative number of its own. The program
is read from its end: instructions are numbered -1, -2 and so on, and the counter holds minus the
number of instructions so far. In the end each placeholder gives way to the distance from its
instruction to the labelled one.
-/
namespace TableAsm

/-- What is known about one name. -/
structure LabelEntry where
  name : String
  /-- The earliest place where the name has been seen. -/
  firstUse : Option Position
  /-- The number of the instruction that the name labels. -/
  target : Option Int
deriving DecidableEq, Repr

/-- Takes a further place where a name occurs into account. -/
def LabelEntry.seenAt (e : LabelEntry) (position : Option Position) : LabelEntry :=
  match position, e.firstUse with
  | none, _ => e
  | some p, none => { e with firstUse := some p }
  | some p, some q => { e with firstUse := some (q.earlier p) }

/-- Why labels cannot be resolved, or a program not be numbered. -/
inductive LabelError where
  | tooManyNames (name : String) (position : Option Position)
  | definedTwice (name : String) (position : Option Position)
  | programTooLong
  | repeatTooLong
  | neverDefined (name : String) (position : Option Position)
deriving DecidableEq, Repr

namespace LabelError

def position : LabelError → Option Position
  | tooManyNames _ p | definedTwice _ p | neverDefined _ p => p
  | programTooLong | repeatTooLong => none

def near : LabelError → String
  | tooManyNames name _ | definedTwice name _ | neverDefined name _ => name
  | programTooLong | repeatTooLong => ""

def message : LabelError → String
  | tooManyNames _ _ => "too many distinct identifiers"
  | definedTwice name _ => "label `" ++ name ++ "` is defined more than once"
  | programTooLong => "program is too long"
  | repeatTooLong => "repeated block makes the program too long"
  | neverDefined name _ => "label `" ++ name ++ "` is never defined"

end LabelError

/-- Names by order of appearance, where to find each, and the number of the instruction that was
placed last. -/
structure Labels where
  entries : Array LabelEntry
  index : Std.HashMap String Nat
  counter : Int

namespace Labels

/-- Placeholders are multiples of it; literals and instruction numbers are smaller. -/
def unit : Nat := 1 <<< 48

/-- Literals are smaller than the least placeholder is large. -/
def literalLimit : Int := unit

/-- How many names a program can have: the placeholder of one more would not fit 64 bits. -/
def maxNames : Nat := 1 <<< 15 - 1

/-- The longest program, in instructions, after every repetition is unrolled. -/
def maxLength : Nat := 1 <<< 24

/-- The greatest count of further copies that is calculated with. -/
def maxCopies : Nat := 1 <<< 63 - 1

def new : Labels := ⟨#[], ∅, 0⟩

/-- The placeholder of the name at a place in the order of appearance. -/
def placeholderAt (i : Nat) : Int := -((i + 1) * unit : Nat)

/-- The place of the name that a number would be the placeholder of. -/
def placeOf? (value : Int) : Option Nat :=
  match value with
  | .ofNat _ => none
  | .negSucc m => if (m + 1) % unit = 0 then some ((m + 1) / unit - 1) else none

/-- What is known about the name that a number is the placeholder of. -/
def entryOf? (l : Labels) (value : Int) : Option LabelEntry :=
  (placeOf? value).bind (l.entries[·]?)

def isPlaceholder (l : Labels) (value : Int) : Bool := (l.entryOf? value).isSome

/-- The placeholder of a name, which is new or the one that the name has had before. -/
def reference (l : Labels) (name : String) (position : Option Position) :
    Labels × Except LabelError Int :=
  match l.index[name]? with
  | some i =>
    ({ l with entries := l.entries.modify i (·.seenAt position) }, .ok (placeholderAt i))
  | none =>
    let i := l.entries.size
    if maxNames ≤ i then (l, .error (.tooManyNames name position))
    else
      ({ l with
          entries := l.entries.push ⟨name, position, none⟩
          index := l.index.insert name i },
        .ok (placeholderAt i))

/-- Makes a name the label of the instruction with a number. -/
def define (l : Labels) (name : String) (number : Int) (position : Option Position) :
    Labels × Except LabelError Unit :=
  match l.reference name position with
  | (l, .error e) => (l, .error e)
  | (l, .ok placeholder) =>
    match placeOf? placeholder, l.entryOf? placeholder with
    | some i, some ⟨_, _, none⟩ =>
      ({ l with entries := l.entries.modify i ({ · with target := some number }) }, .ok ())
    | _, _ => (l, .error (.definedTwice name position))

/-- Numbers the next instruction, counting back from the end. -/
def place (l : Labels) : Labels × Except LabelError Int :=
  if l.counter ≤ -(maxLength : Int) then (l, .error .programTooLong)
  else ({ l with counter := l.counter - 1 }, .ok (l.counter - 1))

/-- The offset of a value that refers to a label of the block of `length` instructions placed
last, seen from the instruction `here`. -/
def localOffset? (l : Labels) (length : Nat) (here value : Int) : Option Int := do
  let target ← (← l.entryOf? value).target
  if l.counter ≤ target ∧ target < l.counter + length then some (target - here) else none

/-- Resolves references between the instructions of the block placed last. -/
def resolveWithin (l : Labels) (block : List Instruction) : List Instruction :=
  block.zipIdx.map fun (i, k) =>
    i.mapValues fun
      | .int v => .int ((l.localOffset? block.length (l.counter + k) v).getD v)
      | v => v

/-- Changes the targets that lie in the block of `length` instructions placed last. -/
def retarget (l : Labels) (length : Nat) (f : Int → Option Int) : Array LabelEntry :=
  l.entries.map fun e =>
    match e.target with
    | some t =>
      if l.counter ≤ t ∧ t < l.counter + length then { e with target := f t } else e
    | none => e

/-- A block several times over; an empty one needs no copies. -/
def copies (block : List Instruction) (times : Nat) : List Instruction :=
  if block.isEmpty then [] else (List.replicate times block).flatten

/-- Unrolls a block whose instructions were the last ones placed. References within the block
stay within each copy. The labels of the block move to its first copy; repeating it not at all
drops them. -/
def expandRepeat (l : Labels) (block : List Instruction) (times : Nat) :
    Labels × Except LabelError (List Instruction) :=
  let length := block.length
  match times with
  | 0 =>
    ({ l with entries := l.retarget length fun _ => none, counter := l.counter + length }, .ok [])
  | further + 1 =>
    let extra : Int := further * length
    if maxCopies < further || l.counter - extra < -(maxLength : Int) then
      (l, .error .repeatTooLong)
    else
      ({ l with
          entries := l.retarget length fun t => some (t - extra)
          counter := l.counter - extra },
        .ok (copies (l.resolveWithin block) times))

/-- Replaces a placeholder by the offset from the instruction at `index` to its label. -/
def resolveValue (l : Labels) (index : Nat) : Value → Except LabelError Value
  | .int v =>
    match l.entryOf? v with
    | none => .ok (.int v)
    | some e =>
      match e.target with
      | some t => .ok (.int (t - l.counter - index))
      | none => .error (.neverDefined e.name e.firstUse)
  | v => .ok v

/-- Rewrites values in order up to the first that fails; the rest stay as they are. -/
def resolveValues (l : Labels) (index : Nat) : List Value → List Value × Option LabelError
  | [] => ([], none)
  | v :: rest =>
    match l.resolveValue index v with
    | .error e => (v :: rest, some e)
    | .ok w =>
      let (ws, e) := l.resolveValues index rest
      (w :: ws, e)

/-- Rewrites the operands of an instruction and then its properties by key. -/
def resolveInstruction (l : Labels) (index : Nat) (i : Instruction) :
    Instruction × Option LabelError :=
  match l.resolveValues index i.operands with
  | (operands, some e) => ({ i with operands }, some e)
  | (operands, none) =>
    let (values, e) := l.resolveValues index i.properties.values
    ({ i with operands, properties := i.properties.withValues values }, e)

/-- Rewrites instructions from `index` on; `reversed` holds those already done, last first. -/
def resolveFrom (l : Labels) (reversed : List Instruction) (index : Nat) :
    List Instruction → Program × Option LabelError
  | [] => (reversed.reverse, none)
  | i :: rest =>
    match l.resolveInstruction index i with
    | (i, some e) => (reversed.reverse ++ i :: rest, some e)
    | (i, none) => l.resolveFrom (i :: reversed) (index + 1) rest

/-- Replaces every placeholder in a finished program by an offset. At the first that has no
label it stops. -/
def resolve (l : Labels) (p : Program) : Program × Option LabelError := l.resolveFrom [] 0 p

end Labels

end TableAsm
