import TableAsm.Decimal.Read
import TableAsm.Labels
import TableAsm.Tree.Evaluation

/-!
Assembling a program from a parse tree. Each grammar symbol with a meaning has an action, which
builds a node's payload from the payloads of its children and takes those from them. All other
symbols keep the blank payload.
-/
namespace TableAsm

inductive Modifier where
  /-- A bare annotation. -/
  | mark (name : String)
  /-- A property with its value. -/
  | property (key : String) (value : Value)

/-- What has been built for a node so far. -/
inductive Payload where
  | blank
  | word (text : String) (placeholder : Int)
  | value (v : Value)
  | operands (vs : List Value)
  | instruction (i : Instruction)
  /-- An instruction with its number. -/
  | line (i : Instruction) (number : Int)
  | modifier (m : Modifier)
  | block (is : List Instruction)
deriving Inhabited

/-- The kinds of payload. -/
inductive PayloadKind where
  | blank | word | value | operands | instruction | line | modifier | block
deriving DecidableEq, Repr

def PayloadKind.phrase : PayloadKind → String
  | .blank => "nothing"
  | .word => "a word"
  | .value => "a value"
  | .operands => "operands"
  | .instruction => "an instruction"
  | .line => "a line"
  | .modifier => "a modifier"
  | .block => "a block"

def Payload.kind : Payload → PayloadKind
  | .blank => .blank
  | .word .. => .word
  | .value _ => .value
  | .operands _ => .operands
  | .instruction _ => .instruction
  | .line .. => .line
  | .modifier _ => .modifier
  | .block _ => .block

/-- A tree does not have the shape that an action relies on. -/
inductive ShapeError where
  | missingChild (parent child : String)
  | unexpectedPayload (wanted found : PayloadKind)
  | childlessValue
  | unknownModifier
  | unknownStart
deriving DecidableEq, Repr

def ShapeError.message : ShapeError → String
  | .missingChild parent child => "`" ++ parent ++ "` node is missing a `" ++ child ++ "` child"
  | .unexpectedPayload wanted found =>
    "expected " ++ wanted.phrase ++ " in the parse tree, found " ++ found.phrase
  | .childlessValue => "`anyval` node has no children"
  | .unknownModifier => "`modifier` node is neither an annotation nor a property"
  | .unknownStart => "`start` node has an unknown shape"

/-- What can be wrong with a literal. -/
inductive LiteralFault where
  | integerOutOfRange | malformedFloat | unterminatedString | badRepeatCount
deriving DecidableEq, Repr

def LiteralFault.message : LiteralFault → String
  | .integerOutOfRange => "integer literal out of range"
  | .malformedFloat => "malformed float literal"
  | .unterminatedString => "unterminated string literal"
  | .badRepeatCount => "bad repeat count"

structure LiteralError where
  fault : LiteralFault
  text : String
  position : Option Position
deriving DecidableEq, Repr

/-- Why a tree does not make a program. -/
inductive AssemblyError where
  | shape (e : ShapeError)
  | literal (e : LiteralError)
  | label (e : LabelError)
deriving DecidableEq, Repr

/-- A repetition that an action has unrolled, or has tried to: the length of its block and its
count. -/
structure Repetition where
  length : Nat
  count : Nat
deriving DecidableEq, Repr

/-- The payloads of all nodes, the labels seen, and the repetitions met, last first. -/
structure Assembler where
  payloads : Array Payload
  labels : Labels
  repetitions : List Repetition

/-- An action changes the assembler; what it has changed stays when it fails. -/
abbrev Action := ExceptT AssemblyError (StateM Assembler)

namespace Action

def misshapen {α : Type} (e : ShapeError) : Action α := throw (.shape e)

/-- Runs an operation on the labels. -/
def onLabels {α : Type} (f : Labels → Labels × Except LabelError α) : Action α := do
  let s ← get
  let (labels, result) := f s.labels
  set { s with labels }
  match result with
  | .ok a => return a
  | .error e => throw (.label e)

/-- The `n`th child of a node with a symbol, counted from zero. -/
def child (t : Tree) (id : NodeId) (symbol : String) (n : Nat) : Action NodeId :=
  match ((t.children id).filter (t.symbol · == symbol))[n]? with
  | some c => return c
  | none => misshapen (.missingChild (t.symbol id) symbol)

def hasChild (t : Tree) (id : NodeId) (symbol : String) : Bool :=
  (t.children id).any (t.symbol · == symbol)

/-- Takes the payload of a node and leaves the blank one. -/
def takeFrom (id : NodeId) : Action Payload := do
  let s ← get
  let p := s.payloads[id]?.getD .blank
  set { s with payloads := s.payloads.modify id fun _ => .blank }
  return p

/-- Takes the payload of the `n`th child with a symbol. -/
def take (t : Tree) (id : NodeId) (symbol : String) (n : Nat) : Action Payload := do
  takeFrom (← child t id symbol n)

def put (id : NodeId) (p : Payload) : Action Unit :=
  modify fun s => { s with payloads := s.payloads.modify id fun _ => p }

def unexpected {α : Type} (wanted : PayloadKind) (p : Payload) : Action α :=
  misshapen (.unexpectedPayload wanted p.kind)

def asWord : Payload → Action (String × Int)
  | .word text placeholder => return (text, placeholder)
  | p => unexpected .word p

def asValue : Payload → Action Value
  | .value v => return v
  | p => unexpected .value p

def asOperands : Payload → Action (List Value)
  | .operands vs => return vs
  | p => unexpected .operands p

def asInstruction : Payload → Action Instruction
  | .instruction i => return i
  | p => unexpected .instruction p

def asLine : Payload → Action (Instruction × Int)
  | .line i number => return (i, number)
  | p => unexpected .line p

def asModifier : Payload → Action Modifier
  | .modifier m => return m
  | p => unexpected .modifier p

def asBlock : Payload → Action (List Instruction)
  | .block is => return is
  | p => unexpected .block p

/-- A name as a word with its placeholder. -/
def word (name : String) (position : Option Position) : Action Payload := do
  let placeholder ← onLabels (·.reference name position)
  return .word name placeholder

/-- The name in the text of a label, which a colon may end. -/
def labelName (raw : String) : String :=
  let cs := raw.toList
  if cs.getLast? = some ':' then String.ofList cs.dropLast else raw

/-- The least integer of 64 bits. -/
def leastInteger : Int := -0x8000000000000000

/-- The integer that a literal spells, if it is small enough to be no placeholder. -/
def integerOf? (raw : String) : Option Int := do
  let n ← Decimal.readInt? raw.toList
  if leastInteger ≤ n ∧ n < Labels.literalLimit then some n else none

/-- The text between the quotes of a literal, if both are there. -/
def stringOf? (raw : String) : Option String :=
  match raw.toList with
  | '"' :: rest => if rest.getLast? = some '"' then some (String.ofList rest.dropLast) else none
  | _ => none

/-- A literal's value; without one, the literal is at fault. -/
def literal {α : Type} (make : α → Value) (read : Option α) (fault : LiteralFault)
    (raw : String) (position : Option Position) : Action Payload :=
  match read with
  | some a => return .value (make a)
  | none => throw (.literal ⟨fault, raw, position⟩)

/-- A value of any kind; a word stands for its placeholder. -/
def anyValue (t : Tree) (id : NodeId) : Action Payload := do
  match (t.children id).head? with
  | none => misshapen .childlessValue
  | some c =>
    match ← takeFrom c with
    | .word _ placeholder => return .value (.int placeholder)
    | p => return .value (← asValue p)

/-- One operand before the others, or none. -/
def operands (t : Tree) (id : NodeId) : Action Payload := do
  if hasChild t id "anyval" then
    let v ← asValue (← take t id "anyval" 0)
    let rest ← asOperands (← take t id "more_operands" 0)
    return .operands (v :: rest)
  else return .operands []

def instruction (t : Tree) (id : NodeId) : Action Payload := do
  let (name, _) ← asWord (← take t id "IDENTIFIER" 0)
  let vs ← asOperands (← take t id "operands" 0)
  return .instruction (.bare name vs)

def modifier (t : Tree) (id : NodeId) : Action Payload := do
  let (name, _) ← asWord (← take t id "IDENTIFIER" 0)
  if hasChild t id (Symbol.keyword "property") then
    let v ← asValue (← take t id "anyval" 0)
    return .modifier (.property name v)
  else if hasChild t id (Symbol.keyword "annotation") then return .modifier (.mark name)
  else misshapen .unknownModifier

/-- An instruction gets the next number; a modifier or a label is put on the line behind it. -/
def line (t : Tree) (id : NodeId) : Action Payload := do
  if hasChild t id "instruction" then
    let i ← asInstruction (← take t id "instruction" 0)
    let number ← onLabels (·.place)
    return .line i number
  else if hasChild t id "modifier" then
    let m ← asModifier (← take t id "modifier" 0)
    let (i, number) ← asLine (← take t id "line" 0)
    match m with
    | .mark name => return .line (i.annotate name) number
    | .property key v => return .line (i.putProperty key v) number
  else
    let label ← child t id "LABEL" 0
    let (name, _) ← asWord (← takeFrom label)
    let (i, number) ← asLine (← take t id "line" 0)
    onLabels (·.define name number (t.position label))
    return .line i number

/-- How often a block is to be repeated. -/
def repeatCount (t : Tree) (literal : NodeId) : Action Nat := do
  match ← asValue (← takeFrom literal) with
  | .int n =>
    if 0 ≤ n then return n.toNat
    else throw (.literal ⟨.badRepeatCount, "", t.position literal⟩)
  | _ => throw (.literal ⟨.badRepeatCount, "", t.position literal⟩)

/-- A block: a line before a block, a repeated block before another, or nothing. -/
def block (t : Tree) (id : NodeId) : Action Payload := do
  if hasChild t id "line" then
    let (i, _) ← asLine (← take t id "line" 0)
    let rest ← asBlock (← take t id Symbol.start 0)
    return .block (i :: rest)
  else if hasChild t id (Symbol.keyword "repeat") then
    let times ← repeatCount t (← child t id "I_LITERAL" 0)
    let inner ← asBlock (← take t id Symbol.start 0)
    let tail ← asBlock (← take t id Symbol.start 1)
    modify fun s => { s with repetitions := ⟨inner.length, times⟩ :: s.repetitions }
    let unrolled ← onLabels (·.expandRepeat inner times)
    return .block (unrolled ++ tail)
  else if hasChild t id Symbol.empty then return .block []
  else misshapen .unknownStart

def whole (t : Tree) (id : NodeId) : Action Payload := do
  match (t.children id).head? with
  | some c => return .block (← asBlock (← takeFrom c))
  | none => return .block []

/-- The action for a symbol; a symbol without meaning has none. -/
def forNode? (t : Tree) (id : NodeId) : Option (Action Payload) :=
  let raw := (t.raw id).getD ""
  let position := t.position id
  match t.symbol id with
  | "<root>" => some (whole t id)
  | "start" => some (block t id)
  | "line" => some (line t id)
  | "instruction" => some (instruction t id)
  | "operands" | "more_operands" => some (operands t id)
  | "modifier" => some (modifier t id)
  | "anyval" => some (anyValue t id)
  | "IDENTIFIER" => some (word raw position)
  | "LABEL" => some (word (labelName raw) position)
  | "I_LITERAL" => some (literal .int (integerOf? raw) .integerOutOfRange raw position)
  | "F_LITERAL" =>
    some (literal .float (Decimal.readFloat? raw.toList) .malformedFloat raw position)
  | "S_LITERAL" => some (literal .str (stringOf? raw) .unterminatedString raw position)
  | _ => none

end Action

namespace Assembler

def initial (t : Tree) : Assembler := ⟨Array.replicate t.size .blank, .new, []⟩

/-- Runs the action of a node, if it has one, and puts the result on the node. -/
def visit (t : Tree) (s : Assembler) (id : NodeId) :
    Except (AssemblyError × Assembler) Assembler :=
  match Action.forNode? t id with
  | none => .ok s
  | some action =>
    match (action >>= Action.put id).run s with
    | (.ok (), s) => .ok s
    | (.error e, s) => .error (e, s)

/-- Runs the actions of all nodes and takes the program from the root. -/
def unresolved (t : Tree) : Except (AssemblyError × Assembler) (Program × Assembler) :=
  match t.evaluateBottomUp (visit t) (initial t) with
  | .error e => .error e
  | .ok s =>
    match (Action.takeFrom Tree.root >>= Action.asBlock).run s with
    | (.ok p, s) => .ok (p, s)
    | (.error e, s) => .error (e, s)

end Assembler

/-- What assembling a tree comes to, and the repetitions met on the way, first one first. -/
structure Assembly where
  result : Except AssemblyError Program
  repetitions : List Repetition

/-- Assembles the program of a parse tree. -/
def Tree.assemble (t : Tree) : Assembly :=
  match Assembler.unresolved t with
  | .error (e, s) => ⟨.error e, s.repetitions.reverse⟩
  | .ok (p, s) =>
    match s.labels.resolve p with
    | (p, none) => ⟨.ok p, s.repetitions.reverse⟩
    | (_, some e) => ⟨.error (.label e), s.repetitions.reverse⟩

end TableAsm
