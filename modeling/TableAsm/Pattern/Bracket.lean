import TableAsm.Pattern.Escape

/-!
Bracketed classes: single characters, ranges, named classes, nested brackets, and the set
operators intersection, difference and symmetric difference, which bind equally and group to
the left.
-/
namespace TableAsm.Pattern

/-- A set with the depth of the text that describes it. -/
structure ClassPart where
  members : CharSet
  depth : Nat

inductive SetOperator where
  | intersection | difference | symmetricDifference
deriving DecidableEq, Repr

def SetOperator.apply : SetOperator → CharSet → CharSet → CharSet
  | .intersection => CharSet.inter
  | .difference => CharSet.diff
  | .symmetricDifference => CharSet.symmDiff

/-- A bracketed class while it is read. -/
structure OpenClass where
  negated : Bool
  /-- The left operand and the operator before the items being collected. -/
  pending : Option (ClassPart × SetOperator)
  /-- The items collected: their union, their number, and the depth of the deepest. -/
  union : CharSet
  items : Nat
  deepest : Nat

namespace OpenClass

def add (k : OpenClass) (item : ClassPart) : OpenClass :=
  { k with
    union := k.union.union item.members
    items := k.items + 1
    deepest := max k.deepest item.depth }

/-- The items as one operand. -/
def operand (k : OpenClass) : ClassPart :=
  ⟨k.union, if k.items ≤ 1 then k.deepest else k.deepest + 1⟩

/-- The class as far as it goes; operands are folded before an operator takes them. -/
def total (flags : Flags) (k : OpenClass) : ClassPart :=
  let right := k.operand
  match k.pending with
  | none => right
  | some (left, op) =>
    ⟨op.apply (foldCase flags left.members) (foldCase flags right.members),
      max left.depth right.depth + 1⟩

def operator (flags : Flags) (k : OpenClass) (op : SetOperator) : OpenClass :=
  ⟨k.negated, some (k.total flags, op), .empty, 0, 0⟩

/-- The class when its bracket closes. -/
def close? (flags : Flags) (k : OpenClass) : Option ClassPart := do
  let whole := k.total flags
  return ⟨← classMembers? flags k.negated whole.members, whole.depth + 1⟩

end OpenClass

/-- The classes of ASCII characters by their names. -/
def asciiClass? (name : List Char) : Option CharSet :=
  match String.ofList name with
  | "alnum" => some ⟨[⟨0x30, 0x39⟩, ⟨0x41, 0x5A⟩, ⟨0x61, 0x7A⟩]⟩
  | "alpha" => some ⟨[⟨0x41, 0x5A⟩, ⟨0x61, 0x7A⟩]⟩
  | "ascii" => some ⟨[⟨0x00, 0x7F⟩]⟩
  | "blank" => some ⟨[⟨0x09, 0x09⟩, ⟨0x20, 0x20⟩]⟩
  | "cntrl" => some ⟨[⟨0x00, 0x1F⟩, ⟨0x7F, 0x7F⟩]⟩
  | "digit" => some asciiDigits
  | "graph" => some ⟨[⟨0x21, 0x7E⟩]⟩
  | "lower" => some ⟨[⟨0x61, 0x7A⟩]⟩
  | "print" => some ⟨[⟨0x20, 0x7E⟩]⟩
  | "punct" => some ⟨[⟨0x21, 0x2F⟩, ⟨0x3A, 0x40⟩, ⟨0x5B, 0x60⟩, ⟨0x7B, 0x7E⟩]⟩
  | "space" => some asciiBlanks
  | "upper" => some ⟨[⟨0x41, 0x5A⟩]⟩
  | "word" => some Anchor.asciiWord
  | "xdigit" => some ⟨[⟨0x30, 0x39⟩, ⟨0x41, 0x46⟩, ⟨0x61, 0x66⟩]⟩
  | _ => none

/-- A class such as `[:alpha:]`, or negated as in `[:^alpha:]`. -/
structure NamedClass where
  members : CharSet
  negated : Bool

/-- The named class at the beginning of a text, and what follows. -/
def namedClass? (text : List Char) : Option (NamedClass × List Char) :=
  match text with
  | '[' :: ':' :: rest =>
    let negated := rest.head? == some '^'
    let rest := if negated then rest.drop 1 else rest
    match rest.dropWhile (· != ':') with
    | ':' :: ']' :: after =>
      (asciiClass? (rest.takeWhile (· != ':'))).map fun s => (⟨s, negated⟩, after)
    | _ => none
  | _ => none

/-- One end of a range, or an item by itself. -/
def readClassPrimitive : Reader Primitive := do
  let c ← Reader.current
  let item ←
    if c = '\\' then readEscape
    else do
      Reader.drop
      pure (.literal c false)
  Reader.skipIgnored
  return item

/-- The character that a literal means in a class; without Unicode it has to be ASCII. -/
def classLiteral? (flags : Flags) : Primitive → Option Char
  | .literal c _ => if flags.unicode || c ≤ '\x7f' then some c else none
  | _ => none

/-- An item: a range, a character, or a class by escape. A hyphen makes no range before a
closing bracket or another hyphen. -/
def readClassItem : Reader ClassPart := do
  let flags ← Reader.flags
  let first ← readClassPrimitive
  let single := (← Reader.current) ≠ '-'
  let next ← Reader.peekCounting
  if single || next = some ']' || next = some '-' then
    match first with
    | .members s => return ⟨s, 0⟩
    | p =>
      match classLiteral? flags p with
      | some c => return ⟨.singleton c, 0⟩
      | none => failure
  else
    Reader.advance
    let last ← readClassPrimitive
    match classLiteral? flags first, classLiteral? flags last with
    | some a, some b => if a ≤ b then return ⟨.ofRange a b, 0⟩ else failure
    | _, _ => failure

/-- Hyphens at the beginning of a class stand for themselves. -/
def readLeadingHyphens (k : OpenClass) : Nat → Reader OpenClass
  | 0 => failure
  | fuel + 1 => do
    if (← Reader.current) = '-' then
      Reader.advance
      readLeadingHyphens (k.add ⟨.singleton '-', 0⟩) fuel
    else return k

/-- The beginning of a class: its bracket, a caret that negates it, and characters that stand
for themselves only here. -/
def openBracket : Reader OpenClass := do
  Reader.advance
  let negated := (← Reader.current) = '^'
  if negated then Reader.advance
  let k ← readLeadingHyphens ⟨negated, none, .empty, 0, 0⟩ ((← Reader.rest).length + 1)
  if k.items = 0 && (← Reader.current) = ']' then
    Reader.advance
    let _ ← Reader.current
    return k.add ⟨.singleton ']', 0⟩
  else return k

/-- Reads the items of a class up to its closing bracket. -/
def readItems (k : OpenClass) : Nat → Reader ClassPart
  | 0 => failure
  | fuel + 1 => do
    Reader.skipIgnored
    let flags ← Reader.flags
    let c ← Reader.current
    if c = '[' then
      match namedClass? (← Reader.rest) with
      | some (named, after) =>
        Reader.setRest after
        match classMembers? flags named.negated named.members with
        | some s => readItems (k.add ⟨s, 0⟩) fuel
        | none => failure
      | none =>
        let inner ← readItems (← openBracket) fuel
        readItems (k.add inner) fuel
    else if c = ']' then
      Reader.drop
      match k.close? flags with
      | some part => return part
      | none => failure
    else if (← Reader.dropIf ['&', '&']) then readItems (k.operator flags .intersection) fuel
    else if (← Reader.dropIf ['-', '-']) then readItems (k.operator flags .difference) fuel
    else if (← Reader.dropIf ['~', '~']) then
      readItems (k.operator flags .symmetricDifference) fuel
    else readItems (k.add (← readClassItem)) fuel

def readBracket : Reader ClassPart := do
  let fuel := (← Reader.rest).length + 1
  readItems (← openBracket) fuel

end TableAsm.Pattern
