import TableAsm.Pattern.Bracket
import TableAsm.Pattern.Room
import TableAsm.Text.Later

/-!
Reading a pattern from its text: branches between bars, groups with or without names and flags,
and repetition of what stands before it. Patterns that nest too deep or take too much room are
refused.
-/
namespace TableAsm.Pattern

/-- A pattern with the depth of the text that describes it. -/
structure Part where
  pattern : Pattern
  depth : Nat

/-- One element of a branch. Flags by themselves match nothing and cannot be repeated. -/
inductive Item where
  | part (p : Part)
  | flagChange

namespace Item

def depth : Item → Nat
  | part p => p.depth
  | flagChange => 0

def pattern : Item → Pattern
  | part p => p.pattern
  | flagChange => empty

end Item

/-- How deep a list of parts nests: a list of one is no level of its own. -/
def listDepth (depths : List Nat) : Nat :=
  let deepest := depths.foldl max 0
  if depths.length ≤ 1 then deepest else deepest + 1

/-- A branch from its items, last first. -/
def branch (items : List Item) : Part :=
  ⟨sequence (items.reverse.map Item.pattern), listDepth (items.map Item.depth)⟩

/-- A choice from its branches, last first. -/
def anyBranch (branches : List Part) : Part :=
  ⟨choice (branches.reverse.map Part.pattern), listDepth (branches.map Part.depth)⟩

/-- A character under the flags in force. -/
def literal? (flags : Flags) (c : Char) (byte : Bool) : Option Pattern :=
  if !flags.unicode && byte && '\x7f' < c then none
  else some (oneOf (foldCase flags (.singleton c)))

/-- Any character, or any that does not end a line. -/
def dot (flags : Flags) : CharSet :=
  if flags.dotAll then .all
  else (CharSet.ofList (if flags.crlf then ['\n', '\r'] else ['\n'])).compl

/-- One character, class or condition. -/
def readPrimitive : Reader Part := do
  let flags ← Reader.flags
  let c ← Reader.current
  if c = '\\' then
    match ← readEscape with
    | .literal c byte =>
      match literal? flags c byte with
      | some p => return ⟨p, 0⟩
      | none => failure
    | .members s => return ⟨oneOf s, 0⟩
    | .condition a => return ⟨.anchor a, 0⟩
  else
    Reader.drop
    if c = '.' then
      if flags.unicode then return ⟨oneOf (dot flags), 0⟩ else failure
    else if c = '^' then
      return ⟨.anchor (if flags.multiLine then .lineStart flags.crlf else .textStart), 0⟩
    else if c = '$' then
      return ⟨.anchor (if flags.multiLine then .lineEnd flags.crlf else .textEnd), 0⟩
    else
      match literal? flags c false with
      | some p => return ⟨p, 0⟩
      | none => failure

/-- Repeats the last of a list of items. -/
def repeatLast (items : List Item) (least : Nat) (most : Option Nat) : Reader (List Item) :=
  match items with
  | .part p :: rest => return .part ⟨repeated p.pattern least most, p.depth + 1⟩ :: rest
  | _ => failure

/-- A question mark after a repetition asks for short matches; whether there is a match does not
depend on it. -/
def dropLazy : Reader Unit := do
  let _ ← Reader.dropIf ['?']

/-- The greatest count that a repetition can name. -/
def countLimit : Nat := 1 <<< 32 - 1

def readDigits (digits : List Char) : Nat → Reader (List Char)
  | 0 => return digits.reverse
  | fuel + 1 => do
    match (← Reader.rest).head? with
    | some c =>
      if '0' ≤ c ∧ c ≤ '9' then
        Reader.advance
        readDigits (c :: digits) fuel
      else return digits.reverse
    | none => return digits.reverse

/-- Blanks around a count do not matter. -/
def dropBlanks : Reader Unit := do
  Reader.setRest ((← Reader.rest).dropWhile isBlank)

def readCount : Reader Nat := do
  dropBlanks
  let digits ← readDigits [] (← Reader.rest).length
  dropBlanks
  let n := digits.foldl (fun n c => n * 10 + (c.toNat - '0'.toNat)) 0
  if digits.isEmpty || countLimit < n then failure
  return n

/-- Counts between braces: one number, a least number and a comma, or both ends. -/
def readCounts : Reader (Nat × Option Nat) := do
  Reader.advance
  let _ ← Reader.current
  let least ← readCount
  let counts ←
    if (← Reader.current) = ',' then do
      Reader.advance
      if (← Reader.current) = '\x7d' then pure (least, none)
      else do
        let most ← readCount
        pure (least, some most)
    else pure (least, some least)
  Reader.require '\x7d'
  Reader.advance
  dropLazy
  if counts.2.all (least ≤ ·) then return counts else failure

/-- Letters, numbers and the few marks that a group name may hold; it begins with a letter or
an underscore. -/
def isGroupNameChar (first : Bool) (c : Char) : Bool :=
  c = '_' || Property.alphabetic.contains c || Later.alphabetic.contains c ||
    (!first && (c = '.' || c = '[' || c = ']' || Category.number.contains c ||
      Later.number.contains c))

def readGroupName (name : List Char) : Nat → Reader String
  | 0 => failure
  | fuel + 1 => do
    let c ← Reader.current
    Reader.drop
    if c = '>' then
      if name.isEmpty then failure else return String.ofList name.reverse
    else if isGroupNameChar name.isEmpty c then readGroupName (c :: name) fuel
    else failure

/-- Flags while they are read: which have been named, and whether a minus came before. -/
structure FlagText where
  flags : Flags
  named : List Char
  negative : Bool
  /-- The last character was a minus. -/
  dangling : Bool

/-- The effect of one flag; `U` only changes which match is preferred. -/
def setFlag? (flags : Flags) (on : Bool) : Char → Option Flags
  | 'i' => some { flags with ignoreCase := on }
  | 'm' => some { flags with multiLine := on }
  | 's' => some { flags with dotAll := on }
  | 'R' => some { flags with crlf := on }
  | 'x' => some { flags with extended := on }
  | 'u' => some { flags with unicode := on }
  | 'U' => some flags
  | _ => none

def FlagText.add? (f : FlagText) (c : Char) : Option FlagText :=
  if c = '-' then
    if f.negative then none else some { f with negative := true, dangling := true }
  else if f.named.contains c then none
  else (setFlag? f.flags (!f.negative) c).map (⟨·, c :: f.named, f.negative, false⟩)

/-- Reads flags up to the character that ends them. -/
def readFlags (f : FlagText) : Nat → Reader FlagText
  | 0 => failure
  | fuel + 1 => do
    let c ← Reader.current
    if c = ':' || c = ')' then
      if f.dangling then failure else return f
    else
      Reader.drop
      match f.add? c with
      | some g => readFlags g fuel
      | none => failure

/-- Conditions on the text around a match that patterns cannot state. -/
def lookAround : List (List Char) :=
  ["?=".toList, "?!".toList, "?<=".toList, "?<!".toList]

/-- Reads to the end of a group with `inner`; flags go back to what they were before it. -/
def readGroupBody (outer : Flags) (inner : Reader Part) : Reader Part := do
  let p ← inner
  Reader.require ')'
  Reader.setFlags outer
  Reader.drop
  return ⟨p.pattern, p.depth + 1⟩

/-- Reads a group that counts, under the next number. -/
def readCounted (outer : Flags) (inner : Reader Part) : Reader Item := do
  let number := (← get).groups + 1
  modify fun s => { s with groups := number }
  let p ← readGroupBody outer inner
  return .part ⟨.group number p.pattern, p.depth⟩

/-- A group, or flags for the rest of the group around it. -/
def readGroup (inner : Reader Part) : Reader Item := do
  let outer ← Reader.flags
  Reader.advance
  let rest ← Reader.rest
  if lookAround.any (·.isPrefixOf rest) then failure
  if (← Reader.dropIf "?P<".toList) || (← Reader.dropIf "?<".toList) then
    let name ← readGroupName [] ((← Reader.rest).length + 1)
    let s ← get
    if s.groupNames.contains name then failure
    set { s with groupNames := name :: s.groupNames }
    readCounted outer inner
  else if (← Reader.dropIf ['?']) then
    let f ← readFlags ⟨outer, [], false, false⟩ ((← Reader.rest).length + 1)
    let last ← Reader.current
    Reader.drop
    if last = ')' then
      if f.named.isEmpty && !f.negative then failure
      Reader.setFlags f.flags
      return .flagChange
    else
      Reader.setFlags f.flags
      return .part (← readGroupBody outer inner)
  else readCounted outer inner

/-- Reads branches up to the end of a group or of the text. `branches` and `items` hold what has
been read, last first. -/
def readBranches (branches : List Part) (items : List Item) : Nat → Reader Part
  | 0 => failure
  | fuel + 1 => do
    Reader.skipIgnored
    match (← Reader.rest).head? with
    | none | some ')' => return anyBranch (branch items :: branches)
    | some '|' =>
      Reader.drop
      readBranches (branch items :: branches) [] fuel
    | some '(' =>
      let item ← readGroup (readBranches [] [] fuel)
      readBranches branches (item :: items) fuel
    | some '[' =>
      let part ← readBracket
      readBranches branches (.part ⟨oneOf part.members, part.depth⟩ :: items) fuel
    | some '?' =>
      let items ← repeatLast items 0 (some 1)
      Reader.drop
      dropLazy
      readBranches branches items fuel
    | some '*' =>
      let items ← repeatLast items 0 none
      Reader.drop
      dropLazy
      readBranches branches items fuel
    | some '+' =>
      let items ← repeatLast items 1 none
      Reader.drop
      dropLazy
      readBranches branches items fuel
    | some '\x7b' =>
      let (least, most) ← readCounts
      readBranches branches (← repeatLast items least most) fuel
    | some _ =>
      let part ← readPrimitive
      readBranches branches (.part part :: items) fuel

/-- Deeper patterns are refused. -/
def depthLimit : Nat := 250

/-- The pattern that a text describes, if the text is well formed and within the limits. -/
def read? (text : List Char) : Option Pattern := do
  let (part, s) ← (readBranches [] [] (text.length + 1)).run ⟨text, {}, 0, []⟩
  if s.rest.isEmpty && part.depth ≤ depthLimit && part.pattern.fits then return part.pattern
  else none

/-- The pattern that a text describes when it has to match from end to end. The text is put
between anchors as it stands, so a bracket that it closes too early lets an anchor go. -/
def readWhole? (text : List Char) : Option Pattern :=
  read? ("^(?:".toList ++ text ++ ")$".toList)

end TableAsm.Pattern
