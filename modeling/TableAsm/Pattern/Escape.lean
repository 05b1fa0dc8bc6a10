import TableAsm.Pattern.Cursor
import TableAsm.Text.Lookup

/-!
Escapes in a pattern: what a backslash and the characters after it stand for.
-/
namespace TableAsm.Pattern

/-- What one element of a pattern's text stands for. -/
inductive Primitive where
  /-- A character; `byte` tells that it was written as a two-digit code. -/
  | literal (c : Char) (byte : Bool)
  | members (s : CharSet)
  | condition (a : Anchor)

def isMeta (c : Char) : Bool := "\\.+*?()|[]\x7b\x7d^$#&-~".toList.contains c

/-- Whether a backslash before a character makes no difference to it. -/
def isEscapable (c : Char) : Bool :=
  isMeta c || (decide (c ≤ '\x7f') && !c.isAlphanum && c != '<' && c != '>')

def asciiDigits : CharSet := .ofRange '0' '9'
def asciiBlanks : CharSet := ⟨[⟨0x09, 0x0D⟩, ⟨0x20, 0x20⟩]⟩

/-- The class that a letter after a backslash stands for, in lower case; its complement is meant
by the letter in upper case. -/
def shorthand (flags : Flags) (letter : Char) : CharSet :=
  match letter with
  | 'd' => if flags.unicode then Category.decimalNumber else asciiDigits
  | 's' => if flags.unicode then blanks else asciiBlanks
  | _ => if flags.unicode then Property.word else Anchor.asciiWord

def readShorthand (letter : Char) : Reader Primitive := do
  let flags ← Reader.flags
  let s := shorthand flags letter.toLower
  if letter.isUpper then
    match wholeChars? flags (complement flags s) with
    | some s => return .members s
    | none => failure
  else return .members s

def readHexDigit : Reader Nat := do
  match Chart.hexDigit? (← Reader.current) with
  | some d =>
    Reader.advance
    return d
  | none => failure

/-- Reads exactly so many hexadecimal digits. -/
def readHexDigits (value : Nat) : Nat → Reader Nat
  | 0 => return value
  | n + 1 => do readHexDigits (value * 16 + (← readHexDigit)) n

/-- Reads hexadecimal digits up to a closing brace. -/
def readHexBraced (value : Nat) (any : Bool) : Nat → Reader Nat
  | 0 => failure
  | fuel + 1 => do
    if (← Reader.current) = '\x7d' then
      Reader.advance
      if any then return value else failure
    else readHexBraced (value * 16 + (← readHexDigit)) true fuel

/-- The digits of a code point after `x`, `u` or `U`. -/
def readCodePoint (letter : Char) : Reader Primitive := do
  Reader.advance
  let braced := (← Reader.current) = '\x7b'
  let n ←
    if braced then do
      Reader.advance
      readHexBraced 0 false ((← Reader.rest).length + 1)
    else readHexDigits 0 (if letter = 'x' then 2 else if letter = 'u' then 4 else 8)
  match charAt? n with
  | some c => return .literal c (letter = 'x' && !braced)
  | none => failure

/-- Splits a name at the first occurrence of a mark. -/
def splitAt? (mark : List Char) : List Char → Option (List Char × List Char)
  | [] => none
  | c :: cs =>
    if mark.isPrefixOf (c :: cs) then some ([], (c :: cs).drop mark.length)
    else (splitAt? mark cs).map fun (before, after) => (c :: before, after)

/-- The set that the text between the braces of a property class asks for, and whether its
complement is meant. -/
def propertyClass? (text : List Char) : Option (CharSet × Bool) :=
  let valued (negated : Bool) (parts : List Char × List Char) : Option (CharSet × Bool) :=
    (Lookup.byValue? (String.ofList parts.1) (String.ofList parts.2)).map (·, negated)
  match splitAt? ['!', '='] text with
  | some parts => valued true parts
  | none =>
    match splitAt? [':'] text with
    | some parts => valued false parts
    | none =>
      match splitAt? ['='] text with
      | some parts => valued false parts
      | none => (Lookup.byName? (String.ofList text)).map (·, false)

/-- Reads up to a closing brace, which is passed over. -/
def readBraced (text : List Char) : Nat → Reader (List Char)
  | 0 => failure
  | fuel + 1 => do
    let c ← Reader.current
    if c = '\x7d' then
      Reader.drop
      return text.reverse
    else
      Reader.advance
      readBraced (c :: text) fuel

/-- A class by property: one letter or a name in braces after `p` or `P`. -/
def readProperty (negated : Bool) : Reader Primitive := do
  Reader.advance
  let c ← Reader.current
  let text ←
    if c = '\x7b' then do
      Reader.advance
      readBraced [] ((← Reader.rest).length + 1)
    else if c = '\\' then failure
    else do
      Reader.advance
      pure [c]
  let flags ← Reader.flags
  if !flags.unicode then failure
  match propertyClass? text with
  | some (s, other) =>
    match classMembers? flags (negated != other) s with
    | some s => return .members s
    | none => failure
  | none => failure

/-- Reads a word of letters and hyphens; what does not count between them is passed over. -/
def readName (name : List Char) : Nat → Reader (List Char)
  | 0 => return name.reverse
  | fuel + 1 => do
    match (← Reader.rest).head? with
    | some c =>
      if c.isAlpha || c = '-' then
        Reader.advance
        readName (c :: name) fuel
      else return name.reverse
    | none => return name.reverse

/-- The kind of word boundary named in braces after `b`. Braces that do not begin with a name
are left alone: they are a repetition. -/
def readBoundary : Reader Anchor := do
  let ascii := !(← Reader.flags).unicode
  let saved ← get
  if (← Reader.dropIf ['\x7b']) then
    Reader.skipIgnored
    let c ← Reader.current
    if c.isAlpha || c = '-' then
      let name ← readName [] (← Reader.rest).length
      Reader.require '\x7d'
      Reader.drop
      match String.ofList name with
      | "start" => return .wordStart ascii
      | "end" => return .wordEnd ascii
      | "start-half" => return .wordStartHalf ascii
      | "end-half" => return .wordEndHalf ascii
      | _ => failure
    else
      set saved
      return .wordBoundary ascii
  else return .wordBoundary ascii

/-- What a backslash and the characters after it stand for. -/
def readEscape : Reader Primitive := do
  Reader.drop
  let c ← Reader.current
  if c = 'x' || c = 'u' || c = 'U' then readCodePoint c
  else if c = 'p' || c = 'P' then readProperty (c = 'P')
  else
    Reader.drop
    let ascii := !(← Reader.flags).unicode
    if "dswDSW".toList.contains c then readShorthand c
    else if isEscapable c then return .literal c false
    else
      match c with
      | 'a' => return .literal '\x07' false
      | 'f' => return .literal '\x0c' false
      | 't' => return .literal '\t' false
      | 'n' => return .literal '\n' false
      | 'r' => return .literal '\r' false
      | 'v' => return .literal '\x0b' false
      | 'A' => return .condition .textStart
      | 'z' => return .condition .textEnd
      | 'b' => return .condition (← readBoundary)
      | 'B' => return .condition (.noWordBoundary ascii)
      | '<' => return .condition (.wordStart ascii)
      | '>' => return .condition (.wordEnd ascii)
      | _ => failure

end TableAsm.Pattern
