import TableAsm.Pattern.Basic
import TableAsm.Text.Blank
import TableAsm.Text.CaseFold
import TableAsm.Text.Chart

/-!
The state of reading a pattern's text: what is left of it, the flags in force, and the groups
opened so far. A reader that returns nothing has met a malformed pattern.
-/
namespace TableAsm.Pattern

/-- The flags that change how the text of a pattern is read. -/
structure Flags where
  ignoreCase : Bool := false
  multiLine : Bool := false
  dotAll : Bool := false
  crlf : Bool := false
  /-- Blanks and comments in the pattern do not count. -/
  extended : Bool := false
  /-- Classes and case know all characters, not only those of ASCII. -/
  unicode : Bool := true
deriving DecidableEq, Repr

structure Cursor where
  rest : List Char
  flags : Flags
  /-- How many groups that count have been opened. -/
  groups : Nat
  /-- The names that groups have been given. -/
  groupNames : List String

abbrev Reader := StateT Cursor Option

/-- Drops the rest of a comment, with the line feed that ends it. -/
def dropComment : List Char → List Char
  | [] => []
  | c :: cs => if c = '\n' then cs else dropComment cs

theorem length_dropComment_le (cs : List Char) : (dropComment cs).length ≤ cs.length := by
  induction cs with
  | nil => simp [dropComment]
  | cons c cs ih =>
    unfold dropComment
    split
    · simp
    · exact Nat.le_succ_of_le ih

/-- Drops blanks and comments; a comment runs from a number sign to the end of its line. -/
def dropIgnored : List Char → List Char
  | [] => []
  | c :: cs =>
    if isBlank c then dropIgnored cs
    else if c = '#' then dropIgnored (dropComment cs)
    else c :: cs
termination_by cs => cs.length
decreasing_by
  · simp
  · simpa [Nat.lt_succ_iff] using length_dropComment_le cs

namespace Reader

def flags : Reader Flags := do return (← get).flags

def setFlags (flags : Flags) : Reader Unit := modify fun s => { s with flags }

def rest : Reader (List Char) := do return (← get).rest

def setRest (rest : List Char) : Reader Unit := modify fun s => { s with rest }

/-- Passes over what does not count under the flags in force. -/
def skipIgnored : Reader Unit := do
  if (← flags).extended then setRest (dropIgnored (← rest))

/-- The next character, which has to be there. -/
def current : Reader Char := do
  match ← rest with
  | [] => failure
  | c :: _ => return c

/-- Passes over one character. -/
def drop : Reader Unit := do setRest ((← rest).drop 1)

/-- Passes over one character and what does not count after it. -/
def advance : Reader Unit := do
  drop
  skipIgnored

/-- The character after the current one; in extended mode the next one that counts. -/
def peekCounting : Reader (Option Char) := do
  let after := (← rest).drop 1
  if (← flags).extended then return (dropIgnored after).head? else return after.head?

/-- Passes over a text if it stands here, and tells whether it did. -/
def dropIf (text : List Char) : Reader Bool := do
  let cs ← rest
  if text.isPrefixOf cs then
    setRest (cs.drop text.length)
    return true
  else return false

/-- The next character has to be `c`. -/
def require (c : Char) : Reader Unit := do
  if (← current) ≠ c then failure

end Reader

/-- The character with a code point, if there is one. -/
def charAt? (n : Nat) : Option Char :=
  if n < 0xD800 ∨ (0xDFFF < n ∧ n < 0x110000) then some (Char.ofNat n) else none

/-- Adds the other cases of the members under the flags in force. -/
def foldCase (flags : Flags) (s : CharSet) : CharSet :=
  if flags.ignoreCase then
    if flags.unicode then CaseFold.close s else CaseFold.closeAscii s
  else s

/-- Without Unicode the complement is taken among single bytes. -/
def complement (flags : Flags) (s : CharSet) : CharSet :=
  if flags.unicode then s.compl else s.compl.inter ⟨[⟨0, 0xFF⟩]⟩

/-- A set that matches whole characters only: without Unicode, bytes above 0x7F are none. -/
def wholeChars? (flags : Flags) (s : CharSet) : Option CharSet :=
  if flags.unicode || s.merge.spans.all (·.last ≤ 0x7F) then some s else none

/-- The members that a class asks for under the flags in force. Other cases are added before the
complement is taken, so that it leaves them out too. -/
def classMembers? (flags : Flags) (negated : Bool) (s : CharSet) : Option CharSet :=
  let folded := foldCase flags s
  wholeChars? flags (if negated then complement flags folded else folded)

end TableAsm.Pattern
