import TableAsm.Lexicon.Basic
import TableAsm.Pattern.Reading
import TableAsm.Symbol

/-!
Reading a lexicon from its description: one token kind a line, a name and then a pattern. A star
at either end of the name makes a keyword, a caret makes a kind that is thrown away. Keywords
and names without a pattern stand for themselves. Keywords come first in the lexicon, the other
kinds after them, each in the order of their lines.
-/
namespace TableAsm

/-- What can be wrong with a line of a description. -/
inductive LexiconFault where
  | unnamed (head : String)
  | declaredTwice (kind : String)
  | invalidPattern (kind : String)
deriving DecidableEq, Repr

structure LexiconError where
  /-- Lines count from one. -/
  line : Nat
  fault : LexiconFault
deriving DecidableEq, Repr

def LexiconError.message (e : LexiconError) : String :=
  "lexicon line " ++ toString e.line ++ ": " ++
    match e.fault with
    | .unnamed head => "token `" ++ head ++ "` has no name"
    | .declaredTwice kind => "token `" ++ kind ++ "` is declared twice"
    | .invalidPattern kind => "invalid pattern for `" ++ kind ++ "`"

/-- The first word of a line without its markers, and what they say. -/
structure Heading where
  name : List Char
  keyword : Bool
  ignored : Bool
deriving DecidableEq, Repr

def isMarker (c : Char) : Bool := c == '*' || c == '^'

/-- Takes the markers off both ends of a word. -/
def Heading.ofWord (word : List Char) : Heading :=
  let front := word.takeWhile isMarker
  let rest := (word.dropWhile isMarker).reverse
  let marks := front ++ rest.takeWhile isMarker
  ⟨(rest.dropWhile isMarker).reverse, marks.contains '*', marks.contains '^'⟩

def Heading.kind (h : Heading) : String :=
  if h.keyword then Symbol.keyword (String.ofList h.name) else String.ofList h.name

/-- The matcher of a line: its name for a keyword or without a pattern, else the pattern. -/
def Heading.matcher? (h : Heading) (pattern : List Char) : Option Matcher :=
  if h.keyword || pattern.isEmpty then some (.literal h.name)
  else (Pattern.readWhole? pattern).map .pattern

/-- One declared kind. -/
structure Declaration where
  keyword : Bool
  entry : Entry

/-- Reads one line, given the kinds declared above it. A blank line declares nothing. Blanks
inside a pattern are dropped. -/
def Declaration.ofLine? (known : List String) (line : List Char) :
    Except LexiconFault (Option Declaration) :=
  match splitWords line with
  | [] => .ok none
  | head :: words =>
    let h := Heading.ofWord head
    if h.name.isEmpty then .error (.unnamed (String.ofList head))
    else if known.contains h.kind then .error (.declaredTwice h.kind)
    else
      match h.matcher? words.flatten with
      | none => .error (.invalidPattern h.kind)
      | some m => .ok (some ⟨h.keyword, h.kind, m, h.ignored⟩)

/-- Reads lines in order, the first of which has the given number. -/
def Declaration.ofLines (known : List String) (number : Nat) :
    List (List Char) → Except LexiconError (List Declaration)
  | [] => .ok []
  | line :: rest =>
    match Declaration.ofLine? known line with
    | .error fault => .error ⟨number, fault⟩
    | .ok none => Declaration.ofLines known (number + 1) rest
    | .ok (some d) =>
      (Declaration.ofLines (d.entry.kind :: known) (number + 1) rest).map (d :: ·)

namespace Lexicon

def ofDeclarations (ds : List Declaration) : Lexicon :=
  ⟨(ds.filter (·.keyword) ++ ds.filter (!·.keyword)).map (·.entry)⟩

def ofText (description : String) : Except LexiconError Lexicon :=
  (Declaration.ofLines [] 1 (splitLines description.toList)).map ofDeclarations

end Lexicon

end TableAsm
