import TableAsm.Pattern.Basic

/-!
Matching by following all matches at once. At each place in a text, a course tells for every part
of a pattern how far matches have come in it; reading a character takes all of them on together.
So the work for a character is bounded by the parts in which matches are under way, however many
ways there are to divide the text among them.
-/
namespace TableAsm

namespace Pattern

/-- How often a pattern has still to be repeated, and how often it may be. -/
structure Turns where
  least : Nat
  most : Option Nat
deriving DecidableEq, Repr, Inhabited

namespace Turns

/-- The turns left once one begins. If the empty text could stand for a turn here, it can stand
for all that are still required. -/
def next? (t : Turns) (free : Bool) : Option Turns :=
  if t.most = some 0 then none
  else some ⟨if free then 0 else t.least - 1, t.most.map (· - 1)⟩

/-- The order in which turns are listed: where more are left comes first. -/
def precedes (s t : Turns) : Bool :=
  decide (t.most.getD 0 < s.most.getD 0) || (s.most = t.most && decide (t.least < s.least))

/-- Puts turns in front of others, unless they stand there. -/
def cons (t : Turns) (ts : List Turns) : List Turns := if ts.head? = some t then ts else t :: ts

end Turns

/-- The matches of a pattern that have read a character. -/
inductive Course where
  | none
  /-- What is left of a text, for each match that has begun. -/
  | rests (texts : List (List Char))
  /-- One character of a set has been read, and that is all. -/
  | done
  /-- Matches that have come to the first part of a pattern, and to the second. -/
  | parts (first second : Course)
  /-- Matches in some turn of a repetition, by the turns left after it. -/
  | turns (courses : List (Turns × Course))
deriving Inhabited

namespace Course

def isNone : Course → Bool
  | none => true
  | _ => false

def texts : Course → List (List Char)
  | rests texts => texts
  | _ => []

def isDone : Course → Bool
  | done => true
  | _ => false

def first : Course → Course
  | parts a _ => a
  | _ => none

def second : Course → Course
  | parts _ b => b
  | _ => none

def inTurns : Course → List (Turns × Course)
  | turns courses => courses
  | _ => []

def ofTexts (texts : List (List Char)) : Course := if texts.isEmpty then none else rests texts

def ofParts (a b : Course) : Course := if a.isNone && b.isNone then none else parts a b

def ofTurns (courses : List (Turns × Course)) : Course :=
  match courses.filter (!·.2.isNone) with
  | [] => none
  | courses => turns courses

/-- Lists courses with turns that begin, in order, and tells for each whether its turns do. -/
def begin (courses : List (Turns × Course)) (starts : List Turns) :
    List (Turns × Course × Bool) :=
  match courses, starts with
  | [], starts => starts.map (·, none, true)
  | courses, [] => courses.map fun (t, a) => (t, a, false)
  | (t, a) :: courses, start :: starts =>
    if t = start then (t, a, true) :: begin courses starts
    else if t.precedes start then (t, a, false) :: begin courses (start :: starts)
    else (start, none, true) :: begin ((t, a) :: courses) starts
termination_by courses.length + starts.length

end Course

/-- Whether a match under way ends between two neighbours. `fresh` tells that a match may also
begin there, and then the empty text counts. -/
def ends (before after : Option Char) (p : Pattern) (course : Course) (fresh : Bool) : Bool :=
  if course.isNone && !fresh then false
  else
    match p with
    | empty => fresh
    | text cs => course.texts.any (·.isEmpty) || (fresh && cs.isEmpty)
    | chars _ => course.isDone
    | anchor a => fresh && a.holds before after
    | times least _ p =>
      (fresh && (least = 0 || p.ends before after .none true)) ||
        course.inTurns.any fun (left, a) =>
          p.ends before after a false && (left.least = 0 || p.ends before after .none true)
    | group _ p => p.ends before after course fresh
    | seq p q => q.ends before after course.second (p.ends before after course.first fresh)
    | alt p q =>
      p.ends before after course.first fresh || q.ends before after course.second fresh

/-- Whether a pattern matches the empty text between two neighbours. -/
def nullable (before after : Option Char) (p : Pattern) : Bool := p.ends before after .none true

/-- The matches under way after `c`, which follows `before`. `fresh` tells that a match may also
begin with `c`. -/
def advance (before : Option Char) (c : Char) (p : Pattern) (course : Course) (fresh : Bool) :
    Course :=
  if course.isNone && !fresh then .none
  else
    match p with
    | empty => .none
    | text cs =>
      .ofTexts ((if fresh then cs :: course.texts else course.texts).filterMap fun
        | d :: ds => if c = d then some ds else none
        | [] => none)
    | chars s => if fresh && s.contains c then .done else .none
    | anchor _ => .none
    | times least most p =>
      let ended := course.inTurns.filterMap fun (left, a) =>
        if p.ends before (some c) a false then some left else none
      let free := p.nullable before (some c)
      let starts := (if fresh then ⟨least, most⟩ :: ended else ended).filterMap (·.next? free)
      .ofTurns ((Course.begin course.inTurns (starts.foldr Turns.cons [])).map
        fun (left, a, begins) => (left, p.advance before c a begins))
    | group _ p => p.advance before c course fresh
    | seq p q =>
      .ofParts (p.advance before c course.first fresh)
        (q.advance before c course.second (p.ends before (some c) course.first fresh))
    | alt p q =>
      .ofParts (p.advance before c course.first fresh) (q.advance before c course.second fresh)

end Pattern

/-- The state of a search for a pattern in a text read from its start. -/
structure Scan where
  pattern : Pattern
  /-- The last character read. -/
  before : Option Char
  /-- The matches under way. -/
  course : Pattern.Course
  /-- Whether a match has ended before this place. -/
  hit : Bool

namespace Scan

def start (p : Pattern) : Scan := ⟨p, none, .none, false⟩

/-- Whether a match ends here, before the character `after`; it may also begin here. -/
def endsHere (s : Scan) (after : Option Char) : Bool :=
  s.pattern.ends s.before after s.course true

/-- Reads a character. A match may begin with any. -/
def step (s : Scan) (c : Char) : Scan :=
  if s.hit then s
  else
    { s with
      before := some c
      course := s.pattern.advance s.before c s.course true
      hit := s.endsHere (some c) }

/-- Whether a match lies in the text read, if that is all of the text. -/
def accepts (s : Scan) : Bool := s.hit || s.endsHere none

end Scan

namespace Pattern

/-- Whether the pattern matches somewhere in a text. -/
def foundIn (p : Pattern) (text : List Char) : Bool := (text.foldl Scan.step (.start p)).accepts

end Pattern

end TableAsm
