import Std.Data.HashMap
import TableAsm.Pattern.Normal
import TableAsm.Text.Utf8

/-!
The room that a pattern takes as an automaton that reads the bytes of UTF-8, and the limit on it.
An automaton is made twice, for reading a text forwards and backwards, and each has to keep to
the limit. A state takes 32 bytes; a list in it takes 4 bytes for each state that it leads to
without reading, and 8 for each range of bytes. Counted repetitions are written out.
-/
namespace TableAsm

/-- What has been made of an automaton: its states and, in bytes, the lists that they hold. A
state is known by the number of states made before it. -/
structure Room where
  states : Nat
  lists : Nat
deriving DecidableEq, Repr

namespace Room

def bytes (r : Room) : Nat := 32 * r.states + r.lists

/-- The bytes that an automaton may take. -/
def limit : Nat := 10 * 1 <<< 20

/-- Adds so many states without lists. -/
def plain (count : Nat) (r : Room) : Room := ⟨r.states + count, r.lists⟩

/-- Adds a state that leads to so many others without reading. -/
def fork (targets : Nat) (r : Room) : Room := ⟨r.states + 1, r.lists + 4 * targets⟩

/-- Adds a state that reads a byte of one of so many ranges. -/
def switch (ranges : Nat) (r : Room) : Room := ⟨r.states + 1, r.lists + 8 * ranges⟩

/-- Does something so many times over, but stops beyond the limit. -/
def copies (f : Room → Room) : Nat → Room → Room
  | 0, r => r
  | n + 1, r => if limit < r.bytes then r else copies f n (f r)

/-- Mixes numbers into one of 64 bits. -/
def mix (numbers : List Nat) : UInt64 :=
  numbers.foldl (fun h n => (h ^^^ n.toUInt64) * 1099511628211) 14695981039346656037

end Room

/-- The states made for one set, found again by a key. A slot remembers only the last key that
fell into it, so some states are made more than once. -/
structure SharedStates (α : Type) where
  room : Room
  slots : Std.HashMap UInt64 (α × Nat)

namespace SharedStates

/-- The state for a key, which `make` adds unless it is remembered. -/
def find [DecidableEq α] (s : SharedStates α) (slot : UInt64) (key : α) (make : Room → Room) :
    Nat × SharedStates α :=
  let fresh := (s.room.states, ⟨make s.room, s.slots.insert slot (key, s.room.states)⟩)
  match s.slots[slot]? with
  | some (known, id) => if known = key then (id, s) else fresh
  | none => fresh

end SharedStates

/-- A step from a state: any byte of a range leads to the state `next`. -/
structure ByteStep where
  range : ByteRange
  next : Nat
deriving DecidableEq

/-- A state whose steps are not complete. The next state of its last step is not made yet. -/
structure OpenState where
  /-- The complete steps, last first. -/
  steps : List ByteStep
  last : Option ByteRange

namespace OpenState

/-- The steps in order once the last one leads to `next`. -/
def complete (s : OpenState) (next : Nat) : List ByteStep :=
  match s.last with
  | some range => ⟨range, next⟩ :: s.steps
  | none => s.steps

abbrev Making := StateM (SharedStates (List ByteStep))

/-- Makes a state with some steps, last first. -/
def make (steps : List ByteStep) : Making Nat := do
  let numbers := steps.reverse.flatMap fun t => [t.range.first, t.range.last, t.next]
  modifyGet (·.find (Room.mix numbers % 10000) steps (Room.switch steps.length))

/-- Makes the states of a path, the last of which leads to `target`, and gives the first. -/
def close (target : Nat) : List OpenState → Making Nat
  | [] => return target
  | s :: deeper => do make (s.complete (← close target deeper))

/-- Follows a path as long as it reads the same, and leaves it there for new states. -/
def branchOff (target : Nat) : List OpenState → List ByteRange → Making (List OpenState)
  | s :: deeper, range :: ranges => do
    if s.last = some range then return s :: (← branchOff target deeper ranges)
    else
      let steps := s.complete (← close target deeper)
      return ⟨steps, some range⟩ :: ranges.map (⟨[], some ·⟩)
  | path, _ => return path

/-- Makes the states for all sequences of a set. -/
def makeAll (target : Nat) (sequences : List (List ByteRange)) : Making Unit := do
  let path ← sequences.foldlM (branchOff target) [⟨[], none⟩]
  let _ ← close target path

end OpenState

namespace Room

/-- Adds a set read forwards: sequences share states where they begin alike and, as far as they
are remembered, where they end alike. -/
def forwardSet (sequences : List (List ByteRange)) (r : Room) : Room :=
  ((OpenState.makeAll r.states sequences).run ⟨r.plain 1, {}⟩).2.room

/-- Adds one sequence read backwards to a set. -/
def backwardSequence (target : Nat) (s : SharedStates (Nat × ByteRange))
    (ranges : List ByteRange) : SharedStates (Nat × ByteRange) :=
  let (_, s) := ranges.foldl (fun (next, s) range =>
    s.find (mix [next, range.first, range.last] % 1000) (next, range) (plain 1)) (target, s)
  { s with room := { s.room with lists := s.room.lists + 4 } }

/-- Adds a set read backwards: sequences share states where they begin alike, as far as they are
remembered. -/
def backwardSet (sequences : List (List ByteRange)) (r : Room) : Room :=
  (sequences.foldl (backwardSequence (r.states + 1)) ⟨r.plain 2, {}⟩).room

/-- Words in order of choice, cut after each one that is empty. -/
def cutWords : List (List Nat) → List (List (List Nat))
  | [] => [[]]
  | [] :: words => [] :: cutWords words
  | w :: words =>
    match cutWords words with
    | chunk :: chunks => (w :: chunk) :: chunks
    | [] => [[w]]

/-- Puts a word among words that stand under their first bytes. -/
def file (byte : Nat) (rest : List Nat) :
    List (Nat × List (List Nat)) → List (Nat × List (List Nat))
  | [] => [(byte, [rest])]
  | (b, words) :: more =>
    if b = byte then (b, rest :: words) :: more else (b, words) :: file byte rest more

/-- The words of a chunk under their first bytes. -/
def index (chunk : List (List Nat)) : List (Nat × List (List Nat)) :=
  chunk.foldr (fun w files => match w with | [] => files | b :: rest => file b rest files) []

/-- Adds words, of at most so many bytes, that share states where they begin alike. Words after
an empty one do not share with those before it. -/
def words : Nat → List (List Nat) → Room → Room
  | 0, _, r => r
  | length + 1, ws, r =>
    if ws.all (·.isEmpty) then r
    else
      let chunks :=
        match ws with
        | [] :: ws => [] :: cutWords (ws.dropWhile (·.isEmpty))
        | ws => cutWords ws
      let indices := chunks.map index
      let r := indices.foldl (fun r files =>
        let r := files.foldl (fun r (_, ws) => words length ws r) r
        if files.isEmpty then r else if files.length = 1 then r.plain 1
        else r.switch files.length) r
      r.fork ((indices.filter (!·.isEmpty)).length + (chunks.length - 1))

end Room

namespace Pattern

def bytes (cs : List Char) : List Nat := cs.flatMap (Utf8.encode ·.toNat)

/-- The text that a pattern stands for. -/
def text? : Pattern → Option (List Char)
  | text cs => some cs
  | _ => none

/-- Adds one character of a set. -/
def placeSet (backward : Bool) (s : CharSet) (r : Room) : Room :=
  if s.spans.all (·.last ≤ 0x7F) then (r.plain 1).switch s.spans.length
  else if backward then r.backwardSet (Utf8.ofSet s)
  else r.forwardSet (Utf8.ofSet s)

/-- Adds a choice among texts. -/
def placeTexts (backward : Bool) (texts : List (List Char)) (r : Room) : Room :=
  let words := texts.map fun cs => if backward then (bytes cs).reverse else bytes cs
  (r.plain 1).words (words.foldl (fun n w => max n w.length) 0) words

/-- Adds a pattern repeated, where `one` adds it once. -/
def placeTimes (one : Room → Room) (least : Nat) (most : Option Nat) (consumes : Bool)
    (r : Room) : Room :=
  match least, most with
  | 0, some 1 => (one (r.fork 2)).plain 1
  | 0, none => if consumes then one (r.fork 2) else (((one r).fork 2).fork 2).plain 1
  | n + 1, none => (r.copies one (n + 1)).fork 2
  | least, some most =>
    let r := if least = 0 then r.plain 1 else r.copies one least
    if least = most then r
    else (r.plain 1).copies (fun r => one (r.fork 2)) (most - least)

/-- Adds a pattern. The branches of a choice meet in two states that are made after the second
of them; `further` tells that these are made already. -/
def place (backward : Bool) (p : Pattern) (further : Bool) (r : Room) : Room :=
  match p, further with
  | empty, _ => r.plain 1
  | text cs, _ => r.plain (bytes cs).length
  | chars s, _ => placeSet backward s r
  | anchor _, _ => r.plain 1
  | times least most p, _ =>
    placeTimes (p.place backward false) least most (p.minLength.any (0 < ·)) r
  | group _ p, _ =>
    if backward then p.place backward false r else (p.place backward false (r.plain 1)).plain 1
  | seq p q, _ =>
    if backward then p.place backward false (q.place backward false r)
    else q.place backward false (p.place backward false r)
  | alt p q, true => q.place backward true (p.place backward false r)
  | alt p q, false =>
    let all := (alt p q).branches
    match all.mapM text? with
    | some texts => placeTexts backward texts r
    | none =>
      let r := p.place backward false r
      match q with
      | alt q rest =>
        rest.place backward true (((q.place backward false r).fork all.length).plain 1)
      | q => ((q.place backward false r).fork all.length).plain 1

/-- The room of a pattern that is searched for anywhere in a text. A search forwards notes where
the match begins and ends; a search that is not tied to an end of the text first skips any
bytes. -/
def room (backward : Bool) (p : Pattern) : Room :=
  let tied := if backward then p.endsText else p.beginsText
  let skipped : Room := if tied then ⟨1, 0⟩ else ⟨3, 16⟩
  if backward then (p.place true false skipped).plain 1
  else (p.place false false (skipped.plain 1)).plain 2

/-- Bytes that a span takes at most, in either direction: by how many sequences it can fall
into. -/
def spanBound (s : Span) : Nat :=
  if s.last ≤ 0x7F then 40
  else if s.first / 64 = s.last / 64 then 160
  else if s.first / 4096 = s.last / 4096 then 3 * 160
  else 21 * 160

/-- Bytes that a pattern takes at most, in either direction. -/
def roomBound : Pattern → Nat
  | empty => 32
  | text cs => 80 * (bytes cs).length
  | chars s => (s.spans.map spanBound).foldl (· + ·) 64
  | anchor _ => 32
  | times least most p => max 1 (most.getD least) * (p.roomBound + 40) + 112
  | group _ p => p.roomBound + 64
  | seq p q => p.roomBound + q.roomBound
  | alt p q => p.roomBound + q.roomBound + 72

/-- Whether a pattern keeps to the limit in both directions. -/
def fits (p : Pattern) : Bool :=
  decide (p.roomBound + 256 ≤ Room.limit) ||
    (decide ((p.room false).bytes ≤ Room.limit) && decide ((p.room true).bytes ≤ Room.limit))

end Pattern

end TableAsm
