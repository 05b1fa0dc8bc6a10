import TableAsm.Text.CharSet

/-!
Blanks: the characters with the White_Space property. They separate the words of a line.
-/
namespace TableAsm

/-- The characters with the White_Space property. -/
def blanks : CharSet :=
  ⟨[⟨0x09, 0x0D⟩, ⟨0x20, 0x20⟩, ⟨0x85, 0x85⟩, ⟨0xA0, 0xA0⟩, ⟨0x1680, 0x1680⟩,
    ⟨0x2000, 0x200A⟩, ⟨0x2028, 0x2029⟩, ⟨0x202F, 0x202F⟩, ⟨0x205F, 0x205F⟩,
    ⟨0x3000, 0x3000⟩]⟩

def isBlank (c : Char) : Bool := blanks.contains c

/-- The lines of a text, cut at line feeds. -/
def splitLines : List Char → List (List Char)
  | [] => [[]]
  | c :: cs =>
    if c = '\n' then [] :: splitLines cs
    else
      match splitLines cs with
      | [] => [[c]]
      | line :: rest => (c :: line) :: rest

/-- The words of a line: its longest pieces without blanks. `current` holds the word being
read, last character first. -/
def readWords (current : List Char) : List Char → List (List Char)
  | [] => if current.isEmpty then [] else [current.reverse]
  | c :: cs =>
    if isBlank c then
      if current.isEmpty then readWords [] cs else current.reverse :: readWords [] cs
    else readWords (c :: current) cs

def splitWords (line : List Char) : List (List Char) := readWords [] line

end TableAsm
