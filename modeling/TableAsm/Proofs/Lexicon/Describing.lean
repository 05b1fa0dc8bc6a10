import Mathlib.Data.List.Forall2
import Mathlib.Data.List.Nodup
import Mathlib.Data.List.TakeWhile
import TableAsm.Lexicon.Description

/-! What descriptions of lexicons say. Each line that is not blank is a row: a name between markers,
and a pattern. A description is accepted if every row has a name, no two rows declare one kind and
every pattern that is used can be read; otherwise the first row at fault is reported. Keywords come
first in the lexicon, so the text of a keyword is never taken for anything else. -/
namespace TableAsm

namespace Heading

/-- A word is a name between markers, and the name neither begins nor ends with one. -/
structure Strips (h : Heading) (word : List Char) : Prop where
  split : ∃ front back, word = front ++ h.name ++ back ∧
    (∀ c ∈ front ++ back, isMarker c = true) ∧ (h.keyword = true ↔ '*' ∈ front ++ back) ∧
    (h.ignored = true ↔ '^' ∈ front ++ back)
  first : ∀ c, h.name.head? = some c → isMarker c = false
  last : ∀ c, h.name.getLast? = some c → isMarker c = false

end Heading

section Words

variable {word rest : List Char}

end Words

/-- What a line of a description says: its first word, what that tells, and the pattern. -/
structure Row where
  word : List Char
  heading : Heading
  pattern : List Char

namespace Row

def ofLine? (line : List Char) : Option Row :=
  match splitWords line with
  | [] => none
  | word :: words => some ⟨word, .ofWord word, words.flatten⟩

/-- The rows of lines in their order; blank lines have none. -/
def ofLines (lines : List (List Char)) : List Row := lines.filterMap ofLine?

def kind (r : Row) : String := r.heading.kind

/-- The first word stands between blanks, a heading is made of it, and what follows without its
blanks is the pattern. -/
structure Reads (r : Row) (line : List Char) : Prop where
  split : ∃ gap rest, line = gap ++ (r.word ++ rest) ∧ (∀ c ∈ gap, isBlank c = true) ∧
    (∀ c, rest.head? = some c → isBlank c = true) ∧ r.pattern = rest.filter (!isBlank ·)
  nonempty : r.word ≠ []
  word : ∀ c ∈ r.word, isBlank c = false
  heading : r.heading.Strips r.word

/-- A pattern that is used can be read. Keywords and names without a pattern stand for themselves. -/
def Legible (r : Row) : Prop :=
  r.heading.keyword = false → r.pattern ≠ [] → (Pattern.readWhole? r.pattern).isSome = true

/-- What is wrong with a row below others that declare the known kinds. -/
inductive Faulty (known : List String) (r : Row) : LexiconFault → Prop where
  | unnamed : r.heading.name = [] → Faulty known r (.unnamed (String.ofList r.word))
  | declaredTwice : r.heading.name ≠ [] → r.kind ∈ known → Faulty known r (.declaredTwice r.kind)
  | invalidPattern : r.heading.name ≠ [] → r.kind ∉ known → ¬r.Legible →
      Faulty known r (.invalidPattern r.kind)

/-- Nothing is wrong with a row. -/
structure Fits (known : List String) (r : Row) : Prop where
  named : r.heading.name ≠ []
  fresh : r.kind ∉ known
  legible : r.Legible

theorem Faulty.mono {known more : List String} {r : Row} {fault : LexiconFault}
    (faulty : r.Faulty known fault) (same : ∀ kind, kind ∈ known ↔ kind ∈ more) :
    r.Faulty more fault := by
  cases faulty with
  | unnamed none => exact .unnamed none
  | declaredTwice named seen => exact .declaredTwice named ((same _).mp seen)
  | invalidPattern named fresh illegible =>
    exact .invalidPattern named (fun seen => fresh ((same _).mpr seen)) illegible

end Row

namespace Declaration

variable {known : List String} {number : Nat} {line : List Char} {lines : List (List Char)}
  {r : Row} {ds : List Declaration}

end Declaration

namespace Lexicon

section Declared

variable {rows : List Row} {ds : List Declaration} {r : Row} {e : Entry}

end Declared

end Lexicon

end TableAsm
