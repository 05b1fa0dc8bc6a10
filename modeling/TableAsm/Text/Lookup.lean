import TableAsm.Text.Age
import TableAsm.Text.Break

/-!
Sets of characters by the names of their properties. Names match loosely: case, blanks, hyphens
and underscores do not count, and neither does a leading "is".
-/
namespace TableAsm.Lookup

/-- A name without what does not count. The abbreviation "isc" keeps its beginning, since the
rest alone would name something else. -/
def normalize (name : String) : String :=
  let letters (cs : List Char) : List Char :=
    (cs.filter fun c => c ≠ ' ' ∧ c ≠ '_' ∧ c ≠ '-' ∧ c ≤ '\x7f').map Char.toLower
  match name.toList with
  | i :: s :: rest =>
    if i.toLower = 'i' ∧ s.toLower = 's' then
      let body := letters rest
      String.ofList (if body = ['c'] then ['i', 's', 'c'] else body)
    else String.ofList (letters (i :: s :: rest))
  | cs => String.ofList (letters cs)

def matchesAny (name : String) (names : List String) : Bool :=
  names.any fun n => normalize n == name

def among (name : String) (rows : List NamedSet) : Option CharSet :=
  (rows.find? fun row => matchesAny name row.names).map (·.members)

def script? (name : String) : Option Script :=
  Script.rows.find? fun row => matchesAny name row.names

/-- Abbreviations of categories that are also abbreviations of properties without a yes-or-no
answer. -/
def categoryFirst : List String := ["cf", "sc", "lc"]

/-- The set with a name of its own: a property, a category or a script. -/
def byName? (name : String) : Option CharSet :=
  let name := normalize name
  let property := if name ∈ categoryFirst then none else among name Property.rows
  (property.or (among name Category.rows)).or ((script? name).map Script.members)

/-- The set of characters for which a property has a value. -/
def byValue? (property value : String) : Option CharSet :=
  let property := normalize property
  let value := normalize value
  let named (names : List String) : Bool := matchesAny property names
  if named ["General_Category", "gc"] then among value Category.rows
  else if named ["Script", "sc"] then (script? value).map Script.members
  else if named ["Script_Extensions", "scx"] then (script? value).map Script.extended
  else if named ["Age"] then among value Age.rows
  else if named ["Grapheme_Cluster_Break", "GCB"] then among value Break.clusterRows
  else if named ["Word_Break", "WB"] then among value Break.wordRows
  else if named ["Sentence_Break", "SB"] then among value Break.sentenceRows
  else none

end TableAsm.Lookup
