import TableAsm.Error

/-!
Files by path. A store holds the entries of one directory: files with their bytes, and empty
directories. A path is walked part by part; parts that are empty or a single point stay where
they are, two points go up, and nothing lies below a file.
-/
namespace TableAsm

/-- The text at each path, or why it cannot be had. -/
abbrev Files := String → Except ResourceError String

inductive FileEntry where
  | file (bytes : ByteArray)
  | directory

/-- The entries of a directory by name. -/
abbrev FileStore := NameMap FileEntry

namespace FileStore

/-- Where a walk along a path has come to. -/
inductive Place where
  | here
  | entry (e : FileEntry)
  /-- A directory that the store knows nothing about. -/
  | elsewhere

/-- Follows one part of a path, if it leads somewhere. -/
def walk (store : FileStore) (place : Place) (part : String) : Option Place :=
  match place with
  | .entry (.file _) => none
  | .here =>
    if part = "" ∨ part = "." then some .here
    else if part = ".." then some .elsewhere
    else (store.get? part).map .entry
  | .entry .directory =>
    if part = "" ∨ part = "." then some place
    else if part = ".." then some .here
    else none
  | .elsewhere => if part = "" ∨ part = "." ∨ part = ".." then some .elsewhere else none

/-- What a path leads to. The empty path leads nowhere. -/
def locate (store : FileStore) (path : String) : Option Place :=
  if path = "" then none
  else
    let start := if path.toList.head? = some '/' then Place.elsewhere else .here
    (path.splitOn "/").foldlM store.walk start

/-- The text of the file at a path. -/
def read (store : FileStore) : Files := fun path =>
  match store.locate path with
  | none => .error ⟨path, .absent⟩
  | some (.entry (.file bytes)) =>
    match String.fromUTF8? bytes with
    | some text => .ok text
    | none => .error ⟨path, .notText⟩
  | some _ => .error ⟨path, .directory⟩

end FileStore

end TableAsm
