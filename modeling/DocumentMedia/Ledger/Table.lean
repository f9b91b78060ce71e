import DocumentMedia.Files.Tree
import DocumentMedia.Ledger.Basic

/-! # The ledger as a table

A database file with one row for each hash. The file comes into being when the database is first
opened.
-/
namespace DocumentMedia.Ledger

open DocumentMedia.Files

def toRows (l : Ledger) : List (List String) :=
  l.map fun (hash, e) => [hash, e.ext, e.path, e.lastUsed]

def ofRow? : List String → Option (String × LedgerEntry)
  | [hash, ext, path, lastUsed] => some (hash, ⟨ext, path, lastUsed⟩)
  | _ => none

def ofRows (rows : List (List String)) : Ledger := Assoc.ofPairs (rows.filterMap ofRow?)

inductive DatabaseError where
  | unknownKind
  /-- The kind is known, but nothing here can talk to such a database. -/
  | noDriver
  | manyDrivers
  | badAddress
  | noPort
  /-- A text that should be a whole number, a number or a truth value. -/
  | badWhole (text : String)
  | badNumber (text : String)
  | badTruth (text : String)
  | nullCharacter
  | cannotOpen
  /-- The file holds something else. -/
  | notDatabase
  | noTable
  deriving DecidableEq, Repr

def DatabaseError.message : DatabaseError → String
  | .unknownKind => "unknown kind of database"
  | .noDriver => "no driver for the database"
  | .manyDrivers => "too many values to unpack (expected 2)"
  | .badAddress => "no database address"
  | .noPort => "the number behind the host is empty"
  | .badWhole text => "invalid literal for int() with base 10: " ++ Text.quoted text
  | .badNumber text => "could not convert string to float: " ++ Text.quoted text
  | .badTruth text => "String is not true/false: " ++ Text.quoted text
  | .nullCharacter => "embedded null byte"
  | .cannotOpen => "(sqlite3.OperationalError) unable to open database file"
  | .notDatabase => "(sqlite3.DatabaseError) file is not a database"
  | .noTable => "(sqlite3.OperationalError) no such table: asset_usage"

/-- Opens a database file and makes its table unless there is one. -/
def openTable (t : Tree) (p : Path) : Except DatabaseError (Tree × List (List String)) := do
  let place ← (t.locate true p).mapError fun _ => .cannotOpen
  match t.at? place with
  | none | some (.file (.bytes [])) => return (t.put place (.file (.table [])), [])
  | some (.file (.table rows)) => return (t, rows)
  | some (.file (.bytes _)) => throw .notDatabase
  | some _ => throw .cannotOpen

def replaceRows (t : Tree) (p : Path) (rows : List (List String)) :
    Except DatabaseError Tree := do
  let (t, _) ← openTable t p
  let place ← (t.locate true p).mapError fun _ => .cannotOpen
  return t.put place (.file (.table rows))

end DocumentMedia.Ledger
