import DocumentMedia.Files.Tree
import DocumentMedia.Json.Read
import DocumentMedia.Text.Utf8

/-! # Tables on disk

The bytes in which the table of a database is kept: the mark of a database file, and then its rows
as JSON.
-/
namespace DocumentMedia.Ledger

open DocumentMedia.Files

def rowsJson (rows : List (List String)) : JsonValue :=
  .list (rows.map fun row => .list (row.map .text))

def texts? : JsonValue → Option (List String)
  | .list cells => cells.mapM fun | .text s => some s | _ => none
  | _ => none

def rows? : JsonValue → Option (List (List String))
  | .list rows => rows.mapM texts?
  | _ => none

def storedBytes : Content → Bytes
  | .bytes bs => bs
  | .table rows => databaseMark ++ (rowsJson rows).toText.toUTF8.toList

/-- The rows behind the mark of a database file, if they can be read. -/
def storedRows? (bs : Bytes) : Option (List (List String)) := do
  let (mark, rest) ← Bytes.split? databaseMark.length bs
  if mark ≠ databaseMark then none
  else
    let text ← (Text.Utf8.decode (ByteArray.mk rest.toArray)).toOption
    rows? (← JsonValue.ofText? text)

def ofStored (bs : Bytes) : Content :=
  match storedRows? bs with
  | some rows => .table rows
  | none => .bytes bs

end DocumentMedia.Ledger
