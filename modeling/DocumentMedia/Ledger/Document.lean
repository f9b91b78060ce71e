import DocumentMedia.Json.Read
import DocumentMedia.Ledger.Basic

/-! # The ledger as JSON

An object with one field for each hash. An entry without time counts as used now; a text in which
some entry is wrong is no ledger.
-/
namespace DocumentMedia.Ledger

def entryJson (e : LedgerEntry) : JsonValue :=
  .object [("ext", .text e.ext), ("path", .text e.path), ("lastUsed", .text e.lastUsed)]

def toText (l : Ledger) : String :=
  (JsonValue.object (l.map fun (hash, e) => (hash, entryJson e))).toText

def asText? : JsonValue → Option String
  | .text s => some s
  | _ => none

/-- The entry that an object stands for. The time has two names, of which `lastUsed` goes first. -/
def ofFields? (now : String) : JsonValue → Option LedgerEntry
  | .object fields => do
    let ext ← asText? (← JsonValue.field? fields "ext")
    let path ← asText? (← JsonValue.field? fields "path")
    let time := (JsonValue.field? fields "lastUsed").or (JsonValue.field? fields "last_used")
    let lastUsed ← match time with
      | some v => asText? v
      | none => some now
    some ⟨ext, path, lastUsed⟩
  | _ => none

def ofJson? (now : String) : JsonValue → Option Ledger
  | .object fields => fields.mapM fun (hash, v) => (ofFields? now v).map fun e => (hash, e)
  | _ => none

def ofText? (now : String) (text : String) : Option Ledger :=
  JsonValue.ofText? text >>= ofJson? now

end DocumentMedia.Ledger
