import DocumentMedia.Files.Change
import DocumentMedia.Files.Reading
import DocumentMedia.Ledger.Document
import DocumentMedia.Ledger.Table

/-! # Ledger stores

Places where a ledger outlives a run: memory, a JSON file or a table of a database. All are
replaced as a whole when a ledger is saved.
-/
namespace DocumentMedia.Ledger

open DocumentMedia.Files

inductive Store where
  | memory (entries : Ledger) (saves : Nat)
  | json (path : Path)
  | table (path : Path)
  /-- A database in memory, which is gone before a ledger can be saved in it. -/
  | transient
  deriving DecidableEq, Repr

inductive StoreError where
  | file (e : FileError)
  | database (e : DatabaseError)
  deriving DecidableEq, Repr

def StoreError.message : StoreError → String
  | .file e => e.message
  | .database e => e.message

namespace Store

/-- The ledger of a JSON file. A missing or unreadable ledger is an empty one. -/
def loadJson (t : Tree) (now : String) (p : Path) : Except FileError Ledger := do
  if !(← t.pathExists p) then return []
  else
    match t.readText p with
    | .ok text => return (ofText? now text).getD []
    | .error (.decode _) => return []
    | .error (.file e) => throw e

def load (s : Store) (t : Tree) (now : String) : Except StoreError Ledger :=
  match s with
  | .memory entries _ => .ok entries
  | .json p => (loadJson t now p).mapError .file
  | .table p => ((openTable t p).map fun (_, rows) => ofRows rows).mapError .database
  | .transient => .ok []

def saveJson (t : Tree) (l : Ledger) (p : Path) : Except FileError Tree := do
  let t ← if p.parent = Path.here then pure t else t.ensureDirectories p.parent
  t.writeText p (toText l)

def save (s : Store) (t : Tree) (l : Ledger) : Except StoreError (Store × Tree) :=
  match s with
  | .memory _ saves => .ok (.memory l (saves + 1), t)
  | .json p => ((saveJson t l p).map fun t => (s, t)).mapError .file
  | .table p => ((replaceRows t p (toRows l)).map fun t => (s, t)).mapError .database
  | .transient => .error (.database .noTable)

end Store

end DocumentMedia.Ledger
