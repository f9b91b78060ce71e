import DocumentMedia.Ledger.TableFile
import DocumentMedia.Site.Run
import Std.Time.DateTime.Timestamp

/-! # Command line

Reads the directories that a command works on into a file tree, runs the command on the tree, and
writes what it changed.
-/
namespace DocumentMedia.Main

open DocumentMedia.Files
open DocumentMedia.Site

/-- How deep directories may lie below those that a command names. -/
def maxDepth : Nat := 64

def pathText (place : Location) : String := "/" ++ "/".intercalate place

def locationOf (text : String) : Location := (Path.ofString text).parts

def withAbove (t : Tree) (place : Location) : Tree :=
  let above := (List.range place.length).map fun n => place.take n
  above.foldl (fun t l => if (t.at? l).isSome then t else t.put l .directory) t

/-- Adds what stands at a location, and what it leads to if it is a link. What cannot be read is
left out. -/
def readAt : Nat → Tree → Location → IO Tree
  | 0, t, _ => return t
  | depth + 1, t, place => do
    let real ← IO.FS.realPath (pathText place)
    let target := Path.ofString real.toString
    if target.parts ≠ place then
      let t := t.put place (.link target)
      if (t.at? target.parts).isSome then return t
      else readAt depth (withAbove t target.parts) target.parts
    else if ← real.isDir then
      let mut t := t.put place .directory
      for e in ← real.readDir do
        t ← try readAt depth t (place ++ [e.fileName]) catch _ => pure t
      return t
    else
      let bytes ← IO.FS.readBinFile real
      return t.put place (.file (Ledger.ofStored bytes.toList))

def readPath (t : Tree) (p : Path) : IO Tree := do
  let place := t.realLocation p
  if (t.at? place).isSome then return t
  else
    let t := withAbove t place
    try readAt maxDepth t place catch _ => return t

def pathsOf (command : Command) (settings : Except ConfigError Settings) : List Path :=
  let named := match command with
    | .build path _ => [Path.ofString path]
    | .preprocess file => [Path.ofString file]
    | .ledger | .init _ => []
  let set := match settings with
    | .ok s => [s.publicDir, s.outputDir, s.usageLogPath].map Path.ofString ++
        (Ledger.databaseAt s.dbUrl).toOption.toList.flatMap Ledger.Database.files
    | .error _ => []
  named ++ set

def readEnvironment : IO Environment := do
  let values ← Settings.names.mapM fun name => do
    return (variableOf name, (← IO.getEnv (variableOf name)).getD "")
  return values

/-- Microseconds since 1970. -/
def readClock : IO Int := do
  return (← Std.Time.Timestamp.now).toNanosecondsSinceUnixEpoch.val / 1000

/-- Writes what stands at a location of a tree, unless an earlier tree says that it is there. -/
def writeChange (before : Tree) (place : Location) (e : Entry) : IO Unit := do
  if before.at? place ≠ some e then
    match e with
    | .directory => IO.FS.createDirAll (pathText place)
    | .file c => IO.FS.writeBinFile (pathText place) (ByteArray.mk (Ledger.storedBytes c).toArray)
    | .link _ => return

def report : Ending → IO Unit
  | .refused message => IO.eprintln ("Error: " ++ message)
  | .failed f => IO.eprintln f.message
  | .done | .nothing => return

def refuseUsage : IO UInt32 := do
  IO.eprintln "Usage: build PATH | preprocess FILE | ledger | init [--reset]"
  return usageStatus.toUInt32

def runCommand (command : Command) : IO UInt32 := do
  let env ← readEnvironment
  let start := Tree.empty (locationOf (← IO.currentDir).toString)
  let working ← readAt maxDepth start start.here
  let before ← (pathsOf command (loadSettings working env [])).foldlM readPath working
  match run before env (instantText (← readClock)) command with
  | none => refuseUsage
  | some o =>
    o.files.entries.forM fun (place, e) => writeChange before place e
    IO.print o.output
    report o.ending
    return o.ending.status.toUInt32

end DocumentMedia.Main

def main (args : List String) : IO UInt32 := do
  match DocumentMedia.Site.Command.ofArguments? args with
  | some command => DocumentMedia.Main.runCommand command
  | none => DocumentMedia.Main.refuseUsage
