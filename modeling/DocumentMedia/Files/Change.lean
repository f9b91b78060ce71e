import DocumentMedia.Files.Tree

/-! # Changes of file trees

Making directories, writing, copying and removing files.
-/
namespace DocumentMedia.Files.Tree

/-- Makes one directory; nothing may stand there, not even a link. -/
def makeDirectory (t : Tree) (p : Path) : Except FileError Tree := do
  let place ← t.locate false p
  match t.at? place with
  | some _ => throw ⟨.exists_, p⟩
  | none => return t.put place .directory

/-- Keeps the tree when the path leads to a directory, else fails with the given error. -/
def keepDirectory (t : Tree) (p : Path) (e : FileError) : Except FileError Tree := do
  if ← t.isDirectory p then return t else throw e

/-- Makes a directory unless there is one. -/
def ensureDirectory (t : Tree) (p : Path) : Except FileError Tree :=
  match t.makeDirectory p with
  | .ok t' => .ok t'
  | .error e => if e.cause = .missing then .error e else t.keepDirectory p e

/-- Makes a directory and those above it; `above` bounds how many may be missing. -/
def ensureAbove : Nat → Tree → Path → Except FileError Tree
  | 0, t, p => t.ensureDirectory p
  | above + 1, t, p =>
    match t.makeDirectory p with
    | .ok t' => .ok t'
    | .error e =>
      -- No directory is missing on the way, so it is well if the path leads to one.
      if e.cause ≠ .missing then t.keepDirectory p e
      else if p.parts.isEmpty then .error e
      else do (← ensureAbove above t p.parent).ensureDirectory p

def ensureDirectories (t : Tree) (p : Path) : Except FileError Tree := ensureAbove p.parts.length t p

/-- Writes a file in an existing directory; a link at the end of the path is followed. -/
def write (t : Tree) (p : Path) (content : Content) : Except FileError Tree := do
  let place ← t.locate true p
  match t.at? place with
  | some .directory => throw ⟨.isDirectory, p⟩
  | some (.link _) => throw ⟨.linkLoop, p⟩
  | _ => return t.put place (.file content)

def writeText (t : Tree) (p : Path) (text : String) : Except FileError Tree :=
  t.write p (.bytes text.toUTF8.toList)

/-- Copies the bytes of a file, after making the directories of the target. -/
def copy (t : Tree) (source target : Path) : Except FileError Tree := do
  let t ← t.ensureDirectories target.parent
  t.write target (← t.readContent source)

/-- Puts a link and makes the directories above it. -/
def link (t : Tree) (p target : Path) : Except FileError Tree := do
  let t ← t.ensureDirectories p.parent
  return t.put (← t.locate false p) (.link target)

/-- Removes what stands at the end of a path, and all below it. -/
def remove (t : Tree) (p : Path) : Except FileError Tree := do
  let place ← t.locate false p
  match t.at? place with
  | some _ => return { t with entries := t.entries.filter fun (l, _) => !place.isPrefixOf l }
  | none => throw ⟨.missing, p⟩

end DocumentMedia.Files.Tree
