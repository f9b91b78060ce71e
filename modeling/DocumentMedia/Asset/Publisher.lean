import DocumentMedia.Asset.Reference
import DocumentMedia.Digest.Sha1
import DocumentMedia.Files.Tree
import DocumentMedia.Media.Meta
import DocumentMedia.Picture.Size

/-! # Publishing

What a reference in a document is published as: the local file that it names, found by its text as
written or with percent codes decoded, under a name made of its content.
-/
namespace DocumentMedia.Asset

open DocumentMedia.Files

structure Publisher where
  publicDir : Path := Path.ofString "public"
  publicBase : String := "assets"
  mode : DedupeMode := .shared
  contentRoot : String := "src/content"
  /-- An identifier for all documents, instead of one made of the path. -/
  fixedId : Option String := none
  deriving DecidableEq, Repr

/-- A published file. -/
structure Asset where
  publicPath : String
  target : Path
  hash : String
  media : MediaMeta
  deriving DecidableEq, Repr

/-- An asset with the file of which it is a copy. -/
structure Find where
  source : Path
  asset : Asset
  /-- Why the size of the picture cannot be told, when that is an error. -/
  fault : Option Picture.DecodeError
  deriving DecidableEq, Repr

namespace Publisher

def idOf (p : Publisher) (document : Path) : String :=
  p.fixedId.getD (postId document.text p.contentRoot)

def targetOf (p : Publisher) (publicPath : String) : Path :=
  p.publicDir.join (Path.ofString (String.ofList (publicPath.toList.dropWhile (· = '/'))))

/-- The size of a file with an extension, which only pictures have. -/
def sizeOf (ext : String) (bytes : Bytes) : Except Picture.DecodeError (Option (Nat × Nat)) :=
  if imageExts.contains ext then Picture.size bytes else .ok none

def faultOf : Except Picture.DecodeError (Option (Nat × Nat)) → Option Picture.DecodeError
  | .ok _ => none
  | .error e => some e

def findOf (p : Publisher) (id : String) (source : Path) (bytes : Bytes) (reference : String) :
    Find :=
  let ext := Text.lowerString source.suffix
  let hash := Sha1.hexDigest bytes
  let publicPath := publicPath p.mode p.publicBase id hash ext
  let size := sizeOf ext bytes
  let media : MediaMeta :=
    { kind := mediaKind ext, ext, source := some reference
      width := size.toOption.join.map (·.1), height := size.toOption.join.map (·.2) }
  ⟨source, ⟨publicPath, p.targetOf publicPath, hash, media⟩, faultOf size⟩

section

variable (p : Publisher) (id : String) (source : Path) (bytes : Bytes) (reference : String)

@[simp]
theorem source_findOf : (p.findOf id source bytes reference).source = source := rfl

@[simp]
theorem hash_findOf : (p.findOf id source bytes reference).asset.hash = Sha1.hexDigest bytes := rfl

@[simp]
theorem publicPath_findOf : (p.findOf id source bytes reference).asset.publicPath =
    publicPath p.mode p.publicBase id (Sha1.hexDigest bytes)
      (Text.lowerString source.suffix) := rfl

@[simp]
theorem target_findOf : (p.findOf id source bytes reference).asset.target =
    p.targetOf (publicPath p.mode p.publicBase id (Sha1.hexDigest bytes)
      (Text.lowerString source.suffix)) := by
  simp only [findOf]

end

/-- The spellings under which a local path is looked for. -/
def spellings (reference : String) : List String := [reference, Text.unpercent reference].eraseDups

def firstFile (t : Tree) (folder : Path) : List String → Except FileError (Option Path)
  | [] => .ok none
  | s :: rest => do
    let source := folder.join (Path.ofString s)
    if ← t.isFile source then return some source else firstFile t folder rest

/-- What the text of a reference is published as, none if it names no file that can be read. -/
def find (p : Publisher) (t : Tree) (document : Path) (raw : String) :
    Except FileError (Option Find) := do
  match localPath? raw with
  | none => return none
  | some reference =>
    match ← firstFile t document.parent (spellings reference) with
    | none => return none
    | some source =>
      match t.readBytes source with
      -- A file that cannot be read is passed over; the other spelling is not tried.
      | .error _ => return none
      | .ok bytes => return some (p.findOf (p.idOf document) source bytes reference)

end Publisher

end DocumentMedia.Asset
