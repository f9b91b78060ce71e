import DocumentMedia.Files.Path
import DocumentMedia.Text.Quoted
import DocumentMedia.Text.Utf8

/-! # Failures of file operations -/
namespace DocumentMedia.Files

inductive Cause where
  | missing
  | exists_
  | notDirectory
  | isDirectory
  | nameTooLong
  /-- More links on the way than are followed. -/
  | linkLoop
  /-- The path holds the character with code zero, which ends paths. -/
  | nullCharacter
  deriving DecidableEq, Repr

def Cause.number : Cause → Nat
  | .missing => 2
  | .exists_ => 17
  | .notDirectory => 20
  | .isDirectory => 21
  | .nameTooLong => 36
  | .linkLoop => 40
  | .nullCharacter => 22

def Cause.text : Cause → String
  | .missing => "No such file or directory"
  | .exists_ => "File exists"
  | .notDirectory => "Not a directory"
  | .isDirectory => "Is a directory"
  | .nameTooLong => "File name too long"
  | .linkLoop => "Too many levels of symbolic links"
  | .nullCharacter => "embedded null byte"

structure FileError where
  cause : Cause
  path : Path
  deriving DecidableEq, Repr

def FileError.message (e : FileError) : String :=
  match e.cause with
  | .nullCharacter => e.cause.text
  | c => s!"[Errno {c.number}] {c.text}: " ++ Text.quoted e.path.text

/-- Why no text was read from a file. -/
inductive ReadError where
  | file (e : FileError)
  | decode (e : Text.Utf8.DecodeError)
  deriving DecidableEq, Repr

def ReadError.message : ReadError → String
  | .file e => e.message
  | .decode e => e.message

end DocumentMedia.Files
