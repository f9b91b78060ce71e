import DocumentMedia.Files.Tree
import DocumentMedia.Text.Utf8

/-! # Reading texts

Texts are UTF-8, and every line end is read as a line feed.
-/
namespace DocumentMedia.Files

/-- A carriage return ends a line, with the line feed behind it if there is one. -/
def plainLineEnds : List Char → List Char
  | '\r' :: '\n' :: cs => '\n' :: plainLineEnds cs
  | '\r' :: cs => '\n' :: plainLineEnds cs
  | c :: cs => c :: plainLineEnds cs
  | [] => []

def Tree.readText (t : Tree) (p : Path) : Except ReadError String := do
  let bs ← (t.readBytes p).mapError .file
  let s ← (Text.Utf8.decode (ByteArray.mk bs.toArray)).mapError .decode
  return String.ofList (plainLineEnds s.toList)

end DocumentMedia.Files
