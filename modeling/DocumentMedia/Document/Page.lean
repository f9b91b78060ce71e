import DocumentMedia.Document.Body
import DocumentMedia.Document.Header
import DocumentMedia.Document.ImageNotation
import DocumentMedia.Files.Path
import DocumentMedia.Text.Slug
import DocumentMedia.Value.Text

/-! # Pages

A document after reading: its fields, its tree and the slug under which it is written.
-/
namespace DocumentMedia.Document

structure Page where
  path : Files.Path
  slug : String
  /-- The text that was read, after images with attributes became directives. -/
  source : String
  fields : HeaderFields
  tree : Node

inductive PageError where
  | header (e : HeaderError)
  | unknownDialect (name : String)
  | longSlug
  deriving DecidableEq, Repr

def PageError.message : PageError → String
  | .header e => e.message
  | .unknownDialect name => "Wrong `markdown-it` preset '" ++ name ++ "', check name"
  | .longSlug => Value.tooLongMessage

/-- The message inside another one; that about a dialect is quoted there. -/
def PageError.inner : PageError → String
  | .header (.yaml .malformed) => HeaderError.message (.yaml .malformed)
  | .header (.yaml e) => e.inner
  | .header e => e.message
  | e@(.unknownDialect _) => Text.quoted e.message
  | e@.longSlug => e.message

/-- The slug that a header gives, else one made of the file name. -/
def slugOf (fields : HeaderFields) (path : Files.Path) : Except PageError String :=
  let given := (Value.under? fields "slug").filter Value.isTruthy
  match given with
  | some v => if v.hasLongInteger then .error .longSlug else .ok v.display
  | none => .ok (Text.slugify path.stem "doc")

structure Reading where
  dialect : String := "gfm-like"
  /-- The ending of the paths of documents in which images take attribute blocks. -/
  ending : String := ".mdx"

/-- Reads the text of a document. Components are recognised in documents ending in `.mdx`. -/
def readPage (reading : Reading) (path : Files.Path) (text : String) : Except PageError Page := do
  let source := replaceInSource text path.text reading.ending
  let (fields, body) ← (readHeader source).mapError .header
  match Markdown.Dialect.ofName? reading.dialect with
  | none => throw (.unknownDialect reading.dialect)
  | some dialect =>
    return { path, source, fields, slug := ← slugOf fields path
             tree := bodyTree dialect (Text.lowerString path.suffix = ".mdx") body }

end DocumentMedia.Document
