import DocumentMedia.Document.TokenTree
import DocumentMedia.Markdown.Parse

/-! # The body of a document

The tree of the text of a document in one of the dialects.
-/
namespace DocumentMedia.Document

open DocumentMedia.Markdown

/-- The tree of a text. Its tokens are always well nested, so there is one. -/
def bodyTree (dialect : Dialect) (components : Bool) (text : String) : Node :=
  match treeOfTokens components (tokens dialect text) with
  | .ok tree => tree
  | .error _ => Node.root []

end DocumentMedia.Document
