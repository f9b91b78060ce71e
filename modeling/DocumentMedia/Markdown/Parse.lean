import DocumentMedia.Markdown.Block
import DocumentMedia.Markdown.Inline

/-! # Parsing Markdown

First the blocks are read, which also gives all link definitions; then the text of each block.
-/
namespace DocumentMedia.Markdown

/-- One kind of line end, and no zero characters. -/
def normalized : List Char → List Char
  | '\r' :: '\n' :: cs => '\n' :: normalized cs
  | c :: cs =>
    (if c = '\r' then '\n' else if c.toNat = 0 then replacement else c) :: normalized cs
  | [] => []

def readDocument (dialect : Dialect) (text : List Char) : Blocks :=
  let b := Blocks.start dialect text
  ((readBlocks dialect.maxNesting 0 b.limit).run b).2

def tokens (dialect : Dialect) (text : String) : List BlockToken :=
  let b := readDocument dialect (normalized text.toList)
  let env : InlineEnv := ⟨dialect, b.definitions⟩
  b.tokens.toList.map fun t =>
    if t.type = "inline" then { t with inlines := inlineTokens env t.content.toList } else t

end DocumentMedia.Markdown
