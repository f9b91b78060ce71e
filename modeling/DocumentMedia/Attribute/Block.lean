import DocumentMedia.Attribute.Style
import DocumentMedia.Attribute.Token
import DocumentMedia.Text.Alnum

/-! # Attribute blocks

Blocks such as `\x7b.wide style="…" attrs="…"\x7d`, written behind an image or in its title. Classes
append, styles join, free-form text is replaced.
-/
namespace DocumentMedia.Attribute

open DocumentMedia.Text

structure AttrBlock where
  classes : List (List Char)
  style : List Char
  freeform : List Char
  deriving DecidableEq, Repr

namespace AttrBlock

def empty : AttrBlock := ⟨[], [], []⟩

def isEmpty (b : AttrBlock) : Bool :=
  b.classes.isEmpty && b.style.isEmpty && b.freeform.isEmpty

/-- Folds a block that stands further right into this one. -/
def merge (a b : AttrBlock) : AttrBlock where
  classes := a.classes ++ b.classes
  style := joinStyle a.style b.style
  freeform := if b.freeform.isEmpty then a.freeform else b.freeform

/-- The class names, each once, in the order of first occurrence. -/
def classText (b : AttrBlock) : List Char :=
  joinWith [' '] (b.classes.filter (!·.isEmpty)).eraseDups

/-- The block text without its braces; a backslash may stand before the opening one. -/
def body (raw : List Char) : List Char :=
  let s := strip (plainQuotes raw)
  let s := match s with
    | '\\' :: '{' :: r => r
    | '{' :: r => r
    | _ => s
  match s.reverse with
  | '}' :: r => r.reverse
  | _ => s

/-- A block under construction and the attributes to be added to its free-form text. -/
structure Draft where
  block : AttrBlock
  extras : List (List Char)

def writeAttr (key value : List Char) : List Char :=
  key ++ '=' :: '"' :: value ++ ['"']

def addToken (d : Draft) (token : List Char) : Draft :=
  match splitPair token with
  | (_, none) =>
    match token with
    | '#' :: c :: cs => { d with extras := d.extras ++ [writeAttr "id".toList (c :: cs)] }
    | '.' :: name => { d with block.classes := d.block.classes ++ [name] }
    | name => { d with block.classes := d.block.classes ++ [name] }
  | (key, some value) =>
    if key = "class".toList || key = "className".toList then
      { d with block.classes := d.block.classes ++ words value }
    else if key = "style".toList then
      { d with block.style := joinStyle d.block.style value }
    -- Classes and styles add up, but a second `attrs` takes the place of the first.
    else if key = "attrs".toList then
      { d with block.freeform := strip value }
    else { d with extras := d.extras ++ [writeAttr key value] }

def finish (d : Draft) : AttrBlock :=
  { d.block with
    classes := d.block.classes.filter (!·.isEmpty)
    freeform :=
      if d.extras.isEmpty then d.block.freeform
      else strip (joinWith [' '] (d.block.freeform :: d.extras)) }

/-- Reads a block. Bare words are classes; `#name` and other pairs join the free-form text behind
that of the last `attrs` pair. -/
def parse (raw : List Char) : AttrBlock :=
  finish ((splitTokens (body raw)).foldl addToken ⟨empty, []⟩)

end AttrBlock

def startsWith (head s : List Char) : Bool := head.isPrefixOf s

/-- Whether an attribute notation starts here, after the character `before`. -/
def hintHere (before : Option Char) (s : List Char) : Bool :=
  let atWordStart := !(before.any isWord)
  (atWordStart &&
    (startsWith "class=".toList s || startsWith "style=".toList s ||
      startsWith "attrs=".toList s)) ||
  (match s with
    | '.' :: c :: _ => !isBlank c && !isQuote c && before.all isBlank
    | _ => false)

def hasHint (before : Option Char) : List Char → Bool
  | [] => false
  | c :: cs => hintHere before (c :: cs) || hasHint (some c) cs

/-- The attributes written in the title of an image, if any. -/
def titleBlock (title : List Char) : AttrBlock :=
  let t := strip title
  if (t.head? = some '{' && t.getLast? = some '}') || hasHint none t then AttrBlock.parse t
  else AttrBlock.empty

end DocumentMedia.Attribute
