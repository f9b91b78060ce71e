import DocumentMedia.Markdown.Dialect
import DocumentMedia.Markdown.LinkPart
import DocumentMedia.Markdown.Token

/-! # Lines of a block

The lines of a document with their indents, and the state of reading blocks. A block that has
other blocks inside moves the starts of its lines behind its own marks while it is read.
-/
namespace DocumentMedia.Markdown

open DocumentMedia.Text

structure Line where
  start : Nat
  stop : Nat
  /-- Number of characters before the first one that is no blank. -/
  shift : Nat
  /-- Width of these characters with tabs expanded; negative on lines that lazily continue a
  paragraph. -/
  indent : Int
  /-- Width of the marks before the start. -/
  offset : Nat
  deriving Repr, Inhabited

structure Target where
  href : List Char
  title : List Char
  deriving DecidableEq, Repr, Inhabited

structure Blocks where
  dialect : Dialect
  src : Array Char
  lines : Array Line
  /-- Least indent of the lines of the current block. -/
  indent : Int
  /-- Line at which paragraphs end at the latest. -/
  limit : Nat
  line : Nat
  /-- No empty line was passed before the latest block. -/
  tight : Bool
  /-- Indent of the list around the current item, negative outside lists. -/
  listIndent : Int
  tokens : Array BlockToken
  definitions : Assoc (List Char) Target

abbrev BlockM := StateM Blocks

/-- Width after a blank: a tab fills up to the next multiple of four. -/
def widen (width offset : Nat) (c : Char) : Nat :=
  if c = '\t' then width + (4 - (width + offset) % 4) else width + 1

/-- The lines of a text; `at_` is the current place, `shift` and `width` measure the blanks read
since `start`, and `found` says that something else was read. A last line of blanks is none. -/
def scanLines : List Char → Nat → Nat → Nat → Nat → Bool → List Line
  | [], at_, start, shift, width, found =>
    if found && start < at_ then [⟨start, at_, shift, width, 0⟩] else []
  | c :: cs, at_, start, shift, width, found =>
    if !found && isSpace c then scanLines cs (at_ + 1) start (shift + 1) (widen width 0 c) false
    else if c = '\n' then
      ⟨start, at_, shift, width, 0⟩ :: scanLines cs (at_ + 1) (at_ + 1) 0 0 false
    else scanLines cs (at_ + 1) start shift width true

namespace Blocks

def start (dialect : Dialect) (text : List Char) : Blocks :=
  let lines := (scanLines text 0 0 0 0 false).toArray
  ⟨dialect, text.toArray, lines, 0, lines.size, 0, false, -1, #[], []⟩

def line? (b : Blocks) (i : Nat) : Line :=
  b.lines.getD i ⟨b.src.size, b.src.size, 0, 0, 0⟩

def first (b : Blocks) (i : Nat) : Nat := (b.line? i).start + (b.line? i).shift

def isEmpty (b : Blocks) (i : Nat) : Bool := (b.line? i).stop ≤ b.first i

/-- A line without the blanks before it. -/
def text (b : Blocks) (i : Nat) : List Char :=
  (b.src.extract (b.first i) (b.line? i).stop).toList

/-- Indent of a line inside the current block. -/
def inner (b : Blocks) (i : Nat) : Int := (b.line? i).indent - b.indent

def isOutdented (b : Blocks) (i : Nat) : Bool := (b.line? i).indent < b.indent

/-- Lines indented by four or more are code, where the dialect has it. -/
def isCode (b : Blocks) (i : Nat) : Bool := b.dialect.constructs && 4 ≤ b.inner i

/-- The first line from `i` on that is not empty; `fuel` bounds the search. -/
def skipEmpty (b : Blocks) : Nat → Nat → Nat
  | 0, i => i
  | fuel + 1, i => if i < b.limit && b.isEmpty i then b.skipEmpty fuel (i + 1) else i

def setLine (b : Blocks) (i : Nat) (l : Line) : Blocks :=
  { b with lines := b.lines.setIfInBounds i l }

def push (b : Blocks) (t : BlockToken) : Blocks := { b with tokens := b.tokens.push t }

def opening (b : Blocks) (type tag : String) (attrs : Fields) : Blocks :=
  b.push { type := type, nesting := .opens, tag := tag, attrs := attrs }

def closing (b : Blocks) (type tag : String) : Blocks :=
  b.push { type := type, nesting := .closes, tag := tag }

def inline (b : Blocks) (content : List Char) : Blocks :=
  b.push { type := "inline", content := String.ofList content }

/-- Drops blanks up to a width; a tab that reaches beyond it leaves blanks behind. The first
`marks` characters count as blanks. -/
def dropIndent (offset indent : Nat) : Nat → Nat → List Char → List Char
  | marks, width, s =>
    if indent ≤ width then List.replicate (width - indent) ' ' ++ s
    else
      match s with
      | [] => []
      | c :: cs =>
        if isSpace c then dropIndent offset indent (marks - 1) (widen width offset c) cs
        else if 0 < marks then dropIndent offset indent (marks - 1) (width + 1) cs
        else s

/-- A line without the given indent, with or without its line end. -/
def content (b : Blocks) (indent : Int) (withEnd : Bool) (i : Nat) : List Char :=
  let l := b.line? i
  dropIndent l.offset indent.toNat l.shift 0
    (b.src.extract l.start (if withEnd then l.stop + 1 else l.stop)).toList

def contents (b : Blocks) (i j : Nat) (indent : Int) (withEnd : Bool) : List Char :=
  (List.range' i (j - i)).flatMap fun k => b.content indent (withEnd || k + 1 < j) k

end Blocks

end DocumentMedia.Markdown
