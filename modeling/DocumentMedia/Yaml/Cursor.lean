import DocumentMedia.Text.Blank

/-! # Places in a YAML text

What is left of a text, with the number of characters read, the line and the column.
-/
namespace DocumentMedia.Yaml

/-- Characters that end a line. -/
def isBreak (c : Char) : Bool :=
  c = '\n' || c = '\r' || c = '\u0085' || c = '\u2028' || c = '\u2029'

/-- Line ends, blanks and tabs. -/
def isGap (c : Char) : Bool := c = ' ' || c = '\t' || isBreak c

def byteOrderMark : Char := '\ufeff'

structure Cursor where
  rest : List Char
  index : Nat
  line : Nat
  column : Nat

namespace Cursor

def peek (c : Cursor) : Option Char := c.rest.head?

def peekAt (c : Cursor) (n : Nat) : Option Char := (c.rest.drop n).head?

/-- Whether the next character satisfies `p`; the end of the text does not. -/
def sees (c : Cursor) (p : Char → Bool) : Bool := c.peek.any p

/-- Whether the character `n` places further on satisfies `p` or is the end of the text. -/
def endsAt (c : Cursor) (n : Nat) (p : Char → Bool) : Bool := (c.peekAt n).all p

def next (c : Cursor) : Cursor :=
  match c.rest with
  | [] => c
  | d :: r =>
    if isBreak d && !(d = '\r' && r.head? = some '\n') then ⟨r, c.index + 1, c.line + 1, 0⟩
    else if d = byteOrderMark then ⟨r, c.index + 1, c.line, c.column⟩
    else ⟨r, c.index + 1, c.line, c.column + 1⟩

def skip (c : Cursor) (n : Nat) : Cursor := n.repeat next c

def take (c : Cursor) (p : Char → Bool) : List Char := c.rest.takeWhile p

def skipWhile (c : Cursor) (p : Char → Bool) : Cursor := c.skip (c.take p).length

def skipSpaces (c : Cursor) : Cursor := c.skipWhile (· = ' ')

def skipComment (c : Cursor) : Cursor :=
  if c.peek = some '#' then c.skipWhile (!isBreak ·) else c

/-- Reads a line end, if there is one. All but two special ones count as a line feed. -/
def lineBreak (c : Cursor) : List Char × Cursor :=
  match c.rest with
  | '\r' :: '\n' :: _ => (['\n'], c.skip 2)
  | d :: _ =>
    if d = '\u2028' || d = '\u2029' then ([d], c.next)
    else if isBreak d then (['\n'], c.next)
    else ([], c)
  | [] => ([], c)

/-- Whether a line of three equal marks, `mark`, starts here. -/
def isMarker (c : Cursor) (mark : Char) : Bool :=
  c.rest.take 3 = [mark, mark, mark] && c.endsAt 3 isGap

/-- Whether the mark of the start or the end of a document stands here. -/
def isSeparator (c : Cursor) : Bool := c.isMarker '-' || c.isMarker '.'

end Cursor

end DocumentMedia.Yaml
