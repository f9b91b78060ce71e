import DocumentMedia.Markdown.Entity
import DocumentMedia.Text.Blank

/-! # Parts of a link

The destination and the title of a link or of a link definition, read from the start of a text.
-/
namespace DocumentMedia.Markdown

open DocumentMedia.Text

def isSpace (c : Char) : Bool := c = ' ' || c = '\t'

/-- The text up to a closing angle bracket on the same line. -/
def bracketed? : List Char → Option (List Char × List Char)
  | [] => none
  | '\\' :: d :: cs => (bracketed? cs).map fun (inside, rest) => ('\\' :: d :: inside, rest)
  | c :: cs =>
    if c = '\n' || c = '<' then none
    else if c = '>' then some ([], cs)
    else (bracketed? cs).map fun (inside, rest) => (c :: inside, rest)

/-- A destination without brackets: it ends at a blank, a control or a parenthesis that closes
none of its own. At most 32 parentheses may be open. -/
def bareDestination? (level : Nat) (s : List Char) : Option (List Char × List Char) :=
  let ends : Option (List Char × List Char) := if level = 0 then some ([], s) else none
  match s with
  | [] => ends
  | '\\' :: d :: cs =>
    if d = ' ' then ends
    else (bareDestination? level cs).map fun (inside, rest) => ('\\' :: d :: inside, rest)
  | c :: cs =>
    if c.toNat ≤ 32 || c.toNat = 127 then ends
    else if c = '(' then
      if level < 32 then
        (bareDestination? (level + 1) cs).map fun (inside, rest) => (c :: inside, rest)
      else none
    else if c = ')' then
      if level = 0 then ends
      else (bareDestination? (level - 1) cs).map fun (inside, rest) => (c :: inside, rest)
    else (bareDestination? level cs).map fun (inside, rest) => (c :: inside, rest)

def destination? (s : List Char) : Option (List Char × List Char) :=
  match s with
  | '<' :: r => (bracketed? r).map fun (inside, rest) => (unescape inside, rest)
  | _ =>
    match bareDestination? 0 s with
    | some (c :: cs, rest) => some (unescape (c :: cs), rest)
    | _ => none

inductive TitleReading where
  | closed (title rest : List Char)
  /-- The text ended before the title did. -/
  | unfinished (title : List Char)
  | failed

/-- Reads up to the mark; `before` is what was read, in reverse. -/
def readTitle (mark : Char) (before : List Char) : List Char → TitleReading
  | [] => .unfinished (unescape before.reverse)
  | '\\' :: d :: cs => readTitle mark (d :: '\\' :: before) cs
  | c :: cs =>
    if c = mark then .closed (unescape before.reverse) cs
    else if c = '(' && mark = ')' then .failed
    else readTitle mark (c :: before) cs

/-- The mark that closes a title, after the one that opens it. -/
def titleMark? : List Char → Option (Char × List Char)
  | '"' :: r => some ('"', r)
  | '\'' :: r => some ('\'', r)
  | '(' :: r => some (')', r)
  | _ => none

def title? (s : List Char) : Option (List Char × List Char) := do
  let (mark, r) ← titleMark? s
  match readTitle mark [] r with
  | .closed title rest => some (title, rest)
  | _ => none

/-- The name by which a link definition is found: blanks collapse and case does not count. -/
def referenceKey (label : List Char) : List Char :=
  upper (lower (joinWith [' '] (words label)))

end DocumentMedia.Markdown
