import DocumentMedia.Directive.Syntax
import DocumentMedia.Markdown.Line
import DocumentMedia.Markdown.Tag

/-! # Starts of blocks

What the first line of a block looks like, and which blocks may interrupt another one.
-/
namespace DocumentMedia.Markdown

open DocumentMedia.Text

structure Fence where
  mark : Char
  length : Nat
  info : List Char

structure ListMark where
  /-- The digits of a numbered item. -/
  number : Option (List Char)
  mark : Char
  next : Nat

structure Heading where
  level : Nat
  content : List Char

/-- The first two lines of a table. -/
structure TableHead where
  columns : List (List Char)
  aligns : List String

namespace Blocks

def fence? (b : Blocks) (i : Nat) : Option Fence :=
  if !b.dialect.constructs || b.isCode i then none
  else
    match b.text i with
    | c :: cs =>
      let run := cs.takeWhile (· = c)
      let info := cs.dropWhile (· = c)
      if (c = '~' || c = '`') && 2 ≤ run.length && !(c = '`' && info.contains '`') then
        some ⟨c, run.length + 1, info⟩
      else none
    | [] => none

def isQuote (b : Blocks) (i : Nat) : Bool :=
  b.dialect.constructs && !b.isCode i && (b.text i).head? = some '>'

/-- Three or more equal marks with blanks between them. -/
def isRule (b : Blocks) (i : Nat) : Bool :=
  b.dialect.constructs && !b.isCode i &&
    (match b.text i with
      | c :: cs =>
        (c = '*' || c = '-' || c = '_') && cs.all (fun d => d = c || isSpace d) && 2 ≤ cs.count c
      | [] => false)

def atBlank : List Char → Bool
  | [] => true
  | c :: _ => isSpace c

def bullet? (b : Blocks) (i : Nat) : Option ListMark :=
  match b.text i with
  | c :: cs =>
    if (c = '*' || c = '-' || c = '+') && atBlank cs then some ⟨none, c, b.first i + 1⟩ else none
  | [] => none

/-- At most nine digits and a point or a parenthesis. -/
def number? (b : Blocks) (i : Nat) : Option ListMark :=
  let s := b.text i
  match s.takeWhile Char.isDigit, s.dropWhile Char.isDigit with
  | d :: ds, c :: cs =>
    if ds.length < 9 && (c = ')' || c = '.') && atBlank cs then
      some ⟨some (d :: ds), c, b.first i + ds.length + 2⟩
    else none
  | _, _ => none

/-- The mark of a first list item. What interrupts a paragraph must have content and the number
one. -/
def listMark? (b : Blocks) (interrupting : Bool) (i : Nat) : Option ListMark :=
  let l := b.line? i
  if !b.dialect.constructs || b.isCode i then none
  else if 0 ≤ b.listIndent && 4 ≤ l.indent - b.listIndent && l.indent < b.indent then none
  else
    let strict := interrupting && b.indent ≤ l.indent
    match (b.number? i).orElse fun _ => b.bullet? i with
    | some m =>
      let wrongNumber := m.number.any fun ds => decimalNumber ds ≠ 1
      let noContent := (b.src.extract m.next l.stop).toList.all isSpace
      if strict && (wrongNumber || noContent) then none else some m
    | none => none

def markup? (b : Blocks) (i : Nat) : Option (BlockEnd × Bool) :=
  if !b.dialect.constructs || !b.dialect.markup || b.isCode i then none
  else markupBlock? (b.text i)

/-- One to six number signs before a blank; those at the end of the line are dropped. -/
def heading? (b : Blocks) (i : Nat) : Option Heading :=
  if !b.dialect.constructs || b.isCode i then none
  else
    let s := b.text i
    let level := (s.takeWhile (· = '#')).length
    let rest := s.drop level
    if level = 0 || 6 < level || !atBlank rest then none
    else
      let trimmed := (rest.reverse.dropWhile isSpace)
      let cut := trimmed.dropWhile (· = '#')
      let body := match cut with
        | c :: _ => if isSpace c then cut else trimmed
        | [] => trimmed
      some ⟨level, trim body.reverse⟩

def directive? (b : Blocks) (i : Nat) : Option Directive.Reading :=
  if 4 ≤ b.inner i then none else Directive.leaf? (b.text i)

/-- The cells of a row. A bar behind a backslash belongs to its cell; the backslash goes. -/
def cellsFrom (cell : List Char) : List Char → List (List Char)
  | [] => [cell.reverse]
  | '\\' :: '|' :: cs => cellsFrom ('|' :: cell) cs
  | '|' :: cs => cell.reverse :: cellsFrom [] cs
  | c :: cs => cellsFrom (c :: cell) cs

def cells (row : List Char) : List (List Char) :=
  let cs := cellsFrom [] row
  let cs := match cs with
    | [] :: r => r
    | _ => cs
  if cs.getLast? = some [] then cs.dropLast else cs

/-- Alignment of a column by its cell in the second line: hyphens between optional colons. -/
def align? (cell : List Char) : Option String :=
  let left := cell.head? = some ':'
  let right := cell.getLast? = some ':'
  let core := if left then cell.drop 1 else cell
  let core := if right then core.dropLast else core
  if core.isEmpty || !core.all (· = '-') then none
  else some (if right then (if left then "center" else "right") else if left then "left" else "")

/-- The alignments of the second line; only the first and the last cell may be blank. -/
def aligns? (row : List Char) : Option (List String) :=
  let cs := (splitWhere (· = '|') row).map trim
  let inner := (cs.drop 1).dropLast
  if inner.any (·.isEmpty) then none else (cs.filter (!·.isEmpty)).mapM align?

def isDelimiterChar (c : Char) : Bool := c = '|' || c = '-' || c = ':'

/-- The form of the second line of a table, which must not look like a list item. -/
def isDelimiterRow : List Char → Bool
  | a :: c :: cs =>
    isDelimiterChar a && (isDelimiterChar c || isSpace c) && !(a = '-' && isSpace c) &&
      cs.all fun d => isDelimiterChar d || isSpace d
  | _ => false

def table? (b : Blocks) (i stop : Nat) : Option TableHead :=
  if !b.dialect.constructs || !b.dialect.extended || stop < i + 2 then none
  else if b.isOutdented (i + 1) || b.isCode (i + 1) || b.isCode i then none
  else if !isDelimiterRow (b.text (i + 1)) then none
  else
    match aligns? (trim (b.text (i + 1))) with
    | none => none
    | some aligns =>
      let row := trim (b.text i)
      let columns := cells row
      if !row.contains '|' || columns.isEmpty || columns.length ≠ aligns.length then none
      else some ⟨columns, aligns⟩

inductive Interrupted where
  | paragraph
  | definition
  | quote
  | list
  deriving DecidableEq

/-- Whether a block that may interrupt another one starts on a line. -/
def interrupts (b : Blocks) (what : Interrupted) (stop i : Nat) : Bool :=
  (b.fence? i).isSome || b.isQuote i || b.isRule i ||
    (what ≠ .list &&
      ((b.listMark? (what = .paragraph) i).isSome || (b.markup? i).any (·.2) ||
        (b.heading? i).isSome || (b.directive? i).isSome)) ||
    ((what = .paragraph || what = .definition) && (b.table? i stop).isSome)

end Blocks

end DocumentMedia.Markdown
