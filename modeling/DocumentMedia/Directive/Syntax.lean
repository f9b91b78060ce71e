import DocumentMedia.Attribute.Loose
import DocumentMedia.Text.Alnum

/-! # Directive syntax

A directive is a name with an optional label in brackets and optional attributes in braces. One
colon marks a directive inside text, two mark one that fills a line.
-/
namespace DocumentMedia.Directive

open DocumentMedia.Text

structure Reading where
  name : List Char
  label : Option (List Char)
  attrs : Option (List Char)
  deriving DecidableEq, Repr

def isLetter (c : Char) : Bool := ('a' ≤ c && c ≤ 'z') || ('A' ≤ c && c ≤ 'Z')

def isNameChar (c : Char) : Bool := isWord c || c = '-'

/-- The label at the start of a text, and the rest. -/
def label? : List Char → Option (List Char × List Char)
  | '[' :: s =>
    match s.dropWhile fun c => c ≠ ']' && c ≠ '\n' with
    | ']' :: rest => some (s.takeWhile fun c => c ≠ ']' && c ≠ '\n', rest)
    | _ => none
  | _ => none

/-- The text up to the closing brace, which does not count inside quotes. -/
def untilBrace : Option Char → List Char → Option (List Char × List Char)
  | _, [] => none
  | none, c :: cs =>
    if c = '}' then some ([], cs)
    else if c = '\n' then none
    else
      (untilBrace (if c = '"' || c = '\'' then some c else none) cs).map
        fun (inside, rest) => (c :: inside, rest)
  | some q, c :: cs =>
    if c = '\n' then none
    else
      (untilBrace (if c = q then none else some q) cs).map
        fun (inside, rest) => (c :: inside, rest)

def attrs? : List Char → Option (List Char × List Char)
  | '{' :: s => untilBrace none s
  | _ => none

/-- Name, label and attributes at the start of a text, and the rest. -/
def body? : List Char → Option (Reading × List Char)
  | [] => none
  | c :: cs =>
    if isLetter c then
      let name := c :: cs.takeWhile isNameChar
      let rest := cs.dropWhile isNameChar
      let (label, rest) := match label? rest with
        | some (l, r) => (some l, r)
        | none => (none, rest)
      let (attrs, rest) := match attrs? rest with
        | some (a, r) => (some a, r)
        | none => (none, rest)
      some (⟨name, label, attrs⟩, rest)
    else none

/-- A directive inside text, at the start of `s`, and the rest. -/
def text? : List Char → Option (Reading × List Char)
  | ':' :: s => body? s
  | _ => none

/-- A directive that fills the whole line, but for blanks at its end. -/
def leaf? : List Char → Option Reading
  | ':' :: ':' :: s =>
    match body? s with
    | some (r, rest) => if rest.all fun c => c = ' ' || c = '\t' then some r else none
    | none => none
  | _ => none

/-- The attributes of a directive; none when it has no braces. -/
def Reading.attributes (r : Reading) : Assoc String String :=
  Attribute.parseDirective (r.attrs.getD [])

end DocumentMedia.Directive
