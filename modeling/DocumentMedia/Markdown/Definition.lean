import DocumentMedia.Markdown.Address
import DocumentMedia.Markdown.BlockStart

/-! # Link definitions

A label in brackets, a colon, a destination and an optional title. A definition may go on over
several lines, which are taken in only when reading arrives at them.
-/
namespace DocumentMedia.Markdown

open DocumentMedia.Text

/-- A place in a definition: what is left of the lines taken in, the lines that could follow, and
how many lines were taken in. -/
structure DefinitionCursor where
  rest : List Char
  more : List (List Char)
  taken : Nat

namespace DefinitionCursor

def extend (c : DefinitionCursor) : DefinitionCursor :=
  match c.more with
  | [] => c
  | l :: ls => ⟨c.rest ++ l, ls, c.taken + 1⟩

/-- Skips blanks and line ends; `fuel` bounds their number. -/
def skipBlanks : Nat → DefinitionCursor → DefinitionCursor
  | 0, c => c
  | fuel + 1, c =>
    match c.rest with
    | [] => c
    | d :: ds =>
      if d = '\n' then skipBlanks fuel { c with rest := ds }.extend
      else if isSpace d then skipBlanks fuel { c with rest := ds }
      else c

/-- Reads the label up to its closing bracket; `before` is what was read, in reverse. -/
def readLabel : Nat → List Char → DefinitionCursor → Option (List Char × DefinitionCursor)
  | 0, _, _ => none
  | fuel + 1, before, c =>
    match c.rest with
    | [] => none
    | d :: ds =>
      let next : DefinitionCursor := { c with rest := ds }
      if d = '[' then none
      else if d = ']' then some (before.reverse, next)
      else if d = '\n' then readLabel fuel (d :: before) next.extend
      else if d = '\\' then
        match ds with
        | [] => none
        | e :: es =>
          let next : DefinitionCursor := { c with rest := es }
          readLabel fuel (e :: d :: before) (if e = '\n' then next.extend else next)
      else readLabel fuel (d :: before) next

/-- Reads a title up to its mark, over as many lines as it takes. -/
def readTitle (mark : Char) : Nat → List Char → DefinitionCursor →
    Option (List Char × DefinitionCursor)
  | 0, _, _ => none
  | fuel + 1, before, c =>
    match Markdown.readTitle mark [] c.rest with
    | .closed t rest => some (before ++ t, { c with rest := rest })
    | .failed => none
    | .unfinished t =>
      match c.more with
      | [] => none
      | l :: ls => readTitle mark fuel (before ++ t) ⟨l, ls, c.taken + 1⟩

/-- A title behind the destination. There must be a blank before it, unless it goes on over a line
end. -/
def title? (start : DefinitionCursor) : Option (List Char × DefinitionCursor) := do
  let c := skipBlanks (start.rest.length + start.more.flatten.length) start
  let (mark, r) ← titleMark? c.rest
  let (title, next) ← readTitle mark (c.more.length + 1) [] { c with rest := r }
  if c.rest.length = start.rest.length && c.taken = start.taken && next.taken = c.taken then none
  else return (title, next)

def atLineEnd (c : DefinitionCursor) : Bool :=
  match c.rest.dropWhile isSpace with
  | [] => true
  | d :: _ => d = '\n'

end DefinitionCursor

/-- The title behind a destination and the end of the definition. A title with something behind it
is none, and then nothing may stand behind the destination. -/
def definitionEnd? (afterDestination : DefinitionCursor) : Option (List Char × Nat) :=
  let plain := if afterDestination.atLineEnd then some ([], afterDestination.taken) else none
  match afterDestination.title? with
  | some (title, c) =>
    if c.atLineEnd then some (title, c.taken) else if title.isEmpty then none else plain
  | none => plain

/-- Reads a definition from its first line, behind the opening bracket, and the lines that may
follow: the key, the target, and the number of further lines taken. -/
def definition? (line : List Char) (more : List (List Char)) :
    Option (List Char × Target × Nat) := do
  let size := line.length + more.flatten.length
  let (label, c) ← DefinitionCursor.readLabel (size + 1) [] ⟨line, more, 0⟩
  let rest ← dropHead? [':'] c.rest
  let c := DefinitionCursor.skipBlanks size { c with rest := rest }
  let (text, rest) ← destination? c.rest
  let href := linkAddress text
  if !isSafeAddress href then none
  else
    let (title, taken) ← definitionEnd? { c with rest := rest }
    let key := referenceKey label
    if key.isEmpty then none else return (key, ⟨href, title⟩, taken)

namespace Blocks

/-- The lines that may continue the paragraph or definition before line `i`, with their ends. -/
def following (b : Blocks) : Nat → Nat → List (List Char)
  | 0, _ => []
  | fuel + 1, i =>
    let l := b.line? i
    let goesOn := 3 < b.inner i || l.indent < 0 || !b.interrupts .definition b.limit i
    if b.limit ≤ i || b.isEmpty i || !goesOn then []
    else (b.src.extract (b.first i) (l.stop + 1)).toList :: b.following fuel (i + 1)

end Blocks

end DocumentMedia.Markdown
