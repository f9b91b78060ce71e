import DocumentMedia.Text.Percent
import DocumentMedia.Yaml.Cursor
import DocumentMedia.Yaml.Error

/-! # Texts of scalars

The text of plain, quoted and block scalars with their lines folded. Each function gives the text
and the place behind it.
-/
namespace DocumentMedia.Yaml

open DocumentMedia.Text

abbrev Reading := List Char × Cursor

/-- Folds the line end between two lines: a lone line feed is a blank, but empty lines that follow
stand for themselves. -/
def folded (first : List Char) (more : List (List Char)) : List Char :=
  (if first ≠ ['\n'] then first else if more.isEmpty then [' '] else []) ++ more.flatten

/-- Line ends between the lines of a quoted scalar, where no document may start or end. -/
def quotedBreaks : Nat → Cursor → Except YamlError (List (List Char) × Cursor)
  | 0, c => .ok ([], c)
  | fuel + 1, c =>
    if c.isSeparator then .error .malformed
    else
      let c := c.skipWhile fun d => d = ' ' || d = '\t'
      if c.sees isBreak then do
        let (b, c) := c.lineBreak
        let (bs, c) ← quotedBreaks fuel c
        return (b :: bs, c)
      else .ok ([], c)

/-- Blanks inside a quoted scalar, with the line ends among them folded. -/
def quotedGap (c : Cursor) : Except YamlError Reading := do
  let blanks := c.take fun d => d = ' ' || d = '\t'
  let c := c.skip blanks.length
  match c.peek with
  | none => .error .malformed
  | some d =>
    if isBreak d then
      let (b, c) := c.lineBreak
      let (bs, c) ← quotedBreaks (c.rest.length + 1) c
      return (folded b bs, c)
    else return (blanks, c)

/-- What a single letter stands for behind a backslash. -/
def escaped? (c : Char) : Option Char :=
  match c with
  | '0' => some (Char.ofNat 0)
  | 'a' => some (Char.ofNat 7)
  | 'b' => some (Char.ofNat 8)
  | 't' | '\t' => some '\t'
  | 'n' => some '\n'
  | 'v' => some (Char.ofNat 11)
  | 'f' => some (Char.ofNat 12)
  | 'r' => some '\r'
  | 'e' => some (Char.ofNat 27)
  | ' ' | '"' | '\\' | '/' => some c
  | 'N' => some '\u0085'
  | '_' => some '\u00a0'
  | 'L' => some '\u2028'
  | 'P' => some '\u2029'
  | _ => none

/-- Number of hexadecimal digits behind a letter. -/
def codeLength? (c : Char) : Option Nat :=
  match c with
  | 'x' => some 2
  | 'u' => some 4
  | 'U' => some 8
  | _ => none

def codeChar (n : Nat) : Except YamlError Char :=
  if n ≥ 0x80000000 then .error .hugeCodePoint
  else if n ≥ 0x110000 then .error .codePoint
  else .ok (Char.ofNat n)

def escape (c : Cursor) : Except YamlError Reading :=
  match c.peek with
  | none => .error .malformed
  | some d =>
    match escaped? d, codeLength? d with
    | some image, _ => .ok ([image], c.next)
    | none, some n =>
      let digits := c.next.rest.take n
      if digits.length = n && digits.all isHex then do
        let image ← codeChar (digits.foldl (fun k h => k * 16 + (hexValue? h).getD 0) 0)
        return ([image], c.next.skip n)
      else .error .malformed
    | none, none =>
      if isBreak d then do
        let (bs, c) ← quotedBreaks (c.rest.length + 1) c.lineBreak.2
        return (bs.flatten, c)
      else .error .malformed

/-- The text between quotes, up to the closing one; `before` is what was read, in reverse. -/
def quotedText (double : Bool) : Nat → List Char → Cursor → Except YamlError Reading
  | 0, _, _ => .error .malformed
  | fuel + 1, before, c =>
    match c.peek with
    | none => .error .malformed
    | some d =>
      if double && d = '"' then .ok (before.reverse, c.next)
      else if !double && d = '\'' then
        if c.peekAt 1 = some '\'' then quotedText double fuel ('\'' :: before) (c.skip 2)
        else .ok (before.reverse, c.next)
      else if double && d = '\\' then do
        let (t, c) ← escape c.next
        quotedText double fuel (t.reverse ++ before) c
      else if isGap d then do
        let (t, c) ← quotedGap c
        quotedText double fuel (t.reverse ++ before) c
      else quotedText double fuel (d :: before) c.next

def quotedScalar (double : Bool) (c : Cursor) : Except YamlError Reading :=
  quotedText double (c.rest.length + 1) [] c.next

/-- Line ends between the lines of a plain scalar; nothing when a document starts or ends. -/
def plainBreaks : Nat → Cursor → Option (List (List Char)) × Cursor
  | 0, c => (some [], c)
  | fuel + 1, c =>
    let c := c.skipSpaces
    if c.sees isBreak then
      let (b, c) := c.lineBreak
      if c.isSeparator then (none, c)
      else
        let (bs, c) := plainBreaks fuel c
        (bs.map (b :: ·), c)
    else (some [], c)

/-- Blanks behind a part of a plain scalar, and whether a line ended among them. -/
def plainGap (c : Cursor) : List Char × Bool × Cursor :=
  let blanks := c.take (· = ' ')
  let c := c.skip blanks.length
  if c.sees isBreak then
    let (b, c) := c.lineBreak
    if c.isSeparator then ([], true, c)
    else
      match plainBreaks (c.rest.length + 1) c with
      | (none, c) => ([], true, c)
      | (some bs, c) => (folded b bs, true, c)
  else (blanks, false, c)

def isFlowMark (c : Char) : Bool := c = ',' || c = '?' || c = '[' || c = ']' || c = '{' || c = '}'

/-- A part of a plain scalar without gaps. A colon ends it before a gap, and inside brackets before
a bracket or comma. -/
def plainPart (flow : Bool) : List Char → List Char
  | [] => []
  | d :: ds =>
    let isEnd (e : Char) : Bool :=
      isGap e || (flow && (e = ',' || e = '[' || e = ']' || e = '{' || e = '}'))
    if isGap d || (d = ':' && ds.head?.all isEnd) || (flow && isFlowMark d) then []
    else d :: plainPart flow ds

/-- A plain scalar: its text, whether a line ended behind its last part, and the place behind. -/
structure PlainReading where
  text : List Char
  ended : Bool
  cursor : Cursor

/-- The parts of a plain scalar; `gap` is what stands before the next one. A part of at least the
given indent goes on with the scalar. -/
def plainParts (flow : Bool) (indent : Int) : Nat → List Char → Bool → Cursor → PlainReading
  | 0, _, ended, c => ⟨[], ended, c⟩
  | fuel + 1, gap, ended, c =>
    let part := if c.peek = some '#' then [] else plainPart flow c.rest
    if part.isEmpty then ⟨[], ended, c⟩
    else
      let (next, newLine, d) := plainGap (c.skip part.length)
      let stop := next.isEmpty || d.peek = some '#' || (!flow && (d.column : Int) < indent)
      if stop then ⟨gap ++ part, newLine, d⟩
      else
        let r := plainParts flow indent fuel next newLine d
        ⟨gap ++ part ++ r.text, r.ended, r.cursor⟩

def plainScalar (flow : Bool) (indent : Int) (c : Cursor) : PlainReading :=
  plainParts flow indent (c.rest.length + 1) [] false c

/-- What becomes of the line ends at the end of a block scalar. -/
inductive Chomping where
  | strip
  | clip
  | keep
  deriving DecidableEq

def chomping? (c : Cursor) : Option Chomping :=
  match c.peek with
  | some '+' => some .keep
  | some '-' => some .strip
  | _ => none

def increment? (c : Cursor) : Option Nat :=
  match c.peek with
  | some d => if d.isDigit then some (d.toNat - 48) else none
  | none => none

/-- The marks behind the opening mark of a block scalar, in either order, and the rest of their
line, which may hold a comment. -/
def blockHeader (c : Cursor) : Except YamlError (Chomping × Option Nat × Cursor) :=
  let (chomp, size, c) : Option Chomping × Option Nat × Cursor :=
    match chomping? c with
    | some ch =>
      match increment? c.next with
      | some n => (some ch, some n, c.skip 2)
      | none => (some ch, none, c.next)
    | none =>
      match increment? c with
      | some n =>
        match chomping? c.next with
        | some ch => (some ch, some n, c.skip 2)
        | none => (none, some n, c.next)
      | none => (none, none, c)
  let tail := c.skipSpaces.skipComment
  if size = some 0 || !c.endsAt 0 (fun d => d = ' ' || isBreak d) || !tail.endsAt 0 isBreak then
    .error .malformed
  else .ok (chomp.getD .clip, size, tail.lineBreak.2)

/-- Empty lines before the first line of a block scalar, and the greatest column reached. -/
def blockIndent : Nat → Cursor → Nat → List (List Char) × Nat × Cursor
  | 0, c, deepest => ([], deepest, c)
  | fuel + 1, c, deepest =>
    match c.peek with
    | some ' ' => blockIndent fuel c.next (max deepest c.next.column)
    | some d =>
      if isBreak d then
        let (b, c) := c.lineBreak
        let (bs, deepest, c) := blockIndent fuel c deepest
        (b :: bs, deepest, c)
      else ([], deepest, c)
    | none => ([], deepest, c)

def skipIndent (indent : Nat) : Nat → Cursor → Cursor
  | 0, c => c
  | fuel + 1, c =>
    if c.column < indent && c.peek = some ' ' then skipIndent indent fuel c.next else c

/-- Empty lines between the lines of a block scalar. -/
def blockBreaks (indent : Nat) : Nat → Cursor → List (List Char) × Cursor
  | 0, c => ([], c)
  | fuel + 1, c =>
    let c := skipIndent indent indent c
    if c.sees isBreak then
      let (b, c) := c.lineBreak
      let (bs, c) := blockBreaks indent fuel c
      (b :: bs, c)
    else ([], c)

def isIndented (c : Cursor) : Bool := c.sees fun d => d = ' ' || d = '\t'

/-- The lines of a block scalar; `breaks` are the empty lines before the next one. In a folded
scalar the line end between two lines that start without blanks is folded. -/
def blockLines (fold : Bool) (chomp : Chomping) (indent : Nat) :
    Nat → List (List Char) → Cursor → Reading
  | 0, _, c => ([], c)
  | fuel + 1, breaks, c =>
    let line := c.take (!isBreak ·)
    let (b, d) := (c.skip line.length).lineBreak
    let (next, e) := blockBreaks indent (d.rest.length + 1) d
    if e.column = indent && e.peek.isSome then
      let joint :=
        if fold && b = ['\n'] && !isIndented c && !isIndented e then
          if next.isEmpty then [' '] else []
        else b
      let (rest, c) := blockLines fold chomp indent fuel next e
      (breaks.flatten ++ line ++ joint ++ rest, c)
    else
      let tail := match chomp with
        | .strip => []
        | .clip => b
        | .keep => b ++ next.flatten
      (breaks.flatten ++ line ++ tail, e)

/-- A block scalar, from its opening mark, inside a block of the given indent. -/
def blockScalar (fold : Bool) (outer : Int) (c : Cursor) : Except YamlError Reading := do
  let (chomp, size, c) ← blockHeader c.next
  let least := (max 1 (outer + 1)).toNat
  let fuel := c.rest.length + 1
  let (indent, breaks, c) := match size with
    | some n =>
      let (bs, d) := blockBreaks (least + n - 1) fuel c
      (least + n - 1, bs, d)
    | none =>
      let (bs, deepest, d) := blockIndent fuel c 0
      (max least deepest, bs, d)
  if c.column = indent && c.peek.isSome then return blockLines fold chomp indent fuel breaks c
  else return (if chomp = .keep then breaks.flatten else [], c)

end DocumentMedia.Yaml
