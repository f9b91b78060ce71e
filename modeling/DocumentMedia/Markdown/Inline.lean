import DocumentMedia.Directive.Syntax
import DocumentMedia.Markdown.Address
import DocumentMedia.Markdown.Dialect
import DocumentMedia.Markdown.Emphasis
import DocumentMedia.Markdown.Line
import DocumentMedia.Markdown.Tag
import DocumentMedia.Text.Punctuation

/-! # Inline content

The text of a block is read from left to right; at each place the constructs of the dialect are
tried in order. A construct can also be skipped, which finds its end without making tokens; ends
once found are remembered.
-/
namespace DocumentMedia.Markdown

open DocumentMedia.Text

/-- What the constructs may look up. -/
structure InlineEnv where
  dialect : Dialect
  definitions : Assoc (List Char) Target

structure Scan where
  src : Array Char
  pos : Nat
  /-- Where the current stretch ends. -/
  stop : Nat
  tokens : Array Token
  /-- Plain text since the last token, in reverse. -/
  pending : List Char
  delimiters : Array Delimiter
  /-- The delimiters of links already closed. -/
  closed : List (Array Delimiter)
  /-- Ends of constructs by their start; zero where none is known. -/
  ends : Array Nat

abbrev InlineM := StateM Scan

namespace Scan

def start (text : List Char) : Scan :=
  let src := text.toArray
  ⟨src, 0, src.size, #[], [], #[], [], Array.replicate (src.size + 1) 0⟩

def char? (s : Scan) (i : Nat) : Option Char := s.src[i]?

/-- The character before the end of the stretch. -/
def inside? (s : Scan) (i : Nat) : Option Char := if i < s.stop then s.src[i]? else none

def after (s : Scan) (i : Nat) : List Char := (s.src.extract i s.src.size).toList

def slice (s : Scan) (i j : Nat) : List Char := (s.src.extract i j).toList

def skipWhile (s : Scan) (p : Char → Bool) (i : Nat) : Nat :=
  i + ((s.slice i s.stop).takeWhile p).length

def flush (s : Scan) : Scan :=
  if s.pending.isEmpty then s
  else
    { s with
      tokens := s.tokens.push { type := "text", content := String.ofList s.pending.reverse }
      pending := [] }

def push (s : Scan) (t : Token) : Scan :=
  let s := s.flush
  { s with tokens := s.tokens.push t }

def addPending (s : Scan) (text : List Char) : Scan :=
  { s with pending := text.reverse ++ s.pending }

end Scan

/-- Moves on, and does more unless only the end is looked for. -/
def accept (silent : Bool) (pos : Nat) (act : Scan → Scan) : InlineM Bool := do
  modify fun s => { (if silent then s else act s) with pos := pos }
  return true

/-- A construct of inline content: it accepts some text at the current place, or leaves the place
as it is. -/
abbrev Construct := Bool → InlineM Bool

def endsRun (c : Char) : Bool := "\n!#$%&*+-:<=>@[\\]^_`{}~".toList.contains c

def plainRun : Construct := fun silent => do
  let s ← get
  let next := s.skipWhile (!endsRun ·) s.pos
  if next = s.pos then return false
  else accept silent next (·.addPending (s.slice s.pos next))

/-- A line end; two blanks before it make it hard. -/
def lineEnd : Construct := fun silent => do
  let s ← get
  if s.char? s.pos ≠ some '\n' then return false
  else
    accept silent (s.skipWhile isSpace (s.pos + 1)) fun s =>
      match s.pending with
      | ' ' :: ' ' :: r =>
        { s with pending := r.dropWhile (· = ' ') }.push { type := "hardbreak", tag := "br" }
      | ' ' :: r => { s with pending := r }.push { type := "softbreak", tag := "br" }
      | _ => s.push { type := "softbreak", tag := "br" }

def specialText (content : List Char) : Token :=
  { type := "text_special", content := String.ofList content }

/-- A backslash: before a line end it is a hard break, before punctuation it hides it. -/
def escapeMark : Construct := fun silent => do
  let s ← get
  if s.char? s.pos ≠ some '\\' then return false
  else
    match s.inside? (s.pos + 1) with
    | none => return false
    | some '\n' =>
      accept silent (s.skipWhile isSpace (s.pos + 2)) (·.push { type := "hardbreak", tag := "br" })
    | some c =>
      accept silent (s.pos + 2)
        (·.push (specialText (if isAsciiPunctuation c then [c] else ['\\', c])))

/-- A run of backticks: its start, its end. -/
def tickRun? (s : Scan) (i : Nat) : Option (Nat × Nat) :=
  let start := i + ((s.after i).takeWhile (· ≠ '`')).length
  if start < s.src.size then some (start, max (start + 1) (s.skipWhile (· = '`') start)) else none

/-- The next run of exactly `length` backticks from `i` on; `fuel` bounds the number of runs. -/
def closingRun? (s : Scan) (length : Nat) : Nat → Nat → Option (Nat × Nat)
  | 0, _ => none
  | fuel + 1, i =>
    match tickRun? s i with
    | none => none
    | some (start, stop) =>
      if stop - start = length then some (start, stop) else closingRun? s length fuel stop

/-- The content of a code span: line ends are blanks, and one blank is dropped at both ends unless
there is nothing but blanks. -/
def codeText (raw : List Char) : List Char :=
  let s := raw.map fun c => if c = '\n' then ' ' else c
  match s with
  | ' ' :: r => if r.getLast? = some ' ' && r.any (· ≠ ' ') then r.dropLast else s
  | _ => s

/-- A run of backticks and the next run as long: what stands between them is code. A run without
such a partner is plain text. -/
def codeSpan : Construct := fun silent => do
  let s ← get
  if s.char? s.pos ≠ some '`' then return false
  else
    let stop := s.skipWhile (· = '`') s.pos
    let length := stop - s.pos
    match closingRun? s length (s.src.size + 1) stop with
    | some (close, next) =>
      accept silent next (·.push
        { type := "code_inline", tag := "code"
          content := String.ofList (codeText (s.slice stop close)) })
    | none => accept silent stop (·.addPending (List.replicate length '`'))

/-- Blanks and line ends as the rules for emphasis see them. -/
def isEmphasisBlank (c : Char) : Bool :=
  let n := c.toNat
  (9 ≤ n && n ≤ 13) || n = 0x20 || n = 0xA0 || n = 0x1680 || (0x2000 ≤ n && n ≤ 0x200A) ||
    n = 0x202F || n = 0x205F || n = 0x3000

def isEmphasisPunctuation (c : Char) : Bool := isAsciiPunctuation c || isPunctuation c

/-- Length of the run of delimiters here, and whether it can open and close. -/
def delimiterRun (s : Scan) (splitsWords : Bool) : Nat × Bool × Bool :=
  let marker := (s.char? s.pos).getD ' '
  let next := s.skipWhile (· = marker) s.pos
  let before := if s.pos = 0 then ' ' else (s.char? (s.pos - 1)).getD ' '
  let behind := (s.inside? next).getD ' '
  let (lastBlank, nextBlank) := (isEmphasisBlank before, isEmphasisBlank behind)
  let (lastMark, nextMark) := (isEmphasisPunctuation before, isEmphasisPunctuation behind)
  let left := !nextBlank && (!nextMark || lastBlank || lastMark)
  let right := !lastBlank && (!lastMark || nextBlank || nextMark)
  (next - s.pos, left && (splitsWords || !right || lastMark),
    right && (splitsWords || !left || nextMark))

def Scan.pushDelimiter (s : Scan) (marker : Char) (text : String) (length : Nat)
    (opens closes : Bool) : Scan :=
  let s := s.push { type := "text", content := text }
  { s with
    delimiters := s.delimiters.push ⟨marker, length, s.tokens.size - 1, none, opens, closes⟩ }

def Scan.pushDelimiters (s : Scan) (marker : Char) (text : String) (length : Nat)
    (opens closes : Bool) (count : Nat) : Scan :=
  count.repeat (fun s => s.pushDelimiter marker text length opens closes) s

/-- Two or more tildes; an odd one comes first. -/
def strikeRun : Construct := fun silent => do
  let s ← get
  if silent || s.char? s.pos ≠ some '~' then return false
  else
    let (length, opens, closes) := delimiterRun s true
    if length < 2 then return false
    else
      accept false (s.pos + length) fun s =>
        let s := if length % 2 = 1 then s.push { type := "text", content := "~" } else s
        s.pushDelimiters '~' "~~" 0 opens closes (length / 2)

def emphasisRun : Construct := fun silent => do
  let s ← get
  let marker := (s.char? s.pos).getD ' '
  if silent || (marker ≠ '_' && marker ≠ '*') then return false
  else
    let (length, opens, closes) := delimiterRun s (marker = '*')
    accept false (s.pos + length)
      (·.pushDelimiters marker (String.singleton marker) length opens closes length)

/-- A directive; it does not start behind a letter, a digit or a colon, and needs a label or
attributes. -/
def directive : Construct := fun silent => do
  let s ← get
  let before := if s.pos = 0 then none else s.char? (s.pos - 1)
  if s.char? s.pos ≠ some ':' || before.any (fun c => isAlnum c || c = ':') then return false
  else
    let text := s.after s.pos
    match Directive.text? text with
    | none => return false
    | some (r, rest) =>
      if r.label.isNone && r.attrs.isNone then return false
      else
        accept silent (s.src.size - rest.length) (·.push
          { type := "text_directive"
            content := String.ofList (text.take (text.length - rest.length))
            directive := ⟨String.ofList r.name, r.label.map String.ofList,
              r.attributes.map fun (k, v) => (k, .str v)⟩ })

/-- Looks for the bracket that closes a label; `level` counts the brackets open. -/
def labelLoop (skip : InlineM Unit) (nested : Bool) : Nat → Nat → InlineM (Option Nat)
  | 0, _ => return none
  | fuel + 1, level => do
    let s ← get
    match s.inside? s.pos with
    | none => return none
    | some c =>
      if c = ']' && level = 1 then return some s.pos
      else
        skip
        let next := (← get).pos
        let level := if c = ']' then level - 1 else level
        if c = '[' then
          if next = s.pos + 1 then labelLoop skip nested fuel (level + 1)
          else if nested then labelLoop skip nested fuel level
          else return none
        else labelLoop skip nested fuel level

/-- The end of the label whose bracket opens at `start`. Constructs inside it are skipped whole; a
link inside it counts only where links may nest. -/
def labelEnd (skip : InlineM Unit) (nested : Bool) (start : Nat) : InlineM (Option Nat) := do
  let s ← get
  set { s with pos := start + 1 }
  let found ← labelLoop skip nested (s.stop + 1) 1
  modify fun t => { t with pos := s.pos }
  return found

def isLinkBlank (c : Char) : Bool := isSpace c || c = '\n'

/-- What stands in parentheses behind a label. -/
inductive InlineTarget where
  | found (target : Target) (next : Nat)
  /-- The stretch ends before the destination. -/
  | endOfText
  /-- Something else stands there; where reading stopped. -/
  | malformed (pos : Nat)

/-- Reads destination and title behind the opening parenthesis at `i`. A title needs a blank before
it. A link reads one only behind a destination. -/
def inlineTarget (s : Scan) (needsDestination : Bool) (i : Nat) : InlineTarget :=
  let pos := s.skipWhile isLinkBlank (i + 1)
  if s.stop ≤ pos then .endOfText
  else
    let dest := destination? (s.slice pos s.stop)
    let (href, afterDest) := match dest with
      | some (text, rest) =>
        let href := linkAddress text
        if isSafeAddress href then (href, s.stop - rest.length) else ([], pos)
      | none => ([], pos)
    let (title, next) :=
      if dest.isNone && needsDestination then ([], afterDest)
      else
        let blank := s.skipWhile isLinkBlank afterDest
        match title? (s.slice blank s.stop) with
        | some (title, rest) =>
          if blank ≠ afterDest then (title, s.skipWhile isLinkBlank (s.stop - rest.length))
          else ([], blank)
        | none => ([], blank)
    if s.inside? next = some ')' then .found ⟨href, title⟩ (next + 1) else .malformed next

/-- The target of a link by definition, with the second label that may follow at `pos`. -/
def definedTarget (env : InlineEnv) (skip : InlineM Unit) (labelStart labelStop pos : Nat) :
    InlineM (Option (Target × Nat)) := do
  if env.definitions.isEmpty then return none
  else
    let s ← get
    let own := s.slice labelStart labelStop
    let (label, next) ←
      if s.inside? pos = some '[' then do
        match ← labelEnd skip true pos with
        | some stop =>
          let second := s.slice (pos + 1) stop
          pure (if second.isEmpty then own else second, stop + 1)
        | none => pure (own, labelStop + 1)
      else pure (own, labelStop + 1)
    return (Assoc.find? env.definitions (referenceKey label)).map fun t => (t, next)

def targetAttrs (key : String) (t : Target) (extra : Fields) : Fields :=
  (key, .str (String.ofList t.href)) :: extra ++
    (if t.title.isEmpty then [] else [("title", .str (String.ofList t.title))])

/-- A link. Its content is read by `content`, with a level of delimiters of its own. -/
def link (env : InlineEnv) (skip content : InlineM Unit) : Construct := fun silent => do
  let s ← get
  if s.char? s.pos ≠ some '[' then return false
  else
    match ← labelEnd skip false s.pos with
    | none => return false
    | some stop =>
      let defined (pos : Nat) := definedTarget env skip (s.pos + 1) stop pos
      let found ←
        if s.inside? (stop + 1) = some '(' then
          match inlineTarget s true (stop + 1) with
          | .found t next => pure (some (t, next))
          | .endOfText => pure none
          | .malformed pos => defined (pos + 1)
        else defined (stop + 1)
      match found with
      | none => return false
      | some (t, next) =>
        if !silent then
          let outer ← modifyGet fun u =>
            let v := u.push
              { type := "link_open", nesting := .opens, tag := "a", attrs := targetAttrs "href" t [] }
            (v.delimiters, { v with pos := s.pos + 1, stop := stop, delimiters := #[] })
          content
          modify fun u =>
            let v := u.push { type := "link_close", nesting := .closes, tag := "a" }
            { v with stop := s.stop, delimiters := outer, closed := u.delimiters :: v.closed }
        modify fun u => { u with pos := next }
        return true

def image (env : InlineEnv) (skip : InlineM Unit) : Construct := fun silent => do
  let s ← get
  if s.char? s.pos ≠ some '!' || s.inside? (s.pos + 1) ≠ some '[' then return false
  else
    match ← labelEnd skip true (s.pos + 1) with
    | none => return false
    | some stop =>
      let found ←
        if s.inside? (stop + 1) = some '(' then
          match inlineTarget s false (stop + 1) with
          | .found t next => pure (some (t, next))
          | _ => pure none
        else definedTarget env skip (s.pos + 2) stop (stop + 1)
      match found with
      | none => return false
      | some (t, next) =>
        accept silent next (·.push
          { type := "image", tag := "img", attrs := targetAttrs "src" t [("alt", .str "")]
            content := String.ofList (s.slice (s.pos + 2) stop) })

def angled? (s : Scan) : Option (List Char) :=
  if s.char? s.pos ≠ some '<' then none
  else
    let stop := s.skipWhile (fun c => c ≠ '<' && c ≠ '>') (s.pos + 1)
    if s.inside? stop = some '>' then some (s.slice (s.pos + 1) stop) else none

/-- A scheme of two to 32 characters, a colon, and no blank or control. -/
def isAutolink (url : List Char) : Bool :=
  let isSchemeChar (c : Char) : Bool := c.isAlphanum || c = '+' || c = '.' || c = '-'
  match dropLastBreak url with
  | c :: cs =>
    let scheme := cs.takeWhile isSchemeChar
    c.isAlpha && 1 ≤ scheme.length && scheme.length ≤ 31 &&
      (match cs.dropWhile isSchemeChar with
        | ':' :: rest => rest.all fun d => 32 < d.toNat
        | _ => false)
  | [] => false

def isMailLabel (l : List Char) : Bool :=
  !l.isEmpty && l.length ≤ 63 && l.all (fun c => c.isAlphanum || c = '-') &&
    l.head? ≠ some '-' && l.getLast? ≠ some '-'

def isMailChar (c : Char) : Bool := c.isAlphanum || ".!#$%&'*+/=?^_`{|}~-".toList.contains c

def isMailAddress (text : List Char) : Bool :=
  match splitWhere (· = '@') (dropLastBreak text) with
  | [name, domain] =>
    !name.isEmpty && name.all isMailChar && (splitWhere (· = '.') domain).all isMailLabel
  | _ => false

def autolink : Construct := fun silent => do
  let s ← get
  match angled? s with
  | none => return false
  | some url =>
    let full := if isAutolink url then some url
      else if isMailAddress url then some ("mailto:".toList ++ url)
      else none
    match full.map linkAddress with
    | none => return false
    | some href =>
      if !isSafeAddress href then return false
      else
        accept silent (s.pos + url.length + 2) fun s =>
          let s := s.push
            { type := "link_open", nesting := .opens, tag := "a"
              attrs := [("href", .str (String.ofList href))] }
          let s := s.push { type := "text", content := String.ofList (readableAddress url) }
          s.push { type := "link_close", nesting := .closes, tag := "a" }

def rawMarkup : Construct := fun silent => do
  let s ← get
  if s.char? s.pos ≠ some '<' || s.stop ≤ s.pos + 2 then return false
  else
    let text := s.after s.pos
    match markup? text with
    | none => return false
    | some rest =>
      let n := text.length - rest.length
      accept silent (s.pos + n) (·.push
        { type := "html_inline", content := String.ofList (text.take n) })

def characterReference : Construct := fun silent => do
  let s ← get
  if s.char? s.pos ≠ some '&' || s.stop ≤ s.pos + 1 then return false
  else
    match reference? (s.after s.pos) with
    | none => return false
    | some (image, length) => accept silent (s.pos + length) (·.push (specialText image))

/-- The constructs of a dialect in the order in which they are tried. -/
def constructs (env : InlineEnv) (skip content : InlineM Unit) : List Construct :=
  if env.dialect.constructs then
    [plainRun, lineEnd, escapeMark, codeSpan] ++
      (if env.dialect.extended then [strikeRun] else []) ++
      [directive, emphasisRun, link env skip content, image env skip, autolink] ++
      (if env.dialect.markup then [rawMarkup] else []) ++ [characterReference]
  else [plainRun, directive]

def tryAll (silent : Bool) : List Construct → InlineM Bool
  | [] => return false
  | c :: cs => do if ← c silent then return true else tryAll silent cs

/-- Remembers the end of what starts at `start`, and goes there. -/
def remember (start next : Nat) : InlineM Unit :=
  modify fun s => { s with pos := next, ends := s.ends.setIfInBounds start next }

/-- Skips one construct or one character. With no depth left, the rest of the text is skipped. -/
def skipOne (env : InlineEnv) : Nat → InlineM Unit
  | 0 => do
    let s ← get
    match s.ends.getD s.pos 0 with
    | 0 => remember s.pos (s.stop + 1)
    | next => modify fun s => { s with pos := next }
  | depth + 1 => do
    let s ← get
    match s.ends.getD s.pos 0 with
    | 0 =>
      let ok ← tryAll true (constructs env (skipOne env depth) (pure ()))
      let next := (← get).pos
      remember s.pos (if ok then next else next + 1)
    | next => modify fun s => { s with pos := next }

def readLoop (cs : List Construct) : Nat → InlineM Unit
  | 0 => return
  | fuel + 1 => do
    let s ← get
    match s.inside? s.pos with
    | none => return
    | some c =>
      if !(← tryAll false cs) then
        modify fun s => { s.addPending [c] with pos := s.pos + 1 }
      readLoop cs fuel

/-- Reads a stretch of text. With no depth left, all of it is plain. -/
def readText (env : InlineEnv) : Nat → InlineM Unit
  | 0 => modify fun s => { s.addPending (s.slice s.pos s.stop) with pos := s.stop }.flush
  | depth + 1 => do
    let s ← get
    readLoop (constructs env (skipOne env (depth + 1)) (readText env depth)) (s.stop + 1 - s.pos)
    modify Scan.flush

def inlineTokens (env : InlineEnv) (text : List Char) : List Token :=
  let s := ((readText env env.dialect.maxNesting).run (Scan.start text)).2
  resolveEmphasis s.tokens (s.delimiters :: s.closed)

end DocumentMedia.Markdown
