import DocumentMedia.Yaml.ScalarText

/-! # YAML tokens

A YAML text as a list of tokens. Blocks are told by indents, so tokens for their starts and ends are
put in; so are those for the keys of maps, which show only by the colon behind them.
-/
namespace DocumentMedia.Yaml

open DocumentMedia.Text

inductive Token where
  /-- A version, of which only the first number counts. -/
  | version (major : Nat)
  | tagHandle (handle : List Char) (stands : List Char)
  | otherDirective
  | documentStart
  | documentEnd
  | blockSequenceStart
  | blockMappingStart
  | blockEnd
  | flowSequenceStart
  | flowSequenceEnd
  | flowMappingStart
  | flowMappingEnd
  | blockEntry
  | flowEntry
  | keyMark
  | valueMark
  | alias (name : List Char)
  | anchor (name : List Char)
  | tag (handle : Option (List Char)) (suffix : List Char)
  | scalar (text : List Char) (plain : Bool)
  | streamEnd
  /-- The text cannot be read any further. -/
  | fault (e : YamlError)
  deriving DecidableEq, Repr

structure PossibleKey where
  /-- Number of the token it would start with. -/
  token : Nat
  /-- A key must stand here, or the block is broken. -/
  required : Bool
  index : Nat
  line : Nat
  column : Nat

structure Scanner where
  cursor : Cursor
  tokens : Array Token
  /-- Number of brackets open. -/
  flow : Nat
  indent : Int
  indents : List Int
  keyAllowed : Bool
  /-- Possible keys by the number of brackets around them. -/
  keys : List (Nat × PossibleKey)
  done : Bool

abbrev ScanM := StateT Scanner (Except YamlError)

namespace Scanner

def start (text : List Char) : Scanner :=
  ⟨⟨text, 0, 0, 0⟩, #[], 0, -1, [], true, [], false⟩

def push (s : Scanner) (t : Token) : Scanner := { s with tokens := s.tokens.push t }

def moveTo (s : Scanner) (c : Cursor) : Scanner := { s with cursor := c }

def insert (s : Scanner) (i : Nat) (t : Token) : Scanner :=
  { s with tokens := s.tokens.extract 0 i |>.push t |>.append (s.tokens.extract i s.tokens.size) }

def dropKey (s : Scanner) : Scanner := { s with keys := s.keys.filter fun (n, _) => n ≠ s.flow }

/-- Closes the blocks that are indented deeper than a column. -/
def unwind (column : Int) : Nat → Scanner → Scanner
  | 0, s => s
  | fuel + 1, s =>
    if 0 < s.flow || s.indent ≤ column then s
    else
      unwind column fuel
        { s.push .blockEnd with indent := s.indents.headD (-1), indents := s.indents.tail }

def unwound (s : Scanner) (column : Int) : Scanner := unwind column (s.indents.length + 1) s

end Scanner

def refuse : ScanM α := throw .malformed

/-- Gives up keys that cannot be completed: they must end on their line, within 1024 characters. -/
def dropStaleKeys : ScanM Unit := do
  let s ← get
  let isStale (k : PossibleKey) : Bool :=
    k.line ≠ s.cursor.line || s.cursor.index - k.index > 1024
  if s.keys.any fun (_, k) => isStale k && k.required then refuse
  set { s with keys := s.keys.filter fun (_, k) => !isStale k }

def removeKey : ScanM Unit := do
  let s ← get
  if s.keys.any fun (n, k) => n = s.flow && k.required then refuse
  set s.dropKey

def saveKey : ScanM Unit := do
  let s ← get
  if s.keyAllowed then
    removeKey
    let required := s.flow = 0 && s.indent = s.cursor.column
    let key : PossibleKey :=
      ⟨s.tokens.size, required, s.cursor.index, s.cursor.line, s.cursor.column⟩
    modify fun s => { s with keys := s.keys ++ [(s.flow, key)] }

/-- Starts a block at a column if it is deeper than the current one; tells whether it is. -/
def addIndent (column : Nat) : ScanM Bool := do
  let s ← get
  if s.indent < column then
    set { s with indent := column, indents := s.indent :: s.indents }
    return true
  else return false

/-- Skips blanks, comments and line ends; a key may start on a new line. -/
def toNextToken : Nat → ScanM Unit
  | 0 => return
  | fuel + 1 => do
    let s ← get
    let (b, c) := s.cursor.skipSpaces.skipComment.lineBreak
    set { s.moveTo c with keyAllowed := s.keyAllowed || (!b.isEmpty && s.flow = 0) }
    if !b.isEmpty then toNextToken fuel

def pushAt (t : Token) (c : Cursor) : ScanM Unit := modify fun s => (s.moveTo c).push t

def allowKey (b : Bool) : ScanM Unit := modify fun s => { s with keyAllowed := b }

def readStreamEnd : ScanM Unit := do
  modify (·.unwound (-1))
  removeKey
  modify fun s => { s.push .streamEnd with keyAllowed := false, keys := [], done := true }

def isNameChar (c : Char) : Bool := c.isAlphanum || c = '-' || c = '_'

/-- A handle such as `!` or `!name!`. A lone mark before a blank is one. -/
def tagHandle (c : Cursor) : Except YamlError Reading :=
  match c.rest with
  | '!' :: r =>
    if r.head? = some ' ' then .ok (['!'], c.next)
    else
      let name := r.takeWhile isNameChar
      match r.drop name.length with
      | '!' :: _ => .ok ('!' :: name ++ ['!'], c.skip (name.length + 2))
      | _ => .error .malformed
  | _ => .error .malformed

def isUriChar (c : Char) : Bool := c.isAlphanum || "-;/?:@&=+$,_.!~*'()[]%".toList.contains c

/-- Bytes written as percent codes at the start of a text. -/
def uriBytes : List Char → Option (List UInt8 × List Char)
  | '%' :: a :: b :: r => do
    let byte ← hexByte? a b
    match r with
    | '%' :: _ => (uriBytes r).map fun (bs, rest) => (byte :: bs, rest)
    | _ => some ([byte], r)
  | _ => none

def uriFrom : Nat → List Char → Except YamlError (List Char)
  | 0, _ => .ok []
  | _ + 1, [] => .ok []
  | fuel + 1, c :: cs =>
    if c = '%' then
      match uriBytes (c :: cs) with
      | some (bytes, rest) =>
        match Utf8.decode ⟨bytes.toArray⟩ with
        | .ok s => (uriFrom fuel rest).map (s.toList ++ ·)
        | .error _ => .error .malformed
      | none => .error .malformed
    else (uriFrom fuel cs).map (c :: ·)

/-- The rest of a tag, with its percent codes read. -/
def uri (c : Cursor) : Except YamlError Reading := do
  let raw := c.take isUriChar
  if raw.isEmpty then throw .malformed
  let text ← uriFrom (raw.length + 1) raw
  return (text, c.skip raw.length)

def atBlank (c : Cursor) : Bool := c.endsAt 0 fun d => d = ' ' || isBreak d

/-- Ends a directive with the rest of its line. -/
def directiveEnd (c : Cursor) : Except YamlError Cursor :=
  let c := c.skipSpaces.skipComment
  if c.endsAt 0 isBreak then .ok c.lineBreak.2 else .error .malformed

def versionDirective (c : Cursor) : Except YamlError (Token × Cursor) :=
  let c := c.skipSpaces
  let major := c.take Char.isDigit
  let c := c.skip major.length
  let minor := c.next.take Char.isDigit
  let d := c.next.skip minor.length
  if major.isEmpty || minor.isEmpty || c.peek ≠ some '.' || !atBlank d then .error .malformed
  else .ok (.version (major.foldl (fun n e => n * 10 + (e.toNat - 48)) 0), d)

def tagDirective (c : Cursor) : Except YamlError (Token × Cursor) := do
  let (handle, c) ← tagHandle c.skipSpaces
  if c.peek ≠ some ' ' then throw .malformed
  let (stands, c) ← uri c.skipSpaces
  if !atBlank c then throw .malformed
  return (.tagHandle handle stands, c)

/-- A directive, behind its percent sign. -/
def directive (c : Cursor) : Except YamlError (Token × Cursor) := do
  let name := c.take isNameChar
  let c := c.skip name.length
  if name.isEmpty || !atBlank c then throw .malformed
  let (t, c) ←
    if name = "YAML".toList then versionDirective c
    else if name = "TAG".toList then tagDirective c
    else pure (.otherDirective, c.skipWhile (!isBreak ·))
  return (t, ← directiveEnd c)

def readDirective : ScanM Unit := do
  modify (·.unwound (-1))
  removeKey
  let (t, c) ← directive (← get).cursor.next
  allowKey false
  pushAt t c

def readSeparator (t : Token) : ScanM Unit := do
  modify (·.unwound (-1))
  removeKey
  allowKey false
  pushAt t ((← get).cursor.skip 3)

def readOpening (t : Token) : ScanM Unit := do
  saveKey
  modify fun s => { s with flow := s.flow + 1, keyAllowed := true }
  pushAt t (← get).cursor.next

/-- A closing bracket. Without an open one the depth stays, and the parser refuses the token. -/
def readClosing (t : Token) : ScanM Unit := do
  removeKey
  modify fun s => { s with flow := s.flow - 1, keyAllowed := false }
  pushAt t (← get).cursor.next

def readFlowEntry : ScanM Unit := do
  allowKey true
  removeKey
  pushAt .flowEntry (← get).cursor.next

def readBlockEntry : ScanM Unit := do
  let s ← get
  if s.flow = 0 then
    if !s.keyAllowed then refuse
    if ← addIndent s.cursor.column then modify (·.push .blockSequenceStart)
  allowKey true
  removeKey
  pushAt .blockEntry s.cursor.next

def readKey : ScanM Unit := do
  let s ← get
  if s.flow = 0 then
    if !s.keyAllowed then refuse
    if ← addIndent s.cursor.column then modify (·.push .blockMappingStart)
  allowKey (s.flow = 0)
  removeKey
  pushAt .keyMark s.cursor.next

/-- A colon. It makes the possible key before it a key, and may start a block there. -/
def readValue : ScanM Unit := do
  let s ← get
  match s.keys.lookup s.flow with
  | some key =>
    set (s.dropKey.insert key.token .keyMark)
    if s.flow = 0 then
      if ← addIndent key.column then modify (·.insert key.token .blockMappingStart)
    allowKey false
  | none =>
    if s.flow = 0 then
      if !s.keyAllowed then refuse
      if ← addIndent s.cursor.column then modify (·.push .blockMappingStart)
    allowKey (s.flow = 0)
    removeKey
  pushAt .valueMark s.cursor.next

def readName (make : List Char → Token) : ScanM Unit := do
  saveKey
  allowKey false
  let c := (← get).cursor.next
  let name := c.take isNameChar
  let d := c.skip name.length
  if name.isEmpty || !d.endsAt 0 (fun e => isGap e || "?:,]\x7d%@`".toList.contains e) then refuse
  pushAt (make name) d

/-- A tag. A second mark in it ends a handle. -/
def tagToken (c : Cursor) : Except YamlError (Token × Cursor) := do
  let (t, d) ← match c.peekAt 1 with
    | some '<' => do
      let (suffix, d) ← uri (c.skip 2)
      if d.peek ≠ some '>' then throw .malformed
      pure (Token.tag none suffix, d.next)
    | e =>
      if e.all isGap then pure (Token.tag none ['!'], c.next)
      else do
        let word := c.next.take fun d => d ≠ ' ' && !isBreak d
        let (handle, d) ← if word.contains '!' then tagHandle c else pure (['!'], c.next)
        let (suffix, d) ← uri d
        pure (Token.tag (some handle) suffix, d)
  if !atBlank d then throw .malformed
  return (t, d)

def readTag : ScanM Unit := do
  saveKey
  allowKey false
  let (t, c) ← tagToken (← get).cursor
  pushAt t c

def readBlockScalar (fold : Bool) : ScanM Unit := do
  allowKey true
  removeKey
  let s ← get
  let (text, c) ← blockScalar fold s.indent s.cursor
  pushAt (.scalar text false) c

def readQuoted (double : Bool) : ScanM Unit := do
  saveKey
  allowKey false
  let (text, c) ← quotedScalar double (← get).cursor
  pushAt (.scalar text false) c

def readPlain : ScanM Unit := do
  saveKey
  let s ← get
  let r := plainScalar (0 < s.flow) (s.indent + 1) s.cursor
  allowKey r.ended
  pushAt (.scalar r.text true) r.cursor

/-- Whether a plain scalar may start here. -/
def startsPlain (s : Scanner) (d : Char) : Bool :=
  let hidden := "-?:,[]\x7b\x7d#&*!|>'\"%@`".toList.contains d || isGap d
  !hidden || (!s.cursor.endsAt 1 isGap && (d = '-' || (s.flow = 0 && (d = '?' || d = ':'))))

def readToken (s : Scanner) (d : Char) : ScanM Unit :=
  let atGap := s.cursor.endsAt 1 isGap
  let block := s.flow = 0
  if d = '%' && s.cursor.column = 0 then readDirective
  else if s.cursor.column = 0 && s.cursor.isMarker '-' then readSeparator .documentStart
  else if s.cursor.column = 0 && s.cursor.isMarker '.' then readSeparator .documentEnd
  else if d = '[' then readOpening .flowSequenceStart
  else if d = '{' then readOpening .flowMappingStart
  else if d = ']' then readClosing .flowSequenceEnd
  else if d = '}' then readClosing .flowMappingEnd
  else if d = ',' then readFlowEntry
  else if d = '-' && atGap then readBlockEntry
  else if d = '?' && (!block || atGap) then readKey
  else if d = ':' && (!block || atGap) then readValue
  else if d = '*' then readName .alias
  else if d = '&' then readName .anchor
  else if d = '!' then readTag
  else if d = '|' && block then readBlockScalar false
  else if d = '>' && block then readBlockScalar true
  else if d = '\'' then readQuoted false
  else if d = '"' then readQuoted true
  else if startsPlain s d then readPlain
  else refuse

def readNext : ScanM Unit := do
  let s ← get
  if s.cursor.index = 0 && s.cursor.peek = some byteOrderMark then set (s.moveTo s.cursor.next)
  toNextToken (s.cursor.rest.length + 1)
  dropStaleKeys
  modify fun s => s.unwound s.cursor.column
  let s ← get
  match s.cursor.peek with
  | none => readStreamEnd
  | some d => readToken s d

/-- Reads tokens until the stream ends; a fault is the last token. -/
def scanAll : Nat → Scanner → List Token
  | 0, s => s.tokens.toList
  | fuel + 1, s =>
    if s.done then s.tokens.toList
    else
      match readNext s with
      | .ok (_, s) => scanAll fuel s
      | .error e => s.tokens.toList ++ [.fault e]

/-- Characters that may stand in a YAML text. -/
def isReadable (c : Char) : Bool :=
  let n := c.toNat
  n = 9 || n = 10 || n = 13 || (0x20 ≤ n && n ≤ 0x7E) || n = 0x85 ||
    (0xA0 ≤ n && n ≤ 0xD7FF) || (0xE000 ≤ n && n ≤ 0xFFFD) || 0x10000 ≤ n

def tokensOf (text : List Char) : List Token :=
  if text.all isReadable then scanAll (text.length + 2) (Scanner.start text)
  else [.fault .malformed]

end DocumentMedia.Yaml
