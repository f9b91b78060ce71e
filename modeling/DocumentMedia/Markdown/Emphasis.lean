import DocumentMedia.Markdown.Token

/-! # Emphasis

Runs of asterisks, underscores and tildes are first read as single delimiters. Openers and closers
are then paired from left to right, and paired delimiters become the tokens of emphasis, strong
emphasis and struck-out text.
-/
namespace DocumentMedia.Markdown

structure Delimiter where
  marker : Char
  /-- Length of the run, or zero where it does not matter. -/
  length : Nat
  /-- The token that the delimiter stands for. -/
  token : Nat
  closer : Option Nat
  opens : Bool
  closes : Bool
  deriving Repr, Inhabited

/-- The key under which failed searches are remembered. -/
abbrev BottomKey := Char × Bool × Nat

structure Pairing where
  delimiters : Array Delimiter
  /-- How many delimiters before each one need not be looked at again. -/
  jumps : Array Nat
  /-- Number of delimiters at the start among which a search has failed. -/
  bottoms : List (BottomKey × Nat)
  /-- First delimiter of the current run. -/
  header : Nat
  /-- The token right before, unless a new run starts. -/
  lastToken : Option Nat

/-- Runs that both open and close do not pair when their lengths add up to a multiple of three,
unless both are multiples of three. -/
def isOddMatch (opener closer : Delimiter) : Bool :=
  (opener.closes || closer.opens) && (opener.length + closer.length) % 3 = 0 &&
    (opener.length % 3 ≠ 0 || closer.length % 3 ≠ 0)

/-- The nearest opener among the first `count` delimiters, not looking at the first `bottom`. -/
def Pairing.opener? (p : Pairing) (closer : Delimiter) (bottom : Nat) : Nat → Nat → Option Nat
  | 0, _ => none
  | fuel + 1, count =>
    if count ≤ bottom then none
    else
      let i := count - 1
      let o := p.delimiters.getD i default
      if o.marker = closer.marker && o.opens && o.closer.isNone && !isOddMatch o closer then some i
      else p.opener? closer bottom fuel (i - p.jumps.getD i 0)

def bottomKey (d : Delimiter) : BottomKey := (d.marker, d.opens, d.length % 3)

def Pairing.join (p : Pairing) (opener closer : Nat) : Pairing :=
  let o := p.delimiters.getD opener default
  let c := p.delimiters.getD closer default
  let before := p.delimiters.getD (opener - 1) default
  let lastJump := if 0 < opener && !before.opens then p.jumps.getD (opener - 1) 0 + 1 else 0
  { p with
    delimiters := (p.delimiters.setIfInBounds closer { c with opens := false }).setIfInBounds opener
      { o with closer := some closer, closes := false }
    jumps := (p.jumps.setIfInBounds closer (closer - opener + lastJump)).setIfInBounds opener
      lastJump
    lastToken := none }

def Pairing.step (p : Pairing) (index : Nat) : Pairing :=
  let d := p.delimiters.getD index default
  let head := p.delimiters.getD p.header default
  let newRun := head.marker ≠ d.marker || p.lastToken.map (· + 1) ≠ some d.token
  let header := if newRun then index else p.header
  let p := { p with jumps := p.jumps.push 0, header := header, lastToken := some d.token }
  if !d.closes then p
  else
    let bottom := (p.bottoms.lookup (bottomKey d)).getD 0
    -- Openers of the same run are not looked at, nor those the run has passed over.
    let count := header - p.jumps.getD header 0
    match p.opener? d bottom (index + 1) count with
    | some i => p.join i index
    | none => if count = 0 then p else { p with bottoms := (bottomKey d, count) :: p.bottoms }

def pairDelimiters (ds : Array Delimiter) : Array Delimiter :=
  ((List.range ds.size).foldl Pairing.step ⟨ds, #[], [], 0, none⟩).delimiters

def openingToken (type tag : String) : Token := { type := type, nesting := .opens, tag := tag }

def closingToken (type tag : String) : Token := { type := type, nesting := .closes, tag := tag }

def emptyText : Token := { type := "text" }

def isTextToken (t : Token) : Bool := t.type = "text"

/-- Moves a token behind the closing tokens of struck-out text that follow it. -/
def moveBehind (tokens : Array Token) (i : Nat) : Array Token :=
  let closing := (tokens.toList.drop (i + 1)).takeWhile fun t => t.type = "s_close"
  let j := i + closing.length
  if i = j then tokens else tokens.swapIfInBounds i j

/-- Turns paired tildes into tokens. The single tilde of an odd run ends up behind the text. -/
def strikeTokens (tokens : Array Token) (ds : Array Delimiter) : Array Token :=
  let (tokens, lone) := ds.foldl (fun (tokens, lone) d =>
    match d.closer with
    | some e =>
      if d.marker = '~' then
        let close := (ds.getD e default).token
        let before := tokens.getD (close - 1) emptyText
        let lone :=
          if isTextToken before && before.content = "~" then (close - 1) :: lone else lone
        ((tokens.setIfInBounds d.token (openingToken "s_open" "s")).setIfInBounds close
          (closingToken "s_close" "s"), lone)
      else (tokens, lone)
    | none => (tokens, lone)) (tokens, ([] : List Nat))
  lone.foldl moveBehind tokens

/-- Whether the delimiter at `i` and the one before it are a pair around another pair. -/
def isStrong (ds : Array Delimiter) (i close : Nat) : Bool :=
  0 < i &&
    (let outer := ds.getD (i - 1) default
     let d := ds.getD i default
     outer.closer = some (close + 1) && outer.marker = d.marker && outer.token + 1 = d.token &&
       (ds.getD (close + 1) default).token = (ds.getD close default).token + 1)

def clearToken (tokens : Array Token) (i : Nat) : Array Token :=
  tokens.setIfInBounds i { tokens.getD i emptyText with content := "" }

/-- Turns the paired delimiters below the given index into tokens, from the last one on; `skip`
says that the next one belongs to strong emphasis. -/
def emphasisTokens (ds : Array Delimiter) : Bool → Nat → Array Token → Array Token
  | _, 0, tokens => tokens
  | true, i + 1, tokens => emphasisTokens ds false i tokens
  | false, i + 1, tokens =>
    let d := ds.getD i default
    match d.closer with
    | some e =>
      if d.marker = '_' || d.marker = '*' then
        let strong := isStrong ds i e
        let close := (ds.getD e default).token
        let (name, tag) := if strong then ("strong", "strong") else ("em", "em")
        let tokens := tokens.setIfInBounds d.token (openingToken (name ++ "_open") tag)
        let tokens := tokens.setIfInBounds close (closingToken (name ++ "_close") tag)
        let tokens :=
          if strong then
            clearToken (clearToken tokens (ds.getD (i - 1) default).token)
              (ds.getD (e + 1) default).token
          else tokens
        emphasisTokens ds strong i tokens
      else emphasisTokens ds false i tokens
    | none => emphasisTokens ds false i tokens

def joinTexts : List Token → List Token
  | [] => []
  | t :: ts =>
    match joinTexts ts with
    | u :: us =>
      if isTextToken t && isTextToken u then { u with content := t.content ++ u.content } :: us
      else t :: u :: us
    | [] => [t]

/-- Escapes and character references are text from here on. -/
def plainText (t : Token) : Token := if t.type = "text_special" then { t with type := "text" } else t

/-- Pairs the delimiters of every level and joins what remains text. -/
def resolveEmphasis (tokens : Array Token) (levels : List (Array Delimiter)) : List Token :=
  let levels := levels.map pairDelimiters
  let tokens := levels.foldl strikeTokens tokens
  let tokens := levels.foldl (fun ts ds => emphasisTokens ds false ds.size ts) tokens
  joinTexts ((joinTexts tokens.toList).map plainText)

end DocumentMedia.Markdown
