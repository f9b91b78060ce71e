import DocumentMedia.Decimal.Shortest
import DocumentMedia.Text.Blank

/-! # Tags of YAML values

The kinds of values, and which kind a plain scalar has by its text: truth values, numbers in several
notations, times, and otherwise text.
-/
namespace DocumentMedia.Yaml

inductive Tag where
  | null
  | bool
  | int
  | float
  | binary
  | timestamp
  | orderedMap
  | pairs
  | set
  | str
  | seq
  | map
  /-- The key under which other maps are merged in. -/
  | merge
  /-- The key of the main value of a map. -/
  | value
  | unknown
  deriving DecidableEq, Repr

def standardTag : List Char := "tag:yaml.org,2002:".toList

def Tag.ofName (name : List Char) : Tag :=
  let table : List (String × Tag) :=
    [("null", .null), ("bool", .bool), ("int", .int), ("float", .float), ("binary", .binary),
      ("timestamp", .timestamp), ("omap", .orderedMap), ("pairs", .pairs), ("set", .set),
      ("str", .str), ("seq", .seq), ("map", .map), ("merge", .merge), ("value", .value)]
  if standardTag.isPrefixOf name then
    (table.lookup (String.ofList (name.drop standardTag.length))).getD .unknown
  else .unknown

def isNull (s : List Char) : Bool := ["", "~", "null", "Null", "NULL"].contains (String.ofList s)

def truthWords : List String :=
  ["yes", "Yes", "YES", "no", "No", "NO", "true", "True", "TRUE", "false", "False", "FALSE", "on",
    "On", "ON", "off", "Off", "OFF"]

def isDigitOrBar (c : Char) : Bool := c.isDigit || c = '_'

/-- A digit, and digits and underscores behind it. -/
def isNumeral : List Char → Bool
  | c :: cs => c.isDigit && cs.all isDigitOrBar
  | [] => false

def isExponent : List Char → Bool
  | e :: s :: d :: ds => (e = 'e' || e = 'E') && (s = '-' || s = '+') && (d :: ds).all Char.isDigit
  | _ => false

def dropSign : List Char → List Char
  | '-' :: s => s
  | '+' :: s => s
  | s => s

def splitFirst (c : Char) (s : List Char) : List Char × Option (List Char) :=
  match s.dropWhile (· ≠ c) with
  | _ :: rest => (s.takeWhile (· ≠ c), some rest)
  | [] => (s, none)

/-- Digits and underscores, then nothing or an exponent. -/
def isFraction (s : List Char) : Bool :=
  let rest := s.dropWhile isDigitOrBar
  rest.isEmpty || isExponent rest

/-- A part of a number to the base of sixty: one digit, or two of which the first is below six. -/
def isSixtieth : List Char → Bool
  | [c] => c.isDigit
  | [a, b] => '0' ≤ a && a ≤ '5' && b.isDigit
  | _ => false

/-- Parts of a number to the base of sixty behind the first one, each with its colon. -/
def areSixtieths : Option (List Char) → Nat → Bool
  | none, _ => true
  | some _, 0 => false
  | some s, fuel + 1 =>
    let (part, rest) := splitFirst ':' s
    isSixtieth part && areSixtieths rest fuel

def isFloat (s : List Char) : Bool :=
  let u := dropSign s
  let (whole, fraction) := splitFirst '.' u
  let (head, parts) := splitFirst ':' whole
  match fraction with
  | none => false
  | some f =>
    (isNumeral whole && isFraction f) ||
      (s.head? = some '.' && isNumeral (f.takeWhile isDigitOrBar) && isFraction f) ||
      (parts.isSome && isNumeral head && areSixtieths parts s.length && f.all isDigitOrBar) ||
      (whole.isEmpty && ["inf", "Inf", "INF"].contains (String.ofList f)) ||
      (s.head? = some '.' && ["nan", "NaN", "NAN"].contains (String.ofList f))

def isBased (digit : Char → Bool) (s : List Char) : Bool :=
  !s.isEmpty && s.all fun c => digit c || c = '_'

def isInt (s : List Char) : Bool :=
  match dropSign s with
  | ['0'] => true
  | '0' :: 'b' :: r => isBased (fun c => c = '0' || c = '1') r
  | '0' :: 'x' :: r =>
    isBased (fun c => c.isDigit || ('a' ≤ c && c ≤ 'f') || ('A' ≤ c && c ≤ 'F')) r
  | '0' :: r => isBased (fun c => '0' ≤ c && c ≤ '7') r
  | s =>
    let (head, parts) := splitFirst ':' s
    isNumeral head && areSixtieths parts s.length

/-- The parts of a date, or of a date with a time of day and an offset. -/
structure TimeText where
  year : List Char
  month : List Char
  day : List Char
  clock : Option (List Char × List Char × List Char)
  fraction : List Char
  /-- Sign, hours and minutes; no sign stands for Greenwich. -/
  zone : Option (Option Char × List Char × List Char)
  deriving Repr

def digitsUpTo (least most : Nat) (s : List Char) : Option (List Char × List Char) :=
  let ds := (s.take most).takeWhile Char.isDigit
  if least ≤ ds.length then some (ds, s.drop ds.length) else none

def expect (c : Char) : List Char → Option (List Char)
  | d :: s => if d = c then some s else none
  | [] => none

/-- The blanks or the letter between a date and a time. -/
def clockGap (s : List Char) : Option (List Char) :=
  match s with
  | 'T' :: r => some r
  | 't' :: r => some r
  | c :: r =>
    if c = ' ' || c = '\t' then some (r.dropWhile fun d => d = ' ' || d = '\t') else none
  | [] => none

/-- A zone that fills the rest of the text. -/
def zone? (s : List Char) : Option (Option (Option Char × List Char × List Char)) :=
  if s.isEmpty then some none
  else
    match s.dropWhile fun d => d = ' ' || d = '\t' with
    | ['Z'] => some (some (none, [], []))
    | sign :: r => do
      if sign ≠ '-' && sign ≠ '+' then none
      let (hours, r) ← digitsUpTo 1 2 r
      if r.isEmpty then some (some (some sign, hours, []))
      else
        let (minutes, r) ← (expect ':' r).bind (digitsUpTo 2 2)
        if r.isEmpty then some (some (some sign, hours, minutes)) else none
    | [] => none

def timeText? (s : List Char) : Option TimeText := do
  let (year, s) ← digitsUpTo 4 4 s
  let (month, s) ← (expect '-' s).bind (digitsUpTo 1 2)
  let (day, s) ← (expect '-' s).bind (digitsUpTo 1 2)
  if s.isEmpty then return ⟨year, month, day, none, [], none⟩
  let (hour, s) ← (clockGap s).bind (digitsUpTo 1 2)
  let (minute, s) ← (expect ':' s).bind (digitsUpTo 2 2)
  let (second, s) ← (expect ':' s).bind (digitsUpTo 2 2)
  let (fraction, s) := match s with
    | '.' :: r => (r.takeWhile Char.isDigit, r.dropWhile Char.isDigit)
    | _ => ([], s)
  let zone ← zone? s
  return ⟨year, month, day, some (hour, minute, second), fraction, zone⟩

/-- Times of plain scalars; a mere date has two digits for month and day. -/
def isTime (s : List Char) : Bool :=
  match timeText? s with
  | some t => t.clock.isSome || s.length = 10
  | none => false

/-- The kind of a plain scalar. A line feed at its end does not count, unless it is all there is.
The marks of aliases, anchors and tags alone are reserved. -/
def Tag.ofPlain (text : List Char) : Tag :=
  let s := if text = ['\n'] then text else Text.dropLastBreak text
  if isNull s then .null
  else if truthWords.contains (String.ofList s) then .bool
  else if isFloat s then .float
  else if isInt s then .int
  else if s = ['<', '<'] then .merge
  else if isTime s then .timestamp
  else if s = ['='] then .value
  else if s = ['!'] || s = ['&'] || s = ['*'] then .unknown
  else .str

end DocumentMedia.Yaml
