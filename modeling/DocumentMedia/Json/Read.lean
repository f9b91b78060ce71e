import DocumentMedia.Json.Write
import DocumentMedia.Text.Blank
import DocumentMedia.Text.Percent

/-! # Reading JSON

Besides the standard, `NaN` and infinities are numbers. A name that occurs twice in an object keeps
its first place and its last value.
-/
namespace DocumentMedia.JsonValue

open DocumentMedia.Text (dropHead? hexValue?)

def isSpace (c : Char) : Bool := c = ' ' || c = '\t' || c = '\n' || c = '\r'

def dropSpaces (s : List Char) : List Char := s.dropWhile isSpace

/-- The number of four hexadecimal digits. -/
def unit? (a b c d : Char) : Option Nat := do
  some ((((← hexValue? a) * 16 + (← hexValue? b)) * 16 + (← hexValue? c)) * 16 + (← hexValue? d))

def shortUnit? (c : Char) : Option Nat :=
  if c = '/' then some 47 else (shortEscapes.find? (·.1 = c)).map (·.2.toNat)

/-- The units of a text up to its closing quote. -/
def units : List Char → Option (List Nat × List Char)
  | [] => none
  | '"' :: rest => some ([], rest)
  | '\\' :: 'u' :: a :: b :: c :: d :: rest => do
    let n ← unit? a b c d
    (units rest).map fun (ns, r) => (n :: ns, r)
  | '\\' :: c :: rest => do
    let n ← shortUnit? c
    (units rest).map fun (ns, r) => (n :: ns, r)
  | c :: rest =>
    if c.toNat < 32 || c = '\\' then none
    else (units rest).map fun (ns, r) => (c.toNat :: ns, r)

def isHigh (n : Nat) : Bool := 0xD800 ≤ n && n < 0xDC00

def isLow (n : Nat) : Bool := 0xDC00 ≤ n && n < 0xE000

/-- The characters of units, with none for each half of a pair that stands alone. -/
def join : List Nat → List (Option Char)
  | [] => []
  | [n] => [if isHigh n || isLow n then none else some (Char.ofNat n)]
  | n :: m :: rest =>
    if isHigh n && isLow m then
      some (Char.ofNat (0x10000 + (n - 0xD800) * 1024 + (m - 0xDC00))) :: join rest
    else (if isHigh n || isLow n then none else some (Char.ofNat n)) :: join (m :: rest)

def ofUnits (ns : List Nat) : JsonValue :=
  match (join ns).mapM id with
  | some cs => .text (String.ofList cs)
  | none => .brokenText

/-- The name that units spell; half pairs are replaced. -/
def nameOf (ns : List Nat) : String :=
  String.ofList ((join ns).map fun c => c.getD (Char.ofNat 0xFFFD))

def digits? (s : List Char) : Option (List Char × List Char) :=
  let ds := s.takeWhile Char.isDigit
  if ds.isEmpty then none else some (ds, s.dropWhile Char.isDigit)

/-- The digits of a whole number: a zero stands alone. -/
def whole? (s : List Char) : Option (List Char × List Char) :=
  match s with
  | '0' :: rest => some (['0'], rest)
  | _ => digits? s

/-- A point and digits, if they come next. -/
def fraction (s : List Char) : List Char × List Char :=
  match s with
  | '.' :: rest =>
    match digits? rest with
    | some (ds, r) => ('.' :: ds, r)
    | none => ([], s)
  | _ => ([], s)

/-- A mark, an optional sign and digits, if they come next. -/
def exponent (s : List Char) : List Char × List Char :=
  match s with
  | e :: rest =>
    if e = 'e' || e = 'E' then
      let (sign, rest') := match rest with
        | c :: r => if c = '+' || c = '-' then ([c], r) else ([], rest)
        | [] => ([], rest)
      match digits? rest' with
      | some (ds, r) => (e :: sign ++ ds, r)
      | none => ([], s)
    else ([], s)
  | [] => ([], s)

/-- Greatest number of digits of a whole number. -/
def maxDigits : Nat := 4300

def number? (s : List Char) : Option (JsonValue × List Char) := do
  let (sign, rest) := match s with
    | '-' :: r => (['-'], r)
    | _ => ([], s)
  let (ds, rest) ← whole? rest
  let (frac, rest) := fraction rest
  let (exp, rest) := exponent rest
  if frac.isEmpty && exp.isEmpty && maxDigits < ds.length then none
  else some (.number (sign ++ ds ++ frac ++ exp), rest)

def words : List (List Char × JsonValue) :=
  [("null".toList, .null), ("true".toList, .bool true), ("false".toList, .bool false),
    ("NaN".toList, .number "NaN".toList), ("Infinity".toList, .number "Infinity".toList),
    ("-Infinity".toList, .number "-Infinity".toList)]

def word? (s : List Char) : Option (JsonValue × List Char) :=
  words.findSome? fun (w, v) => (dropHead? w s).map fun rest => (v, rest)

mutual

/-- The value at the start of a text, and the rest; `fuel` bounds the characters that are read. -/
def readValue : Nat → List Char → Option (JsonValue × List Char)
  | 0, _ => none
  | fuel + 1, s =>
    match s with
    | '"' :: rest => (units rest).map fun (ns, r) => (ofUnits ns, r)
    | '[' :: rest =>
      match dropSpaces rest with
      | ']' :: r => some (.list [], r)
      | r => (readItems fuel r).map fun (vs, r) => (.list vs, r)
    | '\x7b' :: rest =>
      match dropSpaces rest with
      | '\x7d' :: r => some (.object [], r)
      | r => (readFields fuel r).map fun (fs, r) => (.object (Assoc.ofPairs fs), r)
    | s => (word? s).or (number? s)

def readItems : Nat → List Char → Option (List JsonValue × List Char)
  | 0, _ => none
  | fuel + 1, s => do
    let (v, rest) ← readValue fuel s
    match dropSpaces rest with
    | ']' :: r => some ([v], r)
    | ',' :: r => (readItems fuel (dropSpaces r)).map fun (vs, r) => (v :: vs, r)
    | _ => none

def readFields : Nat → List Char → Option (List (String × JsonValue) × List Char)
  | 0, _ => none
  | fuel + 1, s =>
    match s with
    | '"' :: rest => do
      let (ns, rest) ← units rest
      match dropSpaces rest with
      | ':' :: rest =>
        let (v, rest) ← readValue fuel (dropSpaces rest)
        match dropSpaces rest with
        | '\x7d' :: r => some ([(nameOf ns, v)], r)
        | ',' :: r =>
          (readFields fuel (dropSpaces r)).map fun (fs, r) => ((nameOf ns, v) :: fs, r)
        | _ => none
      | _ => none
    | _ => none

end

/-- The value of a text that holds nothing else. -/
def ofText? (text : String) : Option JsonValue :=
  match readValue (2 * text.length + 2) (dropSpaces text.toList) with
  | some (v, rest) => if (dropSpaces rest).isEmpty then some v else none
  | none => none

end DocumentMedia.JsonValue
