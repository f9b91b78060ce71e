import DocumentMedia.Text.Digit
import DocumentMedia.Text.LetterCase
import DocumentMedia.Text.Percent
import DocumentMedia.Yaml.Error
import DocumentMedia.Yaml.Tag

/-! # Values of scalars

What the text of a scalar means under its tag. A tag that was written out may not fit the text; then
the fault says how.
-/
namespace DocumentMedia.Yaml

open DocumentMedia.Text

def digitBelow? (base : Nat) (c : Char) : Option Nat :=
  match hexValue? c with
  | some n => if n < base then some n else none
  | none => none

/-- The mark that may stand before digits of a base. -/
def basePrefix (base : Nat) : List (List Char) :=
  if base = 8 then [['0', 'o'], ['0', 'O']]
  else if base = 16 then [['0', 'x'], ['0', 'X']]
  else if base = 2 then [['0', 'b'], ['0', 'B']]
  else []

/-- Greatest number of decimal digits that are read. -/
def maxDigits : Nat := 4300

/-- An integer of a base, with an optional sign and blanks around it. Digits of any script count;
too many of them are not read, whatever follows them. -/
def readInteger (base : Nat) (text : List Char) : Except YamlError Int :=
  let s := plainNumber text
  let unsigned := dropSign s
  let body := ((basePrefix base).findSome? fun p => dropHead? p unsigned).getD unsigned
  let isDigit (c : Char) : Bool := (digitBelow? base c).isSome
  let ds := (body.takeWhile isDigit).filterMap (digitBelow? base)
  if base = 10 && maxDigits < ds.length then .error (.longInteger ds.length)
  else if ds.isEmpty || ds.length < body.length then
    .error (.integer (String.ofList text) base)
  else
    let n : Int := (ds.foldl (fun n d => n * base + d) 0 : Nat)
    .ok (if s.head? = some '-' then -n else n)

/-- Parts to the base of sixty as one number. -/
def sixties (parts : List Int) : Int := parts.foldl (fun n d => n * 60 + d) 0

def withoutBars (s : List Char) : List Char := s.filter (· ≠ '_')

def intValue (text : List Char) : Except YamlError Int :=
  match withoutBars text with
  | [] => .error .emptyNumber
  | s@(c :: _) =>
    let sign : Int := if c = '-' then -1 else 1
    match dropSign s with
    | [] => .error .emptyNumber
    | ['0'] => .ok 0
    | '0' :: 'b' :: r => (readInteger 2 r).map (sign * ·)
    | '0' :: 'x' :: r => (readInteger 16 r).map (sign * ·)
    | '0' :: r => (readInteger 8 ('0' :: r)).map (sign * ·)
    | u =>
      if u.contains ':' then
        ((splitWhere (· = ':') u).mapM (readInteger 10)).map fun ps => sign * sixties ps
      else (readInteger 10 u).map (sign * ·)

/-- A floating point number in lower case, with an optional sign and blanks around it. -/
def readFloat (text : List Char) : Except YamlError Float :=
  let s := plainNumber text
  let u := dropSign s
  let size : Option Float :=
    if ["inf".toList, "infinity".toList].contains u then some (1.0 / 0.0)
    else if u = "nan".toList then some (0.0 / 0.0)
    else Decimal.decimal? u
  match size with
  | none => .error (.float (String.ofList text))
  | some f => .ok (if s.head? = some '-' then -f else f)

/-- Parts to the base of sixty, from the last one on. -/
def floatSixties (parts : List Float) : Float :=
  (parts.reverse.foldl (fun (sum, base) d => (sum + d * base, base * 60)) ((0 : Float), (1 : Float))).1

def floatValue (text : List Char) : Except YamlError Float :=
  match lower (withoutBars text) with
  | [] => .error .emptyNumber
  | s@(c :: _) =>
    let u := dropSign s
    let size : Except YamlError Float :=
      if u = ".inf".toList then .ok (1.0 / 0.0)
      else if u.contains ':' then ((splitWhere (· = ':') u).mapM readFloat).map floatSixties
      else readFloat u
    if u = ".nan".toList then .ok (0.0 / 0.0)
    else size.map fun f => if c = '-' then -f else f

def truthValue (text : List Char) : Except YamlError Bool :=
  let word := String.ofList (lower text)
  if ["yes", "true", "on"].contains word then .ok true
  else if ["no", "false", "off"].contains word then .ok false
  else .error (.truthValue word)

def sextet? (c : Char) : Option Nat :=
  if 'A' ≤ c && c ≤ 'Z' then some (c.toNat - 65)
  else if 'a' ≤ c && c ≤ 'z' then some (c.toNat - 71)
  else if c.isDigit then some (c.toNat + 4)
  else if c = '+' then some 62
  else if c = '/' then some 63
  else none

/-- Reads bytes written six bits a character. `held` of them are pending, with value `bits`; `pads`
counts the padding since. Other characters are passed over; what follows complete padding too. -/
def sextets : Nat → Nat → Nat → List Char → Option (List UInt8)
  | held, _, _, [] => if held = 0 then some [] else none
  | held, bits, pads, c :: cs =>
    if c = '=' then
      if 2 ≤ held && 4 ≤ held + pads + 1 then some []
      else sextets held bits (if 2 ≤ held then pads + 1 else pads) cs
    else
      match sextet? c with
      | none => sextets held bits pads cs
      | some n =>
        match held with
        | 0 => sextets 1 n 0 cs
        | 1 => (sextets 2 (n % 16) 0 cs).map (UInt8.ofNat (bits * 4 + n / 16) :: ·)
        | 2 => (sextets 3 (n % 4) 0 cs).map (UInt8.ofNat (bits * 16 + n / 4) :: ·)
        | _ => (sextets 0 0 0 cs).map (UInt8.ofNat (bits * 64 + n) :: ·)

def binaryValue (text : List Char) : Except YamlError (List UInt8) :=
  if text.any (128 ≤ ·.toNat) then .error .malformed
  else
    match sextets 0 0 0 text with
    | some bytes => .ok bytes
    | none => .error .malformed

def natOf (s : List Char) : Nat := Decimal.natOf s

/-- Seconds east of Greenwich. -/
def offsetOf : Option (Option Char × List Char × List Char) → Option Int
  | none => none
  | some (none, _, _) => some 0
  | some (some sign, hours, minutes) =>
    let n : Int := (natOf hours * 3600 + natOf minutes * 60 : Nat)
    some (if sign = '-' then -n else n)

def timeValue (text : List Char) : Except YamlError Value := do
  let lift {α : Type} (r : Except CalendarError α) : Except YamlError α := r.mapError .calendar
  match timeText? (dropLastBreak text) with
  | none => throw .timestamp
  | some t =>
    let (year, month, day) := (natOf t.year, natOf t.month, natOf t.day)
    match t.clock with
    | none => return .date (← lift (Date.make year month day))
    | some (hour, minute, second) =>
      let digits := t.fraction.take 6
      let fraction := natOf (digits ++ List.replicate (6 - digits.length) '0')
      return .time (← lift (DateTime.make year month day (natOf hour) (natOf minute)
        (natOf second) fraction (offsetOf t.zone)))

/-- The value of a scalar. Tags of collections and of special keys give none. -/
def scalarValue (tag : Tag) (text : List Char) : Except YamlError Value :=
  match tag with
  | .null => .ok .null
  | .bool => (truthValue text).map .bool
  | .int => (intValue text).map .int
  | .float => (floatValue text).map .float
  | .binary => (binaryValue text).map .bytes
  | .timestamp => timeValue text
  | .str => .ok (.str (String.ofList text))
  | _ => .error .malformed

end DocumentMedia.Yaml
