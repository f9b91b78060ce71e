/-! # Shortest decimals

The decimal with the fewest digits that reads back as a given binary floating point number, and
its notation.
-/
namespace DocumentMedia.Decimal

/-- A positive number `mantissa · 2 ^ exponent` with the place of its lower neighbour. -/
structure Binary where
  mantissa : Nat
  exponent : Int
  /-- The number below is half as far away as the number above. -/
  tightBelow : Bool
  deriving Repr

/-- Powers of a base with any integer exponent, as numerator and denominator. -/
def powerRatio (base : Nat) : Int → Nat × Nat
  | .ofNat n => (base.pow n, 1)
  | .negSucc n => (1, base.pow (n + 1))

/-- Whether `digits · 10 ^ place` is read back as `b`: it lies within half the distance to the
neighbours, ends included when the mantissa is even. -/
def Binary.reads (b : Binary) (digits : Nat) (place : Int) : Bool :=
  let (tn, td) := powerRatio 10 place
  let (bn, bd) := powerRatio 2 (b.exponent - 2)
  let value := digits * tn * bd
  let below := (4 * b.mantissa - if b.tightBelow then 1 else 2) * bn * td
  let above := (4 * b.mantissa + 2) * bn * td
  if b.mantissa % 2 = 0 then below ≤ value && value ≤ above
  else below < value && value < above

/-- The multiple of `10 ^ place` just below `b` and its distance, scaled by a common factor, to
`b` and to the next multiple. -/
def Binary.gridBelow (b : Binary) (place : Int) : Nat × Nat × Nat :=
  let (tn, td) := powerRatio 10 place
  let (bn, bd) := powerRatio 2 b.exponent
  let num := b.mantissa * bn * td
  let den := tn * bd
  let low := num / den
  (low, num - low * den, (low + 1) * den - num)

def digitCount (n : Nat) : Nat := (Nat.toDigits 10 n).length

/-- Number of decimal digits before the point, zero or negative for small numbers. -/
def Binary.magnitude (b : Binary) : Int :=
  let (bn, bd) := powerRatio 2 b.exponent
  let num := b.mantissa * bn
  let gap : Int := (digitCount num : Int) - digitCount bd
  let (tn, td) := powerRatio 10 gap
  if num * td ≥ bd * tn then gap + 1 else gap

/-- Tries ever finer grids until a neighbour of `b` on the grid reads back. -/
def Binary.search (b : Binary) (magnitude : Int) : Nat → Nat → Nat × Int
  | 0, count =>
    let place := magnitude - count
    ((b.gridBelow place).1, place)
  | fuel + 1, count =>
    let place := magnitude - count
    let (low, down, up) := b.gridBelow place
    let lowReads := low ≠ 0 && b.reads low place
    let highReads := b.reads (low + 1) place
    if lowReads && (!highReads || down < up || (down = up && low % 2 = 0)) then (low, place)
    else if highReads then (low + 1, place)
    else b.search magnitude fuel (count + 1)

/-- Digits and place of the last digit of the shortest decimal. -/
def Binary.shortest (b : Binary) : Nat × Int := b.search b.magnitude 17 1

def Binary.ofFloat (f : Float) : Binary :=
  let bits := f.toBits.toNat
  let field : Nat := bits / 0x10000000000000 % 2048
  let fraction : Nat := bits % 0x10000000000000
  if field = 0 then ⟨fraction, -1074, false⟩
  else ⟨0x10000000000000 + fraction, (field : Int) - 1075, fraction = 0 && field > 1⟩

def isInteger (f : Float) (n : Int) : Bool :=
  if f.isNaN || f.isInf then false
  else if f == 0 then n == 0
  else
    let b := Binary.ofFloat f.abs
    let (num, den) := powerRatio 2 b.exponent
    b.mantissa * num == n.natAbs * den && decide (n < 0) == decide (f < 0)

def dropZeros (digits : List Char) : List Char :=
  (digits.reverse.dropWhile (· = '0')).reverse

/-- Exponents have a sign and at least two digits. -/
def exponentText (e : Int) : String :=
  let digits := toString e.natAbs
  (if e < 0 then "e-" else "e+") ++ (if digits.length < 2 then "0" ++ digits else digits)

/-- Numbers from a ten-thousandth up to ten to the sixteenth are written positionally, with a
fraction part of at least one digit; others with one digit before the point and an exponent. -/
def writtenAs (digits : List Char) (point : Int) : String :=
  let n := digits.length
  if -4 < point && point ≤ 16 then
    if point ≤ 0 then
      "0." ++ String.ofList (List.replicate (-point).toNat '0' ++ digits)
    else
      let whole := digits.take point.toNat ++ List.replicate (point.toNat - n) '0'
      let part := digits.drop point.toNat
      String.ofList whole ++ "." ++ (if part.isEmpty then "0" else String.ofList part)
  else
    let part := digits.drop 1
    String.ofList (digits.take 1) ++
      (if part.isEmpty then "" else "." ++ String.ofList part) ++ exponentText (point - 1)

/-- The text of a floating point number, with the given words for the values that are no numbers. -/
def floatText (nan infinity : String) (f : Float) : String :=
  if f.isNaN then nan
  else
    let sign := if f.toBits.toNat ≥ 0x8000000000000000 then "-" else ""
    if f.isInf then sign ++ infinity
    else if f == 0 then sign ++ "0.0"
    else
      let (digits, place) := (Binary.ofFloat f.abs).shortest
      let text := Nat.toDigits 10 digits
      sign ++ writtenAs (dropZeros text) (place + text.length)

/-- The number written by digits, ASCII digits only. -/
def natOf (digits : List Char) : Nat := digits.foldl (fun n c => n * 10 + (c.toNat - 48)) 0

/-- The number nearest to a decimal: digits before and behind the point, and an exponent. Numbers
that are surely too great or too small are not computed. -/
def ofParts (whole fraction : List Char) (exponent : Int) : Float :=
  let mantissa := natOf (whole ++ fraction)
  let place := exponent - fraction.length
  if mantissa = 0 then 0
  else if place > 400 then 1.0 / 0.0
  else if place + digitCount mantissa < -400 then 0
  else Float.ofScientific mantissa (place < 0) place.natAbs

/-- The exponent that a text consists of: empty, or `e` with a number that may have a sign. -/
def exponent? : List Char → Option Int
  | [] => some 0
  | e :: s =>
    if e = 'e' || e = 'E' then
      let (sign, digits) : Int × List Char := match s with
        | '-' :: r => (-1, r)
        | '+' :: r => (1, r)
        | _ => (1, s)
      if !digits.isEmpty && digits.all Char.isDigit then some (sign * natOf digits) else none
    else none

/-- Reads a decimal without a sign: digits, an optional point and fraction, an optional exponent. -/
def decimal? (s : List Char) : Option Float :=
  let whole := s.takeWhile Char.isDigit
  let rest := s.dropWhile Char.isDigit
  let (fraction, rest) := match rest with
    | '.' :: r => (r.takeWhile Char.isDigit, r.dropWhile Char.isDigit)
    | r => ([], r)
  if whole.isEmpty && fraction.isEmpty then none
  else (exponent? rest).map (ofParts whole fraction)

/-- Reads the text of a floating point number, with the given words for those that are none. -/
def readFloat? (nan infinity : String) (text : String) : Option Float :=
  let (negative, s) := match text.toList with
    | '-' :: r => (true, r)
    | r => (false, r)
  let size : Option Float :=
    if s = nan.toList then some (0.0 / 0.0)
    else if s = infinity.toList then some (1.0 / 0.0)
    else decimal? s
  size.map fun f => if negative then -f else f

end DocumentMedia.Decimal
