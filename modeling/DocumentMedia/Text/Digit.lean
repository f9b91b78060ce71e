import DocumentMedia.Text.Blank

/-! # Decimal digits

The digits of all scripts in Unicode 14, which come in runs from zero to nine, and the blanks that
may stand around a number. Main statement: ASCII text stays as it is.
-/
namespace DocumentMedia.Text

/-- The zeros above ASCII, each followed by the digits from one to nine. -/
def digitZeros : List Nat := [
  0x660, 0x6F0, 0x7C0, 0x966, 0x9E6, 0xA66, 0xAE6, 0xB66, 0xBE6, 0xC66, 0xCE6, 0xD66, 0xDE6,
  0xE50, 0xED0, 0xF20, 0x1040, 0x1090, 0x17E0, 0x1810, 0x1946, 0x19D0, 0x1A80, 0x1A90, 0x1B50,
  0x1BB0, 0x1C40, 0x1C50, 0xA620, 0xA8D0, 0xA900, 0xA9D0, 0xA9F0, 0xAA50, 0xABF0, 0xFF10,
  0x104A0, 0x10D30, 0x11066, 0x110F0, 0x11136, 0x111D0, 0x112F0, 0x11450, 0x114D0, 0x11650,
  0x116C0, 0x11730, 0x118E0, 0x11950, 0x11C50, 0x11D50, 0x11DA0, 0x16A60, 0x16AC0, 0x16B50,
  0x1D7CE, 0x1D7D8, 0x1D7E2, 0x1D7EC, 0x1D7F6, 0x1E140, 0x1E2F0, 0x1E950, 0x1FBF0]

/-- The ASCII digit of the same value, for a digit; any other character itself. -/
def plainDigit (c : Char) : Char :=
  if c.val < 128 then c
  else
    match digitZeros.find? fun z => z ≤ c.toNat && c.toNat < z + 10 with
    | some z => Char.ofNat (48 + (c.toNat - z))
    | none => c

/-- Blanks around a number: all but the information separators. -/
def isNumberBlank (c : Char) : Bool := isBlank c && !(28 ≤ c.toNat && c.toNat ≤ 31)

/-- The text of a number without the blanks around it, in ASCII digits. -/
def plainNumber (s : List Char) : List Char :=
  (((s.dropWhile isNumberBlank).reverse.dropWhile isNumberBlank).reverse).map plainDigit

/-- Digits, with single underscores between them. -/
def isDigitGroups (s : List Char) : Bool :=
  (splitWhere (· = '_') s).all fun g => !g.isEmpty && g.all Char.isDigit

def dropSign : List Char → List Char
  | '+' :: s | '-' :: s => s
  | s => s

def isWholeNumber (s : List Char) : Bool := isDigitGroups (dropSign (plainNumber s))

/-- Whether a text without sign is a decimal fraction, possibly with an exponent. -/
def isFraction (s : List Char) : Bool :=
  let isMark (c : Char) : Bool := c = 'e' || c = 'E'
  let mantissa := s.takeWhile (!isMark ·)
  let whole := mantissa.takeWhile (· ≠ '.')
  let part := (mantissa.dropWhile (· ≠ '.')).drop 1
  (whole.isEmpty || isDigitGroups whole) && (part.isEmpty || isDigitGroups part) &&
    !(whole.isEmpty && part.isEmpty) &&
    (match s.dropWhile (!isMark ·) with
      | [] => true
      | _ :: exponent => isDigitGroups (dropSign exponent))

def isDecimalNumber (s : List Char) : Bool :=
  let s := dropSign (plainNumber s)
  ["inf", "infinity", "nan"].contains (String.ofList (s.map Char.toLower)) || isFraction s

theorem plainDigit_of_ascii (c : Char) (h : c.val < 128) : plainDigit c = c := by
  simp [plainDigit, h]

end DocumentMedia.Text
