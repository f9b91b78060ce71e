import DocumentMedia.Text.Utf8

/-! # Percent codes

Bytes of a text written as a percent sign and two hexadecimal digits.
-/
namespace DocumentMedia.Text

def hexValue? (c : Char) : Option Nat :=
  if '0' ≤ c && c ≤ '9' then some (c.toNat - 48)
  else if 'a' ≤ c && c ≤ 'f' then some (c.toNat - 87)
  else if 'A' ≤ c && c ≤ 'F' then some (c.toNat - 55)
  else none

def isHex (c : Char) : Bool := (hexValue? c).isSome

def hexByte? (a b : Char) : Option UInt8 :=
  match hexValue? a, hexValue? b with
  | some x, some y => some (UInt8.ofNat (x * 16 + y))
  | _, _ => none

/-- The bytes that a text stands for when its percent codes are read. -/
def percentBytes : List Char → List UInt8
  | '%' :: a :: b :: rest =>
    match hexByte? a b with
    | some n => n :: percentBytes rest
    | none => 37 :: percentBytes (a :: b :: rest)
  | c :: rest => (String.singleton c).toUTF8.toList ++ percentBytes rest
  | [] => []

/-- Decodes the percent codes of a text; each run of ASCII stands alone, and bytes that are not
UTF-8 become replacement characters. -/
def unpercentRuns : List Char → List Char → List Char
  | run, [] => Utf8.decodeLossy (percentBytes run.reverse)
  | run, c :: cs =>
    if c.val < 128 then unpercentRuns (c :: run) cs
    else Utf8.decodeLossy (percentBytes run.reverse) ++ c :: unpercentRuns [] cs

def unpercent (s : String) : String :=
  if s.toList.contains '%' then String.ofList (unpercentRuns [] s.toList) else s

def upperHexDigit (n : Nat) : Char := (Nat.digitChar n).toUpper

def percentCode (b : UInt8) : List Char :=
  ['%', upperHexDigit (b.toNat / 16), upperHexDigit (b.toNat % 16)]

def percentChar (c : Char) : List Char :=
  (String.singleton c).toUTF8.toList.flatMap percentCode

end DocumentMedia.Text
