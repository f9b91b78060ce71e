import DocumentMedia.Markdown.EntityTable
import DocumentMedia.Text.LetterCase
import DocumentMedia.Text.Percent

/-! # Character references

Names and numbers that stand for characters, and the text that remains when references and
backslash escapes are resolved.
-/
namespace DocumentMedia.Markdown

open DocumentMedia.Text

/-- ASCII punctuation, all of which a backslash may escape. -/
def isAsciiPunctuation (c : Char) : Bool :=
  let n := c.toNat
  (33 ≤ n && n ≤ 47) || (58 ≤ n && n ≤ 64) || (91 ≤ n && n ≤ 96) || (123 ≤ n && n ≤ 126)

/-- Code points that a number may stand for: neither controls nor surrogates nor noncharacters. -/
def isValidCode (n : Nat) : Bool :=
  !((0xD800 ≤ n && n ≤ 0xDFFF) || (0xFDD0 ≤ n && n ≤ 0xFDEF) || n % 65536 ≥ 0xFFFE ||
    n ≤ 8 || n = 0x0B || (0x0E ≤ n && n ≤ 0x1F) || (0x7F ≤ n && n ≤ 0x9F) || n > 0x10FFFF)

def replacement : Char := Char.ofNat 0xFFFD

def hexNumber (s : List Char) : Nat := s.foldl (fun n c => n * 16 + (hexValue? c).getD 0) 0

def decimalNumber (s : List Char) : Nat := s.foldl (fun n c => n * 10 + (c.toNat - 48)) 0

/-- The number that `#…` stands for, with at most the given numbers of digits. -/
def codeOf? (hexDigits digits : Nat) : List Char → Option Nat
  | '#' :: x :: s =>
    if x = 'x' || x = 'X' then
      if !s.isEmpty && s.length ≤ hexDigits && s.all isHex then some (hexNumber s) else none
    else if (x :: s).length ≤ digits && (x :: s).all Char.isDigit then
      some (decimalNumber (x :: s))
    else none
  | _ => none

/-- The name between an ampersand and a semicolon at the start of a text, and the rest. -/
def referenceName? (s : List Char) : Option (List Char × List Char) :=
  match s with
  | '&' :: r =>
    match r.takeWhile (· ≠ ';'), r.dropWhile (· ≠ ';') with
    | name, ';' :: rest => some (name, rest)
    | _, _ => none
  | _ => none

def isEntityName : List Char → Bool
  | c :: cs => isLooseLetter c && !cs.isEmpty && cs.length ≤ 31 && cs.all isLooseAlnum
  | [] => false

/-- A character reference at the start of a text: what it stands for and how long it is. -/
def reference? (s : List Char) : Option (List Char × Nat) := do
  let (name, _) ← referenceName? s
  match name with
  | '#' :: _ =>
    let n ← codeOf? 6 7 name
    return ([if isValidCode n then Char.ofNat n else replacement], name.length + 2)
  | _ =>
    if isEntityName name then
      let image ← entity? (String.ofList name)
      return (image, name.length + 2)
    else none

/-- What a name stands for inside a link; text that stands for nothing is kept. -/
def resolved (name : List Char) : List Char :=
  match entity? (String.ofList name) with
  | some image => image
  | none =>
    match codeOf? 8 8 name with
    | some n => if isValidCode n then [Char.ofNat n] else '&' :: name ++ [';']
    | none => '&' :: name ++ [';']

/-- A name that is replaced inside a link. -/
def isLinkEntityName : List Char → Bool
  | c :: cs =>
    (isLooseLetter c || c = '#') && !cs.isEmpty && cs.length ≤ 31 && cs.all isLooseAlnum
  | [] => false

/-- Resolves escapes and references; the first `skip` characters are read already. -/
def unescapeFrom : Nat → List Char → List Char
  | _, [] => []
  | skip + 1, _ :: cs => unescapeFrom skip cs
  | 0, c :: cs =>
    match c, cs with
    | '\\', d :: _ => if isAsciiPunctuation d then d :: unescapeFrom 1 cs else c :: unescapeFrom 0 cs
    | '&', _ =>
      match referenceName? (c :: cs) with
      | some (name, _) =>
        if isLinkEntityName name then resolved name ++ unescapeFrom (name.length + 1) cs
        else c :: unescapeFrom 0 cs
      | none => c :: unescapeFrom 0 cs
    | _, _ => c :: unescapeFrom 0 cs

def unescape (s : List Char) : List Char := unescapeFrom 0 s

end DocumentMedia.Markdown
