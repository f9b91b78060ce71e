import DocumentMedia.Markdown.Entity
import DocumentMedia.Text.Blank
import DocumentMedia.Text.Punycode

/-! # Link addresses

An address is taken apart into scheme, host and the rest, so that its host can be written in ASCII;
put together again, everything that may not stand in an address is percent-coded.
-/
namespace DocumentMedia.Markdown

open DocumentMedia.Text

structure Address where
  /-- The scheme with its colon, empty when there is none. -/
  scheme : List Char
  slashes : Bool
  auth : List Char
  host : List Char
  portText : List Char
  /-- Path, query and fragment. -/
  rest : List Char
  deriving DecidableEq, Repr

namespace Address

def isSchemeChar (c : Char) : Bool := isLooseAlnum c || c = '.' || c = '+' || c = '-'

def splitScheme (s : List Char) : List Char × List Char :=
  match s.takeWhile isSchemeChar, s.dropWhile isSchemeChar with
  | c :: cs, ':' :: rest => (c :: cs ++ [':'], rest)
  | _, _ => ([], s)

/-- Schemes that stand before two slashes. -/
def slashedSchemes : List (List Char) :=
  ["http:", "https:", "ftp:", "gopher:", "file:"].map String.toList

/-- Schemes whose host is written in ASCII; so is the host of an address without a scheme. -/
def hostSchemes : List (List Char) := ["http:", "https:", "mailto:"].map String.toList

def scriptScheme : List Char := "javascript:".toList

def splitLast? (c : Char) (s : List Char) : Option (List Char × List Char) :=
  match s.reverse.dropWhile (· ≠ c) with
  | _ :: before => some (before.reverse, (s.reverse.takeWhile (· ≠ c)).reverse)
  | [] => none

/-- The part before the host, which ends at the last at sign before path, query and fragment. -/
def splitAuth (s : List Char) : List Char × List Char :=
  let isEnd (c : Char) : Bool := c = '/' || c = '?' || c = '#'
  match splitLast? '@' (s.takeWhile fun c => !isEnd c) with
  | some (auth, host) => (auth, host ++ s.dropWhile fun c => !isEnd c)
  | none => ([], s)

def endsHost (c : Char) : Bool := "%/?;#'{}|\\^`<>\" \r\n\t".toList.contains c

def splitPort (s : List Char) : List Char × List Char :=
  match s.reverse.dropWhile Char.isDigit with
  | ':' :: before => (before.reverse, (s.reverse.takeWhile Char.isDigit).reverse)
  | _ => (s, [])

def isLabelChar (c : Char) : Bool := c.isAlphanum || c = '+' || c = '_' || c = '-'

/-- Whether a label of a host is short enough and has only letters, digits, hyphens, underscores
and plus signs; other characters than ASCII are let through. -/
def isLabel (s : List Char) : Bool :=
  s.length ≤ 63 && s.all fun c => isLabelChar c || 128 ≤ c.toNat

/-- The longest start of a label that is one in ASCII. -/
def labelStart (s : List Char) : List Char := (s.takeWhile isLabelChar).take 63

/-- Splits a host at the first fault of a label; what follows goes before `rest`. -/
def splitFault (before : List (List Char)) (rest : List Char) :
    List (List Char) → List Char × List Char
  | [] => (joinWith ['.'] before.reverse, rest)
  | l :: ls =>
    if isLabel l then splitFault (l :: before) rest ls
    else
      let good := labelStart l
      (joinWith ['.'] (good :: before).reverse,
        joinWith ['.'] (l.drop good.length :: ls) ++ rest)

def isBracketed (s : List Char) : Bool := s.head? = some '[' && s.getLast? = some ']'

def splitHost (s : List Char) : List Char × List Char × List Char :=
  let run := s.takeWhile fun c => !endsHost c
  let run := if run.getLast? = some ':' then run.dropLast else run
  let rest := s.drop run.length
  let (host, portText) := splitPort run
  if isBracketed host then
    ((if host.length > 255 then [] else host.drop 1 |>.dropLast), portText, rest)
  else
    let (host, rest) := splitFault [] rest (splitWhere (· = '.') host)
    ((if host.length > 255 then [] else host), portText, rest)

def ofText (text : List Char) : Address :=
  let s := strip text
  let (scheme, s) := splitScheme s
  let slashes := "//".toList.isPrefixOf s
  if scheme = scriptScheme then ⟨scheme, false, [], [], [], s⟩
  else
    let s := if slashes then s.drop 2 else s
    if slashes || (!scheme.isEmpty && !slashedSchemes.contains scheme) then
      let (auth, s) := splitAuth s
      let (host, portText, rest) := splitHost s
      ⟨scheme, slashes, auth, host, portText, rest⟩
    else ⟨scheme, slashes, [], [], [], s⟩

/-- What stands before the host. -/
def head (a : Address) : List Char :=
  a.scheme ++ (if a.slashes then "//".toList else []) ++
    (if a.auth.isEmpty then [] else a.auth ++ ['@'])

/-- What follows the host. -/
def tail (a : Address) : List Char :=
  (if a.portText.isEmpty then [] else ':' :: a.portText) ++ a.rest

/-- The address put together, each part written by `f`. A host with a colon is a number and stands
in brackets. -/
def textWith (f : List Char → List Char) (a : Address) : List Char :=
  if a.host.contains ':' then f a.head ++ '[' :: f a.host ++ ']' :: f a.tail
  else f (a.head ++ a.host ++ a.tail)

def text (a : Address) : List Char := a.textWith id

/-- Applies `f` to the labels of a host; what stands before an at sign is kept. -/
def mapLabels (f : List Char → Option (List Char)) (host : List Char) : Option (List Char) := do
  let (local_, domain) := match splitWhere (· = '@') host with
    | a :: b :: _ => (a ++ ['@'], b)
    | _ => ([], host)
  let isDot (c : Char) : Bool := c = '.' || c = '。' || c = '．' || c = '｡'
  let labels ← (splitWhere isDot domain).mapM f
  return local_ ++ joinWith ['.'] labels

def asciiLabel (l : List Char) : Option (List Char) :=
  if l.any (127 ≤ ·.toNat) then some ("xn--".toList ++ Punycode.encode l) else some l

def readableLabel (l : List Char) : Option (List Char) :=
  match dropHead? "xn--".toList l with
  | some r => Punycode.decode? (lower r)
  | none => some l

/-- Encodes the host where that is done, unless a label cannot be encoded. -/
def mapHost (f : List Char → Option (List Char)) (a : Address) : Address :=
  if !a.host.isEmpty && (a.scheme.isEmpty || hostSchemes.contains a.scheme) then
    { a with host := (mapLabels f a.host).getD a.host }
  else a

end Address

/-- ASCII characters that stand for themselves in an address. -/
def isPlainInAddress (c : Char) : Bool :=
  c.isAlphanum || ";/?:@&=+$,-_.!~*'()#".toList.contains c

/-- Percent-codes what may not stand in an address; percent codes stay. -/
def percentCoded : List Char → List Char
  | [] => []
  | c :: cs =>
    match c, cs with
    | '%', a :: b :: _ =>
      if isHex a && isHex b then c :: percentCoded cs else percentChar c ++ percentCoded cs
    | _, _ => (if isPlainInAddress c then [c] else percentChar c) ++ percentCoded cs

def linkAddress (text : List Char) : List Char :=
  ((Address.ofText text).mapHost Address.asciiLabel).textWith percentCoded

/-- Length of a UTF-8 sequence by its first byte, as far as the mark bits tell. -/
def sequenceLength (b : UInt8) : Nat :=
  if b.toNat / 32 = 6 then 2 else if b.toNat / 16 = 14 then 3 else if b.toNat / 8 = 30 then 4 else 1

def keptCodes : List Char := ";/?:@&=+$,#%".toList

/-- The text of a run of percent-coded bytes; `fuel` bounds its length. -/
def readableBytes : Nat → List UInt8 → List Char
  | 0, _ => []
  | _ + 1, [] => []
  | fuel + 1, b :: bs =>
    if b.toNat < 128 then
      let c := Char.ofNat b.toNat
      (if keptCodes.contains c then percentCode b else [c]) ++ readableBytes fuel bs
    else
      let n := sequenceLength b
      let tail := bs.take (n - 1)
      if 2 ≤ n && tail.length = n - 1 && tail.all (fun t => t.toNat / 64 = 2) then
        let read := match Utf8.decode ⟨(b :: tail).toArray⟩ with
          | .ok s => s.toList
          | .error _ => List.replicate n replacement
        read ++ readableBytes fuel (bs.drop (n - 1))
      else replacement :: readableBytes fuel bs

/-- Decodes percent codes, but for those of characters with a meaning in addresses; `run` holds the
bytes just read in reverse. -/
def readableFrom (run : List UInt8) : Nat → List Char → List Char
  | _, [] => readableBytes run.length run.reverse
  | skip + 1, _ :: cs => readableFrom run skip cs
  | 0, c :: cs =>
    let code := match c, cs with
      | '%', a :: b :: _ => hexByte? a b
      | _, _ => none
    match code with
    | some byte => readableFrom (byte :: run) 2 cs
    | none => readableBytes run.length run.reverse ++ c :: readableFrom [] 0 cs

def readableAddress (text : List Char) : List Char :=
  readableFrom [] 0 ((Address.ofText text).mapHost Address.readableLabel).text

def startsWithAny (heads : List String) (s : List Char) : Bool :=
  heads.any fun h => h.toList.isPrefixOf s

/-- Addresses that may stand in a link: no scripts, no files, of inline data only images. -/
def isSafeAddress (address : List Char) : Bool :=
  let s := lower (strip address)
  if startsWithAny ["vbscript:", "javascript:", "file:", "data:"] s then
    startsWithAny ["data:image/gif;", "data:image/png;", "data:image/jpeg;", "data:image/webp;"] s
  else true

end DocumentMedia.Markdown
