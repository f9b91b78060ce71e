import DocumentMedia.Text.LetterCaseTable

/-! # Letter case

Full lower and upper case of a text. Only two letters need more than their own row: the capital I
with a dot, which leaves the dot behind, and the capital sigma, which ends a word in another shape.
-/
namespace DocumentMedia.Text

/-- The image of `n` under the first row that holds it. -/
def mapCase (rows : Array CaseRow) (n : Nat) : Nat :=
  match rows.find? fun (first, last, stride, _) =>
      first ≤ n && n ≤ last && (n - first) % stride == 0 with
  | some (first, _, _, target) => target + (n - first)
  | none => n

def lowerChar (c : Char) : Char :=
  if c.val < 128 then c.toLower else Char.ofNat (mapCase lowerRows c.toNat)

def isCased (c : Char) : Bool := inEdges casedEdges c.toNat

def isCaseIgnorable (c : Char) : Bool := inEdges caseIgnorableEdges c.toNat

/-- Whether the nearest character that is not ignorable has case. -/
def startsCased (s : List Char) : Bool :=
  match s.dropWhile isCaseIgnorable with
  | [] => false
  | c :: _ => isCased c

/-- Lower case of the rest of a text, given what stands before it in reverse. -/
def lowerAfter : List Char → List Char → List Char
  | _, [] => []
  | before, c :: cs =>
    let image :=
      -- The sigma at the end of a word has a form of its own.
      if c = 'Σ' then [if startsCased before && !startsCased cs then 'ς' else 'σ']
      else if c = 'İ' then ['i', Char.ofNat 0x307]
      else [lowerChar c]
    image ++ lowerAfter (c :: before) cs

def lower (s : List Char) : List Char := lowerAfter [] s

def upperChar (c : Char) : List Char :=
  if c.val < 128 then [c.toUpper]
  else
    match upperExpansions.find? (·.1 == c.toNat) with
    | some (_, image) => image.map Char.ofNat
    | none => [Char.ofNat (mapCase upperRows c.toNat)]

def upper (s : List Char) : List Char := s.flatMap upperChar

def lowerString (s : String) : String := String.ofList (lower s.toList)

/-- Whether `c` is the lower-case ASCII letter or digit `p` when case does not count. The dotless
and the dotted I, the long s and the Kelvin sign count as the letters they look like. -/
def matchesLetter (p c : Char) : Bool :=
  c.toLower = p ||
    (p = 'i' && (c = 'ı' || c = 'İ')) || (p = 's' && c = 'ſ') ||
    (p = 'k' && c = Char.ofNat 0x212A)

def isLooseLetter (c : Char) : Bool :=
  c.isAlpha || matchesLetter 'i' c || matchesLetter 's' c || matchesLetter 'k' c

def isLooseAlnum (c : Char) : Bool := isLooseLetter c || c.isDigit

/-- The rest after the lower-case ASCII word `w`, when the text starts with it in any case. -/
def dropWord? : List Char → List Char → Option (List Char)
  | [], s => some s
  | _ :: _, [] => none
  | p :: ps, c :: cs => if matchesLetter p c then dropWord? ps cs else none

theorem lower_nil : lower [] = [] := rfl

end DocumentMedia.Text
