import DocumentMedia.Text.Blank
import DocumentMedia.Yaml.Load

/-! # Headers of documents

A document may start with YAML between two lines of three hyphens. The YAML holds a map; nothing and
other empty values stand for a map without entries.
-/
namespace DocumentMedia.Document

open DocumentMedia.Text

/-- The named values of a header, whose names need not be texts. -/
abbrev HeaderFields := List (Value × Value)

inductive HeaderError where
  | yaml (e : YamlError)
  /-- The header is no map but a value of the given kind. -/
  | notMapping (kind : String)
  deriving DecidableEq, Repr

def HeaderError.message : HeaderError → String
  | .yaml .malformed => "Invalid YAML frontmatter"
  | .yaml e => e.message
  | .notMapping kind => "Invalid YAML frontmatter: expected a mapping, got " ++ kind

/-- What follows the last line feed among the blanks at the start of a text. -/
def behindBlankLines? : List Char → Option (List Char)
  | [] => none
  | c :: cs =>
    if isBlank c then
      match behindBlankLines? cs with
      | some r => some r
      | none => if c = '\n' then some cs else none
    else none

/-- What follows each line feed among the blanks at the start of a text, last one first. -/
def blankLineStarts : List Char → List (List Char)
  | [] => []
  | c :: cs =>
    if isBlank c then blankLineStarts cs ++ (if c = '\n' then [cs] else []) else []

/-- The text up to the first closing line, and the text behind that line. -/
def untilFence? : List Char → Option (List Char × List Char)
  | [] => none
  | c :: cs =>
    -- The fence may have blanks behind it; blank lines after it are dropped with it.
    match dropHead? "\n---".toList (c :: cs) >>= behindBlankLines? with
    | some body => some ([], body)
    | none => (untilFence? cs).map fun (yaml, body) => (c :: yaml, body)

def splitHeader? (text : List Char) : Option (List Char × List Char) :=
  match dropHead? "---".toList text with
  | some r => (blankLineStarts r).findSome? untilFence?
  | none => none

def headerFields (v : Value) : Except HeaderError HeaderFields :=
  -- Not only an empty text: zero, false and an empty list are no header either.
  if v.isFalsy then .ok []
  else
    match v with
    | .map es => .ok es
    | v => .error (.notMapping v.typeName)

/-- The fields of the header of a document, none if it has no header, and the body. -/
def readHeader (text : String) : Except HeaderError (HeaderFields × String) :=
  match splitHeader? text.toList with
  | none => .ok ([], text)
  | some (yaml, body) => do
    let v ← (Yaml.load (String.ofList yaml)).mapError .yaml
    return (← headerFields v, String.ofList body)

end DocumentMedia.Document
