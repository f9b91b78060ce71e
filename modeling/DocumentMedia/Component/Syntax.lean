import DocumentMedia.Text.Alnum
import DocumentMedia.Text.Blank
import DocumentMedia.Text.LetterCase
import DocumentMedia.Tree.Node

/-! # Component syntax

Components such as `<Media src="clip.mp4" />` inside a document: a name, attributes whose values
are quoted or are expressions in braces, and an ending, which is a slash, a closing tag, or nothing
for elements that never have content.
-/
namespace DocumentMedia.Component

open DocumentMedia.Text

def isNameStart (c : Char) : Bool := ('a' ≤ c && c ≤ 'z') || ('A' ≤ c && c ≤ 'Z')

def isNameChar (c : Char) : Bool := isWord c || c = '.' || c = ':' || c = '-'

def isPropertyChar (c : Char) : Bool :=
  !isBlank c && c ≠ '=' && c ≠ '/' && c ≠ '>' && c ≠ '{' && c ≠ '}'

/-- The source of an expression up to its closing brace. Braces inside it nest only once. -/
def expression? : Bool → List Char → Option (List Char × List Char)
  | _, [] => none
  | nested, c :: cs =>
    if c = '}' then
      if nested then (expression? false cs).map fun (inside, rest) => (c :: inside, rest)
      else some ([], cs)
    else if c = '{' then
      -- A third level of braces is no expression.
      if nested then none
      else (expression? true cs).map fun (inside, rest) => (c :: inside, rest)
    else (expression? nested cs).map fun (inside, rest) => (c :: inside, rest)

def untilQuote? (q : Char) (s : List Char) : Option (List Char × List Char) :=
  match s.dropWhile (· ≠ q) with
  | _ :: rest => some (s.takeWhile (· ≠ q), rest)
  | [] => none

/-- An equals sign and a value, with blanks around the sign, and the rest. -/
def value? (s : List Char) : Option (PropertyValue × List Char) :=
  match stripStart s with
  | '=' :: s =>
    match stripStart s with
    | '"' :: s => (untilQuote? '"' s).map fun (v, rest) => (.text (String.ofList v), rest)
    | '\'' :: s => (untilQuote? '\'' s).map fun (v, rest) => (.text (String.ofList v), rest)
    | '{' :: s => (expression? false s).map fun (v, rest) => (.expr (String.ofList v), rest)
    | _ => none
  | _ => none

/-- An attribute, with at least one blank before it, and the rest. -/
def property? (s : List Char) : Option (Property × List Char) :=
  match s with
  | [] => none
  | c :: cs =>
    if isBlank c then
      let s := stripStart cs
      match s.takeWhile isPropertyChar with
      | [] => none
      | name =>
        let rest := s.dropWhile isPropertyChar
        match value? rest with
        | some (v, rest) => some (⟨String.ofList name, some v⟩, rest)
        | none => some (⟨String.ofList name, none⟩, rest)
    else none

/-- The attributes at the start of a text, and the rest; `fuel` bounds their number. -/
def propertiesFrom : Nat → List Char → List Property × List Char
  | 0, s => ([], s)
  | fuel + 1, s =>
    match property? s with
    | none => ([], s)
    | some (p, rest) =>
      let (ps, rest) := propertiesFrom fuel rest
      (p :: ps, rest)

def properties (s : List Char) : List Property × List Char := propertiesFrom s.length s

def content? (name s : List Char) : Option (List Char) :=
  match s.reverse with
  | '>' :: r =>
    match dropHead? (name.reverse ++ ['/', '<']) (stripStart r) with
    | some inner => some inner.reverse
    | none => none
  | _ => none

/-- Elements that never have content. -/
def voidTags : List String := ["img", "source", "br", "hr", "input", "track", "embed", "wbr"]

def typeName (flow : Bool) : String := if flow then "mdxJsxFlowElement" else "mdxJsxTextElement"

def build (flow : Bool) (name : List Char) (props : List Property) (inner : List Char) : Node :=
  let inner := strip inner
  .parent (typeName flow) [] (.component (String.ofList name) props)
    (if inner.isEmpty then [] else [Node.text (String.ofList inner)])

/-- What follows the attributes: an optional slash and the end of the tag. -/
def tagEnd? (s : List Char) : Option (Bool × List Char) :=
  match stripStart s with
  | '/' :: '>' :: rest => some (true, rest)
  | '>' :: rest => some (false, rest)
  | _ => none

/-- The one component that a text consists of. -/
def element? (flow : Bool) (markup : List Char) : Option Node :=
  match strip markup with
  | '<' :: c :: cs =>
    if isNameStart c then
      let name := c :: cs.takeWhile isNameChar
      let (props, rest) := properties (cs.dropWhile isNameChar)
      match tagEnd? rest with
      | none => none
      | some (slash, rest) =>
        match content? name rest with
        | some inner => some (build flow name props inner)
        | none =>
          -- No closing tag: the start tag must be all there is.
          if rest.isEmpty &&
              (slash || voidTags.contains (lowerString (String.ofList name))) then
            some (build flow name props [])
          else none
    else none
  | _ => none

/-- All components when the whole text is one, or when each of at least two lines is. -/
def nodes? (flow : Bool) (markup : List Char) : Option (List Node) :=
  match element? flow markup with
  | some n => some [n]
  | none =>
    let ls := (lines markup).filter fun l => !isAllBlank l
    if ls.length < 2 then none else ls.mapM (element? flow)

end DocumentMedia.Component
