import DocumentMedia.Text.Blank
import DocumentMedia.Text.LetterCase

/-! # Raw markup

Tags, comments and declarations inside Markdown, and the lines at which blocks of raw markup start
and end. Recognisers give what follows the markup they find.
-/
namespace DocumentMedia.Markdown

open DocumentMedia.Text

def isTagNameChar (c : Char) : Bool := c.isAlphanum || c = '-'

def isAttrStart (c : Char) : Bool := c.isAlpha || c = '_' || c = ':'

def isAttrChar (c : Char) : Bool := c.isAlphanum || c = ':' || c = '.' || c = '_' || c = '-'

/-- A character of a value without quotes. -/
def isBareChar (c : Char) : Bool :=
  32 < c.toNat && c ≠ '"' && c ≠ '\'' && c ≠ '=' && c ≠ '<' && c ≠ '>' && c ≠ '`'

def behind? (c : Char) (s : List Char) : Option (List Char) :=
  match s.dropWhile (· ≠ c) with
  | _ :: rest => some rest
  | [] => none

/-- The rest behind the first occurrence of `mark`. -/
def behindText? (mark : List Char) : List Char → Option (List Char)
  | [] => dropHead? mark []
  | c :: cs =>
    match dropHead? mark (c :: cs) with
    | some rest => some rest
    | none => behindText? mark cs

def attrValue? (s : List Char) : Option (List Char) :=
  match s with
  | '"' :: r => behind? '"' r
  | '\'' :: r => behind? '\'' r
  | c :: r => if isBareChar c then some (r.dropWhile isBareChar) else none
  | [] => none

def attribute? (s : List Char) : Option (List Char) :=
  match s, stripStart s with
  | b :: _, c :: r =>
    if isBlank b && isAttrStart c then
      let rest := r.dropWhile isAttrChar
      match stripStart rest with
      | '=' :: v => (attrValue? (stripStart v)).orElse fun _ => some rest
      | _ => some rest
    else none
  | _, _ => none

/-- All attributes; `fuel` bounds their number. -/
def attributes : Nat → List Char → List Char
  | 0, s => s
  | fuel + 1, s =>
    match attribute? s with
    | some rest => attributes fuel rest
    | none => s

def openTag? : List Char → Option (List Char)
  | '<' :: c :: cs =>
    if c.isAlpha then
      let s := cs.dropWhile isTagNameChar
      match stripStart (attributes s.length s) with
      | '/' :: '>' :: rest => some rest
      | '>' :: rest => some rest
      | _ => none
    else none
  | _ => none

def closeTag? : List Char → Option (List Char)
  | '<' :: '/' :: c :: cs =>
    if c.isAlpha then
      match stripStart (cs.dropWhile isTagNameChar) with
      | '>' :: rest => some rest
      | _ => none
    else none
  | _ => none

/-- The body of a comment and its end. Two hyphens may stand inside, even three before other text,
but the first two of them hide the third. -/
def commentBody? : List Char → Option (List Char)
  | '-' :: '-' :: '>' :: rest => some rest
  | '-' :: '-' :: _ :: rest => commentBody? rest
  | ['-', '-'] => none
  | '-' :: _ :: rest => commentBody? rest
  | ['-'] => none
  | _ :: rest => commentBody? rest
  | [] => none

def comment? (s : List Char) : Option (List Char) :=
  (dropHead? "<!-->".toList s).orElse fun _ =>
    (dropHead? "<!--->".toList s).orElse fun _ => (dropHead? "<!--".toList s).bind commentBody?

def instruction? (s : List Char) : Option (List Char) :=
  (dropHead? "<?".toList s).bind (behindText? "?>".toList)

def declaration? : List Char → Option (List Char)
  | '<' :: '!' :: c :: cs => if c.isAlpha then behind? '>' cs else none
  | _ => none

def cdata? (s : List Char) : Option (List Char) :=
  (dropHead? "<![CDATA[".toList s).bind (behindText? "]]>".toList)

def markup? (s : List Char) : Option (List Char) :=
  [openTag?, closeTag?, comment?, instruction?, declaration?, cdata?].findSome? fun f => f s

/-- The rest after the lower-case name `n`, when the text starts with it in any letter case of
ASCII. -/
def dropName? : List Char → List Char → Option (List Char)
  | [], s => some s
  | _ :: _, [] => none
  | p :: ps, c :: cs => if c.toLower = p then dropName? ps cs else none

/-- Elements whose tags start a block of raw markup. -/
def blockNames : List (List Char) :=
  ["address", "article", "aside", "base", "basefont", "blockquote", "body", "caption", "center",
    "col", "colgroup", "dd", "details", "dialog", "dir", "div", "dl", "dt", "fieldset",
    "figcaption", "figure", "footer", "form", "frame", "frameset", "h1", "h2", "h3", "h4", "h5",
    "h6", "head", "header", "hr", "html", "iframe", "legend", "li", "link", "main", "menu",
    "menuitem", "nav", "noframes", "ol", "optgroup", "option", "p", "param", "search", "section",
    "summary", "table", "tbody", "td", "tfoot", "th", "thead", "title", "tr", "track", "ul"].map
    String.toList

/-- Elements whose content is not markup. -/
def rawNames : List (List Char) := ["script", "pre", "style", "textarea"].map String.toList

inductive BlockEnd where
  /-- The line with the closing tag of an element without markup. -/
  | rawClose
  /-- The line with this text. -/
  | mark (text : String)
  | emptyLine
  deriving DecidableEq, Repr

def endsName : List Char → Bool
  | [] => true
  | c :: _ => isBlank c || c = '>'

def endsBlockName : List Char → Bool
  | '/' :: '>' :: _ => true
  | s => endsName s

/-- How the block that a line starts will end, and whether such a block may interrupt a
paragraph. -/
def markupBlock? (line : List Char) : Option (BlockEnd × Bool) :=
  match line with
  | '<' :: r =>
    let starts (names : List (List Char)) (ends : List Char → Bool) (s : List Char) : Bool :=
      names.any fun n =>
        match dropName? n s with
        | some rest => ends rest
        | none => false
    let name := match r with
      | '/' :: r' => r'
      | _ => r
    if starts rawNames endsName r then some (.rawClose, true)
    else if "!--".toList.isPrefixOf r then some (.mark "-->", true)
    else if "?".toList.isPrefixOf r then some (.mark "?>", true)
    else if (match r with | '!' :: c :: _ => c.isAlpha | _ => false) then
      some (.mark ">", true)
    else if "![CDATA[".toList.isPrefixOf r then some (.mark "]]>", true)
    else if starts blockNames endsBlockName name then some (.emptyLine, true)
    else
      match (openTag? line).orElse fun _ => closeTag? line with
      | some rest => if isAllBlank rest then some (.emptyLine, false) else none
      | none => none
  | _ => none

def closesRaw : List Char → Bool
  | [] => false
  | c :: cs =>
    (match c, cs with
      | '<', '/' :: r => rawNames.any fun n =>
        match dropName? n r with
        | some ('>' :: _) => true
        | _ => false
      | _, _ => false) || closesRaw cs

def BlockEnd.isOn (e : BlockEnd) (line : List Char) : Bool :=
  match e with
  | .rawClose => closesRaw line
  | .mark text => (behindText? text.toList line).isSome
  | .emptyLine => line.isEmpty

end DocumentMedia.Markdown
