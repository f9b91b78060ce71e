import DocumentMedia.Media.Video
import DocumentMedia.Tree.Node

/-! # Rendering

A tree as HTML. Content is escaped wherever it is not markup already; components keep the syntax
they were written in.
-/
namespace DocumentMedia

open DocumentMedia.Text

/-- Elements that end their line. -/
def blockTags : List String :=
  ["p", "h1", "h2", "h3", "h4", "h5", "h6", "ul", "ol", "li",
    "blockquote", "table", "thead", "tbody", "tr", "th", "td"]

def openTag (tag : String) (attrs : Fields) : String :=
  let rendered := attrsText attrs
  if rendered.isEmpty then "<" ++ tag ++ ">" else "<" ++ tag ++ " " ++ rendered ++ ">"

def shownProps (data : Fields) : List (Value × Value) :=
  match Assoc.find? data "hProperties" with
  | some (.map es) => es
  | _ => []

/-- A property as an attribute: an empty one other than the alternative text is a flag. -/
def shownValue (key : Value) : Value → Value
  | .str s => if s.isEmpty && !key.sameKey (.str "alt") then .bool true else .str s
  | v => v

/-- Source, alternative text and title of an image, overridden by its properties. -/
def imageEntries (data : Fields) (url alt : String) (title : Option String) :
    List (Value × Value) :=
  let base : List (Value × Value) := [(.str "src", .str url), (.str "alt", .str alt)] ++
    (match title with
      | some t => if t.isEmpty then [] else [(.str "title", .str t)]
      | none => [])
  (shownProps data).foldl (fun es (k, v) => Value.putEntry es k (shownValue k v)) base

/-- The attributes of an image. Keys that differ may be shown by the same name. -/
def imageAttrs (data : Fields) (url alt : String) (title : Option String) : Fields :=
  (imageEntries data url alt title).map fun (k, v) => (k.display, v)

def propertyText (p : Property) : String :=
  match p.value with
  | none => p.name
  | some (.expr source) => p.name ++ "=\x7b" ++ source ++ "\x7d"
  | some (.text s) => p.name ++ "=\"" ++ escapeValue s ++ "\""

def literalText (type tag value : String) (lang : Option String) : String :=
  if type = "code" then
    let cls := match lang with
      | some l => if l.isEmpty then "" else " class=\"language-" ++ escapeValue l ++ "\""
      | none => ""
    "<pre><code" ++ cls ++ ">" ++ escapeText value ++ "</code></pre>\n"
  else if type = "inlineCode" then "<code>" ++ escapeText value ++ "</code>"
  else if tag.isEmpty then escapeText value
  else "<" ++ tag ++ ">\n"

def directiveText (type name : String) (label : Option String) : String :=
  let tag := if type = "leafDirective" then "div" else "span"
  "<" ++ tag ++ " data-directive=\"" ++ escapeValue name ++ "\">" ++
    escapeText (label.getD "") ++ "</" ++ tag ++ ">"

def leafText (type : String) (data : Fields) : Leaf → String
  | .text value => escapeText value
  | .html value => value
  | .literal tag value lang => literalText type tag value lang
  | .image url alt title => openTag "img" (imageAttrs data url alt title)
  | .directive name label _ => directiveText type name label
  | .bare => ""

def elementText (tag : String) (attrs : Fields) (hidden : Bool) (inner : String) : String :=
  if hidden || tag.isEmpty then inner
  else
    let html := openTag tag attrs ++ inner ++ "</" ++ tag ++ ">"
    if blockTags.contains tag then html ++ "\n" else html

/-- A component around rendered content; `empty` when it has no children. -/
def componentText (name : String) (props : List Property) (empty : Bool) (inner : String) :
    String :=
  let head := " ".intercalate (name :: props.map propertyText)
  if empty then "<" ++ head ++ " />"
  else "<" ++ head ++ ">" ++ inner ++ "</" ++ name ++ ">"

def containerText (body : Container) (empty : Bool) (inner : String) : String :=
  match body with
  | .root => inner
  | .paragraph hidden => elementText "p" [] hidden inner
  | .element tag attrs hidden => elementText tag attrs hidden inner
  | .component name props => componentText name props empty inner

mutual

def Node.render : Node → String
  | .leaf type data body => leafText type data body
  | .parent _ _ body children =>
    containerText body children.isEmpty (Node.renderAll children)

def Node.renderAll : List Node → String
  | [] => ""
  | n :: ns => n.render ++ Node.renderAll ns

end

/-- The HTML of a document: the content of its root. -/
def renderTree (tree : Node) : String := Node.renderAll tree.children

/-! ## What cannot be rendered

The properties of an image are data of any kind. -/

inductive RenderFault where
  /-- The properties are no map. -/
  | noEntries
  /-- The properties are an attribute value, whose items are no entries. -/
  | attributeItems
  /-- A flag stands under a key that is no text. -/
  | unnamedFlag
  deriving DecidableEq, Repr

/-- Whether an entry is a flag without a name. -/
def isUnnamedFlag : Value × Value → Bool
  | (.str _, _) => false
  | (_, .bool b) => b
  | _ => false

def imageRenderFault? (data : Fields) (url alt : String) (title : Option String) : Option RenderFault :=
  let props := (Assoc.find? data "hProperties").getD .null
  if props.isFalsy then none
  else
    match props with
    | .map _ =>
      if (imageEntries data url alt title).any isUnnamedFlag then some .unnamedFlag else none
    | .attr (.keyed _) => some .attributeItems
    | _ => some .noEntries

mutual

def Node.renderFault? : Node → Option RenderFault
  | .leaf _ data (.image url alt title) => imageRenderFault? data url alt title
  | .leaf .. => none
  | .parent _ _ _ children => Node.firstRenderFault? children

def Node.firstRenderFault? : List Node → Option RenderFault
  | [] => none
  | n :: ns => n.renderFault?.or (Node.firstRenderFault? ns)

end

/-- The first thing in a document that cannot be rendered. -/
def renderFault? (tree : Node) : Option RenderFault := Node.firstRenderFault? tree.children

end DocumentMedia
