import DocumentMedia.Value.Basic

/-! # Document trees

A node is a leaf or a parent. Each carries the name of its type and a record of data; the rest is
what kind of leaf or parent it is.
-/
namespace DocumentMedia

/-- The value of a component attribute: a text, or the source of an expression. -/
inductive PropertyValue where
  | text (s : String)
  | expr (source : String)
  deriving DecidableEq, Repr

/-- An attribute of a component; a flag has no value. -/
structure Property where
  name : String
  value : Option PropertyValue
  deriving DecidableEq, Repr

inductive Leaf where
  | text (value : String)
  /-- Markup that is written as it is. -/
  | html (value : String)
  /-- Code, inline code, breaks. -/
  | literal (tag value : String) (lang : Option String)
  | image (url alt : String) (title : Option String)
  /-- `:name[label]` or `::name[label]` with attributes. -/
  | directive (name : String) (label : Option String) (attributes : Fields)
  /-- A node of which only the type is known. -/
  | bare
  deriving Inhabited, Repr

inductive Container where
  | root
  /-- A hidden paragraph, in a tight list, is written without its tag. -/
  | paragraph (hidden : Bool)
  | element (tag : String) (attrs : Fields) (hidden : Bool)
  /-- A component such as `<Media src="clip.mp4" />`. -/
  | component (name : String) (props : List Property)
  deriving Inhabited, Repr

inductive Node where
  | leaf (type : String) (data : Fields) (body : Leaf)
  | parent (type : String) (data : Fields) (body : Container) (children : List Node)
  deriving Inhabited, Repr

namespace Node

def type : Node → String
  | .leaf t _ _ => t
  | .parent t _ _ _ => t

def data : Node → Fields
  | .leaf _ d _ => d
  | .parent _ d _ _ => d

def children : Node → List Node
  | .leaf .. => []
  | .parent _ _ _ cs => cs

def withChildren : Node → List Node → Node
  | .leaf t d b, _ => .leaf t d b
  | .parent t d b _, cs => .parent t d b cs

def withData : Node → Fields → Node
  | .leaf t _ b, d => .leaf t d b
  | .parent t _ b cs, d => .parent t d b cs

def text (value : String) : Node := .leaf "text" [] (.text value)

def html (value : String) : Node := .leaf "html" [] (.html value)

def root (children : List Node) : Node := .parent "root" [] .root children

def isText : Node → Bool
  | .leaf _ _ (.text _) => true
  | _ => false

def isImage : Node → Bool
  | .leaf _ _ (.image ..) => true
  | _ => false

def isDirective : Node → Bool
  | .leaf _ _ (.directive ..) => true
  | _ => false

def isComponent : Node → Bool
  | .parent _ _ (.component ..) _ => true
  | _ => false

def isParent : Node → Bool
  | .parent .. => true
  | .leaf .. => false

end Node

def directiveTypes : List String := ["textDirective", "leafDirective"]

def componentTypes : List String := ["mdxJsxFlowElement", "mdxJsxTextElement"]

def isMediaName (name : String) : Bool := name = "img" || name = "video"

def prop? (props : List Property) (name : String) : Option Property := props.find? (·.name = name)

end DocumentMedia
