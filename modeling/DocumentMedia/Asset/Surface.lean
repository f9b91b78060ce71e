import DocumentMedia.Asset.Publisher
import DocumentMedia.Document.Header
import DocumentMedia.Tree.Visit

/-! # References of documents

The places of a document that refer to media: the image of its header, image and video directives,
images, and components with a source. Relinking changes these places only, each by what its own
reference is published as.
-/
namespace DocumentMedia.Asset

open DocumentMedia.Files DocumentMedia.Document

/-- A document whose references are to be published. -/
structure Draft where
  path : Path
  tree : Node
  fields : Option HeaderFields

def headerImage? (fields : Option HeaderFields) : Option String :=
  match fields >>= fun es => Value.under? es "image" with
  | some (.str s) => some s
  | _ => none

def directiveSource? : Node → Option String
  | .leaf type _ (.directive name _ attributes) =>
    if directiveTypes.contains type && isMediaName name then
      match Assoc.find? attributes "src" with
      | some (.str s) => some s
      | _ => none
    else none
  | _ => none

def imageSource? : Node → Option String
  | .leaf "image" _ (.image url ..) => some url
  | _ => none

/-- The text of the first source attribute of a component. -/
def componentSource? : Node → Option String
  | .parent type _ (.component _ props) _ =>
    if componentTypes.contains type then
      prop? props "src" >>= fun p => propertySource? p.value
    else none
  | _ => none

/-- The texts of all references of a document: header, directives, images, components, each kind in
document order. -/
def references (d : Draft) : List String :=
  let nodes := iterNodes (fun _ => true) d.tree
  (headerImage? d.fields).toList ++ nodes.filterMap directiveSource? ++
    nodes.filterMap imageSource? ++ nodes.filterMap componentSource?

/-! A node may carry the type of another kind of node, which then asks it for a reference that it
does not have. -/

/-- A node with the type of a directive that is none; components of other names are passed over. -/
def isMisfitDirective : Node → Bool
  | .leaf _ _ (.directive ..) => false
  | .parent type _ (.component name _) _ => directiveTypes.contains type && isMediaName name
  | n => directiveTypes.contains n.type

def isMisfitImage (n : Node) : Bool := n.type = "image" && !n.isImage

def isMisfitComponent (n : Node) : Bool := componentTypes.contains n.type && !n.isComponent

/-- The references that come before the first misfit of a document, if it has one. -/
def beforeMisfit? (d : Draft) : Option (List String) :=
  let nodes := iterNodes (fun _ => true) d.tree
  let header := (headerImage? d.fields).toList
  let directives := nodes.filterMap directiveSource?
  -- Directives are asked before images, and these before components.
  if nodes.any isMisfitDirective then
    some (header ++ (nodes.takeWhile (!isMisfitDirective ·)).filterMap directiveSource?)
  else if nodes.any isMisfitImage then
    some (header ++ directives ++
      (nodes.takeWhile (!isMisfitImage ·)).filterMap imageSource?)
  else if nodes.any isMisfitComponent then
    some (header ++ directives ++ nodes.filterMap imageSource? ++
      (nodes.takeWhile (!isMisfitComponent ·)).filterMap componentSource?)
  else none

/-- Notes on a node what was published for it. -/
def withMedia (data : Fields) (a : Asset) : Fields := Assoc.put data "media" (.media a.media)

def setFirst (name value : String) : List Property → List Property
  | [] => []
  | p :: ps =>
    if p.name = name then ⟨p.name, some (.text value)⟩ :: ps else p :: setFirst name value ps

/-- Width and height as attributes, when both are known and neither is there. -/
def sizeProps (props : List Property) (m : MediaMeta) : List Property :=
  match m.width, m.height with
  | some w, some h =>
    if m.kind = "image" && w ≠ 0 && h ≠ 0 && (prop? props "width").isNone &&
        (prop? props "height").isNone then
      [⟨"width", some (.text (toString w))⟩, ⟨"height", some (.text (toString h))⟩]
    else []
  | _, _ => []

def relinkLeaf (publish : String → Option Asset) (n : Node) : Node :=
  match n with
  | .leaf type data (.directive name label attributes) =>
    match directiveSource? n >>= publish with
    | some a =>
      .leaf type (withMedia data a)
        (.directive name label (Assoc.put attributes "src" (.str a.publicPath)))
    | none => n
  | .leaf type data (.image _ alt title) =>
    match imageSource? n >>= publish with
    | some a => .leaf type (withMedia data a) (.image a.publicPath alt title)
    | none => n
  | n => n

def relinkParent (publish : String → Option Asset) (n : Node) : Node :=
  match n with
  | .parent type data (.component name props) children =>
    match componentSource? n >>= publish with
    | some a =>
      .parent type (withMedia data a)
        (.component name (setFirst "src" a.publicPath props ++ sizeProps props a.media)) children
    | none => n
  | n => n

mutual

def relinkNode (publish : String → Option Asset) : Node → Node
  | .leaf type data body => relinkLeaf publish (.leaf type data body)
  | .parent type data body children =>
    relinkParent publish (.parent type data body (relinkNodes publish children))

def relinkNodes (publish : String → Option Asset) : List Node → List Node
  | [] => []
  | n :: ns => relinkNode publish n :: relinkNodes publish ns

end

def relinkFields (publish : String → Option Asset) (fields : Option HeaderFields) :
    Option HeaderFields :=
  match fields, headerImage? fields >>= publish with
  | some es, some a => some (Value.putEntry es (.str "image") (.str a.publicPath))
  | _, _ => fields

/-- A document with its references relinked, and what was published for them. -/
structure Localized where
  tree : Node
  fields : Option HeaderFields
  assets : List Asset

def relink (publish : String → Option Asset) (d : Draft) : Localized where
  tree := d.tree.withChildren (relinkNodes publish d.tree.children)
  fields := relinkFields publish d.fields
  assets := (references d).filterMap publish

end DocumentMedia.Asset
