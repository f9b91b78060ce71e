import DocumentMedia.Document.Expand

/-! # What cannot be expanded

The data of a node may hold anything, and a node of one kind may carry the type of another.
Expansion meets the first thing that it has no meaning for: among the directives in document order,
then among the images, where all images of a parent come before those further below.
-/
namespace DocumentMedia.Document

open DocumentMedia.Text DocumentMedia.Attribute

inductive ExpandFault where
  | component
  /-- An alternative text is to be made of a source that is no text. -/
  | source
  /-- An alternative text is to be made of a source in bytes. -/
  | byteSource
  | properties (fault : Value.EntryFault)
  /-- A list of classes holds something other than texts. -/
  | classes
  deriving DecidableEq, Repr

/-- The fault in making an alternative text, when the given one is blank. -/
def altFault? (alt : String) (data : Fields) : Option ExpandFault :=
  let source := mediaField data "source"
  if !isAllBlank alt.toList || source.isFalsy then none
  else
    match source with
    | .str _ => none
    | .bytes _ => some .byteSource
    | _ => some .source

def isTextValue : Value → Bool
  | .str _ => true
  | _ => false

def classFault? (props : List (Value × Value)) : Option ExpandFault :=
  match givenClasses props with
  | .list vs => if vs.all isTextValue then none else some .classes
  | _ => none

def propertyFault? (data : Fields) : Option ExpandFault :=
  match ((Assoc.find? data "hProperties").getD .null).entries with
  | .error e => some (.properties e)
  | .ok props => classFault? props

def directiveFault? (type : String) (data : Fields) (name : String) (label : Option String)
    (attributes : Fields) : Option ExpandFault :=
  if directiveTypes.contains type && name = "img" then
    altFault? ((DirectiveMedia.of label attributes).alt.getD "") data
  else none

mutual

def directiveFaultIn? : Node → Option ExpandFault
  | .leaf type data (.directive name label attributes) =>
    directiveFault? type data name label attributes
  | .leaf .. => none
  | .parent type _ (.component name _) children =>
    if directiveTypes.contains type && isMediaName name then some .component
    else directiveFaultAmong? children
  | .parent _ _ _ children => directiveFaultAmong? children

def directiveFaultAmong? : List Node → Option ExpandFault
  | [] => none
  | n :: ns => (directiveFaultIn? n).or (directiveFaultAmong? ns)

end

/-- The first directive below a node that cannot be expanded. -/
def directivesFault? (tree : Node) : Option ExpandFault := directiveFaultAmong? tree.children

def imageFault? : Node → Option ExpandFault
  | .leaf _ data (.image _ alt _) => (altFault? alt data).or (propertyFault? data)
  | _ => none

mutual

def imageFaultIn? : Node → Option ExpandFault
  | .leaf .. => none
  | .parent _ _ _ children =>
    (children.findSome? imageFault?).or (imageFaultAmong? children)

def imageFaultAmong? : List Node → Option ExpandFault
  | [] => none
  | n :: ns => (imageFaultIn? n).or (imageFaultAmong? ns)

end

/-- The first image below a node that cannot be finished. -/
def imagesFault? (tree : Node) : Option ExpandFault := imageFaultIn? tree

def expandFault? (videoAttrs : String) (tree : Node) : Option ExpandFault :=
  (directivesFault? tree).or
    (imagesFault? (expandDirectives (parseLoose videoAttrs.toList) tree))

end DocumentMedia.Document
