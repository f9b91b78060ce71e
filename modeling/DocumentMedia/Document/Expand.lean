import DocumentMedia.Attribute.Block
import DocumentMedia.Attribute.Loose
import DocumentMedia.Media.Alt
import DocumentMedia.Media.Video
import DocumentMedia.Tree.Node
import DocumentMedia.Value.Entries

/-! # Expansion

Directives for images and videos and images with attribute blocks become final images and video
markup. Directives come first, so that an image made of a directive may take a block that follows
it.
-/
namespace DocumentMedia.Document

open DocumentMedia.Text DocumentMedia.Attribute

def mediaField (data : Fields) (name : String) : Value :=
  match Assoc.find? data "media" with
  | some (.map es) => (Value.under? es name).getD .null
  | some (.media m) =>
    if name = "kind" then .str m.kind
    else if name = "ext" then .str m.ext
    else if name = "width" then (m.width.map Value.int).getD .null
    else if name = "height" then (m.height.map Value.int).getD .null
    else if name = "source" then (m.source.map Value.str).getD .null
    else .null
  | _ => .null

def isVideoKind (data : Fields) : Bool :=
  match mediaField data "kind" with
  | .str k => k = "video"
  | _ => false

def isImageKind (data : Fields) : Bool :=
  match mediaField data "kind" with
  | .str k => k = "image"
  | _ => false

/-- The reference that an alternative text is made of: as it was authored, if that is known. -/
def altSource (data : Fields) (url : String) : String :=
  let source := mediaField data "source"
  if source.isTruthy then source.display else url

/-- The normalized attributes of a media directive. -/
structure DirectiveMedia where
  url : String
  alt : Option String
  cls : String
  style : String
  extra : Fields

def classNames : Option AttrValue → List (List Char)
  | some (.plain s) => words s.toList
  | some (.keyed items) => items.map fun (k, _) => k.toList
  | none => []

/-- Sorts the attributes of a directive. The label outranks an `alt` attribute; attributes without
text become flags. -/
def DirectiveMedia.of (label : Option String) (attributes : Fields) : DirectiveMedia :=
  let attrs : Assoc String AttrValue := attributes.map fun (k, v) => (k, normalize v)
  let plain? (key : String) : Option String :=
    match Assoc.find? attrs key with
    | some (.plain s) => some s
    | _ => none
  let label := stripped (label.getD "")
  let classes := classNames (Assoc.find? attrs "className") ++
    classNames (Assoc.find? attrs "class")
  let rest := attrs.filter fun (k, _) =>
    !(["src", "alt", "className", "class", "style"].contains k)
  { url := stripped ((plain? "src").getD "")
    alt := if label.isEmpty then plain? "alt" else some label
    cls := String.ofList (joinWith [' '] classes.eraseDups)
    style := ((Assoc.find? attrs "style").map styleText).getD ""
    extra := rest.map fun (k, v) =>
      let text := styleText v
      (k, if text.isEmpty then .bool true else .str text) }

/-- A flag as a property: the empty text. -/
def asProperty : Value → Value
  | .bool true => .str ""
  | v => v

def putProps (props : List (Value × Value)) (extra : Fields) : List (Value × Value) :=
  extra.foldl (fun ps (k, v) => Value.putEntry ps (.str k) (asProperty v)) props

def putText (props : List (Value × Value)) (key text : String) : List (Value × Value) :=
  if text.isEmpty then props else Value.putEntry props (.str key) (.str text)

/-- Puts width and height when both are known. -/
def putSize (props : List (Value × Value)) (data : Fields) : List (Value × Value) :=
  let width := mediaField data "width"
  let height := mediaField data "height"
  if width.isTruthy && height.isTruthy then
    Value.putEntry (Value.putEntry props (.str "width") width) (.str "height") height
  else props

/-- The given text unless it is blank. -/
def orAlt (alt : String) (data : Fields) (url : String) : String :=
  if isAllBlank alt.toList then deriveAlt (altSource data url) else alt

def expandDirective (videoAttrs : Fields) (data : Fields) (name : String) (label : Option String)
    (attributes : Fields) : Node :=
  let media := DirectiveMedia.of label attributes
  if name = "video" then
    let attrs := if media.extra.isEmpty then videoAttrs else media.extra
    Node.html (videoMarkup media.url media.cls media.style attrs)
  else
    let alt := orAlt (media.alt.getD "") data media.url
    let props := putText (putText [(.str "alt", .str alt)] "class" media.cls) "style" media.style
    let props := if isImageKind data then putSize props data else props
    let props := putProps props media.extra
    -- Whether the image is a video is told by its media record when it is finished.
    let kept : Fields := match Assoc.find? data "media" with
      | some m => [("media", m)]
      | none => []
    .leaf "image" (("hProperties", .map props) :: kept) (.image media.url alt none)

mutual

def expandDirectives (videoAttrs : Fields) : Node → Node
  | .leaf type data body =>
    match body with
    | .directive name label attributes =>
      if directiveTypes.contains type && isMediaName name then
        expandDirective videoAttrs data name label attributes
      else .leaf type data body
    | _ => .leaf type data body
  | .parent type data body children =>
    .parent type data body (expandDirectivesAll videoAttrs children)

def expandDirectivesAll (videoAttrs : Fields) : List Node → List Node
  | [] => []
  | n :: ns => expandDirectives videoAttrs n :: expandDirectivesAll videoAttrs ns

end

/-- The block that a text consists of, but for blanks around it and a backslash before it. -/
def trailingBlock? (s : List Char) : Option (List Char) :=
  let s := stripStart s
  let s := match s with
    | '\\' :: r => r
    | _ => s
  match s with
  | '{' :: r =>
    match r.dropWhile (· ≠ '}') with
    | '}' :: rest =>
      if isAllBlank rest then some ('{' :: r.takeWhile (· ≠ '}') ++ ['}']) else none
    | _ => none
  | _ => none

def givenProps (data : Fields) : List (Value × Value) :=
  match ((Assoc.find? data "hProperties").getD .null).entries with
  | .ok es => es
  | .error _ => []

def givenClasses (props : List (Value × Value)) : Value :=
  let className := (Value.under? props "className").getD .null
  if className.isTruthy then className else (Value.under? props "class").getD .null

def classText : Value → String
  | .list xs => " ".intercalate (xs.map Value.display)
  | v => if v.isTruthy then v.display else ""

/-- The final node of an image with the attributes of its blocks. -/
def finishImage (videoAttrs : List Char) (type : String) (data : Fields) (url alt : String)
    (title : Option String) (block : AttrBlock) : Node :=
  let alt := orAlt alt data url
  let given := givenProps data
  -- Classes go back under `class`, so none may be left under the other name.
  let props := given.filter fun (k, _) => !(Value.sameKey k (.str "className"))
  let classes := words (classText (givenClasses given)).toList ++ block.classes
  let cls := String.ofList (joinWith [' '] (classes.filter (!·.isEmpty)).eraseDups)
  let given := (Value.under? props "style").getD .null
  let current := if given.isTruthy then given.display else ""
  let style := String.ofList (joinStyle current.toList block.style)
  if isVideoKind data || isVideoUrl url then
    let attrs := parseLoose (if block.freeform.isEmpty then videoAttrs else block.freeform)
    Node.html (videoMarkup url cls style attrs)
  else
    let props := Value.putEntry props (.str "alt") (.str alt)
    let props := putText (putText props "class" cls) "style" style
    -- The block comes last: its own width and height outrank the known size.
    let props := putProps (putSize props data) (parseLoose block.freeform)
    .leaf type (Assoc.put data "hProperties" (.map props)) (.image url alt title)

def takeTitle (title : Option String) : AttrBlock × Option String :=
  let block := titleBlock (title.getD "").toList
  if block.isEmpty then (AttrBlock.empty, title) else (AttrBlock.empty.merge block, none)

/-- The block right behind an image, if there is one. -/
def blockBehind? : List Node → Option AttrBlock
  | .leaf _ _ (.text value) :: _ => (trailingBlock? value.toList).map AttrBlock.parse
  | _ => none

/-- The final node of an image with its siblings behind it. -/
def finishWith (videoAttrs : List Char) (type : String) (data : Fields) (url alt : String)
    (title : Option String) (behind : Option AttrBlock) : Node :=
  let (block, title) := takeTitle title
  finishImage videoAttrs type data url alt title (block.merge (behind.getD AttrBlock.empty))

/-- Finishes every image of a row of siblings. A text that is a block right behind an image belongs
to it and is dropped: `taken` says whether the first sibling is such a text. -/
def expandRow (videoAttrs : List Char) (taken : Bool) : List Node → List Node
  | [] => []
  | n :: rest =>
    if taken then expandRow videoAttrs false rest
    else
      match n with
      | .leaf type data (.image url alt title) =>
        let behind := blockBehind? rest
        finishWith videoAttrs type data url alt title behind ::
          expandRow videoAttrs behind.isSome rest
      | n => n :: expandRow videoAttrs false rest

mutual

def expandImages (videoAttrs : List Char) : Node → Node
  | .leaf type data body => .leaf type data body
  | .parent type data body children =>
    .parent type data body (expandRow videoAttrs false (expandImagesAll videoAttrs children))

def expandImagesAll (videoAttrs : List Char) : List Node → List Node
  | [] => []
  | n :: ns => expandImages videoAttrs n :: expandImagesAll videoAttrs ns

end

/-- The attributes of videos that name none themselves. -/
def defaultVideoAttrs : String := "controls playsinline muted"

def expand (videoAttrs : String) (tree : Node) : Node :=
  expandImages videoAttrs.toList (expandDirectives (parseLoose videoAttrs.toList) tree)

end DocumentMedia.Document
