import DocumentMedia.Component.Syntax
import DocumentMedia.Markdown.Token
import DocumentMedia.Value.Text

/-! # Trees of tokens

A flat list of tokens is folded into a tree over a stack of open parents. Adjacent texts become
one. In documents with components, raw markup and paragraphs that hold nothing but components
become component nodes.
-/
namespace DocumentMedia.Document

open DocumentMedia.Markdown DocumentMedia.Text

/-- Node types of the elements that tokens open; other elements keep the name of their tokens. -/
def elementType (base : String) : String :=
  match base with
  | "bullet_list" | "ordered_list" => "list"
  | "list_item" => "listItem"
  | "em" => "emphasis"
  | "s" => "delete"
  | "thead" => "tableHead"
  | "tbody" => "tableBody"
  | "tr" => "tableRow"
  | "th" | "td" => "tableCell"
  | _ => base

/-- A parent that is still open, with its children so far, the latest first. -/
structure OpenNode where
  type : String
  body : Container
  children : List Node
  /-- A paragraph that its content has replaced; it is dropped in the end. -/
  detached : Bool
  deriving Inhabited

def OpenNode.close (n : OpenNode) : Node := .parent n.type [] n.body n.children.reverse

/-- The parent that an opening token starts. The last five letters of its type say that it
opens. -/
def openNode (t : Token) : OpenNode :=
  let base := String.ofList (t.type.toList.take (t.type.length - 5))
  if base = "paragraph" then ⟨"paragraph", .paragraph t.hidden, [], false⟩
  else
    ⟨elementType base,
      .element t.tag (t.attrs.map fun (k, v) => (k, .str v.display)) false, [], false⟩

/-- Adds a node behind its siblings; a text joins a text right before it. -/
def appendNode (siblings : List Node) (n : Node) : List Node :=
  match siblings, n with
  | .leaf type data (.text a) :: rest, .leaf _ _ (.text b) =>
    .leaf type data (.text (a ++ b)) :: rest
  | _, _ => n :: siblings

def OpenNode.append (p : OpenNode) (n : Node) : OpenNode :=
  { p with children := appendNode p.children n }

def directiveNode (type : String) (m : DirectiveMeta) : Node :=
  .leaf type [] (.directive m.name m.label m.attributes)

/-- Components in raw markup, when the document may have them; else the markup itself. -/
def markupNodes (components flow : Bool) (markup : String) : List Node :=
  let parsed := if components then Component.nodes? flow markup.toList else none
  parsed.getD [Node.html markup]

def textAttr (attrs : Fields) (name : String) : String :=
  match Assoc.find? attrs name with
  | some v => if v.isTruthy then v.display else ""
  | none => ""

def inlineNodes (components : Bool) (t : Token) : List Node :=
  match t.type with
  | "softbreak" => [Node.text "\n"]
  | "hardbreak" => [.leaf "break" [] (.literal "br" "" none)]
  | "code_inline" => [.leaf "inlineCode" [] (.literal "code" t.content none)]
  | "image" =>
    let title := textAttr t.attrs "title"
    [.leaf "image" [] (.image (textAttr t.attrs "src") t.content
      (if title.isEmpty then none else some title))]
  | "text_directive" => [directiveNode "textDirective" t.directive]
  | "html_inline" => markupNodes components false t.content
  | _ => [Node.text t.content]

/-- One inline token over a stack whose bottom holds the result. -/
def inlineStep (components : Bool) (stack : OpenNode × List OpenNode) (t : Token) :
    OpenNode × List OpenNode :=
  let (top, below) := stack
  match t.nesting with
  | .opens => (openNode t, top :: below)
  | .closes =>
    match below with
    -- Nothing is open, so the token is ignored.
    | [] => (top, [])
    | p :: rest => (p.append top.close, rest)
  | .stands => ((inlineNodes components t).foldl OpenNode.append top, below)

/-- Closes every parent of a stack into the bottom one. -/
def closeAll : OpenNode → List OpenNode → OpenNode
  | top, [] => top
  | top, p :: rest =>
    closeAll (if top.detached then p else { p with children := top.close :: p.children }) rest

def inlineContent (components : Bool) (ts : List Token) : List Node :=
  let (top, below) := ts.foldl (inlineStep components) (⟨"inline", .root, [], false⟩, [])
  (closeAll top below).children.reverse

def blockNodes (components : Bool) (t : Token) : List Node :=
  match t.type with
  | "fence" | "code_block" =>
    let lang := strip t.info.toList
    [.leaf "code" [] (.literal "pre" t.content
      (if lang.isEmpty then none else some (String.ofList lang)))]
  | "hr" => [.leaf "thematicBreak" [] (.literal "hr" "" none)]
  | "html_block" => markupNodes components true t.content
  | "leaf_directive" => [directiveNode "leafDirective" t.directive]
  | _ => []

/-- The open parents during the fold, the innermost first; nothing once the root is closed. -/
abbrev Stack := List OpenNode

/-- Why tokens make no tree: something stands behind the end of the root. -/
inductive TreeError where
  | behindRoot
  deriving DecidableEq, Repr

/-- The components that a whole paragraph consists of. -/
def flowOf (components : Bool) (top : OpenNode) (t : BlockToken) : Option (List Node) :=
  match top.body with
  | .paragraph _ => if components then Component.nodes? true t.content.toList else none
  | _ => none

/-- Puts components in the place of the open paragraph. -/
def replaceTop (top parent : OpenNode) (flow : List Node) (rest : Stack) : Stack :=
  let siblings := if top.detached then parent.children.drop 1 else parent.children
  { top with detached := true } :: { parent with children := flow.reverse ++ siblings } :: rest

def textStep (components : Bool) (stack : Stack) (t : BlockToken) : Except TreeError Stack :=
  match stack with
  | [] =>
    if components || !(inlineContent components t.inlines).isEmpty then .error .behindRoot
    else .ok []
  | top :: below =>
    match flowOf components top t, below with
    | some flow, parent :: rest => .ok (replaceTop top parent flow rest)
    | _, _ => .ok ((inlineContent components t.inlines).foldl OpenNode.append top :: below)

def blockStep (components : Bool) (root : Option OpenNode × Stack) (t : BlockToken) :
    Except TreeError (Option OpenNode × Stack) :=
  let (done, stack) := root
  match t.nesting with
  | .opens =>
    match stack with
    | [] => .error .behindRoot
    | _ => .ok (done, openNode t.toToken :: stack)
  | .closes =>
    match stack with
    | [] => .error .behindRoot
    | [top] => .ok (some top, [])
    | top :: p :: rest =>
      if top.detached then .ok (done, p :: rest)
      else .ok (done, { p with children := top.close :: p.children } :: rest)
  | .stands =>
    if t.type = "inline" then (textStep components stack t).map fun s => (done, s)
    else
      match stack with
      | [] => .error .behindRoot
      | top :: below =>
        .ok (done, { top with
          children := (blockNodes components t.toToken).reverse ++ top.children } :: below)

def treeOfTokens (components : Bool) (ts : List BlockToken) : Except TreeError Node := do
  let start : Option OpenNode × Stack := (none, [⟨"root", .root, [], false⟩])
  let (done, stack) ← ts.foldlM (blockStep components) start
  match done, stack with
  | some root, _ => return root.close
  | none, top :: below => return (closeAll top below).close
  | none, [] => return Node.root []

end DocumentMedia.Document
