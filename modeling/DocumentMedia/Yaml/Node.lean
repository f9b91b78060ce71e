import DocumentMedia.Yaml.Tag
import DocumentMedia.Yaml.Token

/-! # YAML nodes

The one document of a stream as a tree of scalars, sequences and maps. An alias is a copy of the
node that its anchor names; inside that node itself it only names the anchor.
-/
namespace DocumentMedia.Yaml

inductive Node where
  | scalar (tag : Tag) (text : List Char)
  | sequence (tag : Tag) (items : List Node)
  | mapping (tag : Tag) (entries : List (Node × Node))
  /-- The node of an anchor around it, which has the given tag. -/
  | loop (name : List Char) (tag : Tag)
  /-- A node that holds its own anchor, or that of a node around it. -/
  | knot (name : List Char) (body : Node)
  deriving Repr

instance : Inhabited Node := ⟨.scalar .null []⟩

def Node.tag : Node → Tag
  | .scalar t _ => t
  | .sequence t _ => t
  | .mapping t _ => t
  | .loop _ t => t
  | .knot _ n => n.tag

mutual

/-- Whether an alias in a node names an anchor around it. -/
def Node.hasLoop : Node → Bool
  | .scalar .. => false
  | .sequence _ items => anyLoop items
  | .mapping _ entries => anyEntryLoop entries
  | .loop .. | .knot .. => true

def anyLoop : List Node → Bool
  | [] => false
  | n :: ns => n.hasLoop || anyLoop ns

def anyEntryLoop : List (Node × Node) → Bool
  | [] => false
  | (k, v) :: es => k.hasLoop || v.hasLoop || anyEntryLoop es

end

/-- What is known of an anchor. -/
inductive Anchored where
  /-- Its node is being read; the tag of the node. -/
  | open_ (tag : Tag)
  | done (n : Node)

/-- What has been read so far: the tokens left, the handles of tags, and the anchors. -/
structure Parser where
  tokens : List Token
  handles : List (List Char × List Char)
  anchors : List (List Char × Anchored)

abbrev ParseM := StateT Parser (Except YamlError)

def malformed : ParseM α := throw .malformed

/-- The next token. At a fault, parsing ends with it. -/
def peekToken : ParseM Token := do
  match (← get).tokens with
  | [] => malformed
  | .fault e :: _ => throw e
  | t :: _ => return t

def skipToken : ParseM Unit := modify fun p => { p with tokens := p.tokens.tail }

def sees (ts : List Token) : ParseM Bool := return ts.contains (← peekToken)

def skipIf (t : Token) : ParseM Bool := do
  if (← peekToken) = t then skipToken; return true
  else return false

/-- Anchor and tag before a node. -/
structure Properties where
  anchor : Option (List Char)
  tag : Option (Option (List Char) × List Char)

def takeAnchor : ParseM (Option (List Char)) := do
  match ← peekToken with
  | .anchor a => skipToken; return some a
  | _ => return none

def takeTag : ParseM (Option (Option (List Char) × List Char)) := do
  match ← peekToken with
  | .tag handle suffix => skipToken; return some (handle, suffix)
  | _ => return none

def takeProperties : ParseM Properties := do
  match ← takeAnchor with
  | some a => return ⟨some a, ← takeTag⟩
  | none =>
    match ← takeTag with
    | some t => return ⟨← takeAnchor, some t⟩
    | none => return ⟨none, none⟩

def tagName : Option (Option (List Char) × List Char) → ParseM (Option (List Char))
  | none => return none
  | some (none, suffix) => return some suffix
  | some (some handle, suffix) => do
    match (← get).handles.lookup handle with
    | some stands => return some (stands ++ suffix)
    | none => malformed

/-- Whether a tag leaves the kind of a node open. -/
def isOpenTag (name : Option (List Char)) : Bool := name.all (· = ['!'])

def nodeTag (name : Option (List Char)) (byDefault : Tag) : Tag :=
  match name with
  | some n => if n = ['!'] then byDefault else Tag.ofName n
  | none => byDefault

def emptyNode : Node := .scalar .null []

/-- A scalar: a plain one without a tag has the kind of its text, a quoted one is text. -/
def scalarNode (name : Option (List Char)) (text : List Char) (plain : Bool) : Node :=
  .scalar (nodeTag name (if plain || name.isSome then Tag.ofPlain text else .str)) text

def record (anchor : Option (List Char)) (known : Anchored) : ParseM Unit :=
  match anchor with
  | none => return
  | some a => modify fun p => { p with anchors := (a, known) :: p.anchors }

def aliasNode (name : List Char) : ParseM Node := do
  match (← get).anchors.lookup name with
  | some (.done n) => return n
  | some (.open_ tag) => return .loop name tag
  | none => malformed

def tied (anchor : Option (List Char)) (n : Node) : Node :=
  match anchor with
  | some a => if n.hasLoop then .knot a n else n
  | none => n

/-- The tag of the collection that a token starts. -/
def startedTag (name : Option (List Char)) : Token → Tag
  | .flowMappingStart | .blockMappingStart => nodeTag name .map
  | _ => nodeTag name .seq

/-- Where a node stands: inside brackets, or in a block, where the items of a sequence may have the
indent of the key before them. -/
inductive Place where
  | flow
  | block
  | blockOrItems
  deriving DecidableEq

abbrev NodeReader := Place → ParseM Node

/-- A node, or nothing when one of the given tokens comes next. -/
def nodeUnless (read : NodeReader) (place : Place) (ts : List Token) : ParseM Node := do
  if ← sees ts then return emptyNode else read place

/-- The items of a block sequence; `ends` are the tokens before which an item is empty. -/
def blockItems (read : NodeReader) (ends : List Token) : Nat → ParseM (List Node)
  | 0 => malformed
  | fuel + 1 => do
    if ← skipIf .blockEntry then
      let item ← nodeUnless read .block ends
      return item :: (← blockItems read ends fuel)
    else return []

def blockEntries (read : NodeReader) : Nat → ParseM (List (Node × Node))
  | 0 => malformed
  | fuel + 1 => do
    let ends := [Token.keyMark, .valueMark, .blockEnd]
    if ← skipIf .keyMark then
      let key ← nodeUnless read .blockOrItems ends
      let value ←
        if ← skipIf .valueMark then nodeUnless read .blockOrItems ends else pure emptyNode
      return (key, value) :: (← blockEntries read fuel)
    else return []

/-- A value inside brackets, when a colon comes next. -/
def flowValue (read : NodeReader) (close : Token) : ParseM Node := do
  if ← skipIf .valueMark then nodeUnless read .flow [.flowEntry, close] else return emptyNode

/-- A key inside brackets, behind its mark. -/
def flowKey (read : NodeReader) (close : Token) : ParseM Node :=
  nodeUnless read .flow [.valueMark, .flowEntry, close]

/-- The comma between the parts of a collection in brackets. -/
def takeComma : ParseM Unit := do
  if !(← skipIf .flowEntry) then malformed

/-- The items of a sequence in brackets, up to the closing one. An item with a key is a map. -/
def flowItems (read : NodeReader) : Nat → Bool → ParseM (List Node)
  | 0, _ => malformed
  | fuel + 1, first => do
    if ← skipIf .flowSequenceEnd then return []
    if !first then takeComma
    if ← skipIf .keyMark then
      let key ← flowKey read .flowSequenceEnd
      let value ← flowValue read .flowSequenceEnd
      return .mapping .map [(key, value)] :: (← flowItems read fuel false)
    else if ← skipIf .flowSequenceEnd then return []
    else
      let item ← read .flow
      return item :: (← flowItems read fuel false)

/-- The entries of a map in braces. A key without a mark has no value. -/
def flowEntries (read : NodeReader) : Nat → Bool → ParseM (List (Node × Node))
  | 0, _ => malformed
  | fuel + 1, first => do
    if ← skipIf .flowMappingEnd then return []
    if !first then takeComma
    if ← skipIf .keyMark then
      let key ← flowKey read .flowMappingEnd
      let value ← flowValue read .flowMappingEnd
      return (key, value) :: (← flowEntries read fuel false)
    else if ← skipIf .flowMappingEnd then return []
    else
      let key ← read .flow
      return (key, emptyNode) :: (← flowEntries read fuel false)

def closeBlock : ParseM Unit := do
  if !(← skipIf .blockEnd) then malformed

def content (read : NodeReader) (fuel : Nat) (place : Place) (p : Properties)
    (name : Option (List Char)) : ParseM Node := do
  let block := place ≠ .flow
  match ← peekToken with
  | .blockEntry =>
    if place = .blockOrItems then
      let ends := [Token.blockEntry, .keyMark, .valueMark, .blockEnd]
      return .sequence (nodeTag name .seq) (← blockItems read ends fuel)
    else absent
  | .scalar text plain => skipToken; return scalarNode name text plain
  | .flowSequenceStart =>
    skipToken
    return .sequence (nodeTag name .seq) (← flowItems read fuel true)
  | .flowMappingStart =>
    skipToken
    return .mapping (nodeTag name .map) (← flowEntries read fuel true)
  | .blockSequenceStart =>
    if !block then absent
    else
      skipToken
      let items ← blockItems read [.blockEntry, .blockEnd] fuel
      closeBlock
      return .sequence (nodeTag name .seq) items
  | .blockMappingStart =>
    if !block then absent
    else
      skipToken
      let entries ← blockEntries read fuel
      closeBlock
      return .mapping (nodeTag name .map) entries
  | _ => absent
where
  /-- Only properties stand here. -/
  absent : ParseM Node :=
    if p.anchor.isSome || p.tag.isSome then
      return .scalar (nodeTag name (if isOpenTag name then .null else .str)) []
    else malformed

/-- Reads one node; `fuel` bounds the depth and the length of what is read. -/
def readNode : Nat → NodeReader
  | 0, _ => malformed
  | fuel + 1, place => do
    match ← peekToken with
    | .alias name => skipToken; aliasNode name
    | _ =>
      let p ← takeProperties
      let name ← tagName p.tag
      if let some a := p.anchor then
        if ((← get).anchors.lookup a).isSome then malformed
      record p.anchor (.open_ (startedTag name (← peekToken)))
      let n := tied p.anchor (← content (readNode fuel) (fuel + 1) place p name)
      record p.anchor (.done n)
      return n

def standardHandles : List (List Char × List Char) := [(['!'], ['!']), (['!', '!'], standardTag)]

/-- Reads the directives before a document. -/
def readDirectives : Nat → Bool → List (List Char × List Char) → ParseM Unit
  | 0, _, _ => malformed
  | fuel + 1, versioned, own => do
    match ← peekToken with
    | .version major =>
      if versioned || major ≠ 1 then malformed
      skipToken
      readDirectives fuel true own
    | .tagHandle handle stands =>
      if (own.lookup handle).isSome then malformed
      skipToken
      readDirectives fuel versioned ((handle, stands) :: own)
    | .otherDirective => skipToken; readDirectives fuel versioned own
    | _ => modify fun p => { p with handles := own ++ standardHandles }

def skipEnds : Nat → ParseM Unit
  | 0 => return
  | fuel + 1 => do if ← skipIf .documentEnd then skipEnds fuel

/-- Reads a stream with at most one document. -/
def readStream (fuel : Nat) : ParseM (Option Node) := do
  let explicit ← match ← peekToken with
    | .version _ | .tagHandle .. | .otherDirective | .documentStart => pure true
    | _ => pure false
  if ← sees [.streamEnd] then return none
  if explicit then
    readDirectives fuel false []
    if !(← skipIf .documentStart) then malformed
  let n ←
    if explicit then
      match ← peekToken with
      | .version _ | .tagHandle .. | .otherDirective | .documentStart | .documentEnd
      | .streamEnd => pure emptyNode
      | _ => readNode fuel .block
    else readNode fuel .block
  skipEnds fuel
  if ← sees [.streamEnd] then return some n else malformed

/-- The nodes that anchors name. -/
abbrev Anchors := List (List Char × Node)

def Parser.finished (p : Parser) : Anchors :=
  p.anchors.filterMap fun
    | (a, .done n) => some (a, n)
    | (_, .open_ _) => none

def nodeOf (text : List Char) : Except YamlError (Option Node × Anchors) :=
  let ts := tokensOf text
  ((readStream (2 * ts.length + 2)).run ⟨ts, standardHandles, []⟩).map fun (n, p) => (n, p.finished)

end DocumentMedia.Yaml
