import DocumentMedia.Yaml.Node
import DocumentMedia.Yaml.Scalar

/-! # Values of YAML texts

The value of the document of a text. Faults are looked for level by level, so that of two faults the
one nearer to the root is named.
-/
namespace DocumentMedia.Yaml

abbrev Entries := List (Node × Node)

/-- The key of the main value is plain text as a key. -/
def asKey : Node → Node
  | .scalar .value text => .scalar .str text
  | n => n

/-- A node without the name of its anchor. -/
def Node.untied : Node → Node
  | .knot _ body => body.untied
  | n => n

mutual

/-- The entries of a map: those merged in, then its own. -/
def mergeEntries : Entries → Except YamlError (Entries × Entries)
  | [] => .ok ([], [])
  | (k, v) :: rest => do
    if k.tag = .merge then
      let here ← mergedFrom v
      let (merged, own) ← mergeEntries rest
      return (here ++ merged, own)
    else
      let (merged, own) ← mergeEntries rest
      return (merged, (asKey k, v) :: own)

/-- What is merged in from a map or a sequence of maps; in a sequence, earlier maps win. A map around
the entry adds nothing. -/
def mergedFrom : Node → Except YamlError Entries
  | .knot _ body => mergedFrom body
  | .loop _ tag => if tag = .map then .ok [] else .error .malformed
  | .mapping _ entries => do
    let (merged, own) ← mergeEntries entries
    return merged ++ own
  | .sequence _ items => mergedItems items
  | .scalar .. => .error .malformed

def mergedItems : List Node → Except YamlError Entries
  | [] => .ok []
  | n :: rest => do
    let here ← mergedMap n
    return (← mergedItems rest) ++ here

def mergedMap : Node → Except YamlError Entries
  | .mapping _ entries => do
    let (merged, own) ← mergeEntries entries
    return merged ++ own
  | .knot _ body => mergedMap body
  | .loop _ tag => if tag = .map then .ok [] else .error .malformed
  | _ => .error .malformed

end

/-- All entries of a map, in the order in which they are put. -/
def entriesOf (n : Node) : Except YamlError Entries :=
  match n.untied with
  | .mapping _ entries => (mergeEntries entries).map fun (merged, own) => merged ++ own
  | _ => .error .malformed

mutual

/-- The text of a scalar, or of the main value of a map. -/
def mainText? : Node → Option (List Char)
  | .scalar _ text => some text
  | .sequence .. | .loop .. => none
  | .mapping _ entries => mainEntry? entries
  | .knot _ body => mainText? body

def mainEntry? : Entries → Option (List Char)
  | [] => none
  | (k, v) :: rest => if k.tag = .value then mainText? v else mainEntry? rest

end

def Tag.isCollection : Tag → Bool
  | .seq | .map | .set | .orderedMap | .pairs => true
  | _ => false

def plainValue (n : Node) : Except YamlError Value :=
  match mainText? n with
  | some text => scalarValue n.tag text
  | none => .error .malformed

/-- The key and value of the only entry of a map. -/
def onlyEntry (n : Node) : Except YamlError (Node × Node) :=
  match n.untied with
  | .mapping _ [e] => .ok e
  | _ => .error .malformed

/-- The nodes right inside a collection, keys before their values, each with whether it is a key. -/
def partsOf (n : Node) : Except YamlError (List (Bool × Node)) :=
  match n.tag, n.untied with
  -- Its parts are checked where the anchor stands.
  | _, .loop .. => .ok []
  | .seq, .sequence _ items => .ok (items.map fun i => (false, i))
  | .map, n | .set, n => do
    return (← entriesOf n).flatMap fun (k, v) => [(true, k), (false, v)]
  | .orderedMap, .sequence _ items | .pairs, .sequence _ items => do
    return (← items.mapM onlyEntry).flatMap fun (k, v) => [(false, k), (false, v)]
  | _, _ => .error .malformed

/-- Checks one part; a collection is left for the next level, but cannot be a key. -/
def checkPart (later : List Node) (part : Bool × Node) : Except YamlError (List Node) :=
  let (isKey, n) := part
  if n.tag.isCollection then
    if isKey then .error .malformed else .ok (later ++ [n])
  else (plainValue n).map fun _ => later

/-- Looks for faults level by level; `fuel` bounds the depth. -/
def checkLevels : Nat → List Node → Except YamlError Unit
  | 0, _ => .ok ()
  | _ + 1, [] => .ok ()
  | fuel + 1, level => do
    let next ← level.foldlM (fun later n => do (← partsOf n).foldlM checkPart later) []
    checkLevels fuel next

mutual

def Node.depth : Node → Nat
  | .scalar .. => 1
  | .sequence _ items => 1 + depthAll items
  | .mapping _ entries => 1 + depthEntries entries
  | .loop .. => 1
  | .knot _ body => 1 + body.depth

def depthAll : List Node → Nat
  | [] => 0
  | n :: ns => max n.depth (depthAll ns)

def depthEntries : Entries → Nat
  | [] => 0
  | (k, v) :: es => max (max k.depth v.depth) (depthEntries es)

end

/-- How to see an anchored node that is met inside itself. -/
def againOf (n : Node) : Value := .cycle (n.tag = .map || n.tag = .set)

/-- The value of a node without faults. `around` names the anchors of the nodes around it; `fuel`
bounds the depth of the value. -/
def build (anchors : Anchors) : Nat → List (List Char) → Node → Value
  | 0, _, _ => .null
  | fuel + 1, around, n =>
    let one (n : Node) : Value := build anchors fuel around n
    let values (es : Except YamlError Entries) : List (Value × Value) :=
      (es.toOption.getD []).map fun (k, v) => (one k, one v)
    let putAll (es : List (Value × Value)) : List (Value × Value) :=
      es.foldl (fun es (k, v) => Value.putEntry es k v) []
    match n.tag, n with
    | _, .knot name body =>
      if around.contains name then againOf body else build anchors fuel (name :: around) body
    | _, .loop name _ =>
      match anchors.lookup name with
      | some target => if around.contains name then againOf n else one target
      | none => .null
    | .seq, .sequence _ items => .list (items.map one)
    | .map, n => .map (putAll (values (entriesOf n)))
    | .set, n => .set ((putAll (values (entriesOf n))).map (·.1))
    | .orderedMap, .sequence _ items | .pairs, .sequence _ items =>
      .list ((values (items.mapM onlyEntry)).map fun (k, v) => .pair k v)
    | _, n => ((plainValue n).toOption).getD .null

/-- No path through a node and the nodes of its anchors is longer, if it goes through each anchor
once. -/
def unfoldedDepth (n : Node) (anchors : Anchors) : Nat :=
  anchors.foldl (fun d (_, a) => d + a.depth + 1) (n.depth + 1)

/-- The value of a text; nothing stands for the value of an empty one. -/
def load (text : String) : Except YamlError Value := do
  match ← nodeOf text.toList with
  | (none, _) => return .null
  | (some n, anchors) =>
    let later ← checkPart [] (false, n)
    checkLevels (n.depth + 1) later
    return build anchors (unfoldedDepth n anchors) [] n

end DocumentMedia.Yaml
