import DocumentMedia.Picture.Avif.Property

/-! # Items

The items of an image file: images, pieces of images and data about them. Boxes tell, in any order,
where the bytes of an item are, of what type it is, which properties it has and what it is for.
-/
namespace DocumentMedia.Picture.Avif

structure Item where
  id : Nat
  type : String := ""
  /-- What a media type says of an item that holds no image. -/
  content : String := ""
  /-- Places and lengths of its bytes. -/
  extents : List (Nat × Nat) := []
  /-- The bytes are in the store of the file and not at a place of the file. -/
  isStored : Bool := false
  properties : List Property := []
  isAssociated : Bool := false
  /-- An essential property is not understood. -/
  isForeign : Bool := false
  thumbnailOf : Option Nat := none
  auxiliaryOf : Option Nat := none
  describes : Option Nat := none
  pieceOf : Option Nat := none
  hasPieces : Bool := false

def Item.size (i : Item) : Nat := i.extents.foldl (fun n e => n + e.2) 0

/-- An image that is shown by itself or as a part of one. -/
def Item.isImage (i : Item) : Bool :=
  i.size ≠ 0 && !i.isForeign && (i.type = "av01" || i.type = "grid") && i.thumbnailOf.isNone

def Item.extent? (i : Item) : Option (Nat × Nat) :=
  i.properties.findSome? fun
    | .extent width height => some (width, height)
    | _ => none

def Item.settings? (i : Item) : Option Bytes :=
  i.properties.findSome? fun
    | .coding settings => some settings
    | _ => none

def Item.depths? (i : Item) : Option (List Nat) :=
  i.properties.findSome? fun
    | .depths planes => some planes
    | _ => none

def Item.purpose? (i : Item) : Option String :=
  i.properties.findSome? fun
    | .purpose name => some name
    | _ => none

structure Contents where
  /-- Boxes that must not come twice. -/
  seen : List String := []
  primary : Option Nat := none
  items : List Item := []
  store : Bytes := []

/-- The item of a number, a new one if there was none. -/
def Contents.item (k : Contents) (id : Nat) : Item :=
  (k.items.find? (·.id = id)).getD { id }

def Contents.put (k : Contents) (i : Item) : Contents :=
  if k.items.any (·.id = i.id) then
    { k with items := k.items.map fun j => if j.id = i.id then i else j }
  else { k with items := k.items ++ [i] }

/-- A number of a width that is told before it. -/
def sized (n : Nat) : Reader Nat := do
  guard ([0, 1, 2, 4, 8].contains n)
  number n

/-- One place of the bytes of an item. -/
def addExtent (base offsetSize lengthSize indexSize : Nat) (i : Item) : Reader Item := do
  let _ ← sized indexSize
  let place := base + (← sized offsetSize)
  let length ← sized lengthSize
  guard (place < 0x10000000000000000 && length ≤ 0xFFFFFFFFFFFFFFFF - i.size)
  return { i with extents := i.extents ++ [(place, length)] }

/-- Where the bytes of the items are. -/
def readLocations (k : Contents) : Reader Contents := do
  let (version, _) ← version
  guard (version ≤ 2)
  let sizes ← number 2
  let indexSize := if version = 0 then 0 else sizes % 16
  let idSize := if version = 2 then 4 else 2
  let readOne (k : Contents) : Reader Contents := do
    let item := k.item (← itemNumber idSize)
    guard item.extents.isEmpty
    let method ← if version = 0 then pure 0 else number 2
    guard (method < 2)
    let _ ← take 2
    let base ← sized (sizes / 16 % 16)
    let item := { item with isStored := item.isStored || method = 1 }
    let readExtent := addExtent base (sizes / 0x1000) (sizes / 0x100 % 16) indexSize
    return k.put (← times readExtent (← number 2) item)
  times readOne (← number idSize) k

def readType (k : Contents) : Reader Contents := do
  let (version, _) ← version
  guard (version = 2 || version = 3)
  let id ← itemNumber (version * 2 - 2)
  let _ ← take 2
  let type ← text 4
  let content ← if type = "mime" then do
      let _ ← textToZero
      textToZero
    else pure ""
  return k.put { k.item id with type, content }

def readTypes (k : Contents) : Reader Contents := do
  let (version, _) ← version
  guard (version < 2)
  let readOne (k : Contents) : Reader Contents := do
    let b ← box
    guard (b.name = "infe")
    (readType k).on b.content
  times readOne (← number (version * 2 + 2)) k

/-- Gives an item the property at a place of the container, which counts from one. -/
def associate (ps : List NamedProperty) (isEssential : Bool) (index : Nat) (i : Item) :
    Outcome Item := do
  if index = 0 then
    guard !isEssential
    return i
  else
    match ps[index - 1]? with
    | none => failure
    | some p =>
      if knownNames.contains p.name then
        guard (mayBe isEssential p.name)
        return { i with properties := i.properties ++ [p.value] }
      else return { i with isForeign := i.isForeign || isEssential }

/-- The properties of the items, which come by ascending numbers; the version and flags. -/
def readAssociations (ps : List NamedProperty) (k : Contents) :
    Reader (Contents × Nat × Nat) := do
  let (version, flags) ← version
  let width := if flags % 2 = 1 then 2 else 1
  let mark := if flags % 2 = 1 then 0x8000 else 0x80
  let readOne (i : Item) : Reader Item := do
    let index ← number width
    associate ps (mark ≤ index) (index % mark) i
  let readItem (s : Contents × Nat) : Reader (Contents × Nat) := do
    let id ← itemNumber (if version = 0 then 2 else 4)
    guard (s.2 < id)
    let item := s.1.item id
    guard !item.isAssociated
    let item ← times readOne (← number 1) { item with isAssociated := true }
    return (s.1.put item, id)
  let (k, _) ← times readItem (← number 4) (k, 0)
  return (k, version, flags)

/-- The container of the properties and their associations, of which no two are alike. -/
def readProperties (k : Contents) : Reader Contents := do
  let container ← box
  guard (container.name = "ipco")
  let ps ← properties.on container.content
  let step (s : Contents × List (Nat × Nat)) (b : Box) : Outcome (Contents × List (Nat × Nat)) := do
    guard (b.name = "ipma")
    let (k, mark) ← (readAssociations ps s.1).on b.content
    guard !(s.2.contains mark)
    return (k, s.2 ++ [mark])
  let (k, _) ← eachBox step (k, [])
  return k

/-- Notes that an item is a piece of another: of that one only once, and of no second one. -/
def addPiece (k : Contents) (whole piece : Nat) : Outcome Contents := do
  let item := k.item piece
  match item.pieceOf with
  | none => return k.put { item with pieceOf := some whole }
  | some other => fault (if other = whole then .invalidGrid else .sharedPiece)

/-- What an item is for another one. -/
def refer (kind : String) (source : Nat) (k : Contents) (target : Nat) : Outcome Contents := do
  let item := k.item source
  match kind with
  | "thmb" => return k.put { item with thumbnailOf := some target }
  | "auxl" => return k.put { item with auxiliaryOf := some target }
  | "cdsc" => return k.put { item with describes := some target }
  | "dimg" => addPiece k source target
  | _ => return k

/-- What the items are for each other. -/
def readReferences (k : Contents) : Reader Contents := do
  let (version, _) ← version
  let width := version * 2 + 2
  let step (k : Contents) (b : Box) : Outcome Contents := (do
    let source ← itemNumber width
    let item := k.item source
    guard !(b.name = "dimg" && item.hasPieces)
    let k := k.put { item with hasPieces := item.hasPieces || b.name = "dimg" }
    let readOne (k : Contents) : Reader Contents := do refer b.name source k (← itemNumber width)
    times readOne (← number 2) k : Reader Contents).on b.content
  if version < 2 then eachBox step k else return k

/-- The handler of the file, which must be the one for pictures. -/
def readHandler : Reader Unit := do
  versionZero
  guard ((← number 4) = 0)
  guard ((← text 4) = "pict")
  let _ ← take 12
  let _ ← textToZero

def readPrimary (k : Contents) : Reader Contents := do
  let (version, _) ← version
  return { k with primary := some (← itemNumber (if version = 0 then 2 else 4)) }

def readStore (k : Contents) : Reader Contents := do
  let store ← get
  guard !store.isEmpty
  return { k with store }

/-- What the boxes of a file tell. The handler comes first. -/
def Contents.add (k : Contents) (b : Box) : Outcome Contents := do
  guard (k.seen.isEmpty == (b.name == "hdlr"))
  let isUnique := ["hdlr", "iloc", "pitm", "idat", "iprp", "iinf", "iref", "grpl"].contains b.name
  guard !(isUnique && k.seen.contains b.name)
  let k := { k with seen := if isUnique then b.name :: k.seen else k.seen }
  match b.name with
  | "hdlr" => do
    readHandler.on b.content
    return k
  | "iloc" => (readLocations k).on b.content
  | "pitm" => (readPrimary k).on b.content
  | "idat" => (readStore k).on b.content
  | "iprp" => (readProperties k).on b.content
  | "iinf" => (readTypes k).on b.content
  | "iref" => (readReferences k).on b.content
  | _ => return k

def readContents : Reader Contents := do
  versionZero
  let k ← eachBox Contents.add {}
  guard !k.seen.isEmpty
  return k

end DocumentMedia.Picture.Avif
