import DocumentMedia.Picture.Avif.Item

/-! # Sizes of AVIF images

An AVIF image is a tree of boxes. The primary item tells the size, if that item and those that it
is made of can be decoded. Files of moving images alone have no size.
-/
namespace DocumentMedia.Picture.Avif

structure Overview where
  /-- The names of the formats that the file keeps to, the main one first. -/
  brands : List String := []
  contents : Option Contents := none
  hasTracks : Bool := false

/-- Whether all is there that the named formats need. -/
def Overview.isComplete (o : Overview) : Bool :=
  !o.brands.isEmpty && (o.contents.isSome || !o.brands.contains "avif") &&
    (o.hasTracks || !o.brands.contains "avis")

def readNames : Nat → List String → Reader (List String)
  | 0, names => pure names
  | fuel + 1, names => do
    if (← get).isEmpty then return names
    else readNames fuel (names ++ [← text 4])

/-- The formats that a file keeps to, one of them a format of this module. -/
def readBrands : Reader (List String) := do
  let main ← text 4
  let _ ← take 4
  let names ← readNames (← get).length [main]
  guard (names.contains "avif" || names.contains "avis")
  return names

def Overview.add (o : Overview) (name : String) (content : Bytes) : Outcome Overview := do
  match name with
  | "ftyp" => do
    guard o.brands.isEmpty
    return { o with brands := ← readBrands.on content }
  | "meta" => do
    guard o.contents.isNone
    return { o with contents := some (← readContents.on content) }
  | "moov" => do
    guard !o.hasTracks
    return { o with hasTracks := true }
  | _ => return o

/-- Reads outer boxes until all is there that is needed; `fuel` bounds their number. -/
def readOverview : Nat → Overview → Reader Overview
  | 0, _ => failure
  | fuel + 1, o => do
    let (name, length) ← boxHead
    guard (length.isSome || ["ftyp", "meta", "moov"].contains name)
    let o ← o.add name (← take (length.getD (← get).length))
    if o.isComplete then return o else readOverview fuel o

/-- The first `n` bytes of an item, or all if it has fewer. -/
def itemStart (file : Bytes) (k : Contents) (i : Item) (n : Nat) : Outcome Bytes :=
  let source := if i.isStored then k.store else file
  i.extents.foldlM (fun bs (place, length) => do
    let length := min length (n - bs.length)
    return bs ++ (← (take length).on (source.drop place))) []

def itemBytes (file : Bytes) (k : Contents) (i : Item) : Outcome Bytes :=
  itemStart file k i i.size

/-- An image of at most so many pixels, in all and on a side. -/
def isWithin (width height : Nat) : Bool :=
  0 < width && 0 < height && width ≤ 32768 && height ≤ 32768 && width * height ≤ 268435456

def gridSides : Reader (Nat × Nat) := do
  guard ((← number 1) = 0)
  let width := if (← number 1) % 2 = 1 then 4 else 2
  let rows := (← number 1) + 1
  let columns := (← number 1) + 1
  guard (isWithin (← number width) (← number width))
  guard (← get).isEmpty
  return (rows, columns)

/-- The pieces of an item, which must be as many as its grid has places and alike in their
settings; those settings are the ones of the item. -/
def gridSettings (file : Bytes) (k : Contents) (i : Item) : Outcome Bytes := do
  let bs ← itemBytes file k i
  let pieces := k.items.filter (·.pieceOf = some i.id)
  let settings? : Option Bytes := do
    let (rows, columns) ← (gridSides.on bs).run.toOption.join
    guard (pieces.length = rows * columns)
    guard (pieces.all fun p => p.type = "av01" && !p.isForeign)
    (← pieces.head?).settings?
  match settings? with
  | none => fault .invalidGrid
  | some settings =>
    guard (pieces.all fun p => p.settings? = some settings && p.size ≤ file.length)
    return settings

/-- Whether an image has the settings of its decoder, at the depth that its planes are said to
have. -/
def checkImage (file : Bytes) (k : Contents) (i : Item) : Outcome Unit := do
  let settings ← if i.type = "grid" then gridSettings file k i else do
    guard (i.size ≤ file.length)
    OptionT.mk (pure i.settings?)
  guard ((i.depths?.getD []).all (· = codedDepth settings))

/-- Whether the bytes are those of photo data: the place of the mark of its byte order, and then
the mark. -/
def isPhotoData (bs : Bytes) : Bool :=
  let marks := [[0x4D, 0x4D, 0, 0x2A], [0x49, 0x49, 0x2A, 0]]
  let rest := bs.drop 4
  let starts (n : Nat) : Bool := marks.any fun m => Bytes.startsWith (rest.drop n) m
  match Bytes.big? 0 4 bs with
  | none => false
  | some n => (List.range rest.length).find? starts = some n

/-- Data about an image must be readable, and photo data well formed. -/
def checkData (file : Bytes) (k : Contents) (i : Item) : Outcome Unit := do
  if i.type = "Exif" then guard (isPhotoData (← itemBytes file k i))
  else if i.type = "mime" && i.content = "application/rdf+xml" then
    let _ ← itemBytes file k i

/-- What auxiliary images that hold transparency are for. -/
def transparencyPurposes : List String :=
  ["urn:mpeg:mpegB:cicp:systems:auxiliary:alpha", "urn:mpeg:hevc:2015:auxid:1"]

def Item.isTransparencyOf (i : Item) (id : Nat) : Bool :=
  i.auxiliaryOf = some id && i.purpose?.any transparencyPurposes.contains

/-- Each kind of description of the colours comes at most once. Without numbers the start of the
image itself must be there to tell them. -/
def checkColours (file : Bytes) (k : Contents) (i : Item) : Outcome Unit := do
  let byNumbers := i.properties.count (.colours true)
  guard (byNumbers ≤ 1 && i.properties.count (.colours false) ≤ 1)
  if byNumbers = 0 then
    let shown := if i.type = "grid" then k.items.find? (·.pieceOf = some i.id) else some i
    match shown with
    | none => failure
    | some i => let _ ← itemStart file k i 64

def primarySize (file : Bytes) (k : Contents) : Outcome (Nat × Nat) := do
  let images := k.items.filter Item.isImage
  guard (images.all fun i => i.extent?.any fun (width, height) => isWithin width height)
  match images.find? (some ·.id = k.primary) with
  | none => fault .missingItem
  | some primary => do
    if primary.type = "grid" then
      let _ ← gridSettings file k primary
    let about := k.items.filter fun i =>
      i.size ≠ 0 && !i.isForeign && i.describes = some primary.id
    about.forM (checkData file k)
    checkColours file k primary
    checkImage file k primary
    match images.find? (·.isTransparencyOf primary.id) with
    | some i => checkImage file k i
    | none => pure ()
    OptionT.mk (pure primary.extent?)

def size (bs : Bytes) : Except DecodeError (Option (Nat × Nat)) := OptionT.run do
  let o ← (readOverview bs.length {}).on bs
  guard (o.brands.head? = some "avif" || !o.hasTracks)
  guard (o.brands.head? ≠ some "avis")
  match o.contents with
  | some k => primarySize bs k
  | none => failure

end DocumentMedia.Picture.Avif
