import DocumentMedia.Picture.Avif.Reader

/-! # Properties of items

A container holds the properties, and associations give them to items by their places in it.
-/
namespace DocumentMedia.Picture.Avif

inductive Property where
  | extent (width height : Nat)
  /-- The first three bytes of the settings of the decoder. -/
  | coding (settings : Bytes)
  | depths (planes : List Nat)
  | colours (byNumbers : Bool)
  /-- What an auxiliary image is for. -/
  | purpose (name : String)
  | other (name : String)
  deriving DecidableEq, Repr

/-- The depth that the settings of a decoder tell. -/
def codedDepth (settings : Bytes) : Nat :=
  let bits := (settings.getD 2 0).toNat
  if bits / 0x20 % 2 = 1 then 12 else if bits / 0x40 % 2 = 1 then 10 else 8

def depthsOfPlanes : Reader Property := do
  versionZero
  let count ← number 1
  guard (1 ≤ count && count ≤ 4)
  let planes := (← take count).map UInt8.toNat
  guard (planes.all (· = planes.headD 0))
  return .depths planes

def colours : Reader Property := do
  match ← text 4 with
  | "nclx" => do
    let _ ← take 6
    guard ((← number 1) % 0x80 = 0)
    return .colours true
  | "rICC" | "prof" => return .colours false
  | _ => return .other "colr"

/-- Sizes of the layers of an image. -/
def layerSizes : Reader Unit := do
  let flags ← number 1
  guard (flags < 2)
  let _ ← take (if flags = 1 then 12 else 6)

def property (name : String) : Reader Property := do
  let other := Property.other name
  match name with
  | "ispe" => do
    versionZero
    return .extent (← number 4) (← number 4)
  | "av1C" => do
    let settings ← take 3
    guard (settings.head? = some 0x81)
    return .coding settings
  | "pixi" => depthsOfPlanes
  | "colr" => colours
  | "auxC" => do
    versionZero
    return .purpose (← textToZero)
  | "irot" => do
    guard ((← number 1) < 4)
    return other
  | "imir" => do
    guard ((← number 1) < 2)
    return other
  | "pasp" => do
    let _ ← take 8
    return other
  | "clap" => do
    let _ ← take 32
    return other
  | "clli" => do
    let _ ← take 4
    return other
  | "a1op" => do
    guard ((← number 1) < 32)
    return other
  | "lsel" => do
    let layer ← number 2
    guard (layer = 0xFFFF || layer < 4)
    return other
  | "a1lx" => do
    layerSizes
    return other
  | _ => return other

structure NamedProperty where
  name : String
  value : Property

def properties : Reader (List NamedProperty) :=
  eachBox (fun ps b => do return ps ++ [⟨b.name, ← (property b.name).on b.content⟩]) []

def knownNames : List String :=
  ["ispe", "auxC", "colr", "av1C", "pasp", "clap", "irot", "imir", "pixi", "a1op", "lsel", "a1lx",
    "clli"]

/-- Properties without which an image looks wrong. -/
def essentialNames : List String := ["a1op", "lsel", "clap", "irot", "imir"]

/-- Whether a property may be given to an item as an essential one or not. -/
def mayBe (isEssential : Bool) (name : String) : Bool :=
  if isEssential then name != "a1lx" else !essentialNames.contains name

end DocumentMedia.Picture.Avif
