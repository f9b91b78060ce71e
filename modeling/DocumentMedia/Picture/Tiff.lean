import DocumentMedia.Bytes
import DocumentMedia.Decimal.Shortest

/-! # Sizes of TIFF images

A TIFF image is a directory of numbered fields. Files that turn the image by a quarter swap width
and height.
-/
namespace DocumentMedia.Picture.Tiff

open DocumentMedia.Bytes

/-- In which order bytes are written, and how wide counts are. -/
structure Layout where
  highFirst : Bool
  isBig : Bool

/-- The layout of a file. The number behind the letters may stand in the other order of bytes; only
files with the lowest byte first can have wide counts. -/
def Layout.of? (bs : Bytes) : Option Layout :=
  let marks : List (List Nat × Layout) :=
    [([0x49, 0x49, 0x2A, 0], ⟨false, false⟩), ([0x4D, 0x4D, 0, 0x2A], ⟨true, false⟩),
      ([0x49, 0x49, 0, 0x2A], ⟨false, false⟩), ([0x4D, 0x4D, 0x2A, 0], ⟨true, false⟩),
      ([0x49, 0x49, 0x2B, 0], ⟨false, true⟩), ([0x4D, 0x4D, 0, 0x2B], ⟨true, false⟩)]
  marks.findSome? fun (mark, l) => if startsWith bs mark then some l else none

def Layout.number (l : Layout) (bs : Bytes) : Nat :=
  if l.highFirst then Bytes.big bs else little bs

def Layout.at? (l : Layout) (place n : Nat) (bs : Bytes) : Option Nat :=
  (slice? place n bs).map l.number

/-- Length of one value of a field type, none for types that do not exist. -/
def unitLength (type : Nat) : Option Nat :=
  match type with
  | 1 | 2 | 6 | 7 => some 1
  | 3 | 8 => some 2
  | 4 | 9 | 11 | 13 => some 4
  | 5 | 10 | 12 | 16 => some 8
  | _ => none

inductive Item where
  | whole (n : Int)
  | ratio (num den : Int)
  | real (f : Float)

/-- Whether a number is equal to a whole one. -/
def Item.is (n : Int) : Item → Bool
  | .whole m => m = n
  | .ratio num den => den ≠ 0 && num = n * den
  | .real f => Decimal.isInteger f n

def Item.whole? : Item → Option Int
  | .whole n => some n
  | _ => none

inductive Field where
  | numbers (first : Item) (more : List Item)
  | bytes (bs : Bytes)
  /-- Text, or data of no known kind. -/
  | other

def signed (width n : Nat) : Int :=
  let half := 1 <<< (8 * width - 1)
  if n < half then n else (n : Int) - 2 * half

/-- One number of a field type. -/
def Layout.item (l : Layout) (type : Nat) (bs : Bytes) : Item :=
  let n := l.number bs
  let part (i : Nat) : Nat := l.number ((bs.drop (4 * i)).take 4)
  match type with
  | 6 | 8 | 9 => .whole (signed bs.length n)
  | 5 => .ratio (part 0) (part 1)
  | 10 => .ratio (signed 4 (part 0)) (signed 4 (part 1))
  | 11 => .real (Float32.ofBits n.toUInt32).toFloat
  | 12 => .real (Float.ofBits n.toUInt64)
  | _ => .whole n

/-- Cuts bytes into pieces of one width; `count` bounds their number. -/
def pieces (width : Nat) : Nat → Bytes → List Bytes
  | 0, _ => []
  | count + 1, bs => bs.take width :: pieces width count (bs.drop width)

/-- The field of a type with the given data, none without data. -/
def Layout.field? (l : Layout) (type width count : Nat) (data : Bytes) : Option Field :=
  if data.isEmpty then none
  else if type = 1 then some (.bytes data)
  else if type = 2 || type = 7 then some .other
  else
    match (pieces width count data).map (l.item type) with
    | [] => none
    | first :: more => some (.numbers first more)

/-- Number, type, count and slot of the field at a place of the directory. -/
def fieldAt? (l : Layout) (file : Bytes) (place : Nat) : Option (Nat × Nat × Nat × Nat) := do
  let wide := if l.isBig then 8 else 4
  let _ ← slice? place (4 + 2 * wide) file
  some (← l.at? place 2 file, ← l.at? (place + 2) 2 file, ← l.at? (place + 4) wide file,
    place + 4 + wide)

/-- The data of a field, which stands in its slot if it fits, else where the slot says; none
outside the file. -/
def dataAt? (l : Layout) (file : Bytes) (length slot : Nat) : Option Bytes := do
  let wide := if l.isBig then 8 else 4
  let start ← if length ≤ wide then some slot else l.at? slot wide file
  slice? start length file

/-- The fields at the given places, up to the first that lies outside the file. -/
def readFields (l : Layout) (file : Bytes) : List Nat → List (Nat × Field)
  | [] => []
  | place :: rest =>
    match fieldAt? l file place with
    | none => []
    | some (tag, type, count, slot) =>
      match unitLength type with
      | none => readFields l file rest
      | some width =>
        match dataAt? l file (width * count) slot with
        | none => []
        | some data =>
          match l.field? type width count data with
          | some f => (tag, f) :: readFields l file rest
          | none => readFields l file rest

/-- The fields of the first directory; none if the file has no directory. -/
def fields? (l : Layout) (file : Bytes) : Option (List (Nat × Field)) :=
  let wide := if l.isBig then 8 else 4
  let place := (l.at? wide wide file).getD 0
  let countLength := if l.isBig then 8 else 2
  let count := (l.at? place countLength file).getD 0
  let entry := if l.isBig then 20 else 12
  if place = 0 then none
  else
    some (readFields l file ((List.range (min count file.length)).map fun i =>
      place + countLength + i * entry))

/-- What a directory says of an image. -/
abbrev Directory := List (Nat × Field)

namespace Directory

/-- The last field of a number. -/
def field? (d : Directory) (tag : Nat) : Option Field := (d.reverse.find? (·.1 = tag)).map (·.2)

/-- The number in a field that holds one, a default if it is missing, nothing in a field without
numbers. -/
def item? (d : Directory) (tag : Nat) (default : Int) : Option Item :=
  match d.field? tag with
  | none => some (.whole default)
  | some (.numbers first _) => some first
  | some _ => none

/-- The numbers in a field, a default if it is missing. -/
def items? (d : Directory) (tag : Nat) (default : List Int) : Option (List Item) :=
  match d.field? tag with
  | none => some (default.map .whole)
  | some (.numbers first more) => some (first :: more)
  | some _ => none

def whole? (d : Directory) (tag : Nat) : Option Int :=
  match d.field? tag with
  | some (.numbers first _) => first.whole?
  | _ => none

/-- Whether the samples of all layers have a format. Two or more bytes count as numbers. -/
def hasSampleFormat (d : Directory) (format : Int) : Bool :=
  match d.field? 339 with
  | none => format = 1
  | some (.numbers first more) => (first :: more).all (Item.is format)
  | some (.bytes bs) => 1 < bs.length && bs.all fun b => (b.toNat : Int) = format
  | some .other => false

end Directory

def compressions : List Int := [1, 2, 3, 4, 5, 6, 7, 8, 32771, 32773, 32809, 32946, 34676, 34677,
  34925, 50000, 50001]

/-- A kind of colours in samples of certain depths. -/
structure ColorFormat where
  kind : Int
  bits : List Int
  /-- What the samples beyond those of the colour are. -/
  extra : List Int := []
  /-- Numbers, signed numbers or fractions. -/
  sample : Int := 1
  /-- Which bit of a byte comes first. -/
  fillOrder : Int := 1
  /-- The only order of bytes in which it can be read. -/
  highFirst : Option Bool := none
  /-- How many layers can be kept apart. -/
  layers : Nat := 1

/-- Formats of one sample, which can be read with either order of bits. -/
def singleFormats : List ColorFormat :=
  [(0, 1, 3, 4), (1, 1, 1, 3), (0, 2, 4, 5), (1, 2, 3, 4), (0, 4, 4, 5), (1, 4, 3, 4), (0, 8, 3, 4),
    (1, 8, 1, 3), (3, 1, 3, 4), (3, 2, 3, 4), (3, 4, 3, 4), (3, 8, 1, 3)].flatMap
    fun (kind, depth, layers, reversed) =>
      [{ kind, bits := [depth], layers },
        { kind, bits := [depth], fillOrder := 2, layers := reversed }]

/-- Formats of one sample that depend on the order of bytes. -/
def wideFormats : List ColorFormat :=
  [{ kind := 1, bits := [12], highFirst := some false, layers := 4 },
    { kind := 0, bits := [16], highFirst := some false, layers := 4 },
    { kind := 1, bits := [16], highFirst := some false, layers := 4 },
    { kind := 1, bits := [16], highFirst := some true, layers := 5 },
    { kind := 1, bits := [16], fillOrder := 2, highFirst := some false, layers := 5 },
    { kind := 1, bits := [16], sample := 2, layers := 5 },
    { kind := 0, bits := [32], sample := 3, layers := 5 },
    { kind := 1, bits := [32], highFirst := some false, layers := 5 },
    { kind := 1, bits := [32], sample := 2, layers := 5 },
    { kind := 1, bits := [32], sample := 3, layers := 5 },
    { kind := 1, bits := [8], sample := 2 }, { kind := 6, bits := [8] }]

/-- Formats of several samples of one depth: kind, number, extra samples, depth and layers. -/
def layeredFormats : List ColorFormat :=
  [(1, 2, [0], 8, 2), (1, 2, [2], 8, 2), (2, 3, [], 8, 3), (2, 4, [], 8, 4), (2, 4, [0], 8, 4),
    (2, 4, [1], 8, 4), (2, 4, [2], 8, 4), (2, 4, [999], 8, 4), (2, 5, [0, 0], 8, 5),
    (2, 5, [1, 0], 8, 5), (2, 5, [2, 0], 8, 5), (2, 6, [0, 0, 0], 8, 6), (2, 6, [1, 0, 0], 8, 6),
    (2, 6, [2, 0, 0], 8, 6), (2, 3, [], 16, 7), (2, 4, [], 16, 8), (2, 4, [0], 16, 8),
    (2, 4, [1], 16, 8), (2, 4, [2], 16, 8), (3, 2, [0], 8, 2), (3, 2, [2], 8, 2), (5, 4, [], 8, 4),
    (5, 5, [0], 8, 5), (5, 6, [0, 0], 8, 6), (5, 4, [], 16, 8), (6, 3, [], 8, 4),
    (8, 3, [], 8, 3)].map
    fun (kind, number, extra, depth, layers) =>
      { kind, bits := List.replicate number depth, extra, layers }

def colorFormats : List ColorFormat :=
  { kind := 2, bits := [8, 8, 8], fillOrder := 2, layers := 5 } ::
    (singleFormats ++ wideFormats ++ layeredFormats)

def maxSamples : Int := 6

/-- The depths of the samples of a pixel, when they go together with the number of samples: single
depths are repeated, and depths beyond the number are dropped. -/
def depths? (given : List Item) (samples : Item) : Option (List Item) :=
  match samples.whole? with
  | some n =>
    if n < 0 || maxSamples < n then none
    else if n ≤ given.length then some (given.take n.toNat)
    else
      match given with
      | [one] => some (List.replicate n.toNat one)
      | _ => none
  | none => if samples.is given.length then some given else none

def areAll (items : List Item) (ns : List Int) : Bool :=
  items.length = ns.length && (items.zip ns).all fun (i, n) => i.is n

/-- The colour format that a directory tells, if it can be read. -/
def Directory.colorFormat? (d : Directory) (l : Layout) (compression : Int) :
    Option ColorFormat := do
  let kind ← if compression = 6 then some (.whole 6) else d.item? 262 0
  let fillOrder ← d.item? 266 1
  let isThree := compression = 6 && (kind.is 2 || kind.is 6)
  let depths ← depths? (← d.items? 258 [1]) (← d.item? 277 (if isThree then 3 else 1))
  let extra ← d.items? 338 []
  colorFormats.find? fun f =>
    kind.is f.kind && d.hasSampleFormat f.sample && fillOrder.is f.fillOrder &&
      areAll depths f.bits && areAll extra f.extra &&
      (match f.highFirst with
        | some b => b == l.highFirst
        | none => true)

/-- Whether the places of pieces, which cover an image row by row and layer by layer, need no more
layers than there are. -/
def layersFit (layers : Nat) (width height stepX stepY : Int) : Nat → Int → Int → Nat → Bool
  | 0, _, _, _ => true
  | count + 1, x, y, layer =>
    if layers ≤ layer then false
    else if x + stepX < width then layersFit layers width height stepX stepY count (x + stepX) y layer
    else if y + stepY < height then
      layersFit layers width height stepX stepY count 0 (y + stepY) layer
    else layersFit layers width height stepX stepY count 0 0 (layer + 1)

def Field.count : Field → Nat
  | .numbers _ more => more.length + 1
  | .bytes bs => bs.length
  | .other => 1

/-- Whether the pieces of an image that is not compressed can be found: strips, or tiles of a known
size. -/
def Directory.piecesFit (d : Directory) (f : ColorFormat) (width height : Int) : Bool :=
  let isApart := match d.field? 284 with
    | some (.numbers first _) => first.is 2
    | _ => false
  match d.field? 273 with
  | some offsets =>
    (match d.item? 278 height with
      | none => false
      | some rows =>
        !isApart ||
          layersFit f.layers width height width (rows.whole?.getD 0) offsets.count 0 0 0)
  | none =>
    match d.field? 324, d.whole? 322, d.whole? 323 with
    | some offsets, some w, some h =>
      !isApart || layersFit f.layers width height w h offsets.count 0 0 0
    | _, _, _ => false

/-- Whether there is a table of colours, where one is needed. -/
def Directory.paletteFits (d : Directory) (f : ColorFormat) : Bool :=
  f.kind ≠ 3 ||
    (match d.field? 320 with
      | some (.numbers first more) => (first :: more).all fun
        | .whole _ => true
        | .ratio _ den => den ≠ 0
        | .real _ => false
      | some (.bytes _) => true
      | some .other | none => false)

def size? (bs : Bytes) : Option (Nat × Nat) := do
  let l ← Layout.of? bs
  let d : Directory ← fields? l bs
  let width ← d.whole? 256
  let height ← d.whole? 257
  let compression ← compressions.find? fun n => ((d.item? 259 1).map (Item.is n)).getD false
  let f ← d.colorFormat? l compression
  let isTurned := match d.field? 274 with
    | some (.numbers first _) => [5, 6, 7, 8].any fun n => first.is n
    | _ => false
  if (d.field? 48129).isSome || width ≤ 0 || height ≤ 0 || !d.paletteFits f ||
      compression = 1 && !d.piecesFit f width height then none
  else if isTurned then some (height.toNat, width.toNat)
  else some (width.toNat, height.toNat)

end DocumentMedia.Picture.Tiff
