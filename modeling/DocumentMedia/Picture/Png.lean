import DocumentMedia.Picture.Deflate

/-! # Sizes of PNG images

A PNG image is a signature and a row of chunks. All chunks before the image data are checked; the
header chunk tells the size.
-/
namespace DocumentMedia.Picture.Png

open DocumentMedia.Bytes

def signature : List Nat := [137, 80, 78, 71, 13, 10, 26, 10]

def crcBit (c : UInt32) : UInt32 :=
  if c % 2 = 1 then (c >>> 1) ^^^ 0xEDB88320 else c >>> 1

def crcByte (c : UInt32) (b : UInt8) : UInt32 :=
  (List.range 8).foldl (fun c _ => crcBit c) (c ^^^ b.toUInt32)

/-- The cyclic redundancy check of bytes. -/
def crc (bs : Bytes) : Nat := (bs.foldl crcByte 0xFFFFFFFF ^^^ 0xFFFFFFFF).toNat

structure Header where
  width : Nat := 0
  height : Nat := 0
  /-- The kind of colours, when they come in a known depth. -/
  colors : Option Nat := none
  /-- The number of the last part of an animation. -/
  part : Option Nat := none

/-- Depths and kinds of colours that can be read. -/
def colorFormats : List (Nat × Nat) :=
  [(1, 0), (2, 0), (4, 0), (8, 0), (16, 0), (8, 2), (16, 2), (1, 3), (2, 3), (4, 3), (8, 3), (8, 4),
    (16, 4), (8, 6), (16, 6)]

def readHeader (h : Header) (data : Bytes) : Option Header := do
  let width ← big? 0 4 data
  let height ← big? 4 4 data
  let depth ← big? 8 1 data
  let kind ← big? 9 1 data
  let filter ← big? 11 1 data
  let _ ← big? 12 1 data
  if filter ≠ 0 then none
  else
    let colors := if colorFormats.contains (depth, kind) then some kind else h.colors
    some { h with width, height, colors }

/-- A part of an animation has the next number and lies inside the image. -/
def readPart (h : Header) (data : Bytes) : Option Header := do
  let number ← big? 0 4 data
  let width ← big? 4 4 data
  let height ← big? 8 4 data
  let left ← big? 12 4 data
  let top ← big? 16 4 data
  let expected := match h.part with
    | some n => n + 1
    | none => 0
  if data.length < 26 || number ≠ expected then none
  else if h.width < left + width || h.height < top + height then none
  else some { h with part := some number }

/-- Greatest length of compressed data in a chunk. -/
def maxUnpacked : Nat := 1048576

def unpacks (data : Bytes) : Bool := !Deflate.exceeds maxUnpacked data

/-- What comes behind the first zero, if there is one. -/
def behindZero? (data : Bytes) : Option Bytes :=
  match data.dropWhile (· ≠ 0) with
  | [] => none
  | _ :: rest => some rest

/-- A profile: a name, a zero, the only method of compression there is, and compressed data. -/
def profileFits (data : Bytes) : Bool :=
  match behindZero? data with
  | some (method :: packed) => method = 0 && unpacks packed
  | _ => false

/-- A compressed text behind its name, which may be missing. -/
def packedTextFits (data : Bytes) : Bool :=
  match behindZero? data with
  | some (method :: packed) => method = 0 && unpacks packed
  | _ => true

/-- A text in any language, which may be compressed. What is not of that form counts as empty. -/
def languageTextFits (data : Bytes) : Bool :=
  match behindZero? data with
  | some (isPacked :: method :: rest) =>
    match behindZero? rest >>= behindZero? with
    | some text => isPacked = 0 || method ≠ 0 || unpacks text
    | none => true
  | _ => true

/-- Whether the data of a chunk is long enough for its name. -/
def fits (h : Header) (name : String) (data : Bytes) : Bool :=
  match name with
  | "sRGB" => 1 ≤ data.length
  | "pHYs" => 9 ≤ data.length
  | "gAMA" => 4 ≤ data.length
  | "acTL" => 8 ≤ data.length
  | "cHRM" => 32 ≤ data.length
  | "tRNS" => (match h.colors with
    | some 0 => 2
    | some 2 => 6
    | _ => 0) ≤ data.length
  | "iCCP" => profileFits data
  | "zTXt" => packedTextFits data
  | "iTXt" => languageTextFits data
  | _ => true

def readChunk (h : Header) (name : String) (data : Bytes) : Option Header :=
  match name with
  | "IHDR" => readHeader h data
  | "fcTL" => readPart h data
  | _ => if fits h name data then some h else none

def isNameByte (b : UInt8) : Bool := (Char.ofNat b.toNat).isAlphanum || b = 95

/-- Whether the data of an animation part starts here. -/
def startsPart (h : Header) (length : Nat) (rest : Bytes) : Bool :=
  match big? 0 4 rest, h.part with
  | some n, some m => 4 ≤ length && n = m + 1
  | _, _ => false

/-- Reads chunks up to the image data or the end chunk; `fuel` bounds their number. -/
def readChunks : Nat → Header → Bytes → Option Header
  | 0, _, _ => none
  | fuel + 1, h, bs => do
    let (lengthBytes, bs) ← split? 4 bs
    let (nameBytes, rest) ← split? 4 bs
    let length := big lengthBytes
    let name := String.ofList (nameBytes.map fun b => Char.ofNat b.toNat)
    if !nameBytes.all isNameByte then none
    else if name = "IDAT" || name = "IEND" then some h
    else if name = "fdAT" then if startsPart h length rest then some h else none
    else
      let (data, rest) ← split? length rest
      let h ← readChunk h name data
      let (check, rest) ← split? 4 rest
      if big check = crc (nameBytes ++ data) then readChunks fuel h rest else none

def size? (bs : Bytes) : Option (Nat × Nat) := do
  let h ← readChunks bs.length {} (bs.drop signature.length)
  if h.colors.isNone then none else some (h.width, h.height)

end DocumentMedia.Picture.Png
