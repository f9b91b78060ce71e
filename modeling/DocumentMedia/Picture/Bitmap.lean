import DocumentMedia.Bytes

/-! # Sizes of bitmaps

A bitmap is a file header, an image header of one of several lengths and the pixels. The height is
counted downwards when its highest byte is full.
-/
namespace DocumentMedia.Picture.Bitmap

open DocumentMedia.Bytes

def imageHeaders : List Nat := [40, 52, 56, 64, 108, 124]

structure Format where
  bits : Nat
  compression : Nat
  /-- Number of colours in the table; none means as many as fit the bits. -/
  colors : Nat

/-- Masks of red, green, blue and opacity in pixels of 32 bits. -/
def masks32 : List (List Nat) :=
  [[0xFF0000, 0xFF00, 0xFF, 0], [0xFF000000, 0xFF0000, 0xFF00, 0],
    [0xFF000000, 0xFF00, 0xFF, 0], [0xFF000000, 0xFF0000, 0xFF00, 0xFF],
    [0xFF, 0xFF00, 0xFF0000, 0xFF000000], [0xFF0000, 0xFF00, 0xFF, 0xFF000000],
    [0xFF000000, 0xFF00, 0xFF, 0xFF0000], [0, 0, 0, 0]]

/-- Masks of red, green and blue in smaller pixels. -/
def masksBelow32 (bits : Nat) : List (List Nat) :=
  if bits = 24 then [[0xFF0000, 0xFF00, 0xFF]]
  else if bits = 16 then [[0xF800, 0x7E0, 0x1F], [0x7C00, 0x3E0, 0x1F]]
  else []

/-- The masks of the colours in pixels: in the header, or behind it in a short one. -/
def masks? (header behind : Bytes) : Option (List Nat) := do
  let part (bs : Bytes) (place : Nat) : Option Nat := little? place 4 bs
  if header.length < 48 then
    some ((← [0, 4, 8].mapM (part behind)) ++ [0])
  else if header.length < 52 then
    some ((← [36, 40, 44].mapM (part header)) ++ [0])
  else [36, 40, 44, 48].mapM (part header)

def masksFit (bits : Nat) (masks : List Nat) : Bool :=
  if bits = 32 then masks32.contains masks else (masksBelow32 bits).contains (masks.take 3)

/-- Whether pixels of the format can be read. -/
def formatFits (f : Format) (header behind : Bytes) : Bool :=
  let colors := if f.colors = 0 then 1 <<< f.bits else f.colors
  [1, 4, 8, 16, 24, 32].contains f.bits &&
    (match f.compression with
    | 0 | 1 | 2 => true
    | 3 =>
      match masks? header behind with
      | some masks => masksFit f.bits masks
      | none => false
    | _ => false) &&
    (8 < f.bits || colors ≤ 65536)

/-- The size in the header of the earliest bitmaps. -/
def shortHeader (header : Bytes) : Option (Nat × Nat × Format) := do
  let bits ← little? 6 2 header
  some (← little? 0 2 header, ← little? 2 2 header, ⟨bits, 0, 0⟩)

def longHeader (header : Bytes) : Option (Nat × Nat × Format) := do
  let height ← little? 4 4 header
  let isDown := (← little? 7 1 header) = 255
  let format : Format := ⟨← little? 10 2 header, ← little? 12 4 header, ← little? 28 4 header⟩
  some (← little? 0 4 header, if isDown then 0x100000000 - height else height, format)

/-- The size of a bitmap without file header. -/
def headerSize? (bs : Bytes) : Option (Nat × Nat) := do
  let length ← little? 0 4 bs
  let (header, behind) ← split? (length - 4) (bs.drop 4)
  let (width, height, format) ←
    if length = 12 then shortHeader header
    else if imageHeaders.contains length then longHeader header
    else none
  if formatFits format header behind then some (width, height) else none

def size? (bs : Bytes) : Option (Nat × Nat) := do
  let (_, rest) ← split? 14 bs
  headerSize? rest

def startsWithHeader (bs : Bytes) : Bool :=
  match little? 0 4 bs with
  | some n => n = 12 || imageHeaders.contains n
  | none => false

end DocumentMedia.Picture.Bitmap
