import DocumentMedia.Bytes

/-! # Sizes of JPEG images

A JPEG image is a row of marked segments. The last frame header before the scan tells the size.
-/
namespace DocumentMedia.Picture.Jpeg

open DocumentMedia.Bytes

inductive Marker where
  /-- Stands alone. -/
  | single
  | frame
  | scan
  | tables
  | application (number : Nat)
  /-- Any other segment with a length. -/
  | segment
  /-- Padding, or a byte that was written with a mark to stand for itself. -/
  | padding
  | escaped
  deriving DecidableEq, Repr

/-- The marker of the byte behind a mark. -/
def Marker.of? (n : Nat) : Option Marker :=
  if n = 0xFF then some .padding
  else if n = 0 then some .escaped
  else if n = 0xDA then some .scan
  else if n = 0xDB then some .tables
  else if n = 0xC4 || n = 0xDC || n = 0xDD || n = 0xDF || n = 0xFE then some .segment
  else if n = 0xC8 || n = 0xCC then some .single
  else if 0xC0 ≤ n && n ≤ 0xCF || n = 0xDE then some .frame
  else if 0xD0 ≤ n && n ≤ 0xD9 || 0xF0 ≤ n && n ≤ 0xFD then some .single
  else if 0xE0 ≤ n && n ≤ 0xEF then some (.application (n - 0xE0))
  else none

/-- The data of a segment and the rest; the length counts its own two bytes. -/
def segment? (bs : Bytes) : Option (Bytes × Bytes) := do
  let (length, rest) ← split? 2 bs
  split? (big length - 2) rest

/-- The size in a frame header with samples of eight bits and one, three or four colours. -/
def frameSize? (data : Bytes) : Option (Nat × Nat) := do
  let bits ← big? 0 1 data
  let height ← big? 1 2 data
  let width ← big? 3 2 data
  let layers ← big? 5 1 data
  if bits = 8 && [1, 3, 4].contains layers && (data.length - 6) % 3 = 0 then some (width, height)
  else none

/-- Whether the data holds whole tables; `fuel` bounds their number. -/
def tablesFit : Nat → Bytes → Bool
  | 0, bs => bs.isEmpty
  | _ + 1, [] => true
  | fuel + 1, b :: bs =>
    match split? (if b < 16 then 64 else 128) bs with
    | some (_, rest) => tablesFit fuel rest
    | none => false

/-- Reads the resources of an image editor, each a mark, a number, a name, a length and data, both
padded to even places. The data may end within a resource, but not right behind its number; `fuel`
bounds the number of resources. -/
def resourcesFit : Nat → Bytes → Bytes → Bool
  | 0, _, _ => true
  | fuel + 1, all, bs =>
    if !bs.startsWithText "8BIM" then true
    else
      match bs.drop 4 with
      | [] | [_] => true
      | [_, _] => false
      | _ :: _ :: n :: rest =>
        let evenFrom (bs : Bytes) : Bytes :=
          let place := all.length - bs.length
          if place % 2 = 1 then bs.drop 1 else bs
        if rest.length < n.toNat then true
        else
          match split? 4 (evenFrom (rest.drop n.toNat)) with
          | none => true
          | some (length, rest) =>
            if rest.length < big length then true
            else
              let isShort := big? 4 2 bs = some 0x3ED && big length < 14
              isShort || resourcesFit fuel all (evenFrom (rest.drop (big length)))

def applicationFits (number : Nat) (data : Bytes) : Bool :=
  if number = 0 && data.startsWithText "JFIF" || number = 14 && data.startsWithText "Adobe" then
    7 ≤ data.length
  else if number = 13 && data.startsWithText "Photoshop 3.0\x00" then
    resourcesFit data.length data (data.drop 14)
  else true

/-- Whether a segment is part of a colour profile. -/
def isProfilePart (number : Nat) (data : Bytes) : Bool :=
  number = 2 && data.startsWithText "ICC_PROFILE\x00"

/-- Order by the first byte that differs; what ends comes before what goes on. -/
def bytesLe : Bytes → Bytes → Bool
  | [], _ => true
  | _ :: _, [] => false
  | a :: as, b :: bs => if a = b then bytesLe as bs else a < b

/-- Whether the first part of a profile, in the order of bytes, has its number and their count. -/
def profileFits (parts : List Bytes) : Bool :=
  match parts.mergeSort bytesLe with
  | [] => true
  | first :: _ => 14 ≤ first.length

/-- What segments have said so far. -/
structure State where
  size : Option (Nat × Nat) := none
  /-- Parts of a colour profile since the last frame header. -/
  profile : List Bytes := []

/-- Reads segments up to the scan or the end of the file; the size of the last frame header is
kept. `fuel` bounds their number. -/
def readSegments : Nat → State → Bytes → Option (Nat × Nat)
  | 0, _, _ => none
  | _ + 1, s, [] => s.size
  | fuel + 1, s, b :: bs =>
    if b ≠ 0xFF then readSegments fuel s bs
    else
      match bs with
      | [] => s.size
      | m :: rest => do
        match ← Marker.of? m.toNat with
        | .single | .escaped => readSegments fuel s rest
        | .padding => readSegments fuel s (0xFF :: rest)
        | .frame =>
          let (data, rest) ← segment? rest
          let size ← frameSize? data
          if profileFits s.profile then readSegments fuel ⟨some size, []⟩ rest else none
        | .scan =>
          let _ ← segment? rest
          s.size
        | .tables =>
          let (data, rest) ← segment? rest
          if tablesFit data.length data then readSegments fuel s rest else none
        | .application n =>
          let (data, rest) ← segment? rest
          let profile := if isProfilePart n data then data :: s.profile else s.profile
          if applicationFits n data then readSegments fuel { s with profile } rest else none
        | .segment =>
          let (_, rest) ← segment? rest
          readSegments fuel s rest

def size? (bs : Bytes) : Option (Nat × Nat) := readSegments (2 * bs.length) {} (bs.drop 2)

end DocumentMedia.Picture.Jpeg
