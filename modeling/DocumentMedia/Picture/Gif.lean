import DocumentMedia.Bytes

/-! # Sizes of GIF images

The screen of a GIF image grows to hold its first frame.
-/
namespace DocumentMedia.Picture.Gif

open DocumentMedia.Bytes

/-- A data block, none where the row of blocks ends, and the rest. -/
def block (bs : Bytes) : Option Bytes × Bytes :=
  match bs with
  | [] => (none, [])
  | n :: rest => if n = 0 then (none, rest) else (some (rest.take n.toNat), rest.drop n.toNat)

/-- Drops data blocks up to their end; `fuel` bounds their number. -/
def dropBlocks : Nat → Bytes → Bytes
  | 0, bs => bs
  | fuel + 1, bs =>
    match block bs with
    | (some _, rest) => dropBlocks fuel rest
    | (none, rest) => rest

/-- Whether the first block of a graphic control extension has its fields. -/
def controlFits : Option Bytes → Bool
  | none => true
  | some data =>
    match data with
    | [] => false
    | flags :: _ => (flags &&& 1 = 0 || 4 ≤ data.length) && 3 ≤ data.length

/-- What is behind an extension. -/
def dropExtension (bs : Bytes) : Option Bytes :=
  match bs with
  | [] => none
  | label :: rest =>
    let (data, rest') := block rest
    let isLoop := label = 255 && (data.getD []).startsWithText "NETSCAPE2.0"
    let rest' := if isLoop then (block rest').2 else rest'
    if label = 249 && !controlFits data then none
    else if data.isNone && label = 254 then some rest'
    else some (dropBlocks rest'.length rest')

/-- The right and lower end of a frame, when its data begins. -/
def frameEnd (bs : Bytes) : Option (Nat × Nat) := do
  let x ← little? 0 2 bs
  let y ← little? 2 2 bs
  let width ← little? 4 2 bs
  let height ← little? 6 2 bs
  let flags ← little? 8 1 bs
  let rest := bs.drop (9 + if 128 ≤ flags then 3 * (2 <<< (flags % 8)) else 0)
  if rest.isEmpty then none else some (x + width, y + height)

/-- Looks for the first frame; `fuel` bounds the number of parts. -/
def firstFrame : Nat → Bytes → Option (Nat × Nat)
  | 0, _ => none
  | _ + 1, [] => none
  | fuel + 1, b :: bs =>
    if b = 59 then none
    else if b = 33 then dropExtension bs >>= firstFrame fuel
    else if b = 44 then frameEnd bs
    else firstFrame fuel bs

def size? (bs : Bytes) : Option (Nat × Nat) := do
  let width ← little? 6 2 bs
  let height ← little? 8 2 bs
  let flags ← little? 10 1 bs
  let rest := bs.drop (13 + if 128 ≤ flags then 3 * (2 <<< (flags % 8)) else 0)
  let (right, bottom) ← firstFrame rest.length rest
  some (max width right, max height bottom)

end DocumentMedia.Picture.Gif
