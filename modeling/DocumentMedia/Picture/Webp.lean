import DocumentMedia.Bytes

/-! # Sizes of WebP images

A WebP image is a row of chunks in a container. Simple files hold one frame, lossy or lossless;
extended files tell the size of a canvas, which the frame of a still image fills and the frames of
an animation lie in.
-/
namespace DocumentMedia.Picture.Webp

open DocumentMedia.Bytes

/-- A chunk with its length as written; its data is padded to an even length. -/
structure Chunk where
  name : String
  length : Nat
  data : Bytes

def chunk? (bs : Bytes) : Option (Chunk × Bytes) := do
  let (name, rest) ← split? 4 bs
  let (lengthBytes, rest) ← split? 4 rest
  let length := little lengthBytes
  let (data, rest) ← split? (length + length % 2) rest
  some (⟨String.ofList (name.map fun b => Char.ofNat b.toNat), length, data⟩, rest)

/-- Whether a row of chunks can end or go on before these bytes. -/
def isBoundary (bs : Bytes) : Bool := bs.isEmpty || 8 ≤ bs.length

/-- The size of a lossy frame that is shown and complete in itself. -/
def lossySize? (c : Chunk) : Option (Nat × Nat) := do
  let tag ← little? 0 3 c.data
  let width := (← little? 6 2 c.data) % 0x4000
  let height := (← little? 8 2 c.data) % 0x4000
  if startsWith (c.data.drop 3) [0x9D, 0x01, 0x2A] && tag % 2 = 0 && tag / 2 % 8 ≤ 3 &&
      tag / 16 % 2 = 1 && tag / 32 < c.length && width ≠ 0 && height ≠ 0 then
    some (width, height)
  else none

def losslessSize? (c : Chunk) : Option (Nat × Nat) := do
  let mark ← little? 0 1 c.data
  let bits ← little? 1 4 c.data
  if mark = 0x2F && bits / 0x20000000 = 0 then
    some (bits % 0x4000 + 1, bits / 0x4000 % 0x4000 + 1)
  else none

structure Frame where
  size : Option (Nat × Nat) := none
  hasAlpha : Bool := false
  /-- The alpha chunk comes behind the image. -/
  isAlphaLate : Bool := false

/-- A frame after one more chunk: none if they do not go together, no frame if the chunk is none of
it. Lossless images have alpha of their own. -/
def Frame.add? (f : Frame) (c : Chunk) : Option (Option Frame) :=
  if c.name = "ALPH" then
    if f.hasAlpha then some none
    else some (some { f with hasAlpha := true, isAlphaLate := f.size.isSome })
  else if c.name = "VP8L" && f.hasAlpha then none
  else if c.name = "VP8L" || c.name = "VP8 " then
    if f.size.isSome then some none
    else
      match if c.name = "VP8 " then lossySize? c else losslessSize? c with
      | some size => some (some { f with size := some size })
      | none => none
  else some none

/-- Reads the chunks of a frame, up to the first that is none of it; `fuel` bounds their number. -/
def readFrame : Nat → Frame → Bytes → Option (Frame × Bytes)
  | 0, _, _ => none
  | fuel + 1, f, bs => do
    let (c, rest) ← chunk? bs
    match ← f.add? c with
    | none => some (f, bs)
    | some f =>
      if rest.isEmpty then some (f, rest)
      else if isBoundary rest then readFrame fuel f rest
      else none

/-- A canvas with what the file is said to hold. -/
structure Canvas where
  width : Nat
  height : Nat
  isAnimated : Bool
  hasAlpha : Bool

/-- The canvas of an extended file. Flags without meaning must not be set. -/
def Canvas.of? (c : Chunk) : Option Canvas := do
  let flags ← little? 0 1 c.data
  let width := (← little? 4 3 c.data) + 1
  let height := (← little? 7 3 c.data) + 1
  if c.length = 10 && width * height < 0x100000000 && flags % 2 = 0 && flags < 0x40 then
    some ⟨width, height, flags / 2 % 2 = 1, flags / 16 % 2 = 1⟩
  else none

/-- Whether the only frame of a still image fills the canvas, its alpha before it where the file is
said to have alpha. -/
def Canvas.isFilledBy (k : Canvas) (f : Frame) : Bool :=
  f.size = some (k.width, k.height) && !(k.hasAlpha && f.isAlphaLate)

/-- Whether a frame of an animation lies in the canvas. -/
def Canvas.holds (k : Canvas) (left top : Nat) (f : Frame) : Bool :=
  match f.size with
  | some (width, height) =>
    left + width ≤ k.width && top + height ≤ k.height && !f.isAlphaLate
  | none => false

/-- Reads a frame of an animation at its place: whether it lies in the canvas, if it holds anything,
and the rest. -/
def readPart (k : Canvas) (c : Chunk) (bs : Bytes) : Option (Option Bool × Bytes) := do
  let payload := c.data.length - 16
  let start ← (split? 24 bs).map (·.2)
  let left := 2 * (← little? 0 3 c.data)
  let top := 2 * (← little? 3 3 c.data)
  let width := (← little? 6 3 c.data) + 1
  let height := (← little? 9 3 c.data) + 1
  let (f, rest) ← readFrame start.length {} start
  if c.data.length < 16 || 0x100000000 ≤ width * height || payload < start.length - rest.length then
    none
  else
    let isEmpty := f.size.isNone && !f.hasAlpha
    some (if isEmpty then none else some (k.holds left top f), rest)

/-- What an extended file has held so far. -/
structure Progress where
  /-- The chunk that announces an animation has come. -/
  isAnnounced : Bool := false
  /-- Whether all frames so far lie as they should, once there are any. -/
  frames : Option Bool := none

/-- What an extended file holds after one more chunk, with the rest; none if the chunk must not
stand there. -/
def Progress.add? (k : Canvas) (p : Progress) (c : Chunk) (bs rest : Bytes) :
    Option (Progress × Bytes) :=
  if c.name = "VP8X" then none
  else if c.name = "ALPH" || c.name = "VP8 " || c.name = "VP8L" then
    if p.isAnnounced || k.isAnimated || p.frames.isSome then none
    else do
      let (f, rest) ← readFrame bs.length {} bs
      some ({ p with frames := some (k.isFilledBy f) }, rest)
  else if c.name = "ANIM" then
    if c.data.length < 6 then none else some ({ p with isAnnounced := true }, rest)
  else if c.name = "ANMF" then
    if !p.isAnnounced then none
    else do
      let (fits, rest) ← readPart k c bs
      let frames := match fits with
        | some b => if k.isAnimated then some (b && p.frames.getD true) else p.frames
        | none => p.frames
      some ({ p with frames }, rest)
  else some (p, rest)

/-- Reads the chunks of an extended file to its end; `fuel` bounds their number. -/
def readExtended (k : Canvas) : Nat → Progress → Bytes → Option Progress
  | 0, _, _ => none
  | fuel + 1, p, bs => do
    let (c, rest) ← chunk? bs
    let (p, rest) ← p.add? k c bs rest
    if rest.isEmpty then some p
    else if isBoundary rest then readExtended k fuel p rest
    else none

def size? (bs : Bytes) : Option (Nat × Nat) := do
  let length ← little? 4 4 bs
  let (content, _) ← split? (length - 4) (bs.drop 12)
  if length < 12 then none
  else
    let (c, rest) ← chunk? content
    if c.name = "VP8X" then
      let k ← Canvas.of? c
      let p ← readExtended k rest.length {} rest
      if p.frames = some true then some (k.width, k.height) else none
    else if c.name = "VP8 " || c.name = "VP8L" then
      let (f, _) ← readFrame content.length {} content
      f.size
    else none

end DocumentMedia.Picture.Webp
