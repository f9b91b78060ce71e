import DocumentMedia.Picture.Avif
import DocumentMedia.Picture.Bitmap
import DocumentMedia.Picture.Gif
import DocumentMedia.Picture.Jpeg
import DocumentMedia.Picture.Png
import DocumentMedia.Picture.Tiff
import DocumentMedia.Picture.Webp

/-! # Sizes of images

The size in pixels of an image, whose format is found by its first bytes and not by its name.
-/
namespace DocumentMedia.Picture

open DocumentMedia.Bytes

inductive Format where
  | png | gif | bitmap | bareBitmap | jpeg | webp | tiff | avif
  deriving DecidableEq, Repr

def Format.of? (bs : Bytes) : Option Format :=
  if bs.startsWith Png.signature then some .png
  else if bs.startsWithText "GIF87a" || bs.startsWithText "GIF89a" then some .gif
  else if bs.startsWithText "BM" then some .bitmap
  else if bs.startsWith [0xFF, 0xD8, 0xFF] then some .jpeg
  else if bs.startsWithText "RIFF" && Bytes.startsWithText (bs.drop 8) "WEBPVP8" then some .webp
  else if (Tiff.Layout.of? bs).isSome then some .tiff
  else if ["ftypavif", "ftypavis", "ftypmif1", "ftypmsf1"].any
      (Bytes.startsWithText (bs.drop 4)) then some .avif
  else if Bitmap.startsWithHeader bs then some .bareBitmap
  else none

def Format.size (bs : Bytes) : Format → Except DecodeError (Option (Nat × Nat))
  | .png => .ok (Png.size? bs)
  | .gif => .ok (Gif.size? bs)
  | .bitmap => .ok (Bitmap.size? bs)
  | .bareBitmap => .ok (Bitmap.headerSize? bs)
  | .jpeg => .ok (Jpeg.size? bs)
  | .webp => .ok (Webp.size? bs)
  | .tiff => .ok (Tiff.size? bs)
  | .avif => Avif.size bs

/-- Greatest number of pixels of an image that is looked at. -/
def maxPixels : Nat := 178956970

/-- Whether an image is neither empty nor too large. -/
def isAcceptable (width height : Nat) : Bool :=
  0 < width && 0 < height && width * height ≤ maxPixels

/-- The width and height of an image, none for what is no image, empty or too large. -/
def size (bs : Bytes) : Except DecodeError (Option (Nat × Nat)) :=
  match Format.of? bs with
  | none => .ok none
  | some f => (f.size bs).map (·.filter fun (width, height) => isAcceptable width height)

end DocumentMedia.Picture
