/-! # Images that cannot be decoded

Most damaged images count as no images at all. These are read as images and then fail.
-/
namespace DocumentMedia.Picture

inductive DecodeError where
  /-- There is no image behind the number of the primary item. -/
  | missingItem
  /-- The pieces of a grid do not make up an image. -/
  | invalidGrid
  /-- An image is a piece of two grids. -/
  | sharedPiece
  deriving DecidableEq, Repr

def DecodeError.reason : DecodeError → String
  | .missingItem => "Missing or empty image item"
  | .invalidGrid => "Invalid image grid"
  | .sharedPiece => "Not implemented"

def DecodeError.message (e : DecodeError) : String := "Failed to decode image: " ++ e.reason

end DocumentMedia.Picture
