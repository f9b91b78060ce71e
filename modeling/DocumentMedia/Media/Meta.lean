/-! # Media metadata

What is known about a published file: its kind, extension, size in pixels and the reference it was
written as.
-/
namespace DocumentMedia

structure MediaMeta where
  kind : String
  /-- The extension in lower case with its point. -/
  ext : String
  width : Option Int
  height : Option Int
  source : Option String
  deriving DecidableEq, Repr

end DocumentMedia
