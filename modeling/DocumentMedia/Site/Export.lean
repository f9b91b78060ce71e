import DocumentMedia.Files.Change
import DocumentMedia.Files.Listing
import DocumentMedia.Site.Failure
import DocumentMedia.Site.Sidecar
import DocumentMedia.Tree.Render

/-! # Export

Each page is written as HTML and a JSON sidecar, in a directory that lies in the output directory
as the document lies in the source directory.
-/
namespace DocumentMedia.Site

open DocumentMedia.Files

/-- The directory of a document, seen from a base directory or that of a base file; none if it lies
elsewhere. -/
def relativeFolder (t : Tree) (document base : Path) : Except FileError Location := do
  let base := if ← t.isDirectory base then base else base.parent
  let folder := t.realLocation document.parent
  let root := t.realLocation base
  return if root.isPrefixOf folder then folder.drop root.length else []

/-- The path of an output file, whose name begins with a slug. -/
def outputPath (folder : Path) (slug ending : String) : Path :=
  folder.join (Path.ofString (slug ++ ending))

/-- Writes a page. The files are those at the end, also of a failure. -/
def writePage (t : Tree) (b : Built) (output base : Path) :
    Tree × Except Failure (Path × Path) :=
  match relativeFolder t b.page.path base with
  | .error e => (t, .error (.file e))
  | .ok names =>
    let folder := Tree.extend output names
    let html := outputPath folder b.page.slug ".html"
    let json := outputPath folder b.page.slug ".json"
    match t.ensureDirectories folder with
    | .error e => (t, .error (.file e))
    | .ok t =>
      -- The HTML stands before the sidecar is looked at, and stays if that fails.
      match t.writeText html (renderTree b.page.tree) with
      | .error e => (t, .error (.file e))
      | .ok t =>
        match (sidecar b).toJson with
        | .error e => (t, .error (.sidecar e))
        | .ok j =>
          match t.writeText json j.toText with
          | .error e => (t, .error (.file e))
          | .ok t => (t, .ok (html, json))

/-- Writes pages in turn until one fails; the answer names the document and the HTML of each. -/
def writePages (output base : Path) : Tree → List Built → Tree × Except Failure (List (Path × Path))
  | t, [] => (t, .ok [])
  | t, b :: bs =>
    match writePage t b output base with
    | (t, .error e) => (t, .error e)
    | (t, .ok (html, _)) =>
      match writePages output base t bs with
      | (t, .error e) => (t, .error e)
      | (t, .ok results) => (t, .ok ((b.page.path, html) :: results))

end DocumentMedia.Site
