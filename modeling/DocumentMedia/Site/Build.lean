import DocumentMedia.Asset.Batch
import DocumentMedia.Document.Expand
import DocumentMedia.Files.Reading
import DocumentMedia.Ledger.DatabaseAddress
import DocumentMedia.Site.Export

/-! # Building a site

Documents are found below a path and read, their media are published side by side, and the pages are
written in the order of the documents. Nothing is written when one document fails before that.
-/
namespace DocumentMedia.Site

open DocumentMedia.Files
open DocumentMedia.Asset (Batch Draft Localized Localizer)
open DocumentMedia.Document (Page)
open DocumentMedia.Ledger (Store StoreError databaseAt)

/-- Suffixes of documents, in lower case. -/
def documentSuffixes : List String := [".md", ".mdx", ".markdown"]

def isDocument (p : Path) : Bool := documentSuffixes.contains (Text.lowerString p.suffix)

def filesAmong (t : Tree) : List Path → Except FileError (List Path)
  | [] => .ok []
  | p :: ps => do
    let isFile ← t.isFile p
    let rest ← filesAmong t ps
    return if isFile then p :: rest else rest

/-- The documents at or below a path, in the order of the parts of their paths. -/
def documentsAt (t : Tree) (p : Path) : Except FileError (List Path) := do
  if ← t.isFile p then return if isDocument p then [p] else []
  else if ← t.isDirectory p then filesAmong t ((← t.pathsBelow p).filter isDocument)
  else return []

def readFile (reading : Document.Reading) (t : Tree) (p : Path) : Except Failure Page := do
  let text ← (t.readText p).mapError .read
  (Document.readPage reading p text).mapError .page

def draftOf (page : Page) : Draft := ⟨page.path, page.tree, some page.fields⟩

/-- A page after its media were published and its notations expanded. -/
def finish (videoAttrs : String) (page : Page) (result : Localized) : Built where
  page := { page with
    fields := result.fields.getD page.fields
    tree := Document.expand videoAttrs result.tree }
  assets := result.assets

/-- The store that the settings name. A database is opened, which may make its file. -/
def openStore (s : Settings) (t : Tree) : Except StoreError (Store × Tree) :=
  match s.ledgerBackend with
  | .json => .ok (.json (Path.ofString s.usageLogPath), t)
  | .sql => ((databaseAt s.dbUrl).bind fun d => d.openIn t).mapError .database

/-- The first failure among the readings of documents, with the document. -/
def firstFailure {α ε : Type} : List (Path × Except ε α) → Option (Path × ε)
  | [] => none
  | (p, .error e) :: _ => some (p, e)
  | (_, .ok _) :: rest => firstFailure rest

/-- The pages that were read, with what became of each in a batch. -/
def outcomes (b : Batch) (pages : List Page) : List (Path × Except Failure (Page × Localized)) :=
  (pages.zip b.results).filterMap fun (page, r) =>
    r.map fun r => (page.path, (r.mapError .publish).map fun result => (page, result))

/-- Publishes the media of documents, of which some could not be read. Copies under way are ended
in any case; when a document failed, only a save that has begun is ended. -/
def publish (b : Batch) (readings : List (Path × Except Failure Page)) :
    Batch × Except Failure (List (Page × Localized)) :=
  let pages := readings.filterMap fun (_, r) => r.toOption
  let copied := b.runCopies
  let scans := outcomes copied pages
  -- In the order of the documents, whether they were not read or their scan failed.
  let early := readings.map fun (p, r) =>
    (p, r >>= fun _ => match scans.find? (·.1 = p) with
      | some (_, .error e) => .error e
      | _ => .ok ())
  match firstFailure early with
  | some (p, e) => (copied.runSave, .error (.building p e))
  | none =>
    -- All were read and scanned; now a copy that failed fails those that wait for it.
    let checked := copied.failAll
    match firstFailure (outcomes checked pages) with
    | some (p, e) => (checked.runSave, .error (.building p e))
    | none =>
      -- Nothing has failed so far, so all that is left are the saves.
      let done := checked.run
      let ends := outcomes done pages
      match firstFailure ends with
      | some (p, e) => (done, .error (.building p e))
      | none => (done, .ok (ends.filterMap fun (_, r) => r.toOption))

/-- Reads, publishes and finishes documents. -/
def buildPages (s : Settings) (store : Store) (t : Tree) (now : String) (documents : List Path) :
    Tree × Except Failure (List Built) :=
  match store.load t now with
  | .error e => (t, .error (.store e))
  | .ok ledger =>
    let readings := documents.map fun p => (p, readFile s.reading t p)
    let drafts := readings.filterMap fun (_, r) => r.toOption.map draftOf
    let batch := (Localizer.start s.publisher ledger).batch now t store drafts
    let (b, r) := publish batch readings
    (b.files, r.map fun ps => ps.map fun (page, result) => finish s.videoAttrs page result)

/-- Builds all documents at a path. The answer names the document and the HTML of each page; the
files are those at the end, also of a failure. -/
def build (s : Settings) (t : Tree) (now : String) (root : Path) :
    Tree × Except Failure (List (Path × Path)) :=
  match documentsAt t root with
  | .error e => (t, .error (.file e))
  | .ok [] => (t, .ok [])
  | .ok documents =>
    match openStore s t with
    | .error e => (t, .error (.store e))
    | .ok (store, t) =>
      match buildPages s store t now documents with
      | (t, .error e) => (t, .error e)
      | (t, .ok pages) => writePages (Path.ofString s.outputDir) root t pages

end DocumentMedia.Site
