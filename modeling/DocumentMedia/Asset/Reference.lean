import DocumentMedia.Component.Syntax
import DocumentMedia.Media.Kind
import DocumentMedia.Text.Percent
import DocumentMedia.Text.Quoted

/-! # References to media

Which references name local files, which part of a reference is the name of the file, and under
which public path a file is published.
-/
namespace DocumentMedia.Asset

open DocumentMedia.Text

/-- Remote references and those that start at the root of the site. -/
def isExternalText (s : List Char) : Bool :=
  match s with
  | '/' :: _ => true
  | _ =>
    match dropWord? "http".toList s with
    | some r =>
      let r := match r with
        | c :: r' => if matchesLetter 's' c then r' else r
        | [] => r
      "://".toList.isPrefixOf r
    | none => false

def isExternal (ref : String) : Bool := isExternalText ref.toList

/-- The words by which media files are recognised inside a longer text. -/
def mediaWords : List (List Char) :=
  ["png", "jpg", "jpeg", "webp", "gif", "bmp", "tiff", "avif", "mp4", "webm", "ogg"].map
    String.toList

/-- A character that ends a file name inside a longer text. -/
def isNameEnd (c : Char) : Bool :=
  isBlank c || c = '"' || c = '\'' || c = '<' || c = '>' || c = '(' || c = ')'

/-- The extension at the start of a text, with its point. -/
def extension? : List Char → Option (List Char)
  | '.' :: s =>
    mediaWords.findSome? fun w => (dropWord? w s).map fun _ => '.' :: s.take w.length
  | _ => none

/-- The shortest file name at the start of a run of name characters: at least one character and an
extension. -/
def nameIn? : List Char → List Char → Option (List Char)
  | _, [] => none
  | [], c :: cs => nameIn? [c] cs
  | before, c :: cs =>
    match extension? (c :: cs) with
    | some ext => some (before.reverse ++ ext)
    | none => nameIn? (c :: before) cs

def embeddedName? (s : List Char) : Option (List Char) :=
  (splitWhere isNameEnd s).findSome? (nameIn? [])

/-- A reference without blanks and angle brackets around it. -/
def bare (raw : List Char) : List Char :=
  let s := strip raw
  match s with
  | '<' :: r =>
    match r.reverse with
    | '>' :: inside => strip inside.reverse
    | _ => s
  | _ => s

/-- The local path that a reference names, possibly among attributes. -/
def localPath? (raw : String) : Option String :=
  let s := bare raw.toList
  if s.isEmpty || isExternalText s then none
  else
    let text := String.ofList s
    let ext := lowerString (Files.Path.ofString text).suffix
    -- A text with blanks is more than a path: the name is looked for inside it.
    if isMediaExt ext && !s.any isBlank then some text
    else (embeddedName? s).map String.ofList

/-- The text of a string literal, the only kind of expression that names a file. -/
def literal? (source : List Char) : Option (List Char) :=
  match strip source with
  | q :: r =>
    if q = '"' || q = '\'' then
      match r.reverse with
      | q' :: c :: cs =>
        -- The quotes at the two ends need not be of one kind.
        if (q' = '"' || q' = '\'') && (c :: cs).all (fun d => d ≠ '"' && d ≠ '\'') then
          some (c :: cs).reverse
        else none
      | _ => none
    else none
  | [] => none

def propertySource? : Option PropertyValue → Option String
  | some (.text s) => some s
  | some (.expr source) => (literal? source.toList).map String.ofList
  | none => none

def trimSlashes (s : List Char) : List Char :=
  ((s.dropWhile (· = '/')).reverse.dropWhile (· = '/')).reverse

/-- What follows the last occurrence of `marker`. -/
def afterLast? (marker : List Char) : List Char → Option (List Char)
  | [] => if marker.isEmpty then some [] else none
  | c :: cs =>
    -- A later occurrence wins, even one that overlaps with this one.
    match afterLast? marker cs with
    | some r => some r
    | none => dropHead? marker (c :: cs)

/-- Drops the extension of a document, in any case; one final line feed is kept. -/
def withoutDocumentExt (s : List Char) : List Char :=
  let core := dropLastBreak s
  let tail := s.drop core.length
  let cut (w : String) : Option (List Char) :=
    let n := w.length + 1
    match core.drop (core.length - n) with
    | '.' :: r => if dropWord? w.toList r = some [] then some (core.take (core.length - n)) else none
    | _ => none
  match ["md", "mdx", "markdown"].findSome? cut with
  | some stem => stem ++ tail
  | none => s

/-- The identifier of a document: its path below the content root, else its name, without the
extension. -/
def postId (path contentRoot : String) : String :=
  let p := path.toList.map fun c => if c = '\\' then '/' else c
  -- With a slash in front, the root is not found at the very beginning of a path.
  let marker := '/' :: trimSlashes contentRoot.toList ++ ['/']
  let rel := (afterLast? marker p).getD (p.reverse.takeWhile (· ≠ '/')).reverse
  String.ofList (withoutDocumentExt rel)

/-- How the published files of documents are kept apart. -/
inductive DedupeMode where
  /-- One file per content. -/
  | shared
  /-- One file per content and document. -/
  | perPost
  deriving DecidableEq, Repr

def DedupeMode.name : DedupeMode → String
  | .shared => "global"
  | .perPost => "perPost"

def DedupeMode.ofName? (name : String) : Option DedupeMode :=
  if name = "global" then some .shared else if name = "perPost" then some .perPost else none

def DedupeMode.unknownMessage (name : String) : String :=
  "Unknown dedupe mode " ++ quoted name ++ "; expected one of ('global', 'perPost')"

def publicPath (mode : DedupeMode) (base postId digest ext : String) : String :=
  let base := String.ofList (trimSlashes base.toList)
  match mode with
  | .shared => "/" ++ base ++ "/hash/" ++ digest ++ ext
  | .perPost => "/" ++ base ++ "/images/" ++ postId ++ "/" ++ digest ++ ext

end DocumentMedia.Asset
