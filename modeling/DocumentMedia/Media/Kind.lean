import DocumentMedia.Files.Path
import DocumentMedia.Text.LetterCase

/-! # Kinds of media

Images and videos are told apart by the extension of a file or URL.
-/
namespace DocumentMedia

open DocumentMedia.Text

def imageExts : List String :=
  [".png", ".jpg", ".jpeg", ".webp", ".gif", ".bmp", ".tiff", ".avif"]

def videoExts : List String := [".mp4", ".webm", ".ogg"]

def isMediaExt (ext : String) : Bool := imageExts.contains ext || videoExts.contains ext

/-- The part of a URL before its query and fragment. -/
def withoutQuery (url : List Char) : List Char := url.takeWhile fun c => c ≠ '?' && c ≠ '#'

/-- The extension of a URL in lower case, with its point. -/
def urlExt (url : String) : String :=
  lowerString (Files.Path.ofString (String.ofList (withoutQuery url.toList))).suffix

/-- The kind of media under an extension; what is no video counts as an image. -/
def mediaKind (ext : String) : String :=
  if videoExts.contains (lowerString ext) then "video" else "image"

/-- Whether a text ends in a point and one of the words, in any case; one final line feed does not
count. -/
def endsInWord (ws : List (List Char)) (s : List Char) : Bool :=
  let s := dropLastBreak s
  ws.any fun w =>
    let tail := s.drop (s.length - (w.length + 1))
    match tail with
    | '.' :: r => dropWord? w r = some []
    | _ => false

def isVideoUrl (url : String) : Bool :=
  endsInWord ["mp4".toList, "webm".toList, "ogg".toList] (withoutQuery url.toList)

/-- The media type of a video source; what is neither WebM nor Ogg is served as MP4. -/
def videoMime (src : String) : String :=
  let ext := urlExt src
  if ext = ".webm" then "video/webm"
  else if ext = ".ogg" then "video/ogg"
  else "video/mp4"

end DocumentMedia
