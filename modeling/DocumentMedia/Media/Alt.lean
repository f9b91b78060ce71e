import DocumentMedia.Media.Kind
import DocumentMedia.Text.Percent

/-! # Alternative text

Readable text for an image that has none, made of its file name.
-/
namespace DocumentMedia

open DocumentMedia.Text

/-- The name without a final point and letters or digits. -/
def withoutExt (name : List Char) : List Char :=
  let core := dropLastBreak name
  let tail := name.drop core.length
  let r := core.reverse
  match r.takeWhile isLooseAlnum, r.dropWhile isLooseAlnum with
  | _ :: _, '.' :: stem => stem.reverse ++ tail
  | _, _ => name

/-- Runs of hyphens and underscores become single spaces. -/
def spaced : List Char → List Char
  | [] => []
  | c :: cs =>
    if c = '-' || c = '_' then
      match spaced cs, cs with
      | rest, d :: _ => if d = '-' || d = '_' then rest else ' ' :: rest
      | rest, [] => ' ' :: rest
    else c :: spaced cs

def lastPart (s : List Char) : List Char := (s.reverse.takeWhile (· ≠ '/')).reverse

/-- The alternative text made of a reference; `Image` when no name is left. -/
def deriveAlt (url : String) : String :=
  let stem := withoutExt (lastPart (withoutQuery url.toList))
  let human := strip (spaced (unpercent (String.ofList stem)).toList)
  if human.isEmpty then "Image" else String.ofList human

end DocumentMedia
