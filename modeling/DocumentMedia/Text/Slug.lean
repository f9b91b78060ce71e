import DocumentMedia.Text.AsciiFold
import DocumentMedia.Text.Blank

/-! # Slugs

File names made of lower-case ASCII words joined by single hyphens.
-/
namespace DocumentMedia.Text

def isSlugChar (c : Char) : Bool := c.isDigit || ('a' ≤ c && c ≤ 'z')

def runsWhere (p : Char → Bool) (s : List Char) : List (List Char) :=
  (splitWhere (!p ·) s).filter (!·.isEmpty)

/-- The words of a slug: runs of letters and digits of the folded text in lower case. -/
def slugWords (text : List Char) : List (List Char) :=
  runsWhere isSlugChar ((fold text).map Char.toLower)

def slug (text : List Char) : List Char := joinWith ['-'] (slugWords text)

def slugify (text : String) (fallback : String) : String :=
  let s := slug text.toList
  if s.isEmpty then fallback else String.ofList s

end DocumentMedia.Text
