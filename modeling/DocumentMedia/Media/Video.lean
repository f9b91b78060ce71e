import DocumentMedia.Media.Kind
import DocumentMedia.Text.Escape
import DocumentMedia.Value.Text

/-! # Tags

Attributes inside a tag, and the markup of a video.
-/
namespace DocumentMedia

open DocumentMedia.Text

/-- One attribute: bare for `true`, nothing for `false` or an absent value. -/
def attrText? : String × Value → Option String
  | (key, .bool true) => some key
  | (_, .bool false) => none
  | (_, .null) => none
  | (key, v) => some (key ++ "=\"" ++ escapeValue v.display ++ "\"")

def attrsText (attrs : Fields) : String := " ".intercalate (attrs.filterMap attrText?)

/-- A video element with its source, and a line for readers that cannot show it. -/
def videoMarkup (src cls style : String) (attrs : Fields) : String :=
  let head : Fields :=
    (if cls.isEmpty then [] else [("class", .str cls)]) ++
      (if style.isEmpty then [] else [("style", .str style)])
  let opening := " ".intercalate
    (["<video", attrsText head, attrsText attrs].filter (!·.isEmpty))
  opening ++ ">\n  <source src=\"" ++ escapeValue src ++ "\" type=\"" ++ videoMime src ++
    "\">\n  Your browser does not support the video tag.\n</video>"

end DocumentMedia
