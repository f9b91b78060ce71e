import DocumentMedia.Asset.Surface
import DocumentMedia.Document.Page
import DocumentMedia.Json.Write
import DocumentMedia.Value.Text

/-! # Sidecars

What is written beside each document: its slug, path and header, and the media published for it.
-/
namespace DocumentMedia

def jsonFloat (f : Float) : String := Decimal.floatText "NaN" "Infinity" f

namespace Value

inductive JsonFault where
  | badName
  | cycle
  | longInteger
  deriving DecidableEq, Repr

def JsonFault.message : JsonFault → String
  | .badName => "keys must be str, int, float, bool or None"
  | .cycle => "Circular reference detected"
  | .longInteger => tooLongMessage

/-- The digits of an integer, unless they are too many. -/
def jsonInteger (n : Int) : Except JsonFault String :=
  if isTooLong n then .error .longInteger else .ok (toString n)

/-- A value as a name in JSON. Texts, numbers, truth values and nothing can be names. -/
def jsonName : Value → Except JsonFault String
  | .str s => .ok s
  | .int n => jsonInteger n
  | .float f => .ok (jsonFloat f)
  | .bool b => .ok (if b then "true" else "false")
  | .null => .ok "null"
  | _ => .error .badName

mutual

/-- A value in JSON; what JSON does not know is written as text. Of several faults the first one in
reading order is named. -/
def toJson : Value → Except JsonFault JsonValue
  | .null => .ok .null
  | .bool b => .ok (.bool b)
  | .int n => (jsonInteger n).map fun s => .number s.toList
  | .float f => .ok (.number (jsonFloat f).toList)
  | .str s => .ok (.text s)
  | .list items => (toJsonAll items).map .list
  | .pair k v => do
    let j ← toJson k
    return .list [j, ← toJson v]
  | .map entries => (toJsonEntries entries).map .object
  | .cycle _ => .error .cycle
  | v => if v.hasLongInteger then .error .longInteger else .ok (.text v.display)

def toJsonAll : List Value → Except JsonFault (List JsonValue)
  | [] => .ok []
  | v :: vs => do
    let j ← toJson v
    return j :: (← toJsonAll vs)

def toJsonEntries : List (Value × Value) → Except JsonFault (List (String × JsonValue))
  | [] => .ok []
  | (k, v) :: es => do
    let name ← jsonName k
    let j ← toJson v
    return (name, j) :: (← toJsonEntries es)

end

end Value

namespace Site

open DocumentMedia.Asset (Asset)

/-- A page with what was published for it. -/
structure Built where
  page : Document.Page
  assets : List Asset

def ofOption (f : Int → Value) : Option Int → Value
  | some n => f n
  | none => .null

def assetValue (a : Asset) : Value :=
  .map [(.str "path", .str a.publicPath), (.str "hash", .str a.hash),
    (.str "kind", .str a.media.kind), (.str "width", ofOption .int a.media.width),
    (.str "height", ofOption .int a.media.height)]

def sidecar (b : Built) : Value :=
  .map [(.str "slug", .str b.page.slug), (.str "path", .str b.page.path.text),
    (.str "frontmatter", .map b.page.fields), (.str "media", .list (b.assets.map assetValue))]

end Site

end DocumentMedia
