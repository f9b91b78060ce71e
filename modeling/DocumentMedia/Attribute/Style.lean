import DocumentMedia.Text.Blank
import DocumentMedia.Value.Text

/-! # Attribute values and styles

Any value that an attribute may carry is brought into the normal form of a text or a list of keys.
-/
namespace DocumentMedia.Attribute

open DocumentMedia.Text

def pair? : Value → Option (Value × Value)
  | .list [k, v] => some (k, v)
  | _ => none

/-- The normal form of an attribute value. Maps and non-empty lists of pairs are keyed; other lists
are words; an absent value and a mere `true` are empty texts. -/
def normalize : Value → AttrValue
  | .attr a => a
  | .map es => .keyed (es.map fun (k, v) => (k.display, v.display))
  | .list xs =>
    if !xs.isEmpty && xs.all (pair? · |>.isSome) then
      .keyed ((xs.filterMap pair?).map fun (k, v) => (k.display, v.display))
    else .plain (" ".intercalate (xs.map Value.display))
  | .null => .plain ""
  | .bool true => .plain ""
  | v => .plain v.display

def stripped (s : String) : String := String.ofList (strip s.toList)

def styleText : AttrValue → String
  | .keyed items => "; ".intercalate (items.map fun (k, v) => k ++ ":" ++ v)
  | .plain s => stripped s

/-- Two style texts as one, separated by a semicolon unless one is blank. -/
def joinStyle (current extra : List Char) : List Char :=
  let a := strip current
  let b := strip extra
  if a.isEmpty then b
  else if b.isEmpty then a
  else a ++ ';' :: ' ' :: b

end DocumentMedia.Attribute
