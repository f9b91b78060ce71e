import DocumentMedia.Assoc

/-! # JSON values

Numbers are kept as they are written.
-/
namespace DocumentMedia

inductive JsonValue where
  | null
  | bool (b : Bool)
  | number (digits : List Char)
  | text (s : String)
  /-- A text with half of a surrogate pair, which is no sequence of characters. -/
  | brokenText
  | list (items : List JsonValue)
  | object (fields : List (String × JsonValue))
  deriving Inhabited, Repr

def JsonValue.field? (fields : List (String × JsonValue)) (name : String) : Option JsonValue :=
  Assoc.find? fields name

end DocumentMedia
