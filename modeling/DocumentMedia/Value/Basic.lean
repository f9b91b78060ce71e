import DocumentMedia.Assoc
import DocumentMedia.Calendar
import DocumentMedia.Decimal.Shortest
import DocumentMedia.Media.Meta

/-! # Values

The values of document headers, of directive attributes and of the data that nodes carry.
-/
namespace DocumentMedia

/-- An attribute value in normal form: a text, or a list of keys with texts. -/
inductive AttrValue where
  | plain (text : String)
  | keyed (items : List (String × String))
  deriving DecidableEq, Repr

inductive Value where
  | null
  | bool (b : Bool)
  | int (n : Int)
  | float (f : Float)
  | str (s : String)
  | bytes (b : List UInt8)
  | date (d : Date)
  | time (t : DateTime)
  | list (items : List Value)
  /-- A key with its value, as a thing of its own. -/
  | pair (key value : Value)
  | set (items : List Value)
  | map (entries : List (Value × Value))
  | media (m : MediaMeta)
  | attr (a : AttrValue)
  /-- A map or a list that holds itself, seen again inside itself. -/
  | cycle (isMap : Bool)
  deriving Inhabited, Repr

/-- Named values in the order in which they were set. -/
abbrev Fields := Assoc String Value

namespace Value

/-- Values that count as absent: nothing, false, zero and everything empty. -/
def isFalsy : Value → Bool
  | .null => true
  | .bool b => !b
  | .int n => n = 0
  | .float f => f == 0
  | .str s => s.isEmpty
  | .bytes b => b.isEmpty
  | .list xs => xs.isEmpty
  | .set xs => xs.isEmpty
  | .map es => es.isEmpty
  | .pair .. | .date _ | .time _ | .media _ | .attr _ | .cycle _ => false

def isTruthy (v : Value) : Bool := !v.isFalsy

/-- The integer that an integer or a truth value stands for. -/
def integer? : Value → Option Int
  | .bool b => some (if b then 1 else 0)
  | .int n => some n
  | _ => none

/-- Whether two values are the same key of a map. Numbers and truth values compare by their exact
number. -/
def sameKey : Value → Value → Bool
  | .null, .null => true
  | .str a, .str b => a == b
  | .bytes a, .bytes b => a == b
  | .date a, .date b => a == b
  | .time a, .time b => a.same b
  | .attr a, .attr b => a == b
  | .float a, .float b => a == b
  | .float a, b => b.integer?.any (Decimal.isInteger a)
  | a, .float b => a.integer?.any (Decimal.isInteger b)
  | a, b =>
    match a.integer?, b.integer? with
    | some m, some n => m == n
    | _, _ => false

def isKey : Value → Bool
  | .list _ | .set _ | .map _ | .media _ | .cycle _ => false
  | .pair k v => k.isKey && v.isKey
  | _ => true

/-- Puts a value under a key, in the key's old place or at the end. -/
def putEntry (es : List (Value × Value)) (k v : Value) : List (Value × Value) :=
  match es with
  | [] => [(k, v)]
  | (k', v') :: rest =>
    if k'.sameKey k then (k', v) :: rest else (k', v') :: putEntry rest k v

def under? (es : List (Value × Value)) (name : String) : Option Value :=
  match es with
  | [] => none
  | (.str k, v) :: rest => if k = name then some v else under? rest name
  | _ :: rest => under? rest name

end Value

end DocumentMedia
