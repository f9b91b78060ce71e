import DocumentMedia.Decimal.Shortest
import DocumentMedia.Text.Quoted
import DocumentMedia.Value.Basic

/-! # Values as text

Two readings of a value: `display`, where a text stands for itself, and `inspect`, where it is
quoted. Inside a list or a map all values are inspected.
-/
namespace DocumentMedia.Value

open DocumentMedia.Text (quoted quotedBytes)

def floatDisplay (f : Float) : String := Decimal.floatText "nan" "inf" f

def optionText (show_ : α → String) : Option α → String
  | none => "None"
  | some a => show_ a

def inspectMedia (m : MediaMeta) : String :=
  "MediaMeta(kind=" ++ quoted m.kind ++ ", ext=" ++ quoted m.ext ++
    ", width=" ++ optionText toString m.width ++ ", height=" ++ optionText toString m.height ++
    ", source=" ++ optionText quoted m.source ++ ")"

def inspectPair (p : String × String) : String := "(" ++ quoted p.1 ++ ", " ++ quoted p.2 ++ ")"

def inspectAttr : AttrValue → String
  | .plain s => "Plain(value=" ++ quoted s ++ ")"
  | .keyed [] => "KeyValueList(items=())"
  | .keyed [p] => "KeyValueList(items=(" ++ inspectPair p ++ ",))"
  | .keyed ps => "KeyValueList(items=(" ++ ", ".intercalate (ps.map inspectPair) ++ "))"

def inspectDate (d : Date) : String := s!"datetime.date({d.year}, {d.month}, {d.day})"

/-- A span of time in days and seconds. -/
def inspectSpan (o : Int) : String :=
  let days := o.fdiv 86400
  let seconds := o.fmod 86400
  let parts := (if days = 0 then [] else [s!"days={days}"]) ++
    (if seconds = 0 then [] else [s!"seconds={seconds}"])
  "datetime.timedelta(" ++ (if parts.isEmpty then "0" else ", ".intercalate parts) ++ ")"

def inspectOffset (o : Int) : String :=
  if o = 0 then "datetime.timezone.utc" else "datetime.timezone(" ++ inspectSpan o ++ ")"

def inspectTime (t : DateTime) : String :=
  let d := t.date
  let parts := [d.year, d.month, d.day, t.hour, t.minute] ++
    (if t.microsecond ≠ 0 then [t.second, t.microsecond]
      else if t.second ≠ 0 then [t.second] else [])
  "datetime.datetime(" ++ ", ".intercalate (parts.map toString) ++
    (match t.offset with
      | none => ""
      | some o => ", tzinfo=" ++ inspectOffset o) ++ ")"

mutual

def inspect : Value → String
  | .null => "None"
  | .bool b => if b then "True" else "False"
  | .int n => toString n
  | .float f => floatDisplay f
  | .str s => quoted s
  | .bytes b => quotedBytes b
  | .date d => inspectDate d
  | .time t => inspectTime t
  | .list xs => "[" ++ ", ".intercalate (inspectAll xs) ++ "]"
  | .pair k v => "(" ++ inspect k ++ ", " ++ inspect v ++ ")"
  | .set [] => "set()"
  | .set xs => "\x7b" ++ ", ".intercalate (inspectAll xs) ++ "\x7d"
  | .map es => "\x7b" ++ ", ".intercalate (inspectEntries es) ++ "\x7d"
  | .media m => inspectMedia m
  | .attr a => inspectAttr a
  | .cycle isMap => if isMap then "\x7b...\x7d" else "[...]"

def inspectAll : List Value → List String
  | [] => []
  | v :: vs => inspect v :: inspectAll vs

def inspectEntries : List (Value × Value) → List String
  | [] => []
  | (k, v) :: es => (inspect k ++ ": " ++ inspect v) :: inspectEntries es

end

def display : Value → String
  | .str s => s
  | .date d => d.text
  | .time t => t.textWith " "
  | v => inspect v

/-- Greatest number of decimal digits that are written. -/
def maxDigits : Nat := 4300

/-- Whether an integer has too many digits to be written. -/
def isTooLong (n : Int) : Bool := decide (Nat.pow 10 maxDigits ≤ n.natAbs)

def tooLongMessage : String :=
  "Exceeds the limit (4300 digits) for integer string conversion; " ++
    "use sys.set_int_max_str_digits() to increase the limit"

mutual

/-- Whether a value has no text, since an integer in it is too long. -/
def hasLongInteger : Value → Bool
  | .int n => isTooLong n
  | .list vs | .set vs => anyLongInteger vs
  | .pair k v => hasLongInteger k || hasLongInteger v
  | .map es => anyLongEntry es
  | _ => false

def anyLongInteger : List Value → Bool
  | [] => false
  | v :: vs => hasLongInteger v || anyLongInteger vs

def anyLongEntry : List (Value × Value) → Bool
  | [] => false
  | (k, v) :: es => hasLongInteger k || hasLongInteger v || anyLongEntry es

end

/-- The word for the kind of a value in messages. -/
def typeName : Value → String
  | .null => "NoneType"
  | .bool _ => "bool"
  | .int _ => "int"
  | .float _ => "float"
  | .str _ => "str"
  | .bytes _ => "bytes"
  | .date _ => "date"
  | .time _ => "datetime"
  | .list _ | .cycle false => "list"
  | .pair .. => "tuple"
  | .set _ => "set"
  | .map _ | .cycle true => "dict"
  | .media _ => "MediaMeta"
  | .attr (.plain _) => "Plain"
  | .attr (.keyed _) => "KeyValueList"

end DocumentMedia.Value
