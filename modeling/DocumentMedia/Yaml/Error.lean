import DocumentMedia.Value.Text

/-! # Faults of YAML texts

Most faults make a text no YAML at all. The others are found in well-formed scalars whose text does
not fit their tag.
-/
namespace DocumentMedia

def CalendarError.message : CalendarError → String
  | .year y => s!"year {y} is out of range"
  | .month => "month must be in 1..12"
  | .day => "day is out of range for month"
  | .hour => "hour must be in 0..23"
  | .minute => "minute must be in 0..59"
  | .second => "second must be in 0..59"
  | .offset o =>
    "offset must be a timedelta strictly between -timedelta(hours=24) and timedelta(hours=24), not "
      ++ Value.inspectSpan o ++ "."

inductive YamlError where
  | malformed
  | integer (text : String) (base : Nat)
  /-- An integer of more decimal digits than are read. -/
  | longInteger (digits : Nat)
  | float (text : String)
  /-- A number without any characters. -/
  | emptyNumber
  | truthValue (text : String)
  | timestamp
  | calendar (e : CalendarError)
  /-- An escape for a code point that does not exist. -/
  | codePoint
  /-- An escape for a number that is too great for a code point by far. -/
  | hugeCodePoint
  deriving DecidableEq, Repr

namespace YamlError

open DocumentMedia.Text (quoted)

def message : YamlError → String
  | .malformed => ""
  | .integer text base => s!"invalid literal for int() with base {base}: " ++ quoted text
  | .longInteger n =>
    s!"Exceeds the limit (4300 digits) for integer string conversion: value has {n} digits; " ++
      "use sys.set_int_max_str_digits() to increase the limit"
  | .float text => "could not convert string to float: " ++ quoted text
  | .emptyNumber => "string index out of range"
  | .truthValue text => text
  | .timestamp => "'NoneType' object has no attribute 'groupdict'"
  | .calendar e => e.message
  | .codePoint => "chr() arg not in range(0x110000)"
  | .hugeCodePoint => "signed integer is greater than maximum"

/-- The message inside another one; a word that is no truth value is quoted there. -/
def inner : YamlError → String
  | .truthValue text => quoted text
  | e => e.message

end YamlError

end DocumentMedia
